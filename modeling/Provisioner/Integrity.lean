import Provisioner.Runs

/-!
# What every reachable state keeps

Rows are never deleted and keep their identity; a session's copy of a row is a
copy of a committed row. On these facts rests the integrity of every reachable
state: dates lie in the past, a RUNNING row has an expiry, and every Docker
resource carries the label of a committed row and the name that goes with it.
-/

namespace Provisioner

open Resumption

/-! ## Relations that last -/

/-- A relation between an earlier and a later copy of a row that every write of a
session respects. -/
structure Environment.Lasting (rel : Environment → Environment → Prop) : Prop where
  refl : ∀ row, rel row row
  trans : ∀ row row' row'', rel row row' → rel row' row'' → rel row row''
  /-- Writing a session's copy back keeps what the session kept. -/
  flush : ∀ row seen now, rel seen now → rel row (row.flush seen now)
  /-- What a session wrote back lasts in the row that results. -/
  flushed : ∀ row seen now, rel seen now → rel seen row → rel now (row.flush seen now)

namespace Environments

variable {rel : Environment → Environment → Prop} {db db' db'' : Environments}
  {changes : List Change} {change : Change} {env : Environment}

/-- The rows of a table are related to those of a later one. -/
def Along (rel : Environment → Environment → Prop) (db db' : Environments) : Prop :=
  ∀ id row, db.find id = some row → ∃ row', db'.find id = some row' ∧ rel row row'

/-- A session's copy is related to a committed row. -/
def Stems (rel : Environment → Environment → Prop) (db : Environments) (env : Environment) :
    Prop :=
  ∃ row, db.find env.id = some row ∧ rel env row

theorem Along.refl (lasting : Environment.Lasting rel) (db : Environments) :
    Along rel db db :=
  fun _ row found => ⟨row, found, lasting.refl row⟩

theorem Along.trans (lasting : Environment.Lasting rel)
    (first : Along rel db db') (second : Along rel db' db'') : Along rel db db'' := by
  intro id row found
  obtain ⟨row', found', kept⟩ := first id row found
  obtain ⟨row'', found'', kept'⟩ := second id row' found'
  exact ⟨row'', found'', lasting.trans _ _ _ kept kept'⟩

theorem Stems.mono (lasting : Environment.Lasting rel)
    (stems : Stems rel db env) (along : Along rel db db') : Stems rel db' env := by
  obtain ⟨row, found, kept⟩ := stems
  obtain ⟨row', found', kept'⟩ := along env.id row found
  exact ⟨row', found', lasting.trans _ _ _ kept kept'⟩

/-- A committed row is a copy of itself. -/
theorem stems_of_find (lasting : Environment.Lasting rel) {id : Uuid}
    (found : db.find id = some env) : Stems rel db env := by
  have same : env.id = id := Keyed.Table.key_of_find found
  exact ⟨env, same.symm ▸ found, lasting.refl env⟩

theorem along_write (lasting : Environment.Lasting rel)
    (kept : rel change.seen change.now) : Along rel db (db.write change) := by
  intro id row found
  rw [find_write]
  split
  · rw [found]
    exact ⟨_, rfl, lasting.flush _ _ _ kept⟩
  · exact ⟨row, found, lasting.refl row⟩

/-- A transaction whose changes respect the relation respects it. -/
theorem along_writeAll (lasting : Environment.Lasting rel)
    (kept : ∀ change ∈ changes, rel change.seen change.now) :
    Along rel db (db.writeAll changes) := by
  induction changes generalizing db with
  | nil => exact .refl lasting db
  | cons change changes inductionHypothesis =>
      rw [List.forall_mem_cons] at kept
      exact (along_write lasting kept.1).trans lasting (inductionHypothesis kept.2)

/-- An insert leaves the other rows alone. -/
theorem along_insert (lasting : Environment.Lasting rel)
    {absent : db.find env.id = none} : Along rel db (db.insert env absent) := by
  intro id row found
  rw [Keyed.Table.find_insert]
  split
  · rename_i same
    rw [same, found] at absent
    cases absent
  · exact ⟨row, found, lasting.refl row⟩

/-- What a session commits is a copy of the row that results. -/
theorem stems_writeAll (lasting : Environment.Lasting rel)
    (kept : ∀ change ∈ changes, rel change.seen change.now)
    (present : change ∈ changes)
    (own : change.now.id = change.seen.id)
    (stems : Stems rel db change.seen) :
    Stems rel (db.writeAll changes) change.now := by
  induction changes generalizing db with
  | nil => cases present
  | cons first changes inductionHypothesis =>
      rw [List.forall_mem_cons] at kept
      rw [writeAll_cons]
      rcases List.mem_cons.mp present with rfl | later
      · obtain ⟨row, found, current⟩ := stems
        refine Stems.mono lasting ⟨row.flush change.seen change.now, ?_,
          lasting.flushed _ _ _ kept.1 current⟩ (along_writeAll lasting kept.2)
        rw [own, find_write, if_pos rfl, found]
        rfl
      · exact inductionHypothesis kept.2 later (stems.mono lasting (along_write lasting kept.1))

end Environments

/-! ## What rows keep -/

namespace Environment

/-- What a row keeps for ever: its identity, and an expiry once it has one. -/
structure Persists (row row' : Environment) : Prop where
  id : row'.id = row.id
  owner : row'.owner = row.owner
  name : row'.name = row.name
  template : row'.template = row.template
  ttlSeconds : row'.ttlSeconds = row.ttlSeconds
  expires : row.expiresAt.isSome → row'.expiresAt.isSome

namespace Persists

variable {row row' row'' seen now : Environment}

theorem refl (row : Environment) : row.Persists row :=
  ⟨rfl, rfl, rfl, rfl, rfl, fun some => some⟩

theorem trans (first : row.Persists row') (second : row'.Persists row'') :
    row.Persists row'' where
  id := second.id.trans first.id
  owner := second.owner.trans first.owner
  name := second.name.trans first.name
  template := second.template.trans first.template
  ttlSeconds := second.ttlSeconds.trans first.ttlSeconds
  expires some := second.expires (first.expires some)

/-- Writing a session's copy back keeps what the session kept. -/
theorem flush (kept : seen.Persists now) : row.Persists (row.flush seen now) where
  id := rfl
  owner := by simp [Environment.flush, kept.owner]
  name := by simp [Environment.flush, kept.name]
  template := by simp [Environment.flush, kept.template]
  ttlSeconds := by simp [Environment.flush, kept.ttlSeconds]
  expires stored := by
    unfold Environment.flush
    rcases column_eq_or seen.expiresAt now.expiresAt row.expiresAt with same | ⟨changed, same⟩
    · rw [same]
      exact stored
    · rw [same]
      cases before : seen.expiresAt with
      | none =>
          rw [before] at changed
          exact Option.isSome_iff_ne_none.mpr changed
      | some instant => exact kept.expires (by simp [before])

/-- What a session wrote back persists in the row that results. -/
theorem flushed (kept : seen.Persists now) (current : seen.Persists row) :
    now.Persists (row.flush seen now) where
  id := current.id.trans kept.id.symm
  owner := by simp [Environment.flush, kept.owner, current.owner]
  name := by simp [Environment.flush, kept.name, current.name]
  template := by simp [Environment.flush, kept.template, current.template]
  ttlSeconds := by simp [Environment.flush, kept.ttlSeconds, current.ttlSeconds]
  expires written := by
    unfold Environment.flush column
    dsimp only
    split
    · rename_i same
      rw [same] at written
      exact current.expires written
    · exact written

/-- Every write respects what rows keep for ever. -/
theorem lasting : Lasting Persists where
  refl := refl
  trans _ _ _ := trans
  flush _ _ _ := flush
  flushed _ _ _ := flushed

end Persists

end Environment

namespace Environments

variable {db db' db'' : Environments} {changes : List Change} {change : Change}
  {env : Environment}

/-- The rows of a table persist in another. -/
def Grows (db db' : Environments) : Prop :=
  ∀ id row, db.find id = some row → ∃ row', db'.find id = some row' ∧ row.Persists row'

/-- A session's copy stems from a committed row. -/
def Held (db : Environments) (env : Environment) : Prop :=
  ∃ row, db.find env.id = some row ∧ env.Persists row

theorem Grows.refl (db : Environments) : db.Grows db :=
  Along.refl Environment.Persists.lasting db

theorem Held.mono (held : db.Held env) (grows : db.Grows db') : db'.Held env :=
  Stems.mono Environment.Persists.lasting held grows

/-- A committed row is a copy of itself. -/
theorem held_of_find {id : Uuid} (found : db.find id = some env) : db.Held env :=
  stems_of_find Environment.Persists.lasting found

theorem held_of_mem (present : env ∈ db.rows) : db.Held env :=
  held_of_find (Keyed.Table.find_of_mem present)

/-- A transaction whose changes keep what rows keep makes the table grow. -/
theorem grows_writeAll (kept : ∀ change ∈ changes, change.seen.Persists change.now) :
    db.Grows (db.writeAll changes) :=
  along_writeAll Environment.Persists.lasting kept

/-- An insert makes the table grow. -/
theorem grows_insert {absent : db.find env.id = none} : db.Grows (db.insert env absent) :=
  along_insert Environment.Persists.lasting

/-- What a session commits is a copy of the row that results. -/
theorem held_writeAll
    (kept : ∀ change ∈ changes, change.seen.Persists change.now)
    (present : change ∈ changes)
    (held : db.Held change.seen) :
    (db.writeAll changes).Held change.now :=
  stems_writeAll Environment.Persists.lasting kept present (kept change present).id held

end Environments

/-- What the world keeps: rows, time, messages, and the ids that were given out. -/
structure World.Grows (world next : World) : Prop where
  db : world.db.Grows next.db
  clock : world.clock ≤ next.clock
  issued : ∀ id ∈ world.issued, id ∈ next.issued
  sent : ∀ message ∈ world.sent, message ∈ next.sent
  nextId : world.docker.nextId ≤ next.docker.nextId

namespace Stage

variable {role : Role} {stage : Stage} {env : Environment}

/-- The committed rows that the session of a stage holds. -/
def held : Stage → List Environment
  | loaded env | building env _ _ | running env | removing env _ | stopped env
  | marking env | created env | deleting env _ => [env]
  | selected rows | claimed rows | scanning rows => rows
  | _ => []

/-- A call that brings a row into the session. -/
inductive Takes : (request : Call) → Reply request → Environment → Prop
  | load (id : Uuid) (env : Environment) : Takes (.loadEnvironment id) (.ok (some env)) env
  | commit (changes : List Change) (change : Change) :
      change ∈ changes → Takes (.commitChanges changes) (.ok ()) change.now
  | insert (env : Environment) : Takes (.commitInsert env) (.ok ()) env
  | expired (now : Time) (rows : List Environment) (env : Environment) :
      env ∈ rows → Takes (.selectExpired now) (.ok rows) env
  | stale (status : EnvironmentStatus) (cutoff : Time) (pending : List Change)
      (rows : List Environment) (env : Environment) :
      env ∈ rows → Takes (.selectStale status cutoff pending) (.ok rows) env

/-- After a commit the session holds what it held before or what it wrote. -/
theorem held_onCommit {changes : List Change} {reply : Except Exn Unit}
    (present : env ∈ (stage.onCommit role changes reply).held) :
    env ∈ stage.held ∨ ∃ change ∈ changes, env = change.now := by
  have commits : Commits role stage changes reply (stage.onCommit role changes reply) :=
    onCommit_commits changes reply
  generalize stage.onCommit role changes reply = next at commits present
  cases commits with
  | building _ change rest _ written _ =>
      rw [written]
      exact .inr ⟨change, List.mem_cons_self, List.mem_singleton.mp present⟩
  | removing _ change rest _ written _ =>
      rw [written]
      exact .inr ⟨change, List.mem_cons_self, List.mem_singleton.mp present⟩
  | running _ _ _ change rest _ written =>
      rw [written]
      exact .inr ⟨change, List.mem_cons_self, List.mem_singleton.mp present⟩
  | stopped _ _ change rest _ written =>
      rw [written]
      exact .inr ⟨change, List.mem_cons_self, List.mem_singleton.mp present⟩
  | claimed rows selected =>
      rw [selected]
      exact .inl present
  | _ => cases present

/-- After a query the session holds what it held before or what it found. -/
theorem held_onLoad {id : Uuid} {reply : Except Exn (Option Environment)}
    (present : env ∈ (stage.onLoad id reply).held) :
    env ∈ stage.held ∨ reply = .ok (some env) := by
  rcases reply with exc | row
  · cases stage <;> cases present
  · cases row with
    | none => cases stage <;> cases present
    | some found =>
        cases stage <;> first
          | exact .inl present
          | exact .inr (by rw [List.mem_singleton.mp present])
          | cases present

/-- A session holds what it held before and what the call brings. -/
theorem mem_held_after {request : Call} {reply : Reply request}
    (present : env ∈ (stage.after role request reply).held) :
    env ∈ stage.held ∨ Takes request reply env := by
  have advances : Advances role stage request reply (stage.after role request reply) :=
    after_advances request reply
  generalize stage.after role request reply = next at advances present
  cases advances with
  | load id _ =>
      rcases held_onLoad present with old | found
      · exact .inl old
      · rw [found]
        exact .inr (.load id env)
  | commit changes answer =>
      rcases answer with exc | done
      · cases stage <;> cases present
      · rcases held_onCommit present with old | ⟨change, written, rfl⟩
        · exact .inl old
        · exact .inr (.commit changes change written)
  | select now rows => exact .inr (.expired now rows env present)
  | scan status cutoff pending earlier rows scanning =>
      rw [scanning]
      rcases List.mem_append.mp present with old | new
      · exact .inl old
      · exact .inr (.stale status cutoff pending rows env new)
  | build _ _ held network network' containers containers' building =>
      rw [building]
      exact .inl present
  | remove _ _ held cleared cleared' removing =>
      rw [removing]
      exact .inl present
  | flush name owner template ttlSeconds count flushed checked => cases present
  | publish task envId retries countdown id count old inserted => cases present
  | insert created =>
      cases List.mem_singleton.mp present
      exact .inr (.insert env)
  | accept task envId retries countdown id held loaded =>
      rw [loaded]
      exact .inl present
  | keep _ _ => exact .inl present
  | bare _ _ _ bare => cases next <;> first | exact bare.elim | cases present

/-- The row of an insert that is flushed but not committed, and the active rows
that were counted before. -/
def fresh : Stage → Option (Nat × Environment)
  | inserted count env | published count env => some (count, env)
  | _ => none

/-- A call that flushes an insert. -/
inductive Flushes : (request : Call) → Reply request → Environment → Prop
  | flush (name owner template : String) (ttlSeconds : Int) (env : Environment) :
      Flushes (.flushInsert name owner template ttlSeconds) (.ok env) env

theorem fresh_onLoad {id : Uuid} {reply : Except Exn (Option Environment)} :
    (stage.onLoad id reply).fresh = none := by
  rcases reply with exc | row
  · cases stage <;> rfl
  · cases row <;> cases stage <;> rfl

theorem fresh_onCommit {changes : List Change} {reply : Except Exn Unit} :
    (stage.onCommit role changes reply).fresh = none := by
  have commits : Commits role stage changes reply (stage.onCommit role changes reply) :=
    onCommit_commits changes reply
  generalize stage.onCommit role changes reply = next at commits
  cases commits <;> rfl

/-- The row of an uncommitted insert is the flushed one, apart from its task. -/
theorem fresh_after {request : Call} {reply : Reply request} {count : Nat}
    (present : (stage.after role request reply).fresh = some (count, env)) :
    (∃ old, stage.fresh = some (count, old) ∧
        ∃ task, env = { old with celeryTaskId := task }) ∨
      (stage = .checked count ∧ Flushes request reply env) := by
  have advances : Advances role stage request reply (stage.after role request reply) :=
    after_advances request reply
  generalize stage.after role request reply = next at advances present
  cases advances with
  | load id _ =>
      rw [fresh_onLoad] at present
      cases present
  | commit changes _ =>
      rw [fresh_onCommit] at present
      cases present
  | flush name owner template ttlSeconds counted flushed checked =>
      cases present
      exact .inr ⟨checked, .flush name owner template ttlSeconds env⟩
  | publish task envId retries countdown id counted old inserted =>
      cases present
      rw [inserted]
      exact .inl ⟨old, rfl, _, rfl⟩
  | keep _ _ => exact .inl ⟨env, present, env.celeryTaskId, rfl⟩
  | bare _ _ _ bare => cases next <;> first | exact bare.elim | cases present
  | _ => cases present

end Stage

namespace Phase

variable {phase : Phase} {changes : List Change} {change : Change}

/-- A commit leaves the identity of its rows alone. -/
theorem Commits.persists (commits : phase.Commits changes) (present : change ∈ changes) :
    change.seen.Persists change.now := by
  cases commits with
  | running env network containers port now changed =>
      cases List.mem_singleton.mp present
      exact ⟨rfl, rfl, rfl, rfl, rfl, fun _ => rfl⟩
  | reaping rows _ sweep stage written =>
      obtain ⟨-, now, -, made⟩ := written change present
      rw [made]
      exact ⟨rfl, rfl, rfl, rfl, rfl, id⟩
  | recovering rows _ sweep stage written =>
      obtain ⟨-, now, -, message, made⟩ := written change present
      rw [made]
      exact ⟨rfl, rfl, rfl, rfl, rfl, id⟩
  | _ =>
      cases List.mem_singleton.mp present
      exact ⟨rfl, rfl, rfl, rfl, rfl, id⟩

/-- A commit that dates a status change uses a clock reading. -/
theorem Commits.dated (commits : phase.Commits changes) (present : change ∈ changes)
    (differs : change.now.statusChangedAt ≠ change.seen.statusChangedAt) :
    ∃ instant ∈ phase.readings, change.now.statusChangedAt = some instant := by
  cases commits with
  | running env network containers port now changed attempt stage nonempty first second =>
      cases List.mem_singleton.mp present
      exact ⟨changed, second, rfl⟩
  | stopped env cleared changed now attempt stage dealt reading =>
      cases List.mem_singleton.mp present
      exact ⟨changed, reading, rfl⟩
  | accepted env task stage =>
      cases List.mem_singleton.mp present
      exact (differs rfl).elim
  | reaping rows _ sweep stage written =>
      obtain ⟨-, now, reading, made⟩ := written change present
      exact ⟨now, reading, by rw [made]; rfl⟩
  | recovering rows _ sweep stage written =>
      obtain ⟨-, now, reading, message, made⟩ := written change present
      exact ⟨now, reading, by rw [made]; rfl⟩
  | provisioning env now attempt stage reading =>
      cases List.mem_singleton.mp present
      exact ⟨now, reading, rfl⟩
  | stopping env now attempt stage reading =>
      cases List.mem_singleton.mp present
      exact ⟨now, reading, rfl⟩
  | failed task env message now attempt stage reading =>
      cases List.mem_singleton.mp present
      exact ⟨now, reading, rfl⟩

/-- A commit that writes RUNNING writes an expiry. -/
theorem Commits.running_expires (commits : phase.Commits changes)
    (present : change ∈ changes)
    (running : change.now.status = .running)
    (differs : change.now.status ≠ change.seen.status) :
    change.now.expiresAt.isSome := by
  cases commits with
  | running env network containers port now changed =>
      cases List.mem_singleton.mp present
      rfl
  | accepted env task stage =>
      cases List.mem_singleton.mp present
      exact (differs rfl).elim
  | reaping rows _ sweep stage written =>
      obtain ⟨-, now, -, made⟩ := written change present
      rw [made] at running
      cases running
  | recovering rows _ sweep stage written =>
      obtain ⟨-, now, -, message, made⟩ := written change present
      rw [made] at running
      cases running
  | _ =>
      cases List.mem_singleton.mp present
      cases running

/-- A pending change only writes a status, its time and a message. -/
theorem Pends.persists {pending : List Change} (pends : phase.Pends pending)
    (present : change ∈ pending) :
    change.seen.Persists change.now ∧ change.now.expiresAt = change.seen.expiresAt := by
  obtain ⟨rows, -, written⟩ := pends
  obtain ⟨-, now, -, message, made⟩ := written change present
  rw [made]
  exact ⟨⟨rfl, rfl, rfl, rfl, rfl, id⟩, rfl⟩

/-- A pending change only writes a status, its time and a message: every other column
under pending changes is the stored one. -/
theorem Pends.column {α : Type} [DecidableEq α] {db : Environments} {pending : List Change}
    {id : Uuid} {row row' : Environment} (pends : phase.Pends pending)
    (project : Environment → α)
    (projects : ∀ stored seen now : Environment,
      project (stored.flush seen now) =
        Environment.column (project seen) (project now) (project stored))
    (leaves : ∀ env message now, project (Worker.asFailed env message now) = project env)
    (found : db.find id = some row)
    (viewed : (db.writeAll pending).find id = some row') : project row' = project row := by
  rcases Environments.column_writeAll project projects found viewed with same | changed
  · exact same
  · obtain ⟨change, member, -, differs, -⟩ := changed
    obtain ⟨rows, -, written⟩ := pends
    obtain ⟨-, now, -, message, made⟩ := written change member
    rw [made, leaves] at differs
    exact (differs rfl).elim

/-- A row under pending changes is a committed row. -/
theorem exists_of_view {db : Environments} {pending : List Change} {env : Environment}
    (present : env ∈ (db.writeAll pending).rows) :
    ∃ row, db.find env.id = some row ∧ (db.writeAll pending).find env.id = some env := by
  have viewed := Keyed.Table.find_of_mem present
  have stored : (db.find env.id).isSome := by
    rw [← Option.isSome_map, ← Environments.find_writeAll, viewed]
    rfl
  obtain ⟨row, found⟩ := Option.isSome_iff_exists.mp stored
  exact ⟨row, found, viewed⟩

/-- A row that a query finds under pending changes stems from a committed row. -/
theorem Pends.held {db : Environments} {pending : List Change} {env : Environment}
    (pends : phase.Pends pending)
    (present : env ∈ (db.writeAll pending).rows) : db.Held env := by
  obtain ⟨row, before, found⟩ := exists_of_view present
  have grows : db.Grows (db.writeAll pending) :=
    Environments.grows_writeAll fun change present => (pends.persists present).1
  obtain ⟨row', found', kept⟩ := grows env.id row before
  rw [found] at found'
  cases found'
  refine ⟨row, before, kept.id.symm, kept.owner.symm, kept.name.symm, kept.template.symm,
    kept.ttlSeconds.symm, ?_⟩
  rw [pends.column Environment.expiresAt (fun _ _ _ => rfl) (fun _ _ _ => rfl) before found]
  exact id

/-- The rows that a commit writes are held by the session. -/
theorem Commits.seen_mem (commits : phase.Commits changes) (present : change ∈ changes) :
    change.seen ∈ phase.stage.held := by
  cases commits with
  | reaping rows _ sweep stage written =>
      rw [stage]
      exact (written change present).1
  | recovering rows _ sweep stage written =>
      rw [stage]
      exact (written change present).1
  | _ =>
      cases List.mem_singleton.mp present
      simp_all [Stage.held]

end Phase

/-- A container of a row: its label, its name and a role of the row's template. -/
def Environment.Starts (deployment : Deployment) (row : Environment)
    (container : Container) : Prop :=
  ∃ template spec, deployment.templates.lookup row.template = some template ∧
    spec ∈ template ∧
    container.envLabel = some row.id.str ∧
    container.roleLabel = some spec.role ∧
    container.name = Compose.containerName row.id.str spec.role

/-- The integrity of the world. -/
structure World.Integrity (deployment : Deployment) (world : World) : Prop where
  /-- A primary key was generated for its row. -/
  issued : ∀ row ∈ world.db.rows, row.id ∈ world.issued
  /-- A status was set at some time in the past. -/
  dated : ∀ row ∈ world.db.rows, ∃ instant,
    row.statusChangedAt = some instant ∧ instant ≤ world.clock
  /-- A RUNNING row expires. -/
  expires : ∀ row ∈ world.db.rows, row.status = .running → row.expiresAt.isSome
  /-- A container belongs to a committed row. -/
  containers : ∀ container ∈ world.docker.containers.rows,
    container.created ≤ world.clock ∧
      ∃ row ∈ world.db.rows, row.Starts deployment container
  /-- A network belongs to a committed row. -/
  networks : ∀ network ∈ world.docker.networks.rows,
    network.created ≤ world.clock ∧
      ∃ row ∈ world.db.rows, network.envLabel = some row.id.str ∧
        network.name = Compose.networkName row.id.str
  /-- A container is attached to a network of the same row. -/
  attached : ∀ container ∈ world.docker.containers.rows, ∀ id,
    container.network = some id → ∃ network ∈ world.docker.networks.rows,
      network.id = id ∧ network.envLabel = container.envLabel

/-- The row of an insert before its commit. -/
structure World.New (world : World) (env : Environment) : Prop where
  issued : env.id ∈ world.issued
  pending : env.status = .pending
  dated : ∃ instant, env.statusChangedAt = some instant ∧ instant ≤ world.clock
  bare : env.recorded = []

/-- The integrity of a session. -/
structure Phase.Integrity (world : World) (phase : Phase) : Prop where
  /-- Clock readings lie in the past. -/
  readings : ∀ instant ∈ phase.readings, instant ≤ world.clock
  /-- Rows in memory are copies of committed rows. -/
  held : ∀ env ∈ phase.stage.held, world.db.Held env
  /-- An uncommitted insert is new. -/
  fresh : ∀ count env, phase.stage.fresh = some (count, env) → world.New env

namespace Integrity

variable {deployment : Deployment} {refuses : Bool}
  {allowed : System → Occurrence → Prop} {config : System}
  {world next : World} {phase : Phase}

/-- A permitted call makes the world grow. -/
theorem grows_of_effect {request : Call} {reply : Reply request}
    (permits : phase.permits deployment request)
    (effect : world.Effect request reply next) : world.Grows next where
  db := by
    rcases effect.db with same | ⟨env, absent, -, same⟩ | ⟨changes, rfl, same⟩
    · rw [same]
      exact .refl _
    · rw [same]
      exact Environments.grows_insert
    · rw [same]
      have commits : phase.Commits changes := permits
      exact Environments.grows_writeAll fun change present => commits.persists present
  clock := effect.clock
  issued := by
    intro id issued
    cases effect with
    | flushed fresh name owner template ttlSeconds unused fits =>
        exact List.mem_cons_of_mem _ issued
    | _ => exact issued
  sent := by
    intro message sent
    cases effect with
    | published task envId retries countdown => exact List.mem_append_left _ sent
    | _ => exact sent
  nextId := by
    cases effect with
    | networkCreated name label => exact Nat.le_succ _
    | containerCreated request network free => exact Nat.le_succ _
    | _ => exact Nat.le_refl _

/-- The surroundings make the world grow. -/
theorem grows_of_surrounds {action : Ambient} {spawned : Option Role}
    (surrounds : Surrounds world action next spawned) : world.Grows next := by
  obtain ⟨db, docker, sent, issued, clock⟩ := surrounds.unchanged
  refine ⟨?_, clock, ?_, ?_, ?_⟩
  · rw [db]
    exact .refl _
  · rw [issued]
    exact fun id present => present
  · rw [sent]
    exact fun message present => present
  · rw [docker]

/-- Integrity does not depend on the queue, the metrics or later time. -/
theorem of_unchanged (integrity : world.Integrity deployment)
    (db : next.db = world.db)
    (docker : next.docker = world.docker)
    (clock : world.clock ≤ next.clock)
    (issued : ∀ id ∈ world.issued, id ∈ next.issued) : next.Integrity deployment where
  issued := by
    rw [db]
    exact fun row present => issued _ (integrity.issued row present)
  dated := by
    rw [db]
    intro row present
    obtain ⟨instant, dated, past⟩ := integrity.dated row present
    exact ⟨instant, dated, past.trans clock⟩
  expires := by
    rw [db]
    exact integrity.expires
  containers := by
    rw [db, docker]
    intro container present
    obtain ⟨past, owned⟩ := integrity.containers container present
    exact ⟨past.trans clock, owned⟩
  networks := by
    rw [db, docker]
    intro network present
    obtain ⟨past, owned⟩ := integrity.networks network present
    exact ⟨past.trans clock, owned⟩
  attached := by
    rw [docker]
    exact integrity.attached

/-- A row that persists still owns its containers. -/
theorem starts_of_persists {row row' : Environment} {container : Container}
    (kept : row.Persists row')
    (starts : row.Starts deployment container) : row'.Starts deployment container := by
  unfold Environment.Starts
  rw [kept.id, kept.template]
  exact starts

/-- Docker resources keep their rows while the table grows. -/
theorem of_grown (integrity : world.Integrity deployment)
    (grows : world.db.Grows next.db)
    (docker : next.docker = world.docker)
    (clock : world.clock ≤ next.clock)
    (issued : ∀ row ∈ next.db.rows, row.id ∈ next.issued)
    (dated : ∀ row ∈ next.db.rows, ∃ instant,
      row.statusChangedAt = some instant ∧ instant ≤ next.clock)
    (expires : ∀ row ∈ next.db.rows, row.status = .running → row.expiresAt.isSome) :
    next.Integrity deployment where
  issued := issued
  dated := dated
  expires := expires
  containers := by
    rw [docker]
    intro container present
    obtain ⟨past, row, member, starts⟩ := integrity.containers container present
    obtain ⟨row', found, kept⟩ := grows row.id row (Keyed.Table.find_of_mem member)
    exact ⟨past.trans clock, row', Keyed.Table.mem_of_find found,
      starts_of_persists kept starts⟩
  networks := by
    rw [docker]
    intro network present
    obtain ⟨past, row, member, labelled, named⟩ := integrity.networks network present
    obtain ⟨row', found, kept⟩ := grows row.id row (Keyed.Table.find_of_mem member)
    refine ⟨past.trans clock, row', Keyed.Table.mem_of_find found, ?_⟩
    rw [kept.id]
    exact ⟨labelled, named⟩
  attached := by
    rw [docker]
    exact integrity.attached

/-- A committed insert is dated and not RUNNING. -/
theorem of_inserted {env : Environment} {count : Nat}
    {absent : world.db.find env.id = none}
    (integrity : world.Integrity deployment)
    (session : phase.Integrity world)
    (fresh : phase.stage.fresh = some (count, env)) :
    { world with db := world.db.insert env absent }.Integrity deployment := by
  have new := session.fresh count env fresh
  have grows : world.db.Grows (world.db.insert env absent) := Environments.grows_insert
  refine of_grown integrity grows rfl (Int.le_refl _) ?_ ?_ ?_
  · intro row present
    rcases List.mem_append.mp present with old | inserted
    · exact integrity.issued row old
    · rw [List.mem_singleton.mp inserted]
      exact new.issued
  · intro row present
    rcases List.mem_append.mp present with old | inserted
    · exact integrity.dated row old
    · rw [List.mem_singleton.mp inserted]
      exact new.dated
  · intro row present running
    rcases List.mem_append.mp present with old | inserted
    · exact integrity.expires row old running
    · rw [List.mem_singleton.mp inserted, new.pending] at running
      cases running

/-- A commit dates its changes, and RUNNING comes with an expiry. -/
theorem of_committed {changes : List Change}
    (integrity : world.Integrity deployment)
    (session : phase.Integrity world)
    (commits : phase.Commits changes) :
    { world with db := world.db.writeAll changes }.Integrity deployment := by
  have grows : world.db.Grows (world.db.writeAll changes) :=
    Environments.grows_writeAll fun change present => commits.persists present
  have before : ∀ row' ∈ (world.db.writeAll changes).rows,
      ∃ row, world.db.find row'.id = some row := by
    intro row' present
    rw [← Option.isSome_iff_exists, ← Option.isSome_map, ← Environments.find_writeAll]
    exact Option.isSome_iff_exists.mpr ⟨row', Keyed.Table.find_of_mem present⟩
  refine of_grown integrity grows rfl (Int.le_refl _) ?_ ?_ ?_
  · intro row' present
    obtain ⟨row, found⟩ := before row' present
    rw [← Keyed.Table.key_of_find found]
    exact integrity.issued row (Keyed.Table.mem_of_find found)
  · intro row' present
    obtain ⟨row, found⟩ := before row' present
    rcases Environments.column_writeAll Environment.statusChangedAt (fun _ _ _ => rfl)
      found (Keyed.Table.find_of_mem present) with same | changed
    · rw [same]
      exact integrity.dated row (Keyed.Table.mem_of_find found)
    · obtain ⟨change, member, -, differs, stored⟩ := changed
      obtain ⟨instant, reading, dated⟩ := commits.dated member differs
      exact ⟨instant, stored.trans dated, session.readings instant reading⟩
  · intro row' present running
    obtain ⟨row, found⟩ := before row' present
    have found' := Keyed.Table.find_of_mem present
    obtain ⟨again, refound, kept⟩ := grows row'.id row found
    rw [found'] at refound
    cases refound
    rcases Environments.status_writeAll found found' with same | changed
    · rw [same] at running
      exact kept.expires (integrity.expires row (Keyed.Table.mem_of_find found) running)
    · obtain ⟨change, member, about, differs, stored⟩ := changed
      have held := Environments.held_writeAll
        (fun change present => commits.persists present) member
        (session.held _ (commits.seen_mem member))
      obtain ⟨current, refound, kept'⟩ := held
      rw [(commits.persists member).id, about, found'] at refound
      cases refound
      exact kept'.expires (commits.running_expires member (stored ▸ running) differs)

/-- The container of a permitted run request belongs to the row held. -/
theorem of_containerCreated {request : Compose.RunRequest} {network : Option DockerId}
    {free : world.docker.nameTaken request.name = false}
    (integrity : world.Integrity deployment)
    (session : phase.Integrity world)
    (runs : phase.Runs deployment request)
    (resolved : ∀ id, network = some id →
      world.docker.resolveNetwork request.network = .ok id) :
    { world with
      docker := world.docker.addContainer request network world.clock free }.Integrity
        deployment := by
  obtain ⟨env, own, containers, template, spec, attempt, stage, known, role, label,
    roleLabel, name, networkName⟩ := runs
  have held : world.db.Held env := by
    refine session.held env ?_
    rw [stage]
    exact List.mem_singleton.mpr rfl
  obtain ⟨row, found, kept⟩ := held
  refine ⟨integrity.issued, integrity.dated, integrity.expires, ?_,
    integrity.networks, ?_⟩
  · intro container present
    simp only [Daemon.mem_addContainer] at present
    rcases present with old | rfl
    · exact integrity.containers container old
    · refine ⟨Int.le_refl _, row, Keyed.Table.mem_of_find found, template, spec, ?_, role,
        ?_, ?_, ?_⟩
      · rw [kept.template]
        exact known
      · rw [kept.id]
        exact congrArg some label
      · exact congrArg some roleLabel
      · rw [kept.id]
        exact name
  · intro container present id attached
    simp only [Daemon.mem_addContainer] at present
    rcases present with old | rfl
    · exact integrity.attached container old id attached
    · obtain ⟨network, member, same, named⟩ :=
        Daemon.mem_of_resolveNetwork (resolved id attached)
      obtain ⟨-, owner, -, labelled, ownName⟩ := integrity.networks network member
      refine ⟨network, member, same, ?_⟩
      have equal : owner.id.str = env.id.str := by
        rw [← Compose.networkName_inj, ← ownName, named, networkName]
      rw [labelled, equal]
      exact congrArg some label.symm

/-- The network of a permitted creation belongs to the row held. -/
theorem of_networkCreated {name label : String}
    (integrity : world.Integrity deployment)
    (session : phase.Integrity world)
    (permits : phase.permits deployment (.networksCreate name label)) :
    { world with
      docker := world.docker.addNetwork name (some label) world.clock }.Integrity
        deployment := by
  obtain ⟨env, attempt, stage, rfl, rfl⟩ := permits
  have held : world.db.Held env := by
    refine session.held env ?_
    rw [stage]
    exact List.mem_singleton.mpr rfl
  obtain ⟨row, found, kept⟩ := held
  refine ⟨integrity.issued, integrity.dated, integrity.expires, integrity.containers,
    ?_, ?_⟩
  · intro network present
    rcases Daemon.mem_addNetwork.mp present with old | rfl
    · exact integrity.networks network old
    · refine ⟨Int.le_refl _, row, Keyed.Table.mem_of_find found, ?_⟩
      rw [kept.id]
      exact ⟨rfl, rfl⟩
  · intro container present id attached
    obtain ⟨network, member, same, labelled⟩ :=
      integrity.attached container present id attached
    exact ⟨network, Daemon.mem_addNetwork.mpr (.inl member), same, labelled⟩

/-- Removing a container leaves the rest as it was. -/
theorem of_containerRemoved {id : DockerId} (integrity : world.Integrity deployment) :
    { world with docker := world.docker.removeContainer id }.Integrity deployment where
  issued := integrity.issued
  dated := integrity.dated
  expires := integrity.expires
  containers container present :=
    integrity.containers container (Daemon.mem_removeContainer.mp present).1
  networks := integrity.networks
  attached container present :=
    integrity.attached container (Daemon.mem_removeContainer.mp present).1

/-- A network is only removed once nothing is attached to it. -/
theorem of_networkRemoved {id : DockerId}
    (integrity : world.Integrity deployment)
    (idle : world.docker.attached id = false) :
    { world with docker := world.docker.removeNetwork id }.Integrity deployment where
  issued := integrity.issued
  dated := integrity.dated
  expires := integrity.expires
  containers := integrity.containers
  networks network present :=
    integrity.networks network (Daemon.mem_removeNetwork.mp present).1
  attached container present wanted attached := by
    obtain ⟨network, member, same, labelled⟩ :=
      integrity.attached container present wanted attached
    refine ⟨network, Daemon.mem_removeNetwork.mpr ⟨member, fun removed => ?_⟩, same,
      labelled⟩
    have free := List.any_eq_false.mp idle container present
    rw [attached, ← same, removed] at free
    exact free (decide_eq_true rfl)

/-- One answered call keeps the integrity of the world. -/
theorem world_of_effect {request : Call} {reply : Reply request}
    (integrity : world.Integrity deployment)
    (session : phase.Integrity world)
    (permits : phase.permits deployment request)
    (effect : world.Effect request reply next) : next.Integrity deployment := by
  cases effect with
  | failed _ exc raises => exact integrity
  | read _ result reads => exact integrity
  | slept instant =>
      exact of_unchanged integrity rfl rfl (Int.le_max_left _ _) fun _ issued => issued
  | flushed fresh name owner template ttlSeconds unused fits =>
      exact of_unchanged integrity rfl rfl (Int.le_refl _)
        fun _ issued => List.mem_cons_of_mem _ issued
  | inserted env absent =>
      obtain ⟨owner, payload, count, role, stage⟩ := permits
      exact of_inserted integrity session (by rw [stage]; rfl)
  | committed changes => exact of_committed integrity session permits
  | published task envId retries countdown =>
      exact of_unchanged integrity rfl rfl (Int.le_refl _) fun _ issued => issued
  | networkCreated name label _ fresh raises =>
      exact of_networkCreated integrity session permits
  | containerCreated request _ network free fresh raises resolved =>
      exact of_containerCreated integrity session permits resolved
  | containerRemoved id present => exact of_containerRemoved integrity
  | networkRemoved id present idle => exact of_networkRemoved integrity idle
  | recorded metric =>
      exact of_unchanged integrity rfl rfl (Int.le_refl _) fun _ issued => issued

/-- A session keeps its integrity while the world grows. -/
theorem session_mono (session : phase.Integrity world) (grows : world.Grows next) :
    phase.Integrity next where
  readings instant present := (session.readings instant present).trans grows.clock
  held env present := (session.held env present).mono grows.db
  fresh count env present := by
    obtain ⟨issued, pending, ⟨instant, dated, past⟩, bare⟩ := session.fresh count env present
    exact ⟨grows.issued _ issued, pending, ⟨instant, dated, past.trans grows.clock⟩, bare⟩

/-- One answered call keeps the integrity of the session that made it. -/
theorem session_of_effect {request : Call} {reply : Reply request}
    (session : phase.Integrity world)
    (permits : phase.permits deployment request)
    (effect : world.Effect request reply next) :
    (phase.advance request reply).Integrity next := by
  have grows := grows_of_effect permits effect
  have later := session_mono session grows
  refine ⟨?_, ?_, ?_⟩
  · intro instant present
    cases request with
    | now =>
        rcases reply with exc | reading
        · exact later.readings instant present
        · rcases List.mem_cons.mp present with rfl | old
          · cases effect with
            | read _ _ reads =>
                have current : instant = world.clock := reads
                exact current.le
          · exact later.readings instant old
    | _ => exact later.readings instant present
  · intro env present
    rcases Stage.mem_held_after present with old | taken
    · exact later.held env old
    · cases taken with
      | load id _ =>
          cases effect with
          | read _ _ reads =>
              have found : some env = world.db.find id := reads
              exact Environments.held_of_find found.symm
      | commit changes change member =>
          have commits : phase.Commits changes := permits
          cases effect with
          | read _ _ reads => cases reads
          | committed _ =>
              exact Environments.held_writeAll
                (fun change present => commits.persists present) member
                (session.held _ (commits.seen_mem member))
      | insert _ =>
          cases effect with
          | read _ _ reads => cases reads
          | inserted _ absent =>
              refine ⟨env, ?_, .refl env⟩
              rw [Keyed.Table.find_insert, if_pos rfl]
      | expired now rows _ member =>
          cases effect with
          | read _ _ reads =>
              have selected := reads.mem_iff.mp member
              exact Environments.held_of_mem (List.mem_of_mem_filter selected)
      | stale status cutoff pending rows _ member =>
          have pends : phase.Pends pending := permits.2.2
          cases effect with
          | read _ _ reads =>
              have selected := reads.mem_iff.mp member
              exact pends.held (List.mem_of_mem_filter selected)
  · intro count env present
    rcases Stage.fresh_after present with ⟨old, fresh, task, rfl⟩ | ⟨-, flushes⟩
    · obtain ⟨issued, pending, dated, bare⟩ := later.fresh count old fresh
      exact ⟨issued, pending, dated, bare⟩
    · cases flushes with
      | flush name owner template ttlSeconds _ =>
          cases effect with
          | read _ _ reads => cases reads
          | flushed fresh _ _ _ _ unused fits =>
              exact ⟨List.mem_cons_self, rfl, ⟨_, rfl, Int.le_refl _⟩, rfl⟩

/-- The rules of integrity, for all runs. -/
theorem rules (deployment : Deployment) (allowed : System → Occurrence → Prop) :
    Rules deployment allowed (World.Integrity deployment)
      (fun world phase => phase.Integrity world) World.Grows where
  stable world next phase grows session := session_mono session grows
  ambient config action next spawned integrity _ surrounds := by
    obtain ⟨db, docker, sent, issued, clock⟩ := surrounds.unchanged
    refine ⟨of_unchanged integrity db docker clock (fun _ => issued ▸ id),
      grows_of_surrounds surrounds, fun role _ => ⟨?_, ?_, ?_⟩⟩
    · intro instant present
      cases present
    · intro env present
      rcases Phase.start_stage role with same | same <;> rw [same] at present <;> cases present
    · intro count env present
      rcases Phase.start_stage role with same | same <;> rw [same] at present <;> cases present
  call config event job request reply next integrity session _ turn permits effect :=
    ⟨world_of_effect integrity session permits effect, grows_of_effect permits effect,
      session_of_effect session permits effect⟩

/-- The empty world has integrity. -/
theorem initial (deployment : Deployment) (refuses : Bool) :
    (World.initial refuses).Integrity deployment := by
  refine ⟨?_, ?_, ?_, ?_, ?_, ?_⟩ <;> intro _ present <;> cases present

/-- Every reachable world has integrity, and so has every session. -/
theorem of_runs (run : System.Runs deployment refuses allowed config) :
    config.state.Integrity deployment ∧
      ∀ job ∈ config.threads, Phase.Integrity config.state (Job.phase job) :=
  run.sound (initial deployment refuses) (rules deployment allowed)

end Integrity

end Provisioner
