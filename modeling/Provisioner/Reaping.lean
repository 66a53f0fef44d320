import Provisioner.Housekeeping

/-!
# Overlapping runs of the reaper

The reaper reads the expired rows in one statement, claims them in a later one, and
then publishes a teardown for each. Several runs may overlap. A run publishes one
teardown for each row it selected, and no row twice, so everything hangs on two runs
not claiming the same row: the claim is an update that does not look at the status.
-/

namespace Provisioner

open Resumption

namespace Reaping

/-- How far a run of the reaper has come. -/
inductive Progress
  /-- Not a run of the reaper. -/
  | other
  | idle
  | asked (now : Time)
  /-- The rows are selected. -/
  | chosen (rows : List Environment)
  /-- The rows are claimed, and the teardowns of the rest are to be published. -/
  | owing (rows rest : List Environment)

/-- The changes claim the rows, each of them once. -/
def Claim (rows : List Environment) (changes : List Change) : Prop :=
  changes.map Change.seen = rows ∧
    ∀ change ∈ changes, ∃ now, change.now = change.seen.setStatus .stopping now

/-- What the reaper does next. -/
def permits : Progress → Call → Prop
  | .other, _ => True
  | .idle, request => request = .now
  | .asked now, request => request = .selectExpired now
  | .chosen rows, request =>
      request = .now ∨ ∃ changes, request = .commitChanges changes ∧ Claim rows changes
  | .owing _ rest, request =>
      ∃ env later, rest = env :: later ∧ request = .publish .teardown env.id.str 0 0

/-- The progress after a call. -/
def advance : Progress → (request : Call) → Reply request → Progress
  | .idle, .now, .ok now => .asked now
  | .asked _, .selectExpired _, .ok rows => .chosen rows
  | .chosen rows, .commitChanges _, .ok _ => .owing rows rows
  | .owing rows (_ :: rest), .publish _ _ _ _, .ok _ => .owing rows rest
  | progress, _, _ => progress

/-- The observer of the reaper. -/
def reaper : Protocol Progress Call Reply where
  permits := permits
  possible request reply := ∀ exc, reply = .error exc →
    request.target.raises exc.cls = true
  advance := advance

/-- Where a thread starts. -/
def start : Role → Progress
  | .sweep .reapExpired => .idle
  | _ => .other

/-- A run of the reaper that returns has published everything. -/
def Ended : Role → Progress → Except Exn Answer → Prop
  | .sweep .reapExpired, progress, result => ∀ answer, result = .ok answer →
      progress = .chosen [] ∨ ∃ rows, progress = .owing rows []
  | _, _, _ => True

variable {deployment : Deployment} {config : System} {progress : Progress}

theorem reaper_describes : reaper.Describes (machine deployment) := by
  intro world request choice reply next executed exc raised
  exact (World.exec_effect executed).raises raised

theorem allows_perform {request : Call}
    {post : Progress → Except Exn request.Result → Prop}
    (permitted : permits progress request)
    (continues : ∀ reply : Reply request, post (advance progress request reply) reply) :
    reaper.Allows post progress (perform request) := by
  refine ⟨permitted, ?_⟩
  rintro reply next ⟨-, rfl⟩
  cases reply with
  | ok value => exact continues (.ok value)
  | error exc => exact continues (.error exc)

/-- The changes that the loop prepares claim the rows. -/
theorem changeAll_allows (chosen rows : List Environment) :
    reaper.Allows (fun reached result => reached = .chosen chosen ∧
        ∀ changes, result = .ok changes → Claim rows changes) (.chosen chosen)
      (Worker.changeAll (fun env now => env.setStatus .stopping now) rows) := by
  induction rows with
  | nil =>
      refine ⟨rfl, fun changes equal => ?_⟩
      cases equal
      exact ⟨rfl, by simp⟩
  | cons row rows inductionHypothesis =>
      refine Program.meets_bind.mpr (allows_perform (.inl rfl) fun reply => ?_)
      rcases reply with exc | now
      · exact ⟨rfl, fun changes equal => by cases equal⟩
      refine Program.meets_bind.mpr (inductionHypothesis.mono ?_)
      rintro reached (exc | changes) ⟨rfl, claims⟩
      · exact ⟨rfl, fun changes equal => by cases equal⟩
      · refine ⟨rfl, fun all equal => ?_⟩
        cases equal
        obtain ⟨seen, made⟩ := claims changes rfl
        refine ⟨by rw [List.map_cons, seen], ?_⟩
        rw [List.forall_mem_cons]
        exact ⟨⟨now, rfl⟩, made⟩

/-- The loop publishes one teardown after the other. -/
theorem publish_allows (rows rest : List Environment) :
    reaper.Allows (fun reached result => ∀ done, result = .ok done → reached = .owing rows [])
      (.owing rows rest)
      (Program.forEach (fun env : Environment => do
        let _ ← perform (.publish .teardown env.id.str 0 0)
        pure ()) rest) := by
  induction rest with
  | nil => exact fun _ _ => rfl
  | cons env rest inductionHypothesis =>
      refine Program.meets_bind.mpr (Program.meets_bind.mpr
        (allows_perform ⟨env, rest, rfl, rfl⟩ fun reply => ?_))
      rcases reply with exc | task
      · exact fun done equal => by cases equal
      · exact inductionHypothesis

/-- The reaper keeps to its protocol. -/
theorem reap_allows :
    reaper.Allows (Ended (.sweep .reapExpired)) .idle Worker.reapExpiredEnvironments := by
  unfold Worker.reapExpiredEnvironments
  refine Program.meets_bind.mpr (allows_perform rfl fun reply => ?_)
  rcases reply with exc | now
  · exact fun answer equal => by cases equal
  refine Program.meets_bind.mpr (allows_perform rfl fun reply => ?_)
  rcases reply with exc | rows
  · exact fun answer equal => by cases equal
  dsimp only
  split
  · rename_i empty
    refine fun answer _ => .inl ?_
    rw [← List.isEmpty_iff.mp empty]
    rfl
  refine Program.meets_bind.mpr ((changeAll_allows rows rows).mono ?_)
  rintro reached (exc | changes) ⟨rfl, claims⟩
  · exact fun answer equal => by cases equal
  refine Program.meets_bind.mpr (allows_perform (.inr ⟨changes, rfl, claims changes rfl⟩)
    fun reply => ?_)
  rcases reply with exc | done
  · exact fun answer equal => by cases equal
  refine Program.meets_bind.mpr ((publish_allows rows rows).mono ?_)
  rintro reached (exc | done) ended
  · exact fun answer equal => by cases equal
  · exact fun answer _ => .inr ⟨rows, ended () rfl⟩

/-- Every thread keeps to the protocol. -/
theorem program_allows (role : Role) :
    reaper.Allows (Ended role) (start role) (program deployment role) := by
  have others : ∀ program : Action Answer,
      reaper.Allows (fun _ _ => True) .other program := by
    intro program
    induction program with
    | pure value => trivial
    | raise error => trivial
    | call request resume inductionHypothesis =>
        refine ⟨trivial, ?_⟩
        rintro reply next ⟨-, rfl⟩
        exact inductionHypothesis reply
  cases role with
  | sweep sweep =>
      cases sweep with
      | reapExpired => exact reap_allows
      | _ => exact others _
  | _ => exact others _

/-! ## Claims -/

/-- The teardowns of a row among some messages. -/
def teardowns (messages : List Message) (id : Uuid) : Nat :=
  messages.countP fun message => message.task = .teardown ∧ message.envId = id.str

/-- The teardowns of a row that a run of the reaper has still to publish. -/
def owes (id : Uuid) : Progress → Nat
  | .owing _ rest => (rest.map Environment.id).count id
  | _ => 0

/-- Since `begun` the row was claimed at most once: its teardowns, published and owed,
are those of before and one for the claim, and a claimed row is not RUNNING. -/
def Tallies (begun world : World) (id : Uuid) (owed : Nat) : Prop :=
  ∃ claims ≤ 1, teardowns world.sent id + owed = teardowns begun.sent id + claims ∧
    (claims = 1 → ∀ row, world.db.find id = some row → row.status ≠ .running)

/-- The commits of a run of the reaper find their rows still RUNNING. -/
def keepsUp (world : World) : Call → Bool
  | .commitChanges changes => changes.all fun change =>
      (world.db.find change.seen.id).any fun row => row.status = .running
  | _ => true

/-- The surroundings only let time pass and start runs of the reaper. -/
def reaping : Occurrence → Bool
  | .ambient (.tick _) | .ambient (.beat .reapExpired) | .advance _ _ | .kill _ => true
  | _ => false

/-- Only the reaper runs, and no row is taken from it between select and commit. -/
def Unraced (config : System) (event : Occurrence) : Prop :=
  reaping event = true ∧ ∀ turn ∈ config.turn event, keepsUp config.state turn.2 = true

instance (config : System) (event : Occurrence) : Decidable (Unraced config event) :=
  inferInstanceAs (Decidable (_ ∧ ∀ turn ∈ config.turn event, _))

variable {begun world next : World} {rows : List Environment} {changes : List Change}
  {id : Uuid} {owed : Nat}

/-- Claimed rows are STOPPING. -/
theorem stopping_of_claim {db : Environments} {row : Environment}
    (made : ∀ change ∈ changes, change.seen.status = .running ∧ change.now.status = .stopping)
    (claimed : (∃ change ∈ changes, change.seen.id = id) ∨
      ∀ row, db.find id = some row → row.status = .stopping)
    (found : (db.writeAll changes).find id = some row) : row.status = .stopping := by
  induction changes generalizing db with
  | nil =>
      rcases claimed with ⟨change, present, -⟩ | stopping
      · cases present
      · exact stopping row found
  | cons change changes inductionHypothesis =>
      rw [List.forall_mem_cons] at made
      rw [Environments.writeAll_cons] at found
      refine inductionHypothesis made.2 ?_ found
      by_cases own : id = change.seen.id
      · refine .inr fun row' written => ?_
        rw [Environments.find_write, if_pos own, Option.map_eq_some_iff] at written
        obtain ⟨stored, -, rfl⟩ := written
        rw [Environment.status_flush, made.1.2]
        rw [made.1.1, made.1.2]
        exact nofun
      · rcases claimed with ⟨other, present, about⟩ | stopping
        · rcases List.mem_cons.mp present with rfl | later
          · exact (own about.symm).elim
          · exact .inl ⟨other, later, about⟩
        · refine .inr fun row' written => ?_
          rw [Environments.find_write, if_neg own] at written
          exact stopping row' written

/-- A claim makes no row RUNNING. -/
theorem running_of_claim {db : Environments} {row : Environment}
    (made : ∀ change ∈ changes, change.seen.status = .running ∧ change.now.status = .stopping)
    (found : (db.writeAll changes).find id = some row)
    (running : row.status = .running) : db.find id = some row := by
  by_cases claimed : ∃ change ∈ changes, change.seen.id = id
  · rw [stopping_of_claim made (.inl claimed) found] at running
    cases running
  · have others : changes.filter (fun change => change.seen.id = id) = [] := by
      rw [List.filter_eq_nil_iff]
      intro change present about
      exact claimed ⟨change, present, of_decide_eq_true about⟩
    rw [Environments.find_writeAll, others, Option.map_eq_some_iff] at found
    obtain ⟨stored, found, rfl⟩ := found
    exact found

/-- The changes of a claim set RUNNING rows to STOPPING. -/
theorem Claim.made (claim : Claim rows changes)
    (running : ∀ row ∈ rows, row.status = .running) :
    ∀ change ∈ changes, change.seen.status = .running ∧ change.now.status = .stopping := by
  intro change present
  obtain ⟨now, same⟩ := claim.2 change present
  refine ⟨running _ ?_, by rw [same]; rfl⟩
  rw [← claim.1]
  exact List.mem_map_of_mem present

/-- A commit of the reaper that finds its rows RUNNING claims each of them for the
first time. -/
theorem tallies_of_commit
    (tallies : Tallies begun world id owed)
    (claim : Claim rows changes)
    (running : ∀ row ∈ rows, row.status = .running)
    (distinct : (rows.map Environment.id).Nodup)
    (kept : keepsUp world (.commitChanges changes) = true) :
    Tallies begun { world with db := world.db.writeAll changes } id
      (owed + (rows.map Environment.id).count id) := by
  obtain ⟨claims, few, counted, idle⟩ := tallies
  have made := claim.made running
  by_cases own : id ∈ rows.map Environment.id
  · obtain ⟨row, present, rfl⟩ := List.mem_map.mp own
    rw [← claim.1] at present
    obtain ⟨change, member, rfl⟩ := List.mem_map.mp present
    have fits := List.all_eq_true.mp kept change member
    obtain ⟨stored, found, status⟩ : ∃ stored, world.db.find change.seen.id = some stored ∧
        stored.status = .running := by
      cases found : world.db.find change.seen.id with
      | none =>
          rw [found] at fits
          cases fits
      | some stored =>
          rw [found] at fits
          exact ⟨stored, rfl, of_decide_eq_true fits⟩
    have none : claims = 0 := by
      by_contra some
      have one : claims = 1 := by omega
      exact idle one stored found status
    refine ⟨1, Nat.le_refl 1, ?_, fun _ row after => ?_⟩
    · rw [List.count_eq_one_of_mem distinct own]
      show teardowns world.sent _ + _ = _
      omega
    · rw [stopping_of_claim made (.inl ⟨change, member, rfl⟩) after]
      exact nofun
  · refine ⟨claims, few, ?_, fun one row after still => ?_⟩
    · rw [List.count_eq_zero_of_not_mem own]
      exact counted
    · exact idle one row (running_of_claim made after still) still

/-- A published teardown is no longer owed. -/
theorem tallies_of_publish {env : Environment} {rest : List Environment}
    (tallies : Tallies begun world id (owed + ((env :: rest).map Environment.id).count id)) :
    Tallies begun (world.publish .teardown env.id.str 0 0) id
      (owed + (rest.map Environment.id).count id) := by
  obtain ⟨claims, few, counted, idle⟩ := tallies
  refine ⟨claims, few, ?_, idle⟩
  rw [← counted, List.map_cons, List.count_cons]
  unfold teardowns World.publish
  dsimp only
  rw [List.countP_append, List.countP_singleton]
  by_cases own : env.id = id
  · simp [own]
    omega
  · have different : ¬env.id.str = id.str := fun same => own (Uuid.str_injective same)
    simp [own, different]

/-! ## Runs -/

/-- The progress of a job. -/
def progressOf (job : Job) : Progress :=
  Thread.phase reaper start job

@[simp] theorem progressOf_answered (job : Job) (request : Call) (reply : Reply request)
    (rest : Action Answer) :
    progressOf (job.answered request reply rest) = advance (progressOf job) request reply :=
  Thread.phase_answered ..

/-- What holds throughout a run of overlapping reapers. -/
structure Sound (begun : World) (config : System) : Prop where
  roles : ∀ job ∈ config.threads, job.role = .sweep .reapExpired
  /-- Selected rows are distinct and were RUNNING. -/
  chosen : ∀ job ∈ config.threads, ∀ rows, progressOf job = .chosen rows →
    (∀ row ∈ rows, row.status = .running) ∧ (rows.map Environment.id).Nodup
  tallies : ∀ id, Tallies begun config.state id
    ((config.threads.map fun job => owes id (progressOf job)).sum)
  /-- A teardown that is not owed any more has been published. -/
  published : ∃ messages, config.state.sent = begun.sent ++ messages ∧
    ∀ job ∈ config.threads, ∀ rows rest, progressOf job = .owing rows rest →
      ∀ env ∈ rows, env ∈ rest ∨ ∃ message ∈ messages,
        message.task = .teardown ∧ message.envId = env.id.str
  /-- A run works on the rows that it selected. -/
  selected : ∀ job ∈ config.threads, ∀ now rows,
    (⟨.selectExpired now, .ok rows⟩ : Entry Reply) ∈ job.trace →
    progressOf job = .chosen rows ∨ ∃ rest, progressOf job = .owing rows rest

/-- What an answered call of the reaper has to keep. -/
structure Moves (begun world next : World) (before after : Progress) : Prop where
  chosen : ∀ rows, after = .chosen rows →
    (∀ row ∈ rows, row.status = .running) ∧ (rows.map Environment.id).Nodup
  tallies : ∀ id owed, Tallies begun world id (owed + owes id before) →
    Tallies begun next id (owed + owes id after)
  published : ∃ messages, next.sent = world.sent ++ messages ∧
    ∀ rows rest, after = .owing rows rest → ∀ env ∈ rows, env ∈ rest ∨
      (∃ message ∈ messages, message.task = .teardown ∧ message.envId = env.id.str) ∨
      ∃ earlier, before = .owing rows earlier ∧ env ∉ earlier

/-- A call that keeps the rows and the messages, and owes no more than before. -/
theorem Moves.of_same {before after : Progress}
    (db : next.db = world.db) (sent : next.sent = world.sent)
    (chosen : ∀ rows, after = .chosen rows →
      (∀ row ∈ rows, row.status = .running) ∧ (rows.map Environment.id).Nodup)
    (owe : ∀ id, owes id after = owes id before)
    (owing : ∀ rows rest, after = .owing rows rest → before = .owing rows rest) :
    Moves begun world next before after := by
  refine ⟨chosen, fun id owed tallies => ?_, [], by simp [sent], ?_⟩
  · unfold Tallies
    rw [owe, db, sent]
    exact tallies
  · intro rows rest now env present
    by_cases still : env ∈ rest
    · exact .inl still
    · exact .inr (.inr ⟨rest, owing rows rest now, still⟩)

/-- An answered call of a run keeps the invariant. -/
theorem Sound.put {index : Nat} {job : Job} {request : Call} {reply : Reply request}
    {rest : Action Answer}
    (sound : Sound begun config)
    (found : config.threads[index]? = some job)
    (moves : Moves begun config.state next (progressOf job)
      (advance (progressOf job) request reply))
    (selects : ∀ now rows, (⟨request, reply⟩ : Entry Reply) = ⟨.selectExpired now, .ok rows⟩ →
      advance (progressOf job) request reply = .chosen rows)
    (follows : ∀ rows, (progressOf job = .chosen rows ∨ ∃ rest, progressOf job = .owing rows rest) →
      advance (progressOf job) request reply = .chosen rows ∨
        ∃ rest, advance (progressOf job) request reply = .owing rows rest) :
    Sound begun (config.put next index (job.answered request reply rest)) := by
  have member := List.mem_of_getElem? found
  obtain ⟨messages, sent, published⟩ := sound.published
  obtain ⟨more, later, publishes⟩ := moves.published
  refine ⟨?_, ?_, fun id => ?_, ⟨messages ++ more, ?_, ?_⟩, ?_⟩
  · exact forall_mem_set sound.roles (sound.roles job member)
  · refine forall_mem_set sound.chosen ?_
    rw [progressOf_answered]
    exact moves.chosen
  · obtain ⟨others, before, after⟩ := exists_sum_set (fun job => owes id (progressOf job))
      (job.answered request reply rest) found
    show Tallies begun next id
      (((config.threads.set index (job.answered request reply rest)).map _).sum)
    rw [after, progressOf_answered]
    refine moves.tallies id others ?_
    rw [← before]
    exact sound.tallies id
  · show next.sent = _
    rw [later, sent, List.append_assoc]
  · refine forall_mem_set (fun other present rows rest owing env listed => ?_) ?_
    · rcases published other present rows rest owing env listed with left | ⟨message, sent, same⟩
      · exact .inl left
      · exact .inr ⟨message, List.mem_append_left _ sent, same⟩
    · rw [progressOf_answered]
      intro rows left owing env listed
      rcases publishes rows left owing env listed with rest | ⟨message, new, same⟩ |
        ⟨earlier, before, gone⟩
      · exact .inl rest
      · exact .inr ⟨message, List.mem_append_right _ new, same⟩
      · obtain ⟨message, old, same⟩ :=
          (published job member rows earlier before env listed).resolve_left gone
        exact .inr ⟨message, List.mem_append_left _ old, same⟩
  · refine forall_mem_set sound.selected ?_
    rw [progressOf_answered]
    intro now rows recorded
    rcases List.mem_append.mp recorded with old | new
    · exact follows rows (sound.selected job member now rows old)
    · exact .inl (selects now rows (List.mem_singleton.mp new).symm)

theorem advance_ne_other {progress : Progress} {request : Call} {reply : Reply request}
    (known : progress ≠ .other) : advance progress request reply ≠ .other := by
  unfold advance
  split
  · exact nofun
  · exact nofun
  · exact nofun
  · exact nofun
  · exact known

/-- A run of the reaper is always seen as one. -/
theorem progressOf_ne_other {job : Job} (reaps : job.role = .sweep .reapExpired) :
    progressOf job ≠ .other := by
  have stays : ∀ (trace : List (Entry Reply)) (progress : Progress), progress ≠ .other →
      trace.foldl (fun reached entry => advance reached entry.request entry.reply) progress ≠
        .other := by
    intro trace
    induction trace with
    | nil => exact fun _ known => known
    | cons entry trace inductionHypothesis =>
        exact fun progress known => inductionHypothesis _ (advance_ne_other known)
  refine stays job.trace _ ?_
  rw [reaps]
  exact nofun

/-- The rows that the reaper selects are the ones it works on. -/
theorem advance_selects {progress : Progress} {instant : Time} {rows : List Environment}
    (known : progress ≠ .other)
    (permitted : permits progress (.selectExpired instant)) :
    advance progress (.selectExpired instant) (.ok rows) = .chosen rows := by
  cases progress with
  | other => exact (known rfl).elim
  | idle => cases permitted
  | asked now => rfl
  | chosen rows =>
      rcases permitted with same | ⟨changes, same, -⟩
      · cases same
      · cases same
  | owing rows rest =>
      obtain ⟨env, later, -, same⟩ := permitted
      cases same

/-- The reaper does not select twice. -/
theorem advance_follows {progress : Progress} {request : Call} {reply : Reply request}
    {rows : List Environment}
    (permitted : permits progress request)
    (held : progress = .chosen rows ∨ ∃ rest, progress = .owing rows rest) :
    advance progress request reply = .chosen rows ∨
      ∃ rest, advance progress request reply = .owing rows rest := by
  rcases held with rfl | ⟨rest, rfl⟩
  · rcases permitted with rfl | ⟨changes, rfl, -⟩
    · cases reply <;> exact .inl rfl
    · cases reply with
      | error exc => exact .inl rfl
      | ok done => exact .inr ⟨rows, rfl⟩
  · obtain ⟨env, later, rfl, rfl⟩ := permitted
    cases reply with
    | error exc => exact .inr ⟨_, rfl⟩
    | ok task => exact .inr ⟨later, rfl⟩

/-- A published teardown answers for one row. -/
theorem moves_of_publish {env : Environment} {rest : List Environment} :
    Moves begun world (world.publish .teardown env.id.str 0 0) (.owing rows (env :: rest))
      (.owing rows rest) := by
  refine ⟨fun rows now => ?_, fun id owed tallies => tallies_of_publish tallies, _, rfl,
    fun rows' rest' now other present => ?_⟩
  · cases now
  · cases now
    by_cases own : other = env
    · rw [own]
      exact .inr (.inl ⟨_, List.mem_singleton_self _, rfl, rfl⟩)
    · by_cases still : other ∈ rest
      · exact .inl still
      · refine .inr (.inr ⟨env :: rest, rfl, fun member => ?_⟩)
        rcases List.mem_cons.mp member with same | old
        · exact own same
        · exact still old

/-- What an answered call of the reaper does. -/
theorem moves_of_effect {progress : Progress} {request : Call} {reply : Reply request}
    (known : progress ≠ .other)
    (permitted : permits progress request)
    (effect : world.Effect request reply next)
    (chosen : ∀ rows, progress = .chosen rows →
      (∀ row ∈ rows, row.status = .running) ∧ (rows.map Environment.id).Nodup)
    (kept : keepsUp world request = true) :
    Moves begun world next progress (advance progress request reply) := by
  cases progress with
  | other => exact (known rfl).elim
  | idle =>
      cases permitted
      cases effect with
      | failed _ exc raises => exact .of_same rfl rfl chosen (fun _ => rfl) (fun _ _ now => now)
      | read _ instant reads =>
          refine .of_same rfl rfl (fun rows now => ?_) (fun _ => rfl) (fun rows rest now => ?_)
          · cases now
          · cases now
  | asked instant =>
      cases permitted
      cases effect with
      | failed _ exc raises => exact .of_same rfl rfl chosen (fun _ => rfl) (fun _ _ now => now)
      | read _ selected reads =>
          have listed : selected.Perm (world.db.expired instant) := reads
          refine .of_same rfl rfl (fun rows now => ?_) (fun _ => rfl) (fun rows rest now => ?_)
          · cases now
            refine ⟨fun row present => ?_, Environments.nodup_of_perm listed⟩
            have expired := List.mem_filter.mp (listed.mem_iff.mp present)
            exact (of_decide_eq_true expired.2).1
          · cases now
  | chosen rows =>
      rcases permitted with rfl | ⟨changes, rfl, claim⟩
      · cases effect with
        | failed _ exc raises => exact .of_same rfl rfl chosen (fun _ => rfl) (fun _ _ now => now)
        | read _ instant reads =>
            exact .of_same rfl rfl chosen (fun _ => rfl) (fun _ _ now => now)
      · cases effect with
        | failed _ exc raises => exact .of_same rfl rfl chosen (fun _ => rfl) (fun _ _ now => now)
        | read _ _ reads => cases reads
        | committed _ =>
            obtain ⟨running, distinct⟩ := chosen rows rfl
            refine ⟨fun rows now => ?_, fun id owed tallies => ?_, [], by simp,
              fun rows rest now env present => ?_⟩
            · cases now
            · exact tallies_of_commit tallies claim running distinct kept
            · cases now
              exact .inl present
  | owing rows rest =>
      obtain ⟨env, later, rfl, rfl⟩ := permitted
      cases effect with
      | failed _ exc raises => exact .of_same rfl rfl chosen (fun _ => rfl) (fun _ _ now => now)
      | read _ _ reads => cases reads
      | published _ _ _ _ => exact moves_of_publish

/-- The surroundings of the reaper leave the rows and the messages, and start nothing
else. -/
theorem surrounds_reaping {action : Ambient} {spawned : Option Role}
    (reaps : reaping (.ambient action) = true)
    (surrounds : Surrounds world action next spawned) :
    next.db = world.db ∧ next.sent = world.sent ∧
      ∀ role, spawned = some role → role = .sweep .reapExpired := by
  refine ⟨surrounds.unchanged.1, surrounds.unchanged.2.2.1, fun role started => ?_⟩
  subst started
  cases surrounds with
  | beat sweep =>
      cases sweep with
      | reapExpired => rfl
      | _ => cases reaps
  | _ => cases reaps

/-- The invariant of overlapping runs of the reaper. -/
theorem preserves_sound :
    Preserves (machine deployment) reaper start Unraced (Sound begun) where
  ambient config action next sound unraced acted := by
    obtain ⟨db, sent, -⟩ := surrounds_reaping unraced.1 (surrounds_of_eq acted)
    refine { sound with tallies := fun id => ?_, published := ?_ }
    · have before := sound.tallies id
      unfold Tallies at before ⊢
      dsimp only
      rw [db, sent]
      exact before
    · dsimp only
      rw [sent]
      exact sound.published
  spawn config action next role sound unraced acted := by
    obtain ⟨db, sent, started⟩ := surrounds_reaping unraced.1 (surrounds_of_eq acted)
    cases started role rfl
    have fresh : progressOf (Thread.start (machine deployment) (.sweep .reapExpired)) =
        .idle := rfl
    have every : ∀ {holds : Job → Prop}, (∀ job ∈ config.threads, holds job) →
        holds (Thread.start (machine deployment) (.sweep .reapExpired)) →
        ∀ job ∈ (config.spawn next (Thread.start (machine deployment)
          (.sweep .reapExpired))).threads, holds job := by
      intro holds others new job present
      rcases List.mem_append.mp present with old | started
      · exact others job old
      · rw [List.mem_singleton.mp started]
        exact new
    obtain ⟨messages, same, published⟩ := sound.published
    refine ⟨every sound.roles rfl, every sound.chosen ?_, fun id => ?_,
      ⟨messages, sent.trans same, every published ?_⟩, every sound.selected ?_⟩
    · rw [fresh]
      intro rows now
      cases now
    · have before := sound.tallies id
      unfold Config.spawn
      rw [List.map_append, List.sum_append, List.map_singleton, fresh]
      unfold Tallies at before ⊢
      dsimp only
      rw [db, sent]
      exact before
    · rw [fresh]
      intro rows rest now
      cases now
    · intro instant rows recorded
      cases recorded
  kill config index job sound unraced found alive := by
    have member := List.mem_of_getElem? found
    obtain ⟨messages, same, published⟩ := sound.published
    refine ⟨forall_mem_set sound.roles (sound.roles job member),
      forall_mem_set sound.chosen (sound.chosen job member), fun id => ?_,
      ⟨messages, same, forall_mem_set published (published job member)⟩,
      forall_mem_set sound.selected (sound.selected job member)⟩
    obtain ⟨others, before, after⟩ := exists_sum_set (fun job => owes id (progressOf job))
      job.killed found
    show Tallies begun config.state id (((config.threads.set index job.killed).map _).sum)
    rw [after]
    have kept := sound.tallies id
    rw [before] at kept
    exact kept
  call config index job request resume choice reply next sound unraced found alive rest
      permitted executed := by
    have member := List.mem_of_getElem? found
    have known := progressOf_ne_other (sound.roles job member)
    have kept := unraced.2 _ (Config.turn_advance found rest)
    refine sound.put found (moves_of_effect known permitted (World.exec_effect executed)
      (sound.chosen job member) kept) (fun instant rows same => ?_)
      fun rows held => advance_follows permitted held
    cases same
    exact advance_selects known permitted

/-- Every configuration of a run is sound. -/
theorem sound_of_run (run : Run (machine deployment) Unraced ⟨begun, []⟩ config) :
    Sound begun config := by
  refine run.invariant_of_calls rfl reaper_describes program_allows (Sound begun) ?_
    preserves_sound
  refine ⟨?_, ?_, fun id => ⟨0, Nat.zero_le 1, rfl, ?_⟩, ⟨[], (List.append_nil _).symm, ?_⟩, ?_⟩
  · intro job present
    cases present
  · intro job present
    cases present
  · intro one
    cases one
  · intro job present
    cases present
  · intro job present
    cases present

/-- The reaper inserts nothing. -/
theorem not_insert {progress : Progress} {env : Environment} (known : progress ≠ .other) :
    ¬permits progress (.commitInsert env) := by
  intro permitted
  cases progress with
  | other => exact known rfl
  | idle => cases permitted
  | asked now => cases permitted
  | chosen rows =>
      rcases permitted with same | ⟨changes, same, -⟩
      · cases same
      · cases same
  | owing rows rest =>
      obtain ⟨env, later, -, same⟩ := permitted
      cases same

/-- The reaper only commits claims. -/
theorem claim_of_permits {progress : Progress} (known : progress ≠ .other)
    (permitted : permits progress (.commitChanges changes)) :
    ∃ rows, progress = .chosen rows ∧ Claim rows changes := by
  cases progress with
  | other => exact (known rfl).elim
  | idle => cases permitted
  | asked now => cases permitted
  | chosen rows =>
      rcases permitted with same | ⟨claimed, same, claim⟩
      · cases same
      · cases same
        exact ⟨rows, rfl, claim⟩
  | owing rows rest =>
      obtain ⟨env, later, -, same⟩ := permitted
      cases same

/-- No RUNNING period begins: a row that is RUNNING has been so all along. -/
theorem running_before {middle : System} {row : Environment}
    (first : Run (machine deployment) Unraced ⟨begun, []⟩ middle)
    (second : Run (machine deployment) Unraced middle config)
    (found : config.state.db.find id = some row)
    (running : row.status = .running) : middle.state.db.find id = some row := by
  induction second with
  | refl => exact found
  | next ran unraced stepped inductionHypothesis =>
      apply inductionHypothesis
      have run := first.trans ran
      cases stepped with
      | ambient action state acted =>
          rw [← (surrounds_of_eq acted).unchanged.1]
          exact found
      | spawn action state role acted =>
          rw [← (surrounds_of_eq acted).unchanged.1]
          exact found
      | kill index job present alive => exact found
      | call index job request resume choice reply next present alive rest executed =>
          have sound := sound_of_run run
          have member := List.mem_of_getElem? present
          have known := progressOf_ne_other (sound.roles job member)
          have met := run.meets rfl reaper_describes program_allows job member
          rw [rest] at met
          rcases (World.exec_effect executed).db with same | ⟨env, -, rfl, -⟩ |
            ⟨changes, rfl, same⟩
          · rw [← same]
            exact found
          · exact (not_insert known met.1).elim
          · obtain ⟨rows, reached, claim⟩ := claim_of_permits known met.1
            refine running_of_claim (claim.made (sound.chosen job member rows reached).1) ?_
              running
            rw [← same]
            exact found

/-- While only the reaper runs and no row is taken from it between select and commit:
a row's RUNNING period, of which there is at most one, gets at most one teardown, and
a run that comes to its end has published one for every row that it selected. -/
theorem claims_once {middle : System}
    (first : Run (machine deployment) Unraced ⟨begun, []⟩ middle)
    (second : Run (machine deployment) Unraced middle config) :
    (∀ id row, config.state.db.find id = some row → row.status = .running →
      middle.state.db.find id = some row) ∧
    ∃ messages, config.state.sent = begun.sent ++ messages ∧
      (∀ id, teardowns messages id ≤ 1) ∧
      ∀ job ∈ config.threads, ∀ answer, job.rest = .pure answer → ∀ now rows,
        (⟨.selectExpired now, .ok rows⟩ : Entry Reply) ∈ job.trace →
        ∀ env ∈ rows, ∃ message ∈ messages,
          message.task = .teardown ∧ message.envId = env.id.str := by
  refine ⟨fun id row => running_before first second, ?_⟩
  have run := first.trans second
  have sound := sound_of_run run
  obtain ⟨messages, sent, published⟩ := sound.published
  refine ⟨messages, sent, fun id => ?_, ?_⟩
  · obtain ⟨claims, few, counted, -⟩ := sound.tallies id
    rw [sent] at counted
    unfold teardowns at counted ⊢
    rw [List.countP_append] at counted
    omega
  · intro job present answer ended now rows recorded env listed
    have met := run.meets rfl reaper_describes program_allows job present
    rw [ended, sound.roles job present] at met
    have done : progressOf job = .chosen [] ∨ ∃ rows, progressOf job = .owing rows [] :=
      met answer rfl
    rcases sound.selected job present now rows recorded with chosen | ⟨rest, owing⟩
    · rcases done with empty | ⟨rows', owing'⟩
      · rw [chosen] at empty
        cases empty
        cases listed
      · rw [chosen] at owing'
        cases owing'
    · rcases done with empty | ⟨rows', owing'⟩
      · rw [owing] at empty
        cases empty
      · rw [owing] at owing'
        cases owing'
        exact (published job present rows [] owing env listed).resolve_left List.not_mem_nil

/-- Two runs of the reaper, with the second beat after the commit of the first. -/
def orderly : List Occurrence :=
  .ambient (.beat .reapExpired) :: Sample.succeed 0 5 ++
    .ambient (.beat .reapExpired) :: Sample.succeed 1 2

/-- Two runs of the reaper that both select the row before either claims it. -/
def overlapping : List Occurrence :=
  [.ambient (.beat .reapExpired), .ambient (.beat .reapExpired)] ++ Sample.succeed 0 2 ++
    Sample.succeed 1 2 ++ Sample.succeed 0 3 ++ Sample.succeed 1 3

/-- The rule on two runs one after the other. -/
theorem claims_once_of_orderly :
    ∃ config, Run (machine Compose.shipped) Unraced ⟨Housekeeping.sampleWorld, []⟩ config ∧
      config.state.sent.length = 1 ∧
      ∃ messages, config.state.sent = [] ++ messages ∧
        ∀ id, teardowns messages id ≤ 1 := by
  have shown : ((⟨Housekeeping.sampleWorld, []⟩ : System).run (machine Compose.shipped)
      Unraced orderly).map (fun config => config.state.sent.length) = some 1 := by
    decide +kernel
  obtain ⟨config, run, one⟩ := Run.exists_run shown
  obtain ⟨-, messages, sent, atMost, -⟩ := claims_once run .refl
  exact ⟨config, run, one, messages, sent, atMost⟩

/-- Two overlapping runs publish two teardowns for one RUNNING period. -/
theorem claimed_twice :
    ∃ config, Reachable (machine Compose.shipped) ⟨Housekeeping.sampleWorld, []⟩ config ∧
      (∀ job ∈ config.threads, job.role = .sweep .reapExpired) ∧
      teardowns config.state.sent (Sample.envId 2) = 2 := by
  have shown : ((⟨Housekeeping.sampleWorld, []⟩ : System).run (machine Compose.shipped)
      (fun _ event => reaping event = true) overlapping).map
        (fun config => teardowns config.state.sent (Sample.envId 2)) = some 2 := by
    decide +kernel
  obtain ⟨config, run, twice⟩ := Run.exists_run shown
  refine ⟨config, run.reachable, ?_, twice⟩
  refine run.invariant (fun config => ∀ job ∈ config.threads, job.role = .sweep .reapExpired)
    (fun job present => nomatch present) ?_
  intro config event after roles reaps stepped
  cases stepped with
  | ambient action state acted => exact roles
  | spawn action state role acted =>
      intro job present
      rcases List.mem_append.mp present with old | new
      · exact roles job old
      · rw [List.mem_singleton.mp new]
        exact (surrounds_reaping reaps (surrounds_of_eq acted)).2.2 role rfl
  | kill index job found alive =>
      exact forall_mem_set roles (roles job (List.mem_of_getElem? found))
  | call index job request resume choice reply state found alive rest executed =>
      exact forall_mem_set roles (roles job (List.mem_of_getElem? found))

end Reaping

end Provisioner
