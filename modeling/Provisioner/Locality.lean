import Provisioner.Authority
import Provisioner.Custody
import Provisioner.Discovery
import Provisioner.Resumption.Projection
import Mathlib.Data.Set.Insert

/-!
# Every environment on its own

The service keeps no structure above the single environment. What it holds for one of them is
its row and the Docker resources with its label, and this module says, as a machine of its
own, what may happen to that share: an insert by the owner's create, writes to the columns of
each role, one resource more by its own provision attempt, one less by its own teardown
attempt or the orphan sweep. Along every run of the service the share of every environment
moves by these acts only. So an attempt that works for one environment leaves all others
alone, however the threads are interleaved.
-/

namespace Provisioner

open Resumption

/-- What the service holds for one environment. -/
structure Share where
  row : Option Environment
  /-- The Docker resources with its label. -/
  resources : Set Resource

/-- The share of an environment. -/
def World.share (world : World) (id : Uuid) : Share where
  row := world.db.find id
  resources := {resource | world.docker.label resource = some id.str}

/-- The columns of a row, apart from the primary key. -/
inductive Column
  | name
  | owner
  | status
  | template
  | containerIds
  | networkId
  | hostPort
  | ttlSeconds
  | createdAt
  | statusChangedAt
  | startedAt
  | expiresAt
  | stoppedAt
  | errorMessage
  | celeryTaskId
  deriving DecidableEq

/-- What a column holds. -/
abbrev Column.Value : Column → Type
  | name | owner | template => String
  | status => EnvironmentStatus
  | containerIds => List DockerId
  | networkId => Option DockerId
  | hostPort => Option Nat
  | ttlSeconds => Int
  | createdAt => Time
  | statusChangedAt | startedAt | expiresAt | stoppedAt => Option Time
  | errorMessage => Option String
  | celeryTaskId => Option TaskId

instance : (column : Column) → DecidableEq column.Value
  | .name | .owner | .template => inferInstanceAs (DecidableEq String)
  | .status => inferInstanceAs (DecidableEq EnvironmentStatus)
  | .containerIds => inferInstanceAs (DecidableEq (List DockerId))
  | .networkId => inferInstanceAs (DecidableEq (Option DockerId))
  | .hostPort => inferInstanceAs (DecidableEq (Option Nat))
  | .ttlSeconds => inferInstanceAs (DecidableEq Int)
  | .createdAt => inferInstanceAs (DecidableEq Time)
  | .statusChangedAt | .startedAt | .expiresAt | .stoppedAt =>
      inferInstanceAs (DecidableEq (Option Time))
  | .errorMessage => inferInstanceAs (DecidableEq (Option String))
  | .celeryTaskId => inferInstanceAs (DecidableEq (Option TaskId))

namespace Environment

/-- The value of a column. -/
def get (env : Environment) : (column : Column) → column.Value
  | .name => env.name
  | .owner => env.owner
  | .status => env.status
  | .template => env.template
  | .containerIds => env.containerIds
  | .networkId => env.networkId
  | .hostPort => env.hostPort
  | .ttlSeconds => env.ttlSeconds
  | .createdAt => env.createdAt
  | .statusChangedAt => env.statusChangedAt
  | .startedAt => env.startedAt
  | .expiresAt => env.expiresAt
  | .stoppedAt => env.stoppedAt
  | .errorMessage => env.errorMessage
  | .celeryTaskId => env.celeryTaskId

/-- The rows differ in the given columns only. -/
structure Within (columns : List Column) (row row' : Environment) : Prop where
  id : row'.id = row.id
  get : ∀ column, column ∉ columns → row'.get column = row.get column

variable {columns : List Column} {row seen now : Environment}

theorem get_flush (column : Column) :
    (row.flush seen now).get column =
      Environment.column (seen.get column) (now.get column) (row.get column) := by
  cases column <;> rfl

/-- A write to some columns changes these columns only. -/
theorem within_lasting (columns : List Column) : Lasting (Within columns) where
  refl _ := ⟨rfl, fun _ _ => rfl⟩
  trans _ _ _ first second :=
    ⟨second.id.trans first.id,
      fun column out => (second.get column out).trans (first.get column out)⟩
  flush row seen now kept := by
    refine ⟨rfl, fun column out => ?_⟩
    rw [get_flush, kept.get column out, column_self]
  flushed row seen now kept current := by
    refine ⟨current.id.trans kept.id.symm, fun column out => ?_⟩
    rw [get_flush, kept.get column out, column_self, current.get column out]

end Environment

/-- The columns that a role writes. -/
def Role.columns : Role → List Column
  | .task message =>
      match message.task with
      | .provision => [.status, .statusChangedAt, .networkId, .containerIds, .hostPort,
          .startedAt, .expiresAt, .errorMessage]
      | .teardown => [.status, .statusChangedAt, .stoppedAt, .errorMessage]
  | .request (.delete _ _) => [.celeryTaskId]
  | .sweep .reapExpired => [.status, .statusChangedAt]
  | .sweep .recoverStale => [.status, .statusChangedAt, .errorMessage]
  | _ => []

/-- The statuses that a role writes. -/
def Role.statuses : Role → List EnvironmentStatus
  | .task message =>
      match message.task with
      | .provision => [.provisioning, .running, .failed]
      | .teardown => [.stopping, .stopped, .failed]
  | .sweep .reapExpired => [.stopping]
  | .sweep .recoverStale => [.failed]
  | _ => []

/-- The rows that a role may write to. -/
def Role.Concerns (role : Role) (row : Environment) : Prop :=
  match role with
  | .task message => Uuid.parse message.envId = some row.id
  | .request (.delete id principal) => id = row.id ∧ principal = row.owner
  | .sweep .reapExpired | .sweep .recoverStale => True
  | _ => False

namespace Locality

/-- What a role may do to the share of an environment. -/
inductive Acts (role : Role) (id : Uuid) : Share → Share → Prop
  | insert (payload : EnvironmentCreate) (row : Environment) :
      role = .request (.create row.owner payload) → row.id = id → row.status = .pending →
      row.name = payload.name → row.template = payload.template →
      row.ttlSeconds = payload.ttlSeconds →
      Acts role id ⟨none, ∅⟩ ⟨some row, ∅⟩
  | write (row row' : Environment) (resources : Set Resource) :
      row.id = id → role.Concerns row → row.Within role.columns row' →
      row'.status = row.status ∨ row'.status ∈ role.statuses →
      Acts role id ⟨some row, resources⟩ ⟨some row', resources⟩
  | build (row : Environment) (resources : Set Resource) (resource : Resource) :
      role.Is .provision id → resource ∉ resources →
      Acts role id ⟨some row, resources⟩ ⟨some row, insert resource resources⟩
  | remove (row : Environment) (resources : Set Resource) (resource : Resource) :
      role.Is .teardown id ∨ role = .sweep .reconcileOrphans → resource ∈ resources →
      Acts role id ⟨some row, resources⟩ ⟨some row, resources \ {resource}⟩

variable {deployment : Deployment} {refuses : Bool}
  {allowed : System → Occurrence → Prop} {config : System}
  {world next : World} {phase : Phase} {id : Uuid} {daemon : Daemon} {resource : Resource}

/-! ## Labels -/

theorem label_addNetwork {name : String} {label : Option String} {now : Time} :
    (daemon.addNetwork name label now).label resource =
      if resource = .network daemon.nextId then label else daemon.label resource := by
  cases resource with
  | container other => rw [if_neg nofun]; rfl
  | network other =>
      unfold Daemon.label Daemon.addNetwork
      dsimp only
      rw [Keyed.Table.find_insert]
      by_cases same : other = daemon.nextId
      · subst same
        rw [if_pos rfl, if_pos rfl]
        rfl
      · rw [if_neg (by exact Ne.symm same), if_neg (by simpa using same)]

theorem label_addContainer {request : Compose.RunRequest} {network : Option DockerId}
    {now : Time} (free : daemon.nameTaken request.name = false) :
    (daemon.addContainer request network now free).label resource =
      if resource = .container daemon.nextId then some request.envLabel
      else daemon.label resource := by
  cases resource with
  | network other => rw [if_neg nofun]; rfl
  | container other =>
      unfold Daemon.label Daemon.addContainer
      dsimp only
      rw [Keyed.Table.find_insert]
      by_cases same : other = daemon.nextId
      · subst same
        rw [if_pos rfl, if_pos (by rfl)]
        rfl
      · rw [if_neg (by exact Ne.symm same), if_neg (by simpa using same)]

theorem label_removeContainer {wanted : DockerId} :
    (daemon.removeContainer wanted).label resource =
      if resource = .container wanted then none else daemon.label resource := by
  cases resource with
  | network other => rw [if_neg nofun]; rfl
  | container other =>
      unfold Daemon.label Daemon.removeContainer
      dsimp only
      rw [Keyed.Table.find_erase]
      by_cases same : other = wanted
      · rw [if_pos same, if_pos (by rw [same])]
        rfl
      · rw [if_neg same, if_neg (by simpa using same)]

theorem label_removeNetwork {wanted : DockerId} :
    (daemon.removeNetwork wanted).label resource =
      if resource = .network wanted then none else daemon.label resource := by
  cases resource with
  | container other => rw [if_neg nofun]; rfl
  | network other =>
      unfold Daemon.label Daemon.removeNetwork
      dsimp only
      rw [Keyed.Table.find_erase]
      by_cases same : other = wanted
      · rw [if_pos same, if_pos (by rw [same])]
        rfl
      · rw [if_neg same, if_neg (by simpa using same)]

/-- What has a label exists. -/
theorem has_of_label {label : String} (labelled : daemon.label resource = some label) :
    daemon.has resource = true := by
  cases resource with
  | container id =>
      obtain ⟨container, found, -⟩ := Option.bind_eq_some_iff.mp labelled
      exact Option.isSome_iff_exists.mpr ⟨container, found⟩
  | network id =>
      obtain ⟨network, found, -⟩ := Option.bind_eq_some_iff.mp labelled
      exact Option.isSome_iff_exists.mpr ⟨network, found⟩

/-! ## Stages and roles -/

/-- Only a DELETE records an accepted DELETE, and only the orphan sweep lists resources. -/
structure Assigned (phase : Phase) : Prop where
  deleting : ∀ env task, phase.stage = .deleting env task →
    ∃ id principal, phase.role = .request (.delete id principal)
  shown : ∀ entry ∈ phase.stage.shown, phase.role = .sweep .reconcileOrphans

/-- A call leads to a stage of the role. -/
theorem assigned_advance {request : Call} {reply : Reply request}
    (assigned : Assigned phase)
    (permits : phase.permits deployment request) : Assigned (phase.advance request reply) := by
  have advances : phase.stage.Advances phase.role request reply
      (phase.stage.after phase.role request reply) := Stage.after_advances request reply
  refine ⟨fun env task reached => ?_, fun entry present => ?_⟩
  · change phase.stage.after phase.role request reply = _ at reached
    rw [reached] at advances
    generalize same : Stage.deleting env task = stage' at advances
    cases advances with
    | load wanted reply =>
        generalize phase.stage = stage at same
        cases stage <;> rcases reply with exc | (row | row) <;> cases same
    | commit changes reply =>
        have commits : phase.stage.Commits phase.role changes reply
            (phase.stage.onCommit phase.role changes reply) :=
          Stage.onCommit_commits changes reply
        rw [← same] at commits
        cases commits
    | accept task envId retries countdown _ held loaded =>
        have publishes : phase.Publishes task envId retries := permits
        cases publishes with
        | create principal payload count inserted role stage => rw [loaded] at stage; cases stage
        | delete id principal deleted role => exact ⟨id, principal, role⟩
        | reap rows row stage => rw [loaded] at stage; cases stage
        | retry message role retired => rw [loaded] at retired; exact retired.elim
    | keep _ _ => exact assigned.deleting env task same.symm
    | bare _ _ _ bare =>
        rw [← same] at bare
        exact bare.elim
    | _ => cases same
  · rcases Ownership.mem_shown_after present with old | new
    · exact assigned.shown entry old
    · cases new <;> exact permits

/-- The stages of a run are those of their roles. -/
theorem assigned_of_runs (run : System.Runs deployment refuses allowed config) :
    ∀ job ∈ config.threads, Assigned (Job.phase job) := by
  have rules : Rules deployment allowed (fun _ => True) (fun _ phase => Assigned phase)
      (fun _ _ => True) :=
    { stable := fun _ _ _ _ assigned => assigned
      ambient := fun _ _ _ _ _ _ _ => by
        refine ⟨trivial, trivial, fun role _ => ⟨fun env task reached => ?_,
          fun entry present => ?_⟩⟩
        · rcases Phase.start_stage role with same | same <;> rw [same] at reached <;>
            cases reached
        · rcases Phase.start_stage role with same | same <;> rw [same] at present <;>
            cases present
      call := fun _ _ _ _ _ _ _ assigned _ _ permits _ =>
        ⟨trivial, trivial, assigned_advance assigned permits⟩ }
  exact (run.sound trivial rules).2

/-! ## Writes -/

/-- The columns of an attempt. -/
theorem columns_of_runs {role : Role} {task : Task} (attempt : role.runs task) :
    role.columns = (Role.task ⟨task, "", 0, 0⟩).columns ∧
      role.statuses = (Role.task ⟨task, "", 0, 0⟩).statuses := by
  cases role with
  | task message =>
      have same : message.task = task := attempt
      subst same
      exact ⟨rfl, rfl⟩
  | request request => exact attempt.elim
  | sweep sweep => exact attempt.elim

/-- A role writes its own columns, and its own statuses. -/
structure Writes (role : Role) (change : Change) : Prop where
  within : change.seen.Within role.columns change.now
  status : change.now.status = change.seen.status ∨ change.now.status ∈ role.statuses

theorem writes_of_columns {role other : Role} {change : Change}
    (same : role.columns = other.columns ∧ role.statuses = other.statuses)
    (id : change.now.id = change.seen.id)
    (get : ∀ column, column ∉ other.columns → change.now.get column = change.seen.get column)
    (status : change.now.status ∈ other.statuses) : Writes role change :=
  ⟨⟨id, by rw [same.1]; exact get⟩, .inr (by rw [same.2]; exact status)⟩

/-- Every commit writes the columns and the statuses of its role. -/
theorem writes_of_commits {changes : List Change} {change : Change}
    (assigned : Assigned phase)
    (commits : phase.Commits changes) (present : change ∈ changes) :
    Writes phase.role change := by
  cases commits with
  | provisioning env now attempt =>
      cases List.mem_singleton.mp present
      refine writes_of_columns (columns_of_runs attempt) rfl (fun column out => ?_)
        (by simp [Role.statuses])
      cases column <;> first | rfl | exact (out (by simp [Role.columns])).elim
  | running env network containers port now changed attempt =>
      cases List.mem_singleton.mp present
      refine writes_of_columns (columns_of_runs attempt) rfl (fun column out => ?_)
        (by simp [Role.statuses, Worker.asRunning])
      cases column <;> first | rfl | exact (out (by simp [Role.columns])).elim
  | stopping env now attempt =>
      cases List.mem_singleton.mp present
      refine writes_of_columns (columns_of_runs attempt) rfl (fun column out => ?_)
        (by simp [Role.statuses])
      cases column <;> first | rfl | exact (out (by simp [Role.columns])).elim
  | stopped env cleared changed now attempt =>
      cases List.mem_singleton.mp present
      refine writes_of_columns (columns_of_runs attempt) rfl (fun column out => ?_)
        (by simp [Role.statuses, Worker.asStopped])
      cases column <;> first | rfl | exact (out (by simp [Role.columns])).elim
  | failed task env message now attempt =>
      cases List.mem_singleton.mp present
      refine writes_of_columns (columns_of_runs attempt) rfl (fun column out => ?_) ?_
      · cases task <;> cases column <;> first | rfl | exact (out (by simp [Role.columns])).elim
      · cases task <;> simp [Role.statuses, Worker.asFailed]
  | accepted env task stage =>
      cases List.mem_singleton.mp present
      obtain ⟨id, principal, role⟩ := assigned.deleting env task stage
      refine ⟨⟨rfl, fun column out => ?_⟩, .inl rfl⟩
      rw [role] at out
      cases column <;> first | rfl | exact (out (by simp [Role.columns])).elim
  | reaping rows _ sweep stage written =>
      obtain ⟨-, now, -, made⟩ := written change present
      refine ⟨⟨by rw [made]; rfl, fun column out => ?_⟩, .inr ?_⟩
      · rw [made]
        rw [sweep] at out
        cases column <;> first | rfl | exact (out (by simp [Role.columns])).elim
      · rw [sweep, made]
        simp [Role.statuses]
  | recovering rows _ sweep stage written =>
      obtain ⟨-, now, -, message, made⟩ := written change present
      refine ⟨⟨by rw [made]; rfl, fun column out => ?_⟩, .inr ?_⟩
      · rw [made]
        rw [sweep] at out
        cases column <;> first | rfl | exact (out (by simp [Role.columns])).elim
      · rw [sweep, made]
        simp [Role.statuses, Worker.asFailed]

/-- A commit of a thread is about rows that concern its role. -/
theorem concerns_of_commits {job : Job} {changes : List Change} {change : Change}
    {row : Environment} {resume : Reply (.commitChanges changes) → Action Answer}
    (run : System.Runs deployment refuses allowed config)
    (member : job ∈ config.threads)
    (rest : job.rest = .call (.commitChanges changes) resume)
    (commits : (Job.phase job).Commits changes)
    (present : change ∈ changes)
    (found : config.state.db.find change.seen.id = some row) : job.role.Concerns row := by
  have key : row.id = change.seen.id := Keyed.Table.key_of_find found
  have mine := Job.role_phase job
  cases role : job.role with
  | task message =>
      have target := Attempts.onTarget_of_runs run job member message.task
        (by rw [mine, role]; rfl) change.seen (commits.seen_mem present)
      rw [mine, role] at target
      unfold Role.Concerns
      rw [key]
      exact target
  | request request =>
      have idle : ∀ task, ¬(Job.phase job).role.runs task := by
        rw [mine, role]
        exact fun _ attempt => attempt
      obtain ⟨id, principal, same⟩ : ∃ id principal,
          (Job.phase job).role = .request (.delete id principal) := by
        cases commits with
        | accepted env task stage => exact (assigned_of_runs run job member).deleting env task stage
        | provisioning _ _ attempt => exact (idle _ attempt).elim
        | running _ _ _ _ _ _ attempt => exact (idle _ attempt).elim
        | stopping _ _ attempt => exact (idle _ attempt).elim
        | stopped _ _ _ _ attempt => exact (idle _ attempt).elim
        | failed _ _ _ _ attempt => exact (idle _ attempt).elim
        | reaping _ _ sweep => rw [mine, role] at sweep; cases sweep
        | recovering _ _ sweep => rw [mine, role] at sweep; cases sweep
      rw [mine] at same
      have deletes := (Authority.justified_of_runs run member rest change present).2 id principal
        same
      obtain ⟨own, row', found', kept⟩ :=
        Evidence.told_of_runs run job member _ deletes.loaded
      rw [found] at found'
      cases found'
      rw [role] at same
      cases same
      exact ⟨own.symm.trans key.symm, by rw [kept.owner]; exact deletes.owner.symm⟩
  | sweep sweep =>
      cases sweep with
      | reapExpired => trivial
      | recoverStale => trivial
      | reconcileOrphans =>
          have idle : ∀ task, ¬(Job.phase job).role.runs task := by
            rw [mine, role]
            exact fun _ attempt => attempt
          cases commits with
          | accepted env task stage =>
              obtain ⟨id, principal, same⟩ :=
                (assigned_of_runs run job member).deleting env task stage
              rw [mine, role] at same
              cases same
          | provisioning _ _ attempt => exact (idle _ attempt).elim
          | running _ _ _ _ _ _ attempt => exact (idle _ attempt).elim
          | stopping _ _ attempt => exact (idle _ attempt).elim
          | stopped _ _ _ _ attempt => exact (idle _ attempt).elim
          | failed _ _ _ _ attempt => exact (idle _ attempt).elim
          | reaping _ _ sweep => rw [mine, role] at sweep; cases sweep
          | recovering _ _ sweep => rw [mine, role] at sweep; cases sweep

/-- A commit is a write to the rows it is about, and leaves the others alone. -/
theorem acts_of_commit {job : Job} {changes : List Change}
    {resume : Reply (.commitChanges changes) → Action Answer}
    (run : System.Runs deployment refuses allowed config)
    (member : job ∈ config.threads)
    (rest : job.rest = .call (.commitChanges changes) resume)
    (commits : (Job.phase job).Commits changes)
    (db : next.db = config.state.db.writeAll changes)
    (docker : next.docker = config.state.docker) :
    next.share id = config.state.share id ∨
      Acts job.role id (config.state.share id) (next.share id) := by
  have writes : ∀ change ∈ changes, Writes job.role change := fun change present =>
    Job.role_phase job ▸ writes_of_commits (assigned_of_runs run job member) commits present
  unfold World.share
  rw [db, docker]
  cases found : config.state.db.find id with
  | none =>
      rw [Environments.find_writeAll, found]
      exact .inl rfl
  | some row =>
  by_cases about : ∃ change ∈ changes, change.seen.id = id
  · obtain ⟨change, present, own⟩ := about
    obtain ⟨row', found', within⟩ := Environments.along_writeAll
      (Environment.within_lasting job.role.columns)
      (fun change present => (writes change present).within) id row found
    rw [found']
    refine .inr (.write row row' _ (Keyed.Table.key_of_find found)
      (concerns_of_commits run member rest commits present (own ▸ found)) within ?_)
    refine (Environments.status_writeAll found found').imp_right fun written => ?_
    obtain ⟨other, present, -, differs, same⟩ := written
    rw [same]
    exact (writes other present).status.resolve_left differs
  · have untouched : changes.filter (fun change => change.seen.id = id) = [] :=
      List.filter_eq_nil_iff.mpr fun change present own =>
        about ⟨change, present, of_decide_eq_true own⟩
    rw [Environments.find_writeAll, untouched, found]
    exact .inl rfl

/-! ## Inserts -/

/-- No resource carries the label of a row that is not there. -/
theorem resources_of_absent (integrity : world.Integrity deployment)
    (absent : world.db.find id = none) : (world.share id).resources = ∅ := by
  refine Set.eq_empty_iff_forall_notMem.mpr fun resource labelled => ?_
  obtain ⟨row, member, same, -⟩ :=
    Discovery.labelled_of_integrity integrity (has_of_label labelled)
  have key : row.id = id := Uuid.str_injective (Option.some.inj (same.symm.trans labelled))
  rw [← key, world.db.find_of_mem member] at absent
  cases absent

/-- The commit of an insert is an insert of its key. -/
theorem acts_of_insert {job : Job} {env : Environment} {index : Nat}
    {resume : Reply (.commitInsert env) → Action Answer}
    (run : System.Runs deployment refuses allowed config)
    (found : config.threads[index]? = some job)
    (rest : job.rest = .call (.commitInsert env) resume)
    (permits : (Job.phase job).permits deployment (.commitInsert env))
    (absent : config.state.db.find env.id = none)
    (db : next.db = config.state.db.insert env absent)
    (docker : next.docker = config.state.docker) :
    next.share id = config.state.share id ∨
      Acts job.role id (config.state.share id) (next.share id) := by
  have integrity := Integrity.of_runs run
  by_cases same : env.id = id
  · subst same
    refine .inr ?_
    obtain ⟨job', payload, inserted, located, born⟩ :=
      Authority.originates_of_insert run found rest permits
    rw [found] at located
    cases located
    have bare : {resource | config.state.docker.label resource = some env.id.str} = ∅ :=
      resources_of_absent integrity.1 absent
    have before : config.state.share env.id = ⟨none, ∅⟩ := by
      unfold World.share
      rw [absent, bare]
    have after : next.share env.id = ⟨some env, ∅⟩ := by
      unfold World.share
      rw [db, docker, bare, Keyed.Table.find_insert, if_pos rfl]
    rw [before, after]
    obtain ⟨owner, payload', count, role, stage⟩ := permits
    have new := (integrity.2 job (List.mem_of_getElem? found)).fresh count env (by rw [stage]; rfl)
    exact .insert payload env born.creates.role rfl new.pending born.name born.template
      born.ttlSeconds
  · refine .inl ?_
    unfold World.share
    rw [db, docker, Keyed.Table.find_insert, if_neg same]

/-! ## Resources -/

/-- A new resource with a label is one more for the environment that the label names. -/
theorem share_of_added {label : Option String}
    (db : next.db = world.db)
    (docker : ∀ other, next.docker.label other =
      if other = resource then label else world.docker.label other)
    (absent : world.docker.label resource = none) :
    next.share id = ⟨world.db.find id, if label = some id.str
      then insert resource (world.share id).resources else (world.share id).resources⟩ := by
  unfold World.share
  rw [db]
  refine congrArg _ (Set.ext fun other => ?_)
  dsimp only
  rw [Set.mem_ofPred_eq, docker]
  split
  · rename_i same
    subst same
    split <;> simp_all
  · rename_i other'
    split <;> simp [other']

/-- A resource less is one less for the environment that its label names. -/
theorem share_of_removed
    (db : next.db = world.db)
    (docker : ∀ other, next.docker.label other =
      if other = resource then none else world.docker.label other) :
    next.share id = ⟨world.db.find id, (world.share id).resources \ {resource}⟩ := by
  unfold World.share
  rw [db]
  refine congrArg _ (Set.ext fun other => ?_)
  rw [Set.mem_ofPred_eq, docker]
  split
  · rename_i same
    simp [same]
  · rename_i other'
    simp [other']

/-- What an attempt creates is built for its own environment. -/
theorem acts_of_added {job : Job} {env : Environment} {network : Option DockerId}
    {containers : List DockerId}
    (run : System.Runs deployment refuses allowed config)
    (member : job ∈ config.threads)
    (attempt : (Job.phase job).role.runs .provision)
    (stage : (Job.phase job).stage = .building env network containers)
    (db : next.db = config.state.db)
    (docker : ∀ other, next.docker.label other =
      if other = resource then some env.id.str else config.state.docker.label other)
    (absent : ¬resource.Issued config.state.docker) :
    next.share id = config.state.share id ∨
      Acts job.role id (config.state.share id) (next.share id) := by
  have none : config.state.docker.label resource = none := by
    by_contra labelled
    obtain ⟨label, labelled⟩ := Option.ne_none_iff_exists'.mp labelled
    exact absent (Teardown.issued_of_has (has_of_label labelled))
  have held : env ∈ (Job.phase job).stage.held := by
    rw [stage]
    exact List.mem_singleton_self env
  rw [share_of_added db docker none]
  by_cases same : env.id = id
  · subst same
    obtain ⟨row, found, -⟩ := ((Integrity.of_runs run).2 job member).held env held
    have own := Attempts.onTarget_of_runs run job member .provision attempt env held
    rw [Job.role_phase] at attempt own
    rw [if_pos rfl]
    unfold World.share
    rw [found]
    refine .inr (.build row _ resource (Role.is_iff.mpr ⟨attempt, own⟩) fun labelled => ?_)
    cases none.symm.trans labelled
  · rw [if_neg fun labels => same (Uuid.str_injective (Option.some.inj labels))]
    exact .inl rfl

/-- What a thread removes belonged to the environment that it tears down, or the thread is
the orphan sweep. -/
theorem acts_of_removed {job : Job}
    (run : System.Runs deployment refuses allowed config)
    (member : job ∈ config.threads)
    (removes : (Job.phase job).stage.Removes resource)
    (has : config.state.docker.has resource = true)
    (db : next.db = config.state.db)
    (docker : ∀ other, next.docker.label other =
      if other = resource then none else config.state.docker.label other) :
    next.share id = config.state.share id ∨
      Acts job.role id (config.state.share id) (next.share id) := by
  have mine := Job.role_phase job
  obtain ⟨row, stored, labelled, -⟩ :=
    Discovery.labelled_of_integrity (Integrity.of_runs run).1 has
  rw [share_of_removed db docker]
  by_cases same : row.id = id
  · subst same
    have found := config.state.db.find_of_mem stored
    have concerns : job.role.Is .teardown row.id ∨ job.role = .sweep .reconcileOrphans := by
      cases stage : (Job.phase job).stage with
      | removing env cleared =>
          rw [stage] at removes
          have held : env ∈ (Job.phase job).stage.held := by
            rw [stage]
            exact List.mem_singleton_self env
          have session := (Ownership.of_runs run).2 job member
          have label := (session.held env held resource removes).label _ labelled
          have attempt := (Custody.fits_of_runs run job member).removing env cleared stage
          have own := Attempts.onTarget_of_runs run job member .teardown attempt env held
          rw [mine] at attempt own
          rw [Uuid.str_injective label]
          exact .inl (Role.is_iff.mpr ⟨attempt, own⟩)
      | listing containers networks verdict =>
          rw [stage] at removes
          cases verdict with
          | none => exact removes.elim
          | some condemned =>
              obtain ⟨label, shown, -⟩ := Custody.shown_of_listed (some condemned) removes
              have sweeps := (assigned_of_runs run job member).shown _ (stage ▸ shown)
              rw [mine] at sweeps
              exact .inr sweeps
      | _ =>
          rw [stage] at removes
          exact removes.elim
    unfold World.share
    rw [found]
    exact .inr (.remove row _ resource concerns labelled)
  · have other : resource ∉ (config.state.share id).resources := fun labels =>
      same (Uuid.str_injective (Option.some.inj (labelled.symm.trans labels)))
    rw [Set.sdiff_singleton_eq_self other]
    exact .inl rfl

/-! ## Runs -/

/-- Every answered call leaves the share of an environment alone or is an act of its thread. -/
theorem acts_of_effect {job : Job} {index : Nat} {request : Call} {reply : Reply request}
    {resume : Reply request → Action Answer}
    (run : System.Runs deployment refuses allowed config)
    (found : config.threads[index]? = some job)
    (rest : job.rest = .call request resume)
    (effect : config.state.Effect request reply next) :
    next.share id = config.state.share id ∨
      Acts job.role id (config.state.share id) (next.share id) := by
  have member := List.mem_of_getElem? found
  have permits := run.permits member rest
  cases effect with
  | inserted env absent => exact acts_of_insert run found rest permits absent rfl rfl
  | committed changes => exact acts_of_commit run member rest permits rfl rfl
  | networkCreated name label reply given raises =>
      obtain ⟨env, attempt, stage, -, rfl⟩ := permits
      have new : ¬(Resource.network config.state.docker.nextId).Issued config.state.docker :=
        Nat.lt_irrefl _
      exact acts_of_added run member attempt stage rfl (fun _ => label_addNetwork) new
  | containerCreated request reply network free given raises resolved =>
      obtain ⟨env, network', containers, template, spec, attempt, stage, -, -, label, -⟩ := permits
      have new : ¬(Resource.container config.state.docker.nextId).Issued config.state.docker :=
        Nat.lt_irrefl _
      refine acts_of_added run member attempt stage rfl (fun other => ?_) new
      rw [← label]
      exact label_addContainer free
  | containerRemoved wanted present =>
      exact acts_of_removed run member permits present rfl fun _ => label_removeContainer
  | networkRemoved wanted present idle =>
      exact acts_of_removed run member permits present rfl fun _ => label_removeNetwork
  | _ => exact .inl rfl

/-- The surroundings leave the share of every environment alone. -/
theorem share_of_surrounds {action : Ambient} {spawned : Option Role}
    (surrounds : Surrounds world action next spawned) : next.share id = world.share id := by
  obtain ⟨db, docker, -⟩ := surrounds.unchanged
  unfold World.share
  rw [db, docker]

theorem share_initial : (World.initial refuses).share id = ⟨none, ∅⟩ := by
  refine congrArg (Share.mk none) (Set.eq_empty_iff_forall_notMem.mpr fun resource labelled => ?_)
  cases resource <;> cases labelled

/-- A step leaves the share of an environment alone, or it is the turn of a thread whose role
acts on it. -/
theorem acts_of_step {event : Occurrence} {after : System}
    (run : System.Runs deployment refuses allowed config)
    (step : Step (machine deployment) config event after) :
    after.state.share id = config.state.share id ∨
      ∃ turn ∈ config.turn event,
        Acts turn.1.role id (config.state.share id) (after.state.share id) := by
  cases step with
  | ambient action state acted => exact .inl (share_of_surrounds (surrounds_of_eq acted))
  | spawn action state role acted => exact .inl (share_of_surrounds (surrounds_of_eq acted))
  | kill index job found alive => exact .inl rfl
  | call index job request resume choice reply state found alive rest executed =>
      refine (acts_of_effect run found rest (World.exec_effect executed)).imp_right fun acted => ?_
      exact ⟨(job, request), Config.turn_advance found rest, acted⟩

/-- In every run, what the service holds for an environment has evolved from nothing by the
acts of its own create, of the attempts on it, of DELETEs by its owner and of the sweeps, and
each next step is one of these acts or leaves the environment as it is. -/
theorem evolves (run : System.Runs deployment refuses allowed config) (id : Uuid) :
    Relation.ReflTransGen (config.Acts fun role => Acts role id)
        ⟨none, ∅⟩ (config.state.share id) ∧
      ∀ event after, Step (machine deployment) config event after →
        after.state.share id = config.state.share id ∨
          ∃ turn ∈ config.turn event,
            Acts turn.1.role id (config.state.share id) (after.state.share id) := by
  refine ⟨?_, fun event after step => acts_of_step run step⟩
  have moved := run.projects (fun world => world.share id) (fun role => Acts role id)
    (fun world action next spawned acted => share_of_surrounds (surrounds_of_eq acted))
    fun config index job request resume choice reply next ran _ found rest executed =>
      acts_of_effect ran found rest (World.exec_effect executed)
  have start : (System.initial refuses).state.share id = ⟨none, ∅⟩ := share_initial
  rw [start] at moved
  exact moved

/-- The status of the sample row, and the label of the first network. -/
def observe (config : System) : Option EnvironmentStatus × Option String :=
  ((config.state.db.find (Sample.envId 1)).map Environment.status,
    config.state.docker.label (.network 0))

/-- A first attempt and its last commit, which is an act. -/
theorem evolves_of_firstAttempt :
    ∃ (config next : System) (event : Occurrence),
      Reachable (machine Compose.shipped) (System.initial true) config ∧
      Step (machine Compose.shipped) config event next ∧
      (config.state.share (Sample.envId 1)).row.map Environment.status = some .provisioning ∧
      Resource.network 0 ∈ (config.state.share (Sample.envId 1)).resources ∧
      Relation.ReflTransGen (config.Acts fun role => Acts role (Sample.envId 1))
        ⟨none, ∅⟩ (config.state.share (Sample.envId 1)) ∧
      ∃ turn ∈ config.turn event, Acts turn.1.role (Sample.envId 1)
        (config.state.share (Sample.envId 1)) (next.state.share (Sample.envId 1)) := by
  have first : ((System.initial true).run (machine Compose.shipped) (fun _ _ => True)
      Sample.firstAttempt).map observe =
      some (some .provisioning, some (Sample.envId 1).str) := by decide +kernel
  have second : ((System.initial true).run (machine Compose.shipped) (fun _ _ => True)
      (Sample.firstAttempt ++ [.advance 1 .ok])).map observe =
      some (some .running, some (Sample.envId 1).str) := by decide +kernel
  obtain ⟨config, next, run, -, step, before, after⟩ := Run.exists_step first second
  obtain ⟨provisioning, label⟩ := Prod.mk.inj before
  obtain ⟨running, -⟩ := Prod.mk.inj after
  obtain ⟨evolved, moves⟩ := evolves run (Sample.envId 1)
  refine ⟨config, next, _, run, step, provisioning, label, evolved, ?_⟩
  refine (moves _ next step).resolve_left fun same => ?_
  have rows : next.state.db.find (Sample.envId 1) = config.state.db.find (Sample.envId 1) :=
    congrArg Share.row same
  rw [rows, provisioning] at running
  cases running

end Locality

/-- The role works on the environment, or on all of them. -/
def Role.touches (id : Uuid) : Role → Bool
  | .task message => Uuid.parse message.envId = some id
  | .request (.delete envId _) => envId = id
  | .sweep _ => true
  | _ => false

namespace Locality

variable {deployment : Deployment} {refuses : Bool}
  {allowed : System → Occurrence → Prop} {before after : System} {id : Uuid}

/-- No thread that touches the environment makes a call. -/
def Elsewhere (id : Uuid) (config : System) (event : Occurrence) : Prop :=
  ∀ turn ∈ config.turn event, turn.1.role.touches id = false

instance (id : Uuid) (config : System) (event : Occurrence) :
    Decidable (Elsewhere id config event) :=
  inferInstanceAs (Decidable (∀ turn ∈ config.turn event, _))

/-- Whoever acts on an environment that exists touches it. -/
theorem touches_of_acts {role : Role} {row : Environment} {resources : Set Resource}
    {share : Share} (acts : Acts role id ⟨some row, resources⟩ share) :
    role.touches id = true := by
  have attempt : ∀ {task : Task}, role.Is task id → role.touches id = true := by
    rintro task ⟨message, same, -, parsed⟩
    rw [Role.eq_task_of_message same]
    exact decide_eq_true parsed
  generalize held : (⟨some row, resources⟩ : Share) = start at acts
  cases acts with
  | insert payload row => cases held
  | write row row' resources own concerns within status =>
      cases role with
      | task message => exact decide_eq_true (own ▸ concerns)
      | request request =>
          cases request with
          | delete envId principal => exact decide_eq_true (concerns.1.trans own)
          | _ => exact concerns.elim
      | sweep sweep => rfl
  | build row resources resource own => exact attempt own
  | remove row resources resource own =>
      rcases own with own | sweeps
      · exact attempt own
      · rw [sweeps]
        rfl

/-- While only threads of other environments make calls, an environment keeps its row and its
resources, whatever the others do. -/
theorem undisturbed {row : Environment}
    (run : System.Runs deployment refuses allowed before)
    (later : Run (machine deployment) (Elsewhere id) before after)
    (found : before.state.db.find id = some row) :
    after.state.share id = before.state.share id := by
  have moved := later.projects (fun world => world.share id)
    (fun role one other => Acts role id one other ∧ role.touches id = false)
    (fun world action next spawned acted => share_of_surrounds (surrounds_of_eq acted))
    fun config index job request resume choice reply next ran elsewhere located rest executed => by
      have acts : next.share id = config.state.share id ∨ _ := acts_of_effect
        (run.reachable.trans ran.reachable) located rest (World.exec_effect executed)
      exact acts.imp_right fun acted =>
        ⟨acted, elsewhere (job, request) (Config.turn_advance located rest)⟩
  refine Config.Acts.unchanged moved fun job member share acted => ?_
  have held : before.state.share id = ⟨some row, (before.state.share id).resources⟩ := by
    unfold World.share
    rw [found]
  rw [held] at acted
  rw [touches_of_acts acted.1] at acted
  cases acted.2

/-- While alice's environment exists, bob creates one. -/
theorem undisturbed_of_twoCreates :
    ∃ before after : System, Reachable (machine Compose.shipped) (System.initial true) before ∧
      Run (machine Compose.shipped) (Elsewhere (Sample.envId 1)) before after ∧
      after.state.db.rows.length = 2 ∧
      after.state.share (Sample.envId 1) = before.state.share (Sample.envId 1) := by
  have shown : ((System.initial true).run (machine Compose.shipped) (fun _ _ => True)
      (Authority.twoCreates.take 6)).bind (fun before =>
        (before.run (machine Compose.shipped) (Elsewhere (Sample.envId 1))
          (Authority.twoCreates.drop 6)).map fun after =>
            ((before.state.db.find (Sample.envId 1)).isSome, after.state.db.rows.length)) =
      some (true, 2) := by
    decide +kernel
  obtain ⟨before, executed, shown⟩ := Option.bind_eq_some_iff.mp shown
  obtain ⟨after, later, seen⟩ := Run.exists_run shown
  obtain ⟨found, two⟩ := Prod.mk.inj seen
  obtain ⟨row, found⟩ := Option.isSome_iff_exists.mp found
  have run : Reachable (machine Compose.shipped) (System.initial true) before :=
    Run.of_run executed
  exact ⟨before, after, run, later, two, undisturbed run later found⟩

end Locality

end Provisioner
