import Provisioner.System

/-!
# What each thread may do

An observer of one thread. It remembers how far the thread has come and which
rows it holds in memory, and it says which calls the thread may make next: which
row an attempt loads, who writes which columns of which row from which copy,
which messages are published, and which Docker resources are created or removed.
All invariants of the service are derived from this description.
-/

namespace Provisioner

open Resumption

/-- A container or a network. -/
inductive Resource
  | container (id : DockerId)
  | network (id : DockerId)
  deriving DecidableEq

namespace Environment

/-- The Docker resources recorded on a row. -/
def recorded (env : Environment) : List Resource :=
  env.containerIds.map .container ++ env.networkId.toList.map .network

@[simp] theorem container_mem_recorded {env : Environment} {id : DockerId} :
    .container id ∈ env.recorded ↔ id ∈ env.containerIds := by
  simp [recorded]

@[simp] theorem network_mem_recorded {env : Environment} {id : DockerId} :
    .network id ∈ env.recorded ↔ env.networkId = some id := by
  simp [recorded]

end Environment

/-- How far a thread has come. -/
inductive Stage
  /-- Nothing has been loaded. -/
  | starting
  /-- The row does not exist. -/
  | absent
  /-- The session holds this row. -/
  | loaded (env : Environment)
  /-- PROVISIONING is committed, and these resources have been created. -/
  | building (env : Environment) (network : Option DockerId) (containers : List DockerId)
  /-- RUNNING is committed. -/
  | running (env : Environment)
  /-- STOPPING is committed, and these resources have been dealt with. -/
  | removing (env : Environment) (cleared : List Resource)
  /-- STOPPED is committed. -/
  | stopped (env : Environment)
  /-- The session lost its row to a database error. -/
  | broken
  /-- The failure is about to be written over this copy. -/
  | marking (env : Environment)
  /-- Nothing is left to do on the row. -/
  | settled
  /-- The owner had this many active rows. -/
  | counted (count : Nat)
  /-- The name was free, too. -/
  | checked (count : Nat)
  /-- The insert is flushed but not committed. -/
  | inserted (count : Nat) (env : Environment)
  /-- The provision task is published. -/
  | published (count : Nat) (env : Environment)
  /-- The insert is committed. -/
  | created (env : Environment)
  /-- The teardown task is published. -/
  | deleting (env : Environment) (task : TaskId)
  /-- The task id of an accepted DELETE is committed. -/
  | deleted (env : Environment)
  /-- The rows that the reaper is about to claim. -/
  | selected (rows : List Environment)
  /-- The rows that the reaper has claimed. -/
  | claimed (rows : List Environment)
  /-- The rows that are about to be presumed dead. -/
  | scanning (rows : List Environment)
  /-- The labelled containers. -/
  | grouping (containers : List Container)
  /-- The labelled resources, and the id whose row was found missing or
  terminal. -/
  | listing (containers : List Container) (networks : List Network)
      (verdict : Option Uuid)

/-- What the observer remembers of a thread. -/
structure Phase where
  role : Role
  stage : Stage
  /-- The clock readings of the thread. -/
  readings : List Time
  /-- The calls that failed with something other than not-found. -/
  failed : List Call

/-- The environment that a role is about. -/
def Role.target : Role → Option Uuid
  | .task message => Uuid.parse message.envId
  | .request (.get envId _) => some envId
  | .request (.delete envId _) => some envId
  | _ => none

/-- The role is an attempt of a task. -/
def Role.runs (task : Task) : Role → Prop
  | .task message => message.task = task
  | _ => False

instance (task : Task) : DecidablePred (Role.runs task)
  | .task message => inferInstanceAs (Decidable (message.task = task))
  | .request _ => .isFalse id
  | .sweep _ => .isFalse id

/-- An attempt runs one task. -/
theorem Role.runs_inj (role : Role) {first second : Task}
    (runsFirst : role.runs first) (runsSecond : role.runs second) : first = second := by
  cases role with
  | task message =>
      have one : message.task = first := runsFirst
      exact one.symm.trans runsSecond
  | request request => exact runsFirst.elim
  | sweep sweep => exact runsFirst.elim

namespace Stage

/-- A task may retry when it holds no row. -/
def Retired : Stage → Prop
  | starting => True
  | absent => True
  | broken => True
  | settled => True
  | _ => False

/-- A listed resource carries a label that names the environment. -/
def Listed (containers : List Container) (networks : List Network) (id : Uuid) :
    Resource → Prop
  | .container wanted => ∃ container ∈ containers, container.id = wanted ∧
      ∃ label, container.envLabel = some label ∧ Uuid.parse label = some id
  | .network wanted => ∃ network ∈ networks, network.id = wanted ∧
      ∃ label, network.envLabel = some label ∧ Uuid.parse label = some id

/-- The resources that may be removed in a stage. -/
def Removes : Stage → Resource → Prop
  | removing env _, resource => resource ∈ env.recorded
  | listing containers networks (some id), resource =>
      Listed containers networks id resource
  | _, _ => False

/-- After a query for the row `id`. -/
def onLoad (id : Uuid) : Stage → Except Exn (Option Environment) → Stage
  | starting, .ok (some env) => loaded env
  | starting, .ok none => absent
  | starting, .error _ => broken
  | absent, .ok (some env) => marking env
  | broken, .ok (some env) => marking env
  | building env _ _, .ok (some _) => marking env
  | removing env _, .ok (some _) => marking env
  | listing containers networks _, .ok row =>
      listing containers networks
        (if row.all fun env => env.status.terminal then some id else none)
  | listing containers networks _, .error _ => listing containers networks none
  | _, _ => settled

/-- After the commit of changed rows. -/
def onCommit (role : Role) (changes : List Change) : Stage → Except Exn Unit → Stage
  | loaded _, .ok _ =>
      match changes with
      | change :: _ =>
          if role.runs .provision then building change.now none []
          else removing change.now []
      | [] => settled
  | loaded _, .error _ => broken
  | building _ _ _, .ok _ =>
      match changes with
      | change :: _ => running change.now
      | [] => settled
  | building _ _ _, .error _ => broken
  | removing _ _, .ok _ =>
      match changes with
      | change :: _ => stopped change.now
      | [] => settled
  | removing _ _, .error _ => broken
  | deleting env task, .ok _ => deleted { env with celeryTaskId := some task }
  | selected rows, .ok _ => claimed rows
  | _, _ => settled

/-- After a resource has been removed or reported missing. -/
def clear (resource : Resource) : Stage → Stage
  | removing env cleared => removing env (cleared ++ [resource])
  | stage => stage

/-- After a request about a resource that leaves it in place. -/
def onResource (resource : Resource) (stage : Stage) : Except Exn Unit → Stage
  | .ok _ => stage
  | .error exc => if exc.isNotFound then stage.clear resource else stage

/-- After a request that removes a resource. -/
def onRemove (resource : Resource) (stage : Stage) : Except Exn Unit → Stage
  | .ok _ => stage.clear resource
  | .error exc => if exc.isNotFound then stage.clear resource else stage

/-- The stage after a call and its reply. -/
def after (role : Role) (stage : Stage) : (request : Call) → Reply request → Stage
  | .loadEnvironment id, reply => stage.onLoad id reply
  | .commitChanges changes, reply => stage.onCommit role changes reply
  | .countActive _, .ok count => counted count
  | .findActive _ _, .ok rows =>
      match stage, rows with
      | counted count, [] => checked count
      | _, _ => settled
  | .flushInsert _ _ _ _, .ok env =>
      match stage with
      | checked count => inserted count env
      | _ => settled
  | .publish _ _ _ _, .ok task =>
      match stage with
      | inserted count env => published count { env with celeryTaskId := some task }
      | loaded env => deleting env task
      | stage => stage
  | .commitInsert env, .ok _ => created env
  | .commitInsert _, .error _ => settled
  | .selectExpired _, .ok rows => selected rows
  | .selectStale _ _ _, .ok rows =>
      match stage with
      | scanning earlier => scanning (earlier ++ rows)
      | stage => stage
  | .networksCreate _ _, .ok id =>
      match stage with
      | building env none containers => building env (some id) containers
      | stage => stage
  | .containersRun _, .ok id =>
      match stage with
      | building env network containers => building env network (containers ++ [id])
      | stage => stage
  | .containersList, .ok containers => grouping containers
  | .networksList, .ok networks =>
      match stage with
      | grouping containers => listing containers networks none
      | stage => stage
  | .containerGet id, reply => stage.onResource (.container id) reply
  | .containerStop id, reply => stage.onResource (.container id) reply
  | .containerRemove id, reply => stage.onRemove (.container id) reply
  | .networkGet id, reply => stage.onResource (.network id) reply
  | .networkRemove id, reply => stage.onRemove (.network id) reply
  | _, _ => stage

end Stage

/-- A failed call is about a resource. -/
def Call.about (resource : Resource) : Call → Prop
  | .containerGet id => resource = .container id
  | .containerStop id => resource = .container id
  | .containerRemove id => resource = .container id
  | .networkGet id => resource = .network id
  | .networkRemove id => resource = .network id
  | _ => False

namespace Phase

variable (phase : Phase)

/-- The row that a thread may load. -/
def Loads (id : Uuid) : Prop :=
  match phase.stage with
  | .starting | .absent | .broken | .building _ _ _ | .removing _ _ =>
      phase.role.target = some id
  | .listing _ _ _ => phase.role = .sweep .reconcileOrphans
  | _ => False

/-- Who writes what: every commit of changed rows is one of these. -/
inductive Commits : List Change → Prop
  | provisioning (env : Environment) (now : Time) :
      phase.role.runs .provision →
      phase.stage = .loaded env →
      now ∈ phase.readings →
      Commits [⟨env, env.setStatus .provisioning now⟩]
  | running (env : Environment) (network : DockerId) (containers : List DockerId)
      (port : Nat) (now changed : Time) :
      phase.role.runs .provision →
      phase.stage = .building env (some network) containers →
      containers ≠ [] →
      now ∈ phase.readings →
      changed ∈ phase.readings →
      Commits [⟨env, Worker.asRunning env ⟨network, containers, port⟩ now changed⟩]
  | stopping (env : Environment) (now : Time) :
      phase.role.runs .teardown →
      phase.stage = .loaded env →
      now ∈ phase.readings →
      Commits [⟨env, env.setStatus .stopping now⟩]
  | stopped (env : Environment) (cleared : List Resource) (changed now : Time) :
      phase.role.runs .teardown →
      phase.stage = .removing env cleared →
      (∀ resource ∈ env.recorded,
        resource ∈ cleared ∨ ∃ call ∈ phase.failed, call.about resource) →
      changed ∈ phase.readings →
      Commits [⟨env, Worker.asStopped env changed now⟩]
  | failed (task : Task) (env : Environment) (message : String) (now : Time) :
      phase.role.runs task →
      phase.stage = .marking env →
      now ∈ phase.readings →
      Commits [⟨env, Worker.asFailed env message now⟩]
  | accepted (env : Environment) (task : TaskId) :
      phase.stage = .deleting env task →
      Commits [⟨env, { env with celeryTaskId := some task }⟩]
  | reaping (rows : List Environment) (changes : List Change) :
      phase.role = .sweep .reapExpired →
      phase.stage = .selected rows →
      (∀ change ∈ changes, change.seen ∈ rows ∧ ∃ now ∈ phase.readings,
        change.now = change.seen.setStatus .stopping now) →
      Commits changes
  | recovering (rows : List Environment) (changes : List Change) :
      phase.role = .sweep .recoverStale →
      phase.stage = .scanning rows →
      (∀ change ∈ changes, change.seen ∈ rows ∧ ∃ now ∈ phase.readings, ∃ message,
        change.now = Worker.asFailed change.seen message now) →
      Commits changes

/-- Who publishes which message. -/
inductive Publishes : Task → String → Nat → Prop
  | create (principal : String) (payload : EnvironmentCreate) (count : Nat)
      (env : Environment) :
      phase.role = .request (.create principal payload) →
      phase.stage = .inserted count env →
      Publishes .provision env.id.str 0
  | delete (id : Uuid) (principal : String) (env : Environment) :
      phase.role = .request (.delete id principal) →
      phase.stage = .loaded env →
      Publishes .teardown env.id.str 0
  | reap (rows : List Environment) (env : Environment) :
      phase.stage = .claimed rows →
      env ∈ rows →
      Publishes .teardown env.id.str 0
  | retry (message : Message) :
      phase.role = .task message →
      phase.stage.Retired →
      message.retries < message.task.maxRetries →
      Publishes message.task message.envId (message.retries + 1)

/-- The containers that an attempt may start. -/
def Runs (deployment : Deployment) (request : Compose.RunRequest) : Prop :=
  ∃ env network containers template spec,
    phase.role.runs .provision ∧
    phase.stage = .building env (some network) containers ∧
    deployment.templates.lookup env.template = some template ∧
    spec ∈ template ∧
    request.envLabel = env.id.str ∧
    request.roleLabel = spec.role ∧
    request.name = Compose.containerName env.id.str spec.role ∧
    request.network = Compose.networkName env.id.str

/-- The pending changes of the staleness sweep. -/
def Pends (pending : List Change) : Prop :=
  ∃ rows, phase.stage = .scanning rows ∧
    ∀ change ∈ pending, change.seen ∈ rows ∧ ∃ now ∈ phase.readings, ∃ message,
      change.now = Worker.asFailed change.seen message now

/-- The calls that a thread may make. -/
def permits (deployment : Deployment) : Call → Prop
  | .loadEnvironment id => phase.Loads id
  | .commitChanges changes => phase.Commits changes
  | .publish task envId retries _ => phase.Publishes task envId retries
  | .countActive owner => ∃ payload, phase.role = .request (.create owner payload)
  | .countOwned owner status => ∃ limit offset,
      phase.role = .request (.list owner status limit offset)
  | .findActive owner name => ∃ payload count,
      phase.role = .request (.create owner payload) ∧
      phase.stage = .counted count ∧ name = payload.name
  | .flushInsert name owner template ttlSeconds => ∃ payload count,
      phase.role = .request (.create owner payload) ∧
      phase.stage = .checked count ∧
      (count : Int) < deployment.settings.maxEnvironmentsPerUser ∧
      name = payload.name ∧ template = payload.template ∧
      ttlSeconds = payload.ttlSeconds
  | .commitInsert env => ∃ owner payload count,
      phase.role = .request (.create owner payload) ∧
      phase.stage = .published count env
  | .selectExpired now => phase.role = .sweep .reapExpired ∧ now ∈ phase.readings
  | .selectStale status _ pending => phase.role = .sweep .recoverStale ∧
      status ∈ [.pending, .provisioning, .stopping] ∧ phase.Pends pending
  | .networksCreate name label => ∃ env,
      phase.role.runs .provision ∧
      phase.stage = .building env none [] ∧
      name = Compose.networkName env.id.str ∧ label = env.id.str
  | .containersRun request => phase.Runs deployment request
  | .containerGet id => phase.stage.Removes (.container id)
  | .containerStop id => phase.stage.Removes (.container id)
  | .containerRemove id => phase.stage.Removes (.container id)
  | .networkGet id => phase.stage.Removes (.network id)
  | .networkRemove id => phase.stage.Removes (.network id)
  | .containersList => phase.role = .sweep .reconcileOrphans
  | .networksList => phase.role = .sweep .reconcileOrphans
  | _ => True

/-- The readings after a call. -/
def readingsAfter (request : Call) (reply : Reply request) : List Time :=
  match request, reply with
  | .now, .ok instant => instant :: phase.readings
  | _, _ => phase.readings

/-- The failed calls after a call. -/
def failedAfter (request : Call) (reply : Reply request) : List Call :=
  match reply with
  | .ok _ => phase.failed
  | .error exc => if exc.isNotFound then phase.failed else request :: phase.failed

/-- The phase after a call and its reply. -/
def advance (request : Call) (reply : Reply request) : Phase where
  role := phase.role
  stage := phase.stage.after phase.role request reply
  readings := phase.readingsAfter request reply
  failed := phase.failedAfter request reply

/-- The phase a thread starts in. -/
def start (role : Role) : Phase where
  role := role
  stage :=
    match role with
    | .sweep .recoverStale => .scanning []
    | _ => .starting
  readings := []
  failed := []

/-- A thread starts with empty hands. -/
theorem start_stage (role : Role) :
    (start role).stage = .starting ∨ (start role).stage = .scanning [] := by
  unfold start
  dsimp only
  split
  · exact .inr rfl
  · exact .inl rfl

end Phase

/-- The observer as a protocol. -/
def protocol (deployment : Deployment) : Protocol Phase Call Reply where
  permits phase request := phase.permits deployment request
  possible request reply := ∀ exc, reply = .error exc →
    request.target.raises exc.cls = true
  advance := Phase.advance

/-- The observer takes every reply of the world for possible. -/
theorem protocol_describes (deployment : Deployment) :
    (protocol deployment).Describes (machine deployment) := by
  intro world request choice reply next executed exc raised
  exact (World.exec_effect executed).raises raised

end Provisioner
