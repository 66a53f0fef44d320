import Provisioner.Runs
import Provisioner.Resumption.Records

/-!
# The log lines of the worker

The tasks and sweeps of `worker/tasks.py` and the methods of `DockerManager` once more, with
their log lines and with `bind_env_id` around them. Every line is rendered with the `env_id`
that is bound when it is written. Without their lines these are the programs of the worker.
-/

namespace Provisioner

open Resumption

/-- How a line is written. An exception is written with its traceback, which is not shown. -/
inductive Level
  | info
  | warning
  | error
  | exception
  deriving DecidableEq

/-- The value of a field of a line. -/
inductive FieldValue
  | text (value : String)
  | number (value : Int)
  /-- `isoformat()` -/
  | instant (value : Option Time)
  /-- The start of a container id. -/
  | container (id : DockerId)
  /-- The start of a network id. -/
  | network (id : DockerId)
  deriving DecidableEq

/-- A log line before the bound `env_id` is added. -/
structure Line where
  level : Level
  event : String
  fields : List (String × FieldValue) := []
  deriving DecidableEq

/-- Programs that write log lines. The context variable is `env_id`. -/
abbrev Logged (ε α : Type) : Type :=
  Recorded Call Reply String Line ε α

namespace Logging

open Recorded

variable {ε α : Type}

/-- `bind_env_id` -/
def bindEnvId (envId : String) (body : Logged ε α) : Logged ε α :=
  within envId body

def info (event : String) (fields : List (String × FieldValue)) : Logged ε Unit :=
  write ⟨.info, event, fields⟩

def warning (event : String) (fields : List (String × FieldValue)) : Logged ε Unit :=
  write ⟨.warning, event, fields⟩

def error (event : String) (fields : List (String × FieldValue)) : Logged ε Unit :=
  write ⟨.error, event, fields⟩

/-- `log.exception` -/
def exception (event : String) (fields : List (String × FieldValue)) : Logged ε Unit :=
  write ⟨.exception, event, fields⟩

/-! ## The Docker manager -/

/-- The loop of `provision` over the specs in start order. -/
def startContainers
    (deployment : Deployment)
    (envId : String)
    (roles : List String) :
    List ContainerSpec → List DockerId → Option Nat →
      Logged Exn (List DockerId × Option Nat)
  | [], containerIds, hostPort => pure (containerIds, hostPort)
  | spec :: specs, containerIds, hostPort => do
      let environment ← embed (.ofExcept (Compose.resolveEnvironment deployment envId spec roles))
      let container ← embed (DockerManager.startContainer deployment envId spec environment)
      info "container.started" [("container_id", .container container), ("role", .text spec.role)]
      embed (DockerManager.waitForReady deployment container spec)
      let hostPort ← embed (DockerManager.readPort container spec hostPort)
      startContainers deployment envId roles specs (containerIds ++ [container]) hostPort

/-- `provision` -/
def provision
    (deployment : Deployment)
    (envId templateName : String) : Logged Exn DockerManager.StackResult :=
  match deployment.templates.lookup templateName with
  | none | some [] => .raise ⟨.valueError, "Unknown template: " ++ pyRepr templateName⟩
  | some template => do
      let network ← embed (DockerManager.createNetwork envId)
      info "network.created" [("network_id", .network network)]
      let (containerIds, hostPort) ← startContainers deployment envId
        (template.map ContainerSpec.role) (Compose.startOrder template) [] none
      match hostPort with
      | none => .raise ⟨.runtimeError, "No exposed port found after provisioning"⟩
      | some hostPort => pure ⟨network, containerIds, hostPort⟩

/-- The body of the loop over containers in `remove_resources`. -/
def removeContainer (id : DockerId) : Logged Exn Unit :=
  Program.tryCatch
    (do
      embed (perform (.containerGet id))
      embed (perform (.containerStop id))
      embed (perform (.containerRemove id))
      info "container.removed" [("container_id", .container id)])
    fun exc =>
      if exc.isNotFound then warning "container.already_gone" [("container_id", .container id)]
      else error "container.remove_failed"
        [("container_id", .container id), ("error", .text exc.message)]

/-- The body of the loop over networks in `remove_resources`. -/
def removeNetwork (id : DockerId) : Logged Exn Unit :=
  Program.tryCatch
    (do
      embed (perform (.networkGet id))
      embed (perform (.networkRemove id))
      info "network.removed" [("network_id", .network id)])
    fun exc =>
      if exc.isNotFound then pure ()
      else error "network.remove_failed"
        [("network_id", .network id), ("error", .text exc.message)]

/-- `remove_resources` -/
def removeResources (envId : String) (containerIds networkIds : List DockerId) :
    Logged Exn Unit :=
  bindEnvId envId do
    Program.forEach removeContainer containerIds
    Program.forEach removeNetwork networkIds

/-- `teardown` -/
def teardown (envId : String) (containerIds : List DockerId) (networkId : Option DockerId) :
    Logged Exn Unit :=
  removeResources envId containerIds networkId.toList

/-! ## The tasks -/

/-- A step of a task, with what an exception in it would leave behind. -/
def during
    (template : String)
    (held : Option Environment)
    (step : Logged Exn α) : Logged Worker.Failure α :=
  Program.mapError (fun exc => ⟨exc, template, held⟩) step

/-- `_mark_failed` -/
def markFailed (held : Option Environment) (envId message : String) : Logged Exn Unit :=
  Program.tryCatch
    (embed do
      let found ← Worker.loadEnv envId
      match found with
      | none => pure ()
      | some fresh => do
          let env := held.getD fresh
          let now ← perform .now
          perform (.commitChanges [⟨env, Worker.asFailed env message now⟩]))
    fun _ => exception "environment.mark_failed_error" []

/-- The `try` block of `provision_environment`. -/
def provisionAttempt
    (deployment : Deployment)
    (envId : String)
    (started : Time) : Logged Worker.Failure Answer := do
  let found ← during Worker.unknownTemplate none (embed (Worker.loadEnv envId))
  match found with
  | none => .raise ⟨Worker.notFound envId, Worker.unknownTemplate, none⟩
  | some loaded => do
      let template := loaded.template
      let now ← during template none (embed (perform .now))
      let env := loaded.setStatus .provisioning now
      during template none (embed (perform (.commitChanges [⟨loaded, env⟩])))
      info "provision.started" [("template", .text env.template)]
      let result ← during template (some env) (provision deployment env.id.str env.template)
      let now ← during template (some env) (embed (perform .now))
      let changed ← during template (some env) (embed (perform .now))
      let done := Worker.asRunning env result now changed
      during template none (embed (perform (.commitChanges [⟨env, done⟩])))
      during template none (embed (perform (.record (.provisionTotal template .success))))
      let finished ← during template none (embed (perform .now))
      during template none
        (embed (perform (.record (.provisionDuration template (finished - started)))))
      info "provision.running"
        [("template", .text env.template), ("host_port", .number result.hostPort),
          ("container_count", .number result.containerIds.length),
          ("expires_at", .instant done.expiresAt)]
      pure (.provisioned envId result.hostPort)

/-- `provision_environment` -/
def provisionEnvironment
    (deployment : Deployment)
    (message : Message) : Logged Exn Answer := do
  let started ← embed (perform .now)
  bindEnvId message.envId
    (Program.tryCatch (provisionAttempt deployment message.envId started) fun failure => do
      exception "provision.failed" [("error", .text failure.exc.message)]
      markFailed failure.held message.envId failure.exc.message
      let retryable := !failure.exc.isValueError
      let exhausted := decide (Task.provision.maxRetries ≤ message.retries)
      embed (perform (.record (.provisionTotal failure.template
        (if retryable && !exhausted then .retry else .failure))))
      if retryable then
        embed (Worker.selfRetry message (2 ^ message.retries * 10) failure.exc)
      else .raise failure.exc)

/-- The `try` block of `teardown_environment`. -/
def teardownAttempt (envId : String) : Logged Worker.Failure Answer := do
  let found ← during Worker.unknownTemplate none (embed (Worker.loadEnv envId))
  match found with
  | none => .raise ⟨Worker.notFound envId, Worker.unknownTemplate, none⟩
  | some loaded => do
      let now ← during Worker.unknownTemplate none (embed (perform .now))
      let env := loaded.setStatus .stopping now
      during Worker.unknownTemplate none (embed (perform (.commitChanges [⟨loaded, env⟩])))
      info "teardown.started" []
      during Worker.unknownTemplate (some env)
        (teardown env.id.str env.containerIds env.networkId)
      let changed ← during Worker.unknownTemplate (some env) (embed (perform .now))
      let now ← during Worker.unknownTemplate (some env) (embed (perform .now))
      let done := Worker.asStopped env changed now
      during Worker.unknownTemplate none (embed (perform (.commitChanges [⟨env, done⟩])))
      during Worker.unknownTemplate none (embed (perform (.record (.teardownTotal .success))))
      info "teardown.complete" []
      pure (.tornDown envId)

/-- `teardown_environment` -/
def teardownEnvironment (message : Message) : Logged Exn Answer :=
  bindEnvId message.envId
    (Program.tryCatch (teardownAttempt message.envId) fun failure => do
      exception "teardown.failed"
        [("error", .text failure.exc.message), ("attempt", .number message.retries)]
      let exhausted := decide (Task.teardown.maxRetries ≤ message.retries)
      embed (perform (.record (.teardownTotal (if exhausted then .failure else .retry))))
      if exhausted then do
        markFailed failure.held message.envId ("Teardown failed: " ++ failure.exc.message)
        .raise failure.exc
      else embed (Worker.selfRetry message 5 failure.exc))

/-! ## The sweeps -/

/-- The line about an environment whose teardown the reaper has enqueued. -/
def enqueuedTeardown (env : Environment) : Line :=
  ⟨.info, "reap.enqueued_teardown", [("expires_at", .instant env.expiresAt)]⟩

/-- `reap_expired_environments` -/
def reapExpiredEnvironments : Logged Exn Answer := do
  let now ← embed (perform .now)
  let expired ← embed (perform (.selectExpired now))
  if expired.isEmpty then pure (.reaped 0)
  else do
    let changes ← embed (Worker.changeAll (fun env now => env.setStatus .stopping now) expired)
    embed (perform (.commitChanges changes))
    Program.forEach (fun env => do
      let _ ← embed (perform (.publish .teardown env.id.str 0 0))
      bindEnvId env.id.str (write (enqueuedTeardown env))) expired
    pure (.reaped expired.length)

/-- The line about resources that are going to be removed. -/
def removing (row : Option Environment) (resources : DockerManager.LabelledResources) : Line :=
  ⟨.info, "orphan.removing",
    [("reason", .text (match row with
        | none => "no_db_row"
        | some env => env.status.value)),
      ("container_count", .number resources.containerIds.length),
      ("network_count", .number resources.networkIds.length)]⟩

/-- The line about a label that is no UUID. -/
def unparseableLabel (label : String) : Line :=
  ⟨.warning, "orphan.unparseable_label", [("label", .text (pyRepr label))]⟩

/-- The loop of `reconcile_orphans` over the labelled resources. -/
def reconcileFound :
    List (String × DockerManager.LabelledResources) → Nat → Nat → Logged Exn Answer
  | [], removed, skipped => pure (.reconciled removed skipped)
  | (envId, resources) :: found, removed, skipped =>
      match Uuid.parse envId with
      | none => do
          write (unparseableLabel envId)
          reconcileFound found removed (skipped + 1)
      | some id => do
          let row ← embed (perform (.loadEnvironment id))
          if row.all fun env => env.status.terminal then do
            bindEnvId envId do
              write (removing row resources)
              removeResources envId resources.containerIds resources.networkIds
            reconcileFound found (removed + 1) skipped
          else reconcileFound found removed (skipped + 1)

/-- `reconcile_orphans` -/
def reconcileOrphans (deployment : Deployment) : Logged Exn Answer := do
  let found ← embed (DockerManager.findLabelled deployment.settings.orphanGraceSeconds)
  reconcileFound found 0 0

/-- The line about a row that is presumed dead. -/
def presumedDead (status : EnvironmentStatus) (timeout : Int) : Line :=
  ⟨.warning, "stale.presumed_dead",
    [("stuck_in", .text status.value), ("timeout_seconds", .number timeout)]⟩

/-- The loop of `recover_stale_transitions` over the rows of one status. -/
def failAll (status : EnvironmentStatus) (timeout : Int) :
    List Environment → Logged Exn (List Change)
  | [] => pure []
  | env :: rows => do
      bindEnvId env.id.str (write (presumedDead status timeout))
      let now ← embed (perform .now)
      let changes ← failAll status timeout rows
      pure (⟨env, Worker.asFailed env (Worker.presumedDead status timeout) now⟩ :: changes)

/-- The loop of `recover_stale_transitions` over the timeouts. -/
def recoverTimeouts (now : Time) :
    List (EnvironmentStatus × Int) → List Change → List (EnvironmentStatus × Nat) →
      Logged Exn (List Change × List (EnvironmentStatus × Nat))
  | [], changes, counts => pure (changes, counts)
  | (status, timeout) :: timeouts, changes, counts => do
      let stale ← embed (perform (.selectStale status (now - seconds timeout) changes))
      let failed ← failAll status timeout stale
      recoverTimeouts now timeouts (changes ++ failed)
        (if stale.isEmpty then counts else counts ++ [(status, stale.length)])

/-- `recover_stale_transitions` -/
def recoverStaleTransitions (deployment : Deployment) : Logged Exn Answer := do
  let now ← embed (perform .now)
  let (changes, counts) ← recoverTimeouts now
    (Worker.transientTimeouts deployment.settings) [] []
  if counts.isEmpty then pure (.recovered counts)
  else do
    embed (perform (.commitChanges changes))
    pure (.recovered counts)

/-- The program of a role with its log lines. The endpoints of the API write none. -/
def program (deployment : Deployment) : Role → Logged Exn Answer
  | .request request => embed (Provisioner.program deployment (.request request))
  | .task message =>
      match message.task with
      | .provision => provisionEnvironment deployment message
      | .teardown => teardownEnvironment message
  | .sweep .reapExpired => reapExpiredEnvironments
  | .sweep .reconcileOrphans => reconcileOrphans deployment
  | .sweep .recoverStale => recoverStaleTransitions deployment

/-! ## Without the lines -/

theorem startContainers_erases (deployment : Deployment) (envId : String) (roles : List String)
    (specs : List ContainerSpec) (containerIds : List DockerId) (hostPort : Option Nat) :
    (startContainers deployment envId roles specs containerIds hostPort).Erases
      (DockerManager.startContainers deployment envId roles specs containerIds hostPort) := by
  induction specs generalizing containerIds hostPort with
  | nil => exact fun _ => rfl
  | cons spec specs inductionHypothesis =>
      refine erases_bind (erases_embed _) fun environment => ?_
      refine erases_bind (erases_embed _) fun container => erases_write ?_
      refine erases_bind (erases_embed _) fun _ => ?_
      refine erases_bind (erases_embed _) fun hostPort => ?_
      exact inductionHypothesis _ hostPort

theorem provision_erases (deployment : Deployment) (envId templateName : String) :
    (provision deployment envId templateName).Erases
      (DockerManager.provision deployment envId templateName) := by
  unfold provision DockerManager.provision
  rcases deployment.templates.lookup templateName with _ | _ | ⟨spec, specs⟩
  · exact fun _ => rfl
  · exact fun _ => rfl
  · refine erases_bind (erases_embed _) fun network => erases_write ?_
    refine erases_bind (startContainers_erases _ _ _ _ _ _) fun started => ?_
    rcases started with ⟨containerIds, _ | hostPort⟩ <;> exact fun _ => rfl

theorem removeContainer_erases (id : DockerId) :
    (removeContainer id).Erases (DockerManager.removeContainer id) := by
  refine erases_tryCatch ?_ fun exc => ?_
  · refine erases_bind (erases_embed _) fun _ => ?_
    refine erases_bind (erases_embed _) fun _ => ?_
    exact erases_bind_write (erases_embed _)
  · split <;> exact fun _ => rfl

theorem removeNetwork_erases (id : DockerId) :
    (removeNetwork id).Erases (DockerManager.removeNetwork id) := by
  refine erases_tryCatch ?_ fun exc => ?_
  · refine erases_bind (erases_embed _) fun _ => ?_
    exact erases_bind_write (erases_embed _)
  · split <;> exact fun _ => rfl

theorem removeResources_erases (envId : String) (containerIds networkIds : List DockerId) :
    (removeResources envId containerIds networkIds).Erases
      (DockerManager.removeResources containerIds networkIds) := by
  refine erases_within ?_
  refine erases_bind (erases_forEach removeContainer_erases _) fun _ => ?_
  exact erases_forEach removeNetwork_erases _

theorem markFailed_erases (held : Option Environment) (envId message : String) :
    (markFailed held envId message).Erases (Worker.markFailed held envId message) :=
  erases_tryCatch (erases_embed _) fun _ _ => rfl

/-- A step of a task without its lines. -/
theorem during_erases {α : Type} {template : String} {held : Option Environment}
    {step : Logged Exn α} {plain : Action α} (erases : step.Erases plain) :
    (during template held step).Erases (Worker.during template held plain) :=
  erases_mapError erases

/-- A call of a task writes no line. -/
theorem call_erases {template : String} {held : Option Environment} (request : Call) :
    (during template held (embed (perform request))).Erases
      (Worker.during template held (perform request)) :=
  during_erases (erases_embed _)

theorem provisionAttempt_erases (deployment : Deployment) (envId : String) (started : Time) :
    (provisionAttempt deployment envId started).Erases
      (Worker.provisionAttempt deployment envId started) := by
  refine erases_bind (during_erases (erases_embed _)) fun found => ?_
  cases found with
  | none => exact fun _ => rfl
  | some loaded =>
      -- PROVISIONING is committed.
      refine erases_bind (call_erases _) fun now => ?_
      refine erases_bind (call_erases _) fun _ => erases_write ?_
      refine erases_bind (during_erases (provision_erases _ _ _)) fun result => ?_
      -- RUNNING is committed.
      refine erases_bind (call_erases _) fun now => ?_
      refine erases_bind (call_erases _) fun changed => ?_
      refine erases_bind (call_erases _) fun _ => ?_
      -- The success is counted and timed.
      refine erases_bind (call_erases _) fun _ => ?_
      refine erases_bind (call_erases _) fun finished => ?_
      refine erases_bind (call_erases _) fun _ => ?_
      exact erases_write fun _ => rfl

theorem teardownAttempt_erases (envId : String) :
    (teardownAttempt envId).Erases (Worker.teardownAttempt envId) := by
  refine erases_bind (during_erases (erases_embed _)) fun found => ?_
  cases found with
  | none => exact fun _ => rfl
  | some loaded =>
      -- STOPPING is committed.
      refine erases_bind (call_erases _) fun now => ?_
      refine erases_bind (call_erases _) fun _ => erases_write ?_
      refine erases_bind (during_erases (removeResources_erases _ _ _)) fun _ => ?_
      -- STOPPED is committed, and the success is counted.
      refine erases_bind (call_erases _) fun changed => ?_
      refine erases_bind (call_erases _) fun now => ?_
      refine erases_bind (call_erases _) fun _ => ?_
      refine erases_bind (call_erases _) fun _ => ?_
      exact erases_write fun _ => rfl

theorem reconcileFound_erases (found : List (String × DockerManager.LabelledResources))
    (removed skipped : Nat) :
    (reconcileFound found removed skipped).Erases
      (Worker.reconcileFound found removed skipped) := by
  induction found generalizing removed skipped with
  | nil => exact fun _ => rfl
  | cons entry found inductionHypothesis =>
      unfold reconcileFound Worker.reconcileFound
      cases Uuid.parse entry.1 with
      | none => exact erases_write (inductionHypothesis _ _)
      | some id =>
          refine erases_bind (erases_embed _) fun row => ?_
          split
          · refine erases_bind (erases_within ?_) fun _ => inductionHypothesis _ _
            exact erases_write (removeResources_erases _ _ _)
          · exact inductionHypothesis _ _

/-- A line in a binding of its own. -/
theorem bound_erases {envId : String} {line : Line} :
    (bindEnvId envId (write line) : Logged Exn Unit).Erases (.pure ()) :=
  erases_within fun _ => rfl

theorem failAll_erases (status : EnvironmentStatus) (timeout : Int) (rows : List Environment) :
    (failAll status timeout rows).Erases (Worker.changeAll
      (fun env now => Worker.asFailed env (Worker.presumedDead status timeout) now) rows) := by
  induction rows with
  | nil => exact fun _ => rfl
  | cons env rows inductionHypothesis =>
      have round : Erases (failAll status timeout (env :: rows)) ((.pure () : Action Unit) >>=
          fun _ => Worker.changeAll (fun env now =>
            Worker.asFailed env (Worker.presumedDead status timeout) now) (env :: rows)) := by
        refine erases_bind bound_erases fun _ => ?_
        refine erases_bind (erases_embed _) fun now => ?_
        exact erases_bind inductionHypothesis fun changes _ => rfl
      exact round

theorem recoverTimeouts_erases (now : Time) (timeouts : List (EnvironmentStatus × Int))
    (changes : List Change) (counts : List (EnvironmentStatus × Nat)) :
    (recoverTimeouts now timeouts changes counts).Erases
      (Worker.recoverTimeouts now timeouts changes counts) := by
  induction timeouts generalizing changes counts with
  | nil => exact fun _ => rfl
  | cons entry timeouts inductionHypothesis =>
      refine erases_bind (erases_embed _) fun stale => ?_
      refine erases_bind (failAll_erases _ _ _) fun failed => ?_
      exact inductionHypothesis _ _

theorem provisionEnvironment_erases (deployment : Deployment) (message : Message) :
    (provisionEnvironment deployment message).Erases
      (Worker.provisionEnvironment deployment message) := by
  refine erases_bind (erases_embed _) fun started => erases_within ?_
  refine erases_tryCatch (provisionAttempt_erases _ _ _) fun failure => erases_write ?_
  refine erases_bind (markFailed_erases _ _ _) fun _ => ?_
  refine erases_bind (erases_embed _) fun _ => ?_
  split
  · exact erases_embed _
  · exact fun _ => rfl

theorem teardownEnvironment_erases (message : Message) :
    (teardownEnvironment message).Erases (Worker.teardownEnvironment message) := by
  refine erases_within ?_
  refine erases_tryCatch (teardownAttempt_erases _) fun failure => erases_write ?_
  refine erases_bind (erases_embed _) fun _ => ?_
  split
  · exact erases_bind (markFailed_erases _ _ _) fun _ _ => rfl
  · exact erases_embed _

/-- Without its log lines and bindings, every role runs the program it runs. -/
theorem program_erases (deployment : Deployment) (role : Role) :
    (program deployment role).Erases (Provisioner.program deployment role) := by
  cases role with
  | request request => exact erases_embed _
  | task message =>
      unfold program Provisioner.program
      dsimp only
      cases message.task with
      | provision => exact provisionEnvironment_erases deployment message
      | teardown => exact teardownEnvironment_erases message
  | sweep sweep =>
      cases sweep with
      | reapExpired =>
          refine erases_bind (erases_embed _) fun now => ?_
          refine erases_bind (erases_embed _) fun expired => ?_
          split
          · exact fun _ => rfl
          · refine erases_bind (erases_embed _) fun changes => ?_
            refine erases_bind (erases_embed _) fun _ => ?_
            refine erases_bind (erases_forEach (fun env => ?_) _) fun _ _ => rfl
            exact erases_bind (erases_embed _) fun _ => bound_erases
      | reconcileOrphans =>
          exact erases_bind (erases_embed _) fun found => reconcileFound_erases _ _ _
      | recoverStale =>
          refine erases_bind (erases_embed _) fun now => ?_
          refine erases_bind (recoverTimeouts_erases _ _ _ _) fun recovered => ?_
          obtain ⟨changes, counts⟩ := recovered
          dsimp only
          split
          · exact fun _ => rfl
          · exact erases_bind (erases_embed _) fun _ _ => rfl

end Logging

end Provisioner
