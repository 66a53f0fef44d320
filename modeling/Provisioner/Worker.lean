import Provisioner.DockerManager

/-!
# The worker

The two retried tasks and the three sweeps of `worker/tasks.py`. An exception
inside a task carries what the `except` block still knows of the locals: the
template label and the session's copy of the row.
-/

namespace Provisioner

open Resumption

/-- What the tasks and the endpoints return. -/
inductive Answer
  | provisioned (envId : String) (hostPort : Nat)
  | tornDown (envId : String)
  | reaped (count : Nat)
  | reconciled (removed skipped : Nat)
  /-- The counts per status; the total is their sum. -/
  | recovered (counts : List (EnvironmentStatus × Nat))
  /-- `TaskAccepted` -/
  | accepted (environmentId : Uuid) (taskId : TaskId) (message : String)
  | environment (env : Environment)
  /-- `EnvironmentList` -/
  | listing (total : Nat) (items : List Environment)
  deriving DecidableEq

namespace Worker

/-- `UNKNOWN_TEMPLATE` -/
def unknownTemplate : String := "unknown"

/-- What the `except` block of a task finds. -/
structure Failure where
  exc : Exn
  /-- The value of the local `template`. -/
  template : String
  /-- The row in the session's identity map. It is absent when the session has
  an open transaction, because `rollback` then expires the row. -/
  held : Option Environment

/-- A step of a task, with what an exception in it would leave behind. -/
def during {α : Type}
    (template : String)
    (held : Option Environment)
    (step : Action α) : Program Call Reply Failure α :=
  step.mapError fun exc => ⟨exc, template, held⟩

/-- A step meets what it meets without the note of what it would leave behind. -/
theorem during_meets {State α : Type} {service : Service State Call Reply} {state : State}
    {template : String} {held : Option Environment} {step : Action α}
    {post : State → Except Failure α → Prop} :
    (during template held step).Meets service post state ↔
      step.Meets service (fun reached result =>
        post reached (result.mapError fun exc => ⟨exc, template, held⟩)) state :=
  Program.meets_mapError

/-- `_load_env` -/
def loadEnv (envId : String) : Action (Option Environment) :=
  match Uuid.parse envId with
  | none => .raise ⟨.valueError, "badly formed hexadecimal UUID string"⟩
  | some id => perform (.loadEnvironment id)

theorem loadEnv_of_parse {envId : String} {id : Uuid} (parsed : Uuid.parse envId = some id) :
    loadEnv envId = perform (.loadEnvironment id) := by
  unfold loadEnv
  rw [parsed]

/-- The error for a row that does not exist. -/
def notFound (envId : String) : Exn :=
  ⟨.valueError, "Environment " ++ envId ++ " not found"⟩

/-- `message[:500]` -/
def truncated (message : String) : String :=
  .ofList (message.toList.take 500)

/-- `env` with the status and the error message of a failure. -/
def asFailed (env : Environment) (message : String) (now : Time) : Environment :=
  { env.setStatus .failed now with errorMessage := some (truncated message) }

/-- `_mark_failed`. Rolling back leaves a row that the session holds as it is,
so the copy in memory wins over the row that the query returns. -/
def markFailed (held : Option Environment) (envId message : String) : Action Unit :=
  (do
    let found ← loadEnv envId
    match found with
    | none => pure ()
    | some fresh => do
        let env := held.getD fresh
        let now ← perform .now
        perform (.commitChanges [⟨env, asFailed env message now⟩])).tryCatch
    fun _ => pure ()

/-- `self.retry` -/
def selfRetry (message : Message) (countdown : Int) (exc : Exn) : Action Answer :=
  if message.task.maxRetries ≤ message.retries then .raise exc
  else do
    let _ ← perform
      (.publish message.task message.envId (message.retries + 1) countdown)
    .raise ⟨.retry, "Retry in " ++ toString countdown ++ "s"⟩

/-- `env` as a finished provision leaves it. -/
def asRunning
    (env : Environment)
    (result : DockerManager.StackResult)
    (now changed : Time) : Environment :=
  { env.setStatus .running changed with
    networkId := some result.networkId
    containerIds := result.containerIds
    hostPort := some result.hostPort
    startedAt := some now
    expiresAt := some (now + seconds env.ttlSeconds) }

/-- `env` as a finished teardown leaves it. -/
def asStopped (env : Environment) (changed now : Time) : Environment :=
  { env.setStatus .stopped changed with stoppedAt := some now }

/-- The `try` block of `provision_environment`. -/
def provisionAttempt
    (deployment : Deployment)
    (envId : String)
    (started : Time) : Program Call Reply Failure Answer := do
  let found ← during unknownTemplate none (loadEnv envId)
  match found with
  | none => .raise ⟨notFound envId, unknownTemplate, none⟩
  | some loaded => do
      let template := loaded.template
      let now ← during template none (perform .now)
      let env := loaded.setStatus .provisioning now
      during template none (perform (.commitChanges [⟨loaded, env⟩]))
      let result ← during template (some env)
        (DockerManager.provision deployment env.id.str env.template)
      let now ← during template (some env) (perform .now)
      let changed ← during template (some env) (perform .now)
      let done := asRunning env result now changed
      during template none (perform (.commitChanges [⟨env, done⟩]))
      during template none (perform (.record (.provisionTotal template .success)))
      let finished ← during template none (perform .now)
      during template none
        (perform (.record (.provisionDuration template (finished - started))))
      pure (.provisioned envId result.hostPort)

/-- `provision_environment` -/
def provisionEnvironment
    (deployment : Deployment)
    (message : Message) : Action Answer := do
  let started ← perform .now
  (provisionAttempt deployment message.envId started).tryCatch fun failure => do
    markFailed failure.held message.envId failure.exc.message
    let retryable := !failure.exc.isValueError
    let exhausted := decide (Task.provision.maxRetries ≤ message.retries)
    perform (.record (.provisionTotal failure.template
      (if retryable && !exhausted then .retry else .failure)))
    if retryable then
      selfRetry message (2 ^ message.retries * 10) failure.exc
    else .raise failure.exc

/-- The `try` block of `teardown_environment`. -/
def teardownAttempt (envId : String) : Program Call Reply Failure Answer := do
  let found ← during unknownTemplate none (loadEnv envId)
  match found with
  | none => .raise ⟨notFound envId, unknownTemplate, none⟩
  | some loaded => do
      let now ← during unknownTemplate none (perform .now)
      let env := loaded.setStatus .stopping now
      during unknownTemplate none (perform (.commitChanges [⟨loaded, env⟩]))
      during unknownTemplate (some env)
        (DockerManager.teardown env.containerIds env.networkId)
      let changed ← during unknownTemplate (some env) (perform .now)
      let now ← during unknownTemplate (some env) (perform .now)
      let done := asStopped env changed now
      during unknownTemplate none (perform (.commitChanges [⟨env, done⟩]))
      during unknownTemplate none (perform (.record (.teardownTotal .success)))
      pure (.tornDown envId)

/-- `teardown_environment` -/
def teardownEnvironment (message : Message) : Action Answer :=
  (teardownAttempt message.envId).tryCatch fun failure => do
    let exhausted := decide (Task.teardown.maxRetries ≤ message.retries)
    perform (.record (.teardownTotal (if exhausted then .failure else .retry)))
    if exhausted then do
      markFailed failure.held message.envId ("Teardown failed: " ++ failure.exc.message)
      .raise failure.exc
    else selfRetry message 5 failure.exc

/-- Set the status of selected rows one by one, reading the clock for each. -/
def changeAll
    (change : Environment → Time → Environment) :
    List Environment → Action (List Change)
  | [] => pure []
  | env :: rows => do
      let now ← perform .now
      let changes ← changeAll change rows
      pure (⟨env, change env now⟩ :: changes)

/-- `reap_expired_environments` -/
def reapExpiredEnvironments : Action Answer := do
  let now ← perform .now
  let expired ← perform (.selectExpired now)
  if expired.isEmpty then pure (.reaped 0)
  else do
    let changes ← changeAll (fun env now => env.setStatus .stopping now) expired
    perform (.commitChanges changes)
    Program.forEach (fun env => do
      let _ ← perform (.publish .teardown env.id.str 0 0)
      pure ()) expired
    pure (.reaped expired.length)

/-- The loop of `reconcile_orphans` over the labelled resources. -/
def reconcileFound :
    List (String × DockerManager.LabelledResources) → Nat → Nat → Action Answer
  | [], removed, skipped => pure (.reconciled removed skipped)
  | (envId, resources) :: found, removed, skipped =>
      match Uuid.parse envId with
      -- `_load_env` raises `ValueError`, and the label is skipped.
      | none => reconcileFound found removed (skipped + 1)
      | some id => do
          let row ← perform (.loadEnvironment id)
          if row.all fun env => env.status.terminal then do
            DockerManager.removeResources resources.containerIds resources.networkIds
            reconcileFound found (removed + 1) skipped
          else reconcileFound found removed (skipped + 1)

/-- `reconcile_orphans` -/
def reconcileOrphans (deployment : Deployment) : Action Answer := do
  let found ← DockerManager.findLabelled deployment.settings.orphanGraceSeconds
  reconcileFound found 0 0

/-- `TRANSIENT_TIMEOUTS` -/
def transientTimeouts (settings : Settings) : List (EnvironmentStatus × Int) :=
  [ (.pending, settings.pendingTimeoutSeconds),
    (.provisioning, settings.provisioningTimeoutSeconds),
    (.stopping, settings.stoppingTimeoutSeconds) ]

/-- The message on a row that is presumed dead. -/
def presumedDead (status : EnvironmentStatus) (timeout : Int) : String :=
  "Presumed dead: stuck in " ++ status.value ++ " for over " ++ toString timeout ++ "s"

/-- The loop of `recover_stale_transitions` over the timeouts: the pending
changes of the session and the counts. -/
def recoverTimeouts (now : Time) :
    List (EnvironmentStatus × Int) → List Change → List (EnvironmentStatus × Nat) →
      Action (List Change × List (EnvironmentStatus × Nat))
  | [], changes, counts => pure (changes, counts)
  | (status, timeout) :: timeouts, changes, counts => do
      let stale ← perform (.selectStale status (now - seconds timeout) changes)
      let failed ← changeAll
        (fun env now => asFailed env (presumedDead status timeout) now) stale
      recoverTimeouts now timeouts (changes ++ failed)
        (if stale.isEmpty then counts else counts ++ [(status, stale.length)])

/-- `recover_stale_transitions` -/
def recoverStaleTransitions (deployment : Deployment) : Action Answer := do
  let now ← perform .now
  let (changes, counts) ← recoverTimeouts now
    (transientTimeouts deployment.settings) [] []
  if counts.isEmpty then pure (.recovered counts)
  else do
    perform (.commitChanges changes)
    pure (.recovered counts)

end Worker

end Provisioner
