import Provisioner.Calls
import Provisioner.System

/-!
# What each role publishes and records

An attempt that failed publishes its own message with one retry more, as long as there is
one left; a create publishes a provision, and a DELETE and the reaper publish teardowns.
Nothing else is ever published, and only the attempts record samples.
-/

namespace Provisioner

open Resumption

/-- A call that publishes nothing. -/
def Call.quiet : Call → Bool
  | .publish _ _ _ _ => false
  | _ => true

/-- A call that neither publishes nor records. -/
def Call.silent : Call → Bool
  | .publish _ _ _ _ | .record _ => false
  | _ => true

/-- A call that flushes an insert, which gives the row its key. -/
def Call.flushes : Call → Bool
  | .flushInsert _ _ _ _ => true
  | _ => false

theorem Call.quiet_of_silent (request : Call) (silent : request.silent = true) :
    request.quiet = true := by
  cases request <;> first | rfl | cases silent

theorem Call.silent_of_docks (request : Call) (docks : request.docks = true) :
    request.silent = true := by
  cases request <;> first | rfl | cases docks

theorem Call.silent_of_docker (request : Call) (docker : request.target = .docker) :
    request.silent = true := by
  cases request <;> first | rfl | cases docker

/-- What a role publishes. -/
def Role.Publishes (role : Role) (task : Task) (envId : String) (retries : Nat) : Prop :=
  match role with
  | .request (.create _ _) => task = .provision ∧ retries = 0
  | .request (.delete _ _) => task = .teardown ∧ retries = 0
  | .sweep .reapExpired => task = .teardown ∧ retries = 0
  | .task message => task = message.task ∧ envId = message.envId ∧
      retries = message.retries + 1 ∧ message.retries < message.task.maxRetries
  | _ => False

namespace Worker

theorem perform_silent {request : Call} (silent : request.silent = true) :
    (perform request).Makes (·.silent = true) :=
  DockerManager.perform_makes silent

theorem loadEnv_silent (envId : String) : (loadEnv envId).Makes (·.silent = true) := by
  unfold loadEnv
  split
  · trivial
  · exact perform_silent rfl

theorem removeResources_silent (containerIds networkIds : List DockerId) :
    (DockerManager.removeResources containerIds networkIds).Makes (·.silent = true) :=
  (DockerManager.removeResources_docks containerIds networkIds).mono Call.silent_of_docker

theorem provision_silent (deployment : Deployment) (envId templateName : String) :
    (DockerManager.provision deployment envId templateName).Makes (·.silent = true) :=
  (DockerManager.provision_docks envId templateName).mono Call.silent_of_docks

theorem markFailed_silent (held : Option Environment) (envId message : String) :
    (markFailed held envId message).Makes (·.silent = true) := by
  refine Program.makes_tryCatch (Program.makes_bind (loadEnv_silent envId) fun found => ?_)
    fun _ => trivial
  split
  · trivial
  · exact Program.makes_bind (perform_silent rfl) fun _ => perform_silent rfl

theorem changeAll_silent (change : Environment → Time → Environment)
    (rows : List Environment) : (changeAll change rows).Makes (·.silent = true) := by
  induction rows with
  | nil => trivial
  | cons env rows inductionHypothesis =>
      refine Program.makes_bind (perform_silent rfl) fun _ => ?_
      exact Program.makes_bind inductionHypothesis fun _ => trivial

theorem reconcileFound_silent (found : List (String × DockerManager.LabelledResources))
    (removed skipped : Nat) :
    (reconcileFound found removed skipped).Makes (·.silent = true) := by
  induction found generalizing removed skipped with
  | nil => trivial
  | cons entry found inductionHypothesis =>
      unfold reconcileFound
      split
      · exact inductionHypothesis _ _
      · refine Program.makes_bind (perform_silent rfl) fun row => ?_
        split
        · exact Program.makes_bind (removeResources_silent _ _) fun _ => inductionHypothesis _ _
        · exact inductionHypothesis _ _

/-- The orphan sweep neither publishes nor records. -/
theorem reconcileOrphans_silent (deployment : Deployment) :
    (reconcileOrphans deployment).Makes (·.silent = true) := by
  refine Program.makes_bind ?_ fun _ => reconcileFound_silent _ _ _
  refine Program.makes_bind (perform_silent rfl) fun _ => ?_
  refine Program.makes_bind (perform_silent rfl) fun _ => ?_
  exact Program.makes_bind (perform_silent rfl) fun _ => trivial

theorem recoverTimeouts_silent (now : Time) (timeouts : List (EnvironmentStatus × Int))
    (changes : List Change) (counts : List (EnvironmentStatus × Nat)) :
    (recoverTimeouts now timeouts changes counts).Makes (·.silent = true) := by
  induction timeouts generalizing changes counts with
  | nil => trivial
  | cons entry timeouts inductionHypothesis =>
      refine Program.makes_bind (perform_silent rfl) fun _ => ?_
      refine Program.makes_bind (changeAll_silent _ _) fun _ => ?_
      exact inductionHypothesis _ _

/-- The staleness sweep neither publishes nor records. -/
theorem recoverStaleTransitions_silent (deployment : Deployment) :
    (recoverStaleTransitions deployment).Makes (·.silent = true) := by
  refine Program.makes_bind (perform_silent rfl) fun now => ?_
  refine Program.makes_bind (recoverTimeouts_silent _ _ _ _) fun recovered => ?_
  split
  split
  · trivial
  · exact Program.makes_bind (perform_silent rfl) fun _ => trivial

section Attempts

variable {good : Call → Prop}

/-- A step of an attempt. -/
theorem step_makes {α : Type} {template : String} {held : Option Environment} {step : Action α}
    (silent : ∀ request : Call, request.silent = true → good request)
    (makes : step.Makes (·.silent = true)) : (during template held step).Makes good :=
  Program.makes_mapError (makes.mono silent)

/-- A sample that an attempt records. -/
theorem sample_makes {template : String} {held : Option Environment} {metric : Metric}
    (records : good (.record metric)) :
    (during template held (perform (.record metric))).Makes good :=
  Program.makes_mapError (DockerManager.perform_makes records)

/-- Up to its end a provision attempt publishes nothing. -/
theorem provisionAttempt_makes (deployment : Deployment) (envId : String) (started : Time)
    (silent : ∀ request : Call, request.silent = true → good request)
    (records : ∀ metric, good (.record metric)) :
    (provisionAttempt deployment envId started).Makes good := by
  refine Program.makes_bind (step_makes silent (loadEnv_silent envId)) fun found => ?_
  split
  · trivial
  · -- PROVISIONING is committed.
    refine Program.makes_bind (step_makes silent (perform_silent rfl)) fun _ => ?_
    refine Program.makes_bind (step_makes silent (perform_silent rfl)) fun _ => ?_
    refine Program.makes_bind (step_makes silent (provision_silent _ _ _)) fun _ => ?_
    -- RUNNING is committed.
    refine Program.makes_bind (step_makes silent (perform_silent rfl)) fun _ => ?_
    refine Program.makes_bind (step_makes silent (perform_silent rfl)) fun _ => ?_
    refine Program.makes_bind (step_makes silent (perform_silent rfl)) fun _ => ?_
    -- The success is counted and timed.
    refine Program.makes_bind (sample_makes (records _)) fun _ => ?_
    refine Program.makes_bind (step_makes silent (perform_silent rfl)) fun _ => ?_
    exact Program.makes_bind (sample_makes (records _)) fun _ => trivial

/-- Up to its end a teardown attempt publishes nothing. -/
theorem teardownAttempt_makes (envId : String)
    (silent : ∀ request : Call, request.silent = true → good request)
    (records : ∀ outcome, good (.record (.teardownTotal outcome))) :
    (teardownAttempt envId).Makes good := by
  refine Program.makes_bind (step_makes silent (loadEnv_silent envId)) fun found => ?_
  split
  · trivial
  · -- STOPPING is committed.
    refine Program.makes_bind (step_makes silent (perform_silent rfl)) fun _ => ?_
    refine Program.makes_bind (step_makes silent (perform_silent rfl)) fun _ => ?_
    refine Program.makes_bind (step_makes silent (removeResources_silent _ _)) fun _ => ?_
    -- STOPPED is committed, and the success is counted.
    refine Program.makes_bind (step_makes silent (perform_silent rfl)) fun _ => ?_
    refine Program.makes_bind (step_makes silent (perform_silent rfl)) fun _ => ?_
    refine Program.makes_bind (step_makes silent (perform_silent rfl)) fun _ => ?_
    exact Program.makes_bind (sample_makes (records _)) fun _ => trivial

end Attempts

end Worker

theorem Router.loadOwned_silent (envId : Uuid) (principal : String) :
    (Router.loadOwned envId principal).Makes (·.silent = true) := by
  refine Program.makes_bind (Worker.perform_silent rfl) fun found => ?_
  split
  · trivial
  · split <;> trivial

section Publishes

variable {deployment : Deployment} {role : Role} {good : Call → Prop}

theorem Worker.selfRetry_makes_publishes {message : Message} (countdown : Int) (exc : Exn)
    (publishes : ∀ task envId retries countdown,
      Role.Publishes (.task message) task envId retries →
        good (.publish task envId retries countdown)) :
    (Worker.selfRetry message countdown exc).Makes good := by
  unfold Worker.selfRetry
  split
  · trivial
  · rename_i left
    exact Program.makes_bind (DockerManager.perform_makes
      (publishes _ _ _ _ ⟨rfl, rfl, rfl, Nat.lt_of_not_le left⟩)) fun _ => trivial

/-- A provision publishes its own retry, and records its samples. -/
theorem Worker.provisionEnvironment_makes (message : Message)
    (silent : ∀ request : Call, request.silent = true → good request)
    (records : ∀ metric, good (.record metric))
    (publishes : ∀ task envId retries countdown,
      Role.Publishes (.task message) task envId retries →
        good (.publish task envId retries countdown)) :
    (Worker.provisionEnvironment deployment message).Makes good := by
  refine Program.makes_bind ((Worker.perform_silent rfl).mono silent) fun started => ?_
  refine Program.makes_tryCatch (Worker.provisionAttempt_makes _ _ _ silent records)
    fun failure => ?_
  refine Program.makes_bind ((Worker.markFailed_silent _ _ _).mono silent) fun _ => ?_
  refine Program.makes_bind (DockerManager.perform_makes (records _)) fun _ => ?_
  split
  · exact Worker.selfRetry_makes_publishes _ _ publishes
  · trivial

/-- A teardown publishes its own retry, and records its outcomes. -/
theorem Worker.teardownEnvironment_makes (message : Message)
    (silent : ∀ request : Call, request.silent = true → good request)
    (records : ∀ outcome, good (.record (.teardownTotal outcome)))
    (publishes : ∀ task envId retries countdown,
      Role.Publishes (.task message) task envId retries →
        good (.publish task envId retries countdown)) :
    (Worker.teardownEnvironment message).Makes good := by
  refine Program.makes_tryCatch (Worker.teardownAttempt_makes _ silent records) fun failure => ?_
  refine Program.makes_bind (DockerManager.perform_makes (records _)) fun _ => ?_
  split
  · exact Program.makes_bind ((Worker.markFailed_silent _ _ _).mono silent) fun _ => trivial
  · exact Worker.selfRetry_makes_publishes _ _ publishes

/-- A role makes silent calls, records samples if it is an attempt, and publishes what it
publishes. -/
theorem program_makes
    (silent : ∀ request : Call, request.silent = true → good request)
    (records : ∀ message metric, role = .task message → good (.record metric))
    (publishes : ∀ task envId retries countdown, role.Publishes task envId retries →
      good (.publish task envId retries countdown)) :
    (program deployment role).Makes good := by
  have calls : ∀ {request : Call}, request.silent = true → (perform request).Makes good :=
    fun {request} calm => DockerManager.perform_makes (silent request calm)
  cases role with
  | request request =>
      cases request with
      | create principal payload =>
          refine Program.makes_bind (calls rfl) fun count => ?_
          split
          · trivial
          · refine Program.makes_bind (calls rfl) fun existing => ?_
            refine Program.makes_bind (Program.makes_ofExcept _) fun existing => ?_
            split
            · trivial
            · have order := publishes .provision
              refine Program.makes_bind (calls rfl) fun env => ?_
              refine Program.makes_bind
                (DockerManager.perform_makes (order _ _ _ ⟨rfl, rfl⟩)) fun task => ?_
              exact Program.makes_bind (calls rfl) fun _ => trivial
      | list principal status limit offset =>
          refine Program.makes_bind (calls rfl) fun _ => ?_
          exact Program.makes_bind (calls rfl) fun _ => trivial
      | get envId principal =>
          exact Program.makes_bind ((Router.loadOwned_silent _ _).mono silent) fun _ => trivial
      | delete envId principal =>
          refine Program.makes_bind ((Router.loadOwned_silent _ _).mono silent) fun env => ?_
          split
          · trivial
          · have order := publishes .teardown
            refine Program.makes_bind
              (DockerManager.perform_makes (order _ _ _ ⟨rfl, rfl⟩)) fun task => ?_
            exact Program.makes_bind (calls rfl) fun _ => trivial
  | task message =>
      have samples : ∀ metric, good (.record metric) := fun metric => records message metric rfl
      unfold program
      dsimp only
      split
      · exact Worker.provisionEnvironment_makes message silent samples publishes
      · exact Worker.teardownEnvironment_makes message silent (fun _ => samples _) publishes
  | sweep sweep =>
      cases sweep with
      | reapExpired =>
          refine Program.makes_bind (calls rfl) fun now => ?_
          refine Program.makes_bind (calls rfl) fun expired => ?_
          split
          · trivial
          · have order := publishes .teardown
            refine Program.makes_bind ((Worker.changeAll_silent _ _).mono silent) fun changes => ?_
            refine Program.makes_bind (calls rfl) fun _ => ?_
            refine Program.makes_bind (Program.makes_forEach fun env _ => ?_) fun _ => trivial
            exact Program.makes_bind
              (DockerManager.perform_makes (order _ _ _ ⟨rfl, rfl⟩)) fun _ => trivial
      | reconcileOrphans => exact (Worker.reconcileOrphans_silent deployment).mono silent
      | recoverStale => exact (Worker.recoverStaleTransitions_silent deployment).mono silent

/-- A role makes quiet calls and publishes what it publishes. -/
theorem program_makes_quiet
    (quiet : ∀ request : Call, request.quiet = true → good request)
    (publishes : ∀ task envId retries countdown, role.Publishes task envId retries →
      good (.publish task envId retries countdown)) :
    (program deployment role).Makes good :=
  program_makes (fun request silent => quiet request (Call.quiet_of_silent request silent))
    (fun _ _ _ => quiet _ rfl) publishes

end Publishes

end Provisioner
