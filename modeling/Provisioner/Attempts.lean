import Provisioner.Teardown

/-!
# What an attempt works on

A message names one environment, and an attempt holds no other row: every copy in its
session has the id that its message names. So whatever it creates carries that id as
its label, and a label stays with its resource as long as the resource exists.
-/

namespace Provisioner

open Resumption

/-- The message of an attempt. -/
def Role.message : Role → Option Message
  | .task message => some message
  | _ => none

/-- The message is for this task and names this environment. -/
def Message.Is (message : Message) (task : Task) (id : Uuid) : Prop :=
  message.task = task ∧ Uuid.parse message.envId = some id

instance (message : Message) (task : Task) (id : Uuid) : Decidable (message.Is task id) :=
  inferInstanceAs (Decidable (_ ∧ _))

/-- The role is an attempt of the task on the environment. -/
def Role.Is (role : Role) (task : Task) (id : Uuid) : Prop :=
  ∃ message ∈ role.message, message.Is task id

instance (role : Role) (task : Task) (id : Uuid) : Decidable (role.Is task id) :=
  inferInstanceAs (Decidable (∃ message ∈ role.message, _))

/-- The role is a DELETE of the environment. -/
def Role.deletes (id : Uuid) : Role → Bool
  | .request (.delete envId _) => envId = id
  | _ => false

/-- An attempt on an environment in the words of the protocol. -/
theorem Role.is_iff {role : Role} {task : Task} {id : Uuid} :
    role.Is task id ↔ role.runs task ∧ role.target = some id := by
  cases role with
  | task message =>
      constructor
      · rintro ⟨other, same, own⟩
        cases same
        exact own
      · exact fun own => ⟨message, rfl, own⟩
  | request request =>
      constructor
      · rintro ⟨message, none, -⟩
        cases none
      · exact fun own => own.1.elim
  | sweep sweep =>
      constructor
      · rintro ⟨message, none, -⟩
        cases none
      · exact fun own => own.1.elim

/-- Only an attempt has a message. -/
theorem Role.eq_task_of_message {role : Role} {message : Message}
    (same : role.message = some message) : role = .task message := by
  cases role with
  | task other => exact congrArg Role.task (Option.some.inj same)
  | request request => cases same
  | sweep sweep => cases same

/-- An attempt of a task only holds the row that its message names. -/
def Phase.OnTarget (phase : Phase) : Prop :=
  ∀ task, phase.role.runs task → ∀ env ∈ phase.stage.held, phase.role.target = some env.id

/-- The label of a container or a network. -/
def Daemon.label (daemon : Daemon) : Resource → Option String
  | .container id => (daemon.containers.find id).bind Container.envLabel
  | .network id => (daemon.networks.find id).bind Network.envLabel

namespace Attempts

variable {deployment : Deployment} {refuses : Bool}
  {allowed : System → Occurrence → Prop} {config : System}
  {world next : World} {phase : Phase} {resource : Resource}

/-- A query of an attempt is for the row that its message names. -/
theorem target_of_loads {id : Uuid} {task : Task} (attempt : phase.role.runs task)
    (loads : phase.Loads id) : phase.role.target = some id := by
  unfold Phase.Loads at loads
  split at loads
  · exact loads
  · exact loads
  · exact loads
  · exact loads
  · exact loads
  · rw [loads] at attempt
    exact attempt.elim
  · exact loads.elim

/-- An answered call keeps an attempt on its row. -/
theorem onTarget_of_effect {request : Call} {reply : Reply request}
    (onTarget : phase.OnTarget)
    (permits : phase.permits deployment request)
    (effect : world.Effect request reply next) :
    (phase.advance request reply).OnTarget := by
  intro task attempt env present
  have attempts : phase.role.runs task := attempt
  show phase.role.target = some env.id
  rcases Stage.mem_held_after present with old | taken
  · exact onTarget task attempt env old
  · cases taken with
    | load id _ =>
        cases effect with
        | read _ _ reads =>
            have found : some env = world.db.find id := reads
            rw [Keyed.Table.key_of_find found.symm]
            exact target_of_loads attempts permits
    | commit changes change member =>
        have commits : phase.Commits changes := permits
        rw [(commits.persists member).id]
        exact onTarget task attempt _ (commits.seen_mem member)
    | insert _ =>
        obtain ⟨owner, payload, count, role, -⟩ := permits
        rw [role] at attempts
        exact attempts.elim
    | expired now rows _ member =>
        rw [permits.1] at attempts
        exact attempts.elim
    | stale status cutoff pending rows _ member =>
        rw [permits.1] at attempts
        exact attempts.elim

/-- The rules that keep attempts on their rows. -/
theorem rules (deployment : Deployment) (allowed : System → Occurrence → Prop) :
    Rules deployment allowed (fun _ => True) (fun _ phase => phase.OnTarget)
      (fun _ _ => True) where
  stable _ _ _ _ onTarget := onTarget
  ambient config action next spawned _ _ _ := by
    refine ⟨trivial, trivial, fun role _ task attempt env present => ?_⟩
    have attempts : role.runs task := attempt
    rw [Phase.start_of_runs attempts] at present
    cases present
  call config event job request reply next _ onTarget _ _ permits effect :=
    ⟨trivial, trivial, onTarget_of_effect onTarget permits effect⟩

/-- Attempts stay on their rows. -/
theorem onTarget_of_runs (run : System.Runs deployment refuses allowed config) :
    ∀ job ∈ config.threads, Phase.OnTarget (Job.phase job) :=
  (run.sound trivial (rules deployment allowed)).2

/-- A label stays with its resource as long as the resource exists. -/
theorem label_of_effect {request : Call} {reply : Reply request} {label : String}
    (issued : resource.Issued world.docker)
    (effect : world.Effect request reply next)
    (labelled : next.docker.label resource = some label) :
    world.docker.label resource = some label := by
  cases effect with
  | networkCreated name _ =>
      cases resource with
      | container id => exact labelled
      | network id =>
          unfold Daemon.label Daemon.addNetwork at labelled
          dsimp only at labelled
          rw [Keyed.Table.find_insert, if_neg (by exact (Nat.ne_of_lt issued).symm)] at labelled
          exact labelled
  | containerCreated request _ network free =>
      cases resource with
      | network id => exact labelled
      | container id =>
          unfold Daemon.label Daemon.addContainer at labelled
          dsimp only at labelled
          rw [Keyed.Table.find_insert, if_neg (by exact (Nat.ne_of_lt issued).symm)] at labelled
          exact labelled
  | containerRemoved id present =>
      cases resource with
      | network other => exact labelled
      | container other =>
          unfold Daemon.label Daemon.removeContainer at labelled
          dsimp only at labelled
          rw [Keyed.Table.find_erase] at labelled
          split at labelled
          · cases labelled
          · exact labelled
  | networkRemoved id present idle =>
      cases resource with
      | container other => exact labelled
      | network other =>
          unfold Daemon.label Daemon.removeNetwork at labelled
          dsimp only at labelled
          rw [Keyed.Table.find_erase] at labelled
          split at labelled
          · cases labelled
          · exact labelled
  | _ => exact labelled

/-- Whoever creates a resource is a provision attempt, and the label is the id of the
row that its message names. -/
theorem label_of_created {request : Call} {reply : Reply request}
    (onTarget : phase.OnTarget)
    (permits : phase.permits deployment request)
    (effect : world.Effect request reply next)
    (absent : ¬world.docker.has resource = true)
    (created : next.docker.has resource = true) :
    phase.role.runs .provision ∧ ∃ id : Uuid, phase.role.target = some id ∧
      next.docker.label resource = some id.str := by
  cases effect with
  | networkCreated name label =>
      rcases has_addNetwork.mp created with old | rfl
      · exact (absent old).elim
      · obtain ⟨env, runs, stage, -, rfl⟩ := permits
        refine ⟨runs, env.id, onTarget _ runs env ?_, ?_⟩
        · rw [stage]
          exact List.mem_singleton_self env
        · unfold Daemon.label Daemon.addNetwork
          dsimp only
          rw [Keyed.Table.find_insert, if_pos rfl]
          rfl
  | containerCreated request _ network free =>
      rcases (has_addContainer free).mp created with old | rfl
      · exact (absent old).elim
      · obtain ⟨env, netwrk, containers, template, spec, runs, stage, -, -, label, -⟩ := permits
        refine ⟨runs, env.id, onTarget _ runs env ?_, ?_⟩
        · rw [stage]
          exact List.mem_singleton_self env
        · unfold Daemon.label Daemon.addContainer
          dsimp only
          rw [Keyed.Table.find_insert, if_pos (by rfl)]
          exact congrArg some label
  | containerRemoved id present => exact (absent (has_removeContainer.mp created).1).elim
  | networkRemoved id present idle => exact (absent (has_removeNetwork.mp created).1).elim
  | _ => exact (absent created).elim

end Attempts

end Provisioner
