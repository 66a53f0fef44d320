import Provisioner.Integrity

/-!
# Messages

Every message names an environment whose key was generated, and every message
ever sent is still queued or was delivered to an attempt.
-/

namespace Provisioner

open Resumption

variable {deployment : Deployment} {refuses : Bool}
  {allowed : System → Occurrence → Prop} {config : System}
  {world next : World} {phase : Phase}

/-- A message names a generated key, and a teardown message a committed row. -/
def World.Names (world : World) (message : Message) : Prop :=
  ∃ id ∈ world.issued, message.envId = id.str ∧
    (message.task = .teardown → (world.db.find id).isSome)

theorem World.Names.mono {message : Message} (names : world.Names message)
    (grows : world.Grows next) : next.Names message := by
  obtain ⟨id, issued, named, row⟩ := names
  refine ⟨id, grows.issued id issued, named, fun teardown => ?_⟩
  obtain ⟨row, found⟩ := Option.isSome_iff_exists.mp (row teardown)
  obtain ⟨row', found', -⟩ := grows.db id row found
  exact Option.isSome_iff_exists.mpr ⟨row', found'⟩

namespace Messages

/-- The messages of the world are in order. -/
structure Ordered (deployment : Deployment) (world : World) : Prop where
  integrity : world.Integrity deployment
  names : ∀ message ∈ world.sent, world.Names message
  queued : ∀ message ∈ world.queue, message ∈ world.sent

/-- An attempt works on a message that was sent. -/
structure Attends (world : World) (phase : Phase) : Prop where
  integrity : phase.Integrity world
  sent : ∀ message, phase.role = .task message → message ∈ world.sent

/-- Every published message names an environment. -/
theorem names_of_publishes {task : Task} {envId : String} {retries : Nat}
    {countdown : Int}
    (ordered : Ordered deployment world)
    (attends : Attends world phase)
    (publishes : phase.Publishes task envId retries) :
    world.Names ⟨task, envId, retries, world.clock + seconds countdown⟩ := by
  have row : ∀ env ∈ phase.stage.held, env.id ∈ world.issued ∧
      (world.db.find env.id).isSome := by
    intro env present
    obtain ⟨row, found, -⟩ := attends.integrity.held env present
    refine ⟨?_, Option.isSome_iff_exists.mpr ⟨row, found⟩⟩
    rw [← Keyed.Table.key_of_find found]
    exact ordered.integrity.issued row (Keyed.Table.mem_of_find found)
  cases publishes with
  | create principal payload count env role stage =>
      have new := attends.integrity.fresh count env (by rw [stage]; rfl)
      exact ⟨env.id, new.issued, rfl, nofun⟩
  | delete id principal env role stage =>
      obtain ⟨issued, found⟩ := row env (by rw [stage]; exact List.mem_singleton.mpr rfl)
      exact ⟨env.id, issued, rfl, fun _ => found⟩
  | reap rows env stage member =>
      obtain ⟨issued, found⟩ := row env (by rw [stage]; exact member)
      exact ⟨env.id, issued, rfl, fun _ => found⟩
  | retry message role retired budget =>
      obtain ⟨id, issued, named, row⟩ :=
        ordered.names message (attends.sent message role)
      exact ⟨id, issued, named, row⟩

/-- The rules of messages, for all runs. -/
theorem rules (deployment : Deployment) (allowed : System → Occurrence → Prop) :
    Rules deployment allowed (Ordered deployment) Attends World.Grows where
  stable world next phase grows attends :=
    ⟨Integrity.session_mono attends.integrity grows,
      fun message role => grows.sent message (attends.sent message role)⟩
  ambient config action next spawned ordered permitted surrounds := by
    obtain ⟨integrity, grows, opens⟩ := (Integrity.rules deployment allowed).ambient config
      action next spawned ordered.integrity permitted surrounds
    refine ⟨⟨integrity, ?_, ?_⟩, grows, fun role started => ⟨opens role started, ?_⟩⟩
    · intro message sent
      rw [surrounds.unchanged.2.2.1] at sent
      exact (ordered.names message sent).mono grows
    · intro message queued
      rw [surrounds.unchanged.2.2.1]
      cases surrounds with
      | deliver index taken found due =>
          exact ordered.queued message (List.mem_of_mem_eraseIdx queued)
      | _ => exact ordered.queued message queued
    · intro message same
      rw [surrounds.unchanged.2.2.1]
      cases surrounds with
      | deliver index taken found due =>
          cases started
          cases same
          exact ordered.queued message (List.mem_of_getElem? found)
      | redeliver index taken found due =>
          cases started
          cases same
          exact List.mem_of_getElem? found
      | request request =>
          cases started
          cases same
      | beat sweep =>
          cases started
          cases same
      | tick elapsed => cases started
  call config event job request reply next ordered attends permitted turn permits effect := by
    obtain ⟨integrity, grows, advanced⟩ := (Integrity.rules deployment allowed).call config
      event job request reply next ordered.integrity attends.integrity permitted turn
      permits effect
    refine ⟨⟨integrity, ?_, ?_⟩, grows, advanced, fun message role =>
      grows.sent message (attends.sent message role)⟩
    · intro message sent
      cases effect with
      | published task envId retries countdown =>
          rcases List.mem_append.mp sent with old | new
          · exact (ordered.names message old).mono grows
          · rw [List.mem_singleton.mp new]
            exact (names_of_publishes ordered attends permits).mono grows
      | _ => exact (ordered.names message sent).mono grows
    · intro message queued
      cases effect with
      | published task envId retries countdown =>
          rcases List.mem_append.mp queued with old | new
          · exact List.mem_append_left _ (ordered.queued message old)
          · exact List.mem_append_right _ new
      | _ => exact ordered.queued message queued

/-- The messages of every reachable world are in order. -/
theorem of_runs (run : System.Runs deployment refuses allowed config) :
    Ordered deployment config.state ∧
      ∀ job ∈ config.threads, Attends config.state (Job.phase job) := by
  have initially : Ordered deployment (World.initial refuses) :=
    ⟨Integrity.initial deployment refuses, nofun, nofun⟩
  exact run.sound initially (rules deployment allowed)

/-- A sent message is queued or was delivered. -/
def Arrives (config : System) (message : Message) : Prop :=
  message ∈ config.state.queue ∨ ∃ job ∈ config.threads, job.role = .task message

/-- No message is lost. -/
theorem arrives_of_sent (run : System.Runs deployment refuses allowed config) :
    ∀ message ∈ config.state.sent, Arrives config message := by
  refine run.invariant (fun config => ∀ message ∈ config.state.sent, Arrives config message)
    nofun ?_ ?_ ?_
  · intro config action next spawned _ arrives _ surrounds message sent
    rw [surrounds.unchanged.2.2.1] at sent
    rcases arrives message sent with queued | ⟨job, present, role⟩
    · cases surrounds with
      | deliver index taken found due =>
          obtain ⟨position, located⟩ := List.getElem?_of_mem queued
          by_cases here : position = index
          · subst here
            rw [found] at located
            cases located
            exact .inr ⟨_, List.mem_append_right _ (List.mem_singleton.mpr rfl), rfl⟩
          · exact .inl (List.mem_eraseIdx_iff_getElem?.mpr ⟨position, here, located⟩)
      | _ => exact .inl queued
    · exact .inr ⟨job, List.mem_append_left _ present, role⟩
  · intro config index job _ arrives _ found alive message sent
    rcases arrives message sent with queued | delivered
    · exact .inl queued
    · exact .inr (exists_role_put found rfl delivered)
  · intro config index job request resume choice reply next _ arrives _ found alive rest
      permits effect message sent
    have kept : ∀ message, Arrives config message → message ∈ next.queue ∨
        ∃ other ∈ (config.put next index (job.answered request reply (resume reply))).threads,
          other.role = .task message := by
      intro message arrived
      rcases arrived with queued | delivered
      · refine .inl ?_
        cases effect with
        | published task envId retries countdown => exact List.mem_append_left _ queued
        | _ => exact queued
      · exact .inr (exists_role_put found rfl delivered)
    cases effect with
    | published task envId retries countdown =>
        rcases List.mem_append.mp sent with old | new
        · exact kept message (arrives message old)
        · exact .inl (List.mem_append_right _ new)
    | _ => exact kept message (arrives message sent)

end Messages

end Provisioner
