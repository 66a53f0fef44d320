import Provisioner.Conformance.Manager

/-!
# Every program keeps to the protocol

One specification for each function of the worker and the router. They meet in
`program_allows`: whatever the world answers, a thread of the service only makes
calls that the protocol permits, and it ends in a stage that its role allows.
-/

namespace Provisioner

open Resumption

variable {deployment : Deployment} {phase : Phase} {message : Message}

/-- How a thread may end. -/
def Phase.Ended (role : Role) (phase : Phase) (result : Except Exn Answer) : Prop :=
  match role with
  | .task message =>
      match phase.stage with
      | .starting => Uuid.parse message.envId = none
      | .absent | .broken | .settled | .running _ | .stopped _ => True
      | _ => False
  | .request (.create _ _) => ∀ answer, result = .ok answer →
      ∃ env task text, phase.stage = .created env ∧ answer = .accepted env.id task text
  | .request (.delete _ _) => ∀ answer, result = .ok answer →
      ∃ env task text, phase.stage = .deleted env ∧ answer = .accepted env.id task text
  | _ => True

section Tasks

/-- An attempt that marked its row is over. -/
theorem ended_of_marked {result : Except Exn Answer}
    (marked : phase.stage = .settled ∨
      (phase.stage = .starting ∧ Uuid.parse message.envId = none)) :
    phase.Ended (.task message) result := by
  unfold Phase.Ended
  rcases marked with settled | ⟨starting, unparsed⟩
  · rw [settled]
    trivial
  · rw [starting]
    exact unparsed

/-- An attempt that marked its row may retry. -/
theorem retired_of_marked
    (marked : phase.stage = .settled ∨
      (phase.stage = .starting ∧ Uuid.parse message.envId = none)) :
    phase.stage.Retired := by
  rcases marked with settled | ⟨starting, -⟩
  · rw [settled]
    trivial
  · rw [starting]
    trivial

/-- An attempt that committed RUNNING is over. -/
theorem ended_of_running {env : Environment} {result : Except Exn Answer}
    (running : phase.stage = .running env) :
    phase.Ended (.task message) result := by
  unfold Phase.Ended
  rw [running]
  trivial

/-- What the session still holds when an attempt fails in this stage. -/
inductive Stage.Leaves (message : Message) : Stage → Option Environment → Prop
  | starting : Uuid.parse message.envId = none → Leaves message .starting none
  | absent (id : Uuid) : Uuid.parse message.envId = some id → Leaves message .absent none
  | broken (id : Uuid) : Uuid.parse message.envId = some id → Leaves message .broken none
  | building (id : Uuid) (env : Environment) (network : Option DockerId)
      (containers : List DockerId) :
      Uuid.parse message.envId = some id →
      Leaves message (.building env network containers) (some env)

/-- Loading the row of a message. -/
theorem loadEnv_allows {id : Uuid}
    (parsed : Uuid.parse message.envId = some id)
    (loads : phase.Loads id) :
    (protocol deployment).Allows (fun reached result =>
        reached.role = phase.role ∧ reached.stage = phase.stage.onLoad id result) phase
      (Worker.loadEnv message.envId) := by
  unfold Worker.loadEnv
  rw [parsed]
  exact allows_perform.mpr ⟨loads, fun reply _ => ⟨rfl, rfl⟩⟩

/-- The outcome of marking a row as failed: nothing is left to do. -/
def Marked (message : Message) (phase reached : Phase) (result : Except Exn Unit) : Prop :=
  result = .ok () ∧ reached.role = phase.role ∧
    (reached.stage = .settled ∨
      (reached.stage = .starting ∧ Uuid.parse message.envId = none))

/-- Marking a row as failed from a stage whose query yields the row to mark. -/
theorem markFailed_of_load {held : Option Environment} {id : Uuid}
    (task : phase.role = .task message)
    (parsed : Uuid.parse message.envId = some id)
    (loads : phase.Loads id)
    (lost : ∀ exc, phase.stage.onLoad id (.error exc) = .settled)
    (missing : phase.stage.onLoad id (.ok none) = .settled)
    (found : ∀ fresh, phase.stage.onLoad id (.ok (some fresh)) =
      .marking (held.getD fresh))
    (text : String) :
    (protocol deployment).Allows (Marked message phase) phase
      (Worker.markFailed held message.envId text) := by
  unfold Worker.markFailed
  refine Program.meets_tryCatch.mpr (Program.meets_bind.mpr
    ((loadEnv_allows parsed loads).mono ?_))
  rintro afterLoad (exc | _ | fresh) ⟨role, loaded⟩
  · exact ⟨rfl, role, .inl (loaded.trans (lost exc))⟩
  · exact ⟨rfl, role, .inl (loaded.trans missing)⟩
  · refine Program.meets_bind.mpr (now_allows fun afterNow now follows reading => ?_)
    have marking : afterNow.stage = .marking (held.getD fresh) :=
      follows.stage.trans (loaded.trans (found fresh))
    have attempt : afterNow.role = .task message :=
      follows.role.trans (role.trans task)
    refine allows_perform.mpr ⟨?_, fun reply _ => ?_⟩
    · refine .failed message.task (held.getD fresh) text now ?_ marking reading
      rw [attempt]
      rfl
    · have settled : afterNow.stage.after afterNow.role (.commitChanges
          [⟨held.getD fresh, Worker.asFailed (held.getD fresh) text now⟩]) reply =
          .settled := by
        rw [marking]
        cases reply <;> rfl
      cases reply with
      | ok value => exact ⟨rfl, attempt.trans task.symm, .inl settled⟩
      | error exc => exact ⟨rfl, attempt.trans task.symm, .inl settled⟩

/-- A task may load the row of its message. -/
theorem loads_of_task {id : Uuid}
    (task : phase.role = .task message)
    (parsed : Uuid.parse message.envId = some id)
    (ready : phase.Loads id ↔ phase.role.target = some id) : phase.Loads id := by
  rw [ready, task]
  exact parsed

/-- Marking a row as failed raises nothing and leaves nothing to do. -/
theorem markFailed_allows {held : Option Environment} {stage : Stage}
    (task : phase.role = .task message)
    (reached : phase.stage = stage)
    (leaves : stage.Leaves message held) (text : String) :
    (protocol deployment).Allows (Marked message phase) phase
      (Worker.markFailed held message.envId text) := by
  cases leaves with
  | starting unparsed =>
      have raised : Worker.loadEnv message.envId =
          .raise ⟨.valueError, "badly formed hexadecimal UUID string"⟩ := by
        unfold Worker.loadEnv
        rw [unparsed]
      unfold Worker.markFailed
      rw [raised, Program.bind_raise, Program.tryCatch_raise]
      exact ⟨rfl, rfl, .inr ⟨reached, unparsed⟩⟩
  | absent id parsed =>
      have loads := loads_of_task task parsed (by simp only [Phase.Loads, reached])
      refine markFailed_of_load task parsed loads ?_ ?_ ?_ text
      all_goals simp [reached, Stage.onLoad]
  | broken id parsed =>
      have loads := loads_of_task task parsed (by simp only [Phase.Loads, reached])
      refine markFailed_of_load task parsed loads ?_ ?_ ?_ text
      all_goals simp [reached, Stage.onLoad]
  | building id env network containers parsed =>
      have loads := loads_of_task task parsed (by simp only [Phase.Loads, reached])
      refine markFailed_of_load task parsed loads ?_ ?_ ?_ text
      all_goals simp [reached, Stage.onLoad]

/-- A retry is published from a retired stage and ends the attempt there. -/
theorem selfRetry_allows
    (task : phase.role = .task message)
    (retired : phase.stage.Retired)
    (ends : ∀ reached : Phase, reached.stage = phase.stage → ∀ result,
      reached.Ended (.task message) result)
    (countdown : Int) (exc : Exn) :
    (protocol deployment).Allows (fun reached result =>
        reached.Ended (.task message) result) phase
      (Worker.selfRetry message countdown exc) := by
  unfold Worker.selfRetry
  split
  · exact ends phase rfl (.error exc)
  · rename_i budget
    refine Program.meets_bind.mpr (allows_perform.mpr ⟨?_, fun reply _ => ?_⟩)
    · exact .retry message task retired (by omega)
    · have same : (phase.advance (.publish message.task message.envId
          (message.retries + 1) countdown) reply).stage = phase.stage := by
        rw [Phase.advance_stage]
        cases reply with
        | error exc => rfl
        | ok id =>
            cases stage : phase.stage with
            | loaded env => rw [stage] at retired; exact retired.elim
            | inserted count env => rw [stage] at retired; exact retired.elim
            | _ => rfl
      cases reply with
      | error exc => exact ends _ same (.error exc)
      | ok id =>
          exact ends _ same (.error ⟨.retry, "Retry in " ++ toString countdown ++ "s"⟩)

/-- A provision attempt ends RUNNING, or fails and leaves its copy of the row. -/
theorem provisionAttempt_allows
    (deployment : Deployment)
    (message : Message)
    (task : phase.role = .task message)
    (provision : message.task = .provision)
    (starting : phase.stage = .starting)
    (started : Time) :
    (protocol deployment).Allows (fun reached result =>
        reached.role = phase.role ∧
          match result with
          | .ok _ => ∃ env, reached.stage = .running env
          | .error failure => reached.stage.Leaves message failure.held) phase
      (Worker.provisionAttempt deployment message.envId started) := by
  have attempt : phase.role.runs .provision := by
    rw [task]
    exact provision
  unfold Worker.provisionAttempt
  refine Program.meets_bind.mpr (Worker.during_meets.mpr ?_)
  cases parsed : Uuid.parse message.envId with
  | none =>
      have raised : Worker.loadEnv message.envId =
          .raise ⟨.valueError, "badly formed hexadecimal UUID string"⟩ := by
        unfold Worker.loadEnv
        rw [parsed]
      rw [raised]
      refine ⟨rfl, ?_⟩
      rw [starting]
      exact .starting parsed
  | some id =>
      have loads := loads_of_task task parsed (by simp only [Phase.Loads, starting])
      refine (loadEnv_allows parsed loads).mono ?_
      rintro afterLoad (exc | _ | loaded) ⟨role, stage⟩
      · refine ⟨role, ?_⟩
        rw [stage, starting]
        exact .broken id parsed
      · refine ⟨role, ?_⟩
        rw [stage, starting]
        exact .absent id parsed
      rw [starting] at stage
      refine Program.meets_bind.mpr (Worker.during_meets.mpr (now_allows
        fun afterNow begun follows reading => ?_))
      have role := follows.role.trans role
      have stage := follows.stage.trans stage
      refine Program.meets_bind.mpr (Worker.during_meets.mpr (allows_perform.mpr
        ⟨.provisioning loaded begun (by rw [role]; exact attempt) stage reading,
          fun reply _ => ?_⟩))
      cases reply with
      | error exc =>
          refine ⟨role, ?_⟩
          rw [Phase.advance_stage, stage]
          exact .broken id parsed
      | ok committed =>
      have building : (afterNow.advance (.commitChanges
          [⟨loaded, loaded.setStatus .provisioning begun⟩]) (.ok committed)).stage =
          .building (loaded.setStatus .provisioning begun) none [] := by
        rw [Phase.advance_stage, stage, role]
        exact if_pos attempt
      refine Program.meets_bind.mpr (Worker.during_meets.mpr
        ((provision_allows (by rw [Phase.advance_role, role]; exact attempt)
          building).mono ?_))
      rintro afterBuild (exc | stack) ⟨builtRole, built⟩
      · obtain ⟨network, containers, built⟩ := built
        refine ⟨builtRole.trans role, ?_⟩
        rw [built]
        exact .building id _ network containers parsed
      obtain ⟨built, nonempty⟩ := built
      have builtRole := builtRole.trans role
      refine Program.meets_bind.mpr (Worker.during_meets.mpr (now_allows
        fun afterFirst now first firstReading => ?_))
      refine Program.meets_bind.mpr (Worker.during_meets.mpr (now_allows
        fun afterSecond changed second secondReading => ?_))
      have role := (second.role.trans first.role).trans builtRole
      have stage := (second.stage.trans first.stage).trans built
      refine Program.meets_bind.mpr (Worker.during_meets.mpr (allows_perform.mpr
        ⟨.running _ stack.networkId stack.containerIds stack.hostPort now changed
          (by rw [role]; exact attempt) stage nonempty
          (second.readings _ firstReading) secondReading, fun reply _ => ?_⟩))
      cases reply with
      | error exc =>
          refine ⟨role, ?_⟩
          rw [Phase.advance_stage, stage]
          exact .broken id parsed
      | ok committed =>
      have running : (afterSecond.advance (.commitChanges
          [⟨loaded.setStatus .provisioning begun,
            Worker.asRunning (loaded.setStatus .provisioning begun) stack now changed⟩])
          (.ok committed)).stage =
          .running (Worker.asRunning (loaded.setStatus .provisioning begun) stack now
            changed) := by
        rw [Phase.advance_stage, stage]
        rfl
      refine Program.meets_bind.mpr (Worker.during_meets.mpr (record_allows
        fun afterTotal counted => ?_))
      refine Program.meets_bind.mpr (Worker.during_meets.mpr (now_allows
        fun afterThird finished third _ => ?_))
      refine Program.meets_bind.mpr (Worker.during_meets.mpr (record_allows
        fun reached observed => ?_))
      refine ⟨?_, ?_⟩
      · exact ((observed.role.trans third.role).trans counted.role).trans role
      · exact ⟨_, ((observed.stage.trans third.stage).trans counted.stage).trans running⟩

/-- `provision_environment` keeps to the protocol. -/
theorem provisionEnvironment_allows
    (task : phase.role = .task message)
    (provision : message.task = .provision)
    (starting : phase.stage = .starting) :
    (protocol deployment).Allows (fun reached result =>
        reached.Ended (.task message) result) phase
      (Worker.provisionEnvironment deployment message) := by
  unfold Worker.provisionEnvironment
  refine Program.meets_bind.mpr (now_allows fun afterNow started follows _ => ?_)
  have role := follows.role.trans task
  refine Program.meets_tryCatch.mpr ((provisionAttempt_allows deployment message role provision
    (follows.stage.trans starting) started).mono ?_)
  rintro afterAttempt (failure | answer) ⟨attemptRole, outcome⟩
  · have role := attemptRole.trans role
    refine Program.meets_bind.mpr ((markFailed_allows role rfl outcome _).mono ?_)
    rintro afterMark result ⟨rfl, markRole, marked⟩
    refine Program.meets_bind.mpr (record_allows fun afterRecord recorded => ?_)
    have role := (recorded.role.trans markRole).trans role
    have retired : afterRecord.stage = .settled ∨
        (afterRecord.stage = .starting ∧ Uuid.parse message.envId = none) := by
      rw [recorded.stage]
      exact marked
    cases failure.exc.isValueError with
    | false =>
        exact selfRetry_allows role (retired_of_marked retired)
          (fun reached same result => ended_of_marked (by rw [same]; exact retired)) _ _
    | true => exact Program.meets_raise.mpr (ended_of_marked retired)
  · obtain ⟨env, stage⟩ := outcome
    exact ended_of_running stage

/-- A teardown attempt ends STOPPED, or fails without holding a row. -/
theorem teardownAttempt_allows
    (deployment : Deployment)
    (message : Message)
    (task : phase.role = .task message)
    (teardown : message.task = .teardown)
    (starting : phase.stage = .starting) :
    (protocol deployment).Allows (fun reached result =>
        reached.role = phase.role ∧
          match result with
          | .ok _ => ∃ env, reached.stage = .stopped env
          | .error failure => reached.stage.Leaves message failure.held ∧
              reached.stage.Retired) phase
      (Worker.teardownAttempt message.envId) := by
  have attempt : phase.role.runs .teardown := by
    rw [task]
    exact teardown
  have otherwise : ¬phase.role.runs .provision := by
    rw [task]
    intro provision
    rw [Role.runs, teardown] at provision
    cases provision
  unfold Worker.teardownAttempt
  refine Program.meets_bind.mpr (Worker.during_meets.mpr ?_)
  cases parsed : Uuid.parse message.envId with
  | none =>
      have raised : Worker.loadEnv message.envId =
          .raise ⟨.valueError, "badly formed hexadecimal UUID string"⟩ := by
        unfold Worker.loadEnv
        rw [parsed]
      rw [raised]
      refine ⟨rfl, ?_⟩
      rw [starting]
      exact ⟨.starting parsed, trivial⟩
  | some id =>
      have loads := loads_of_task task parsed (by simp only [Phase.Loads, starting])
      refine (loadEnv_allows parsed loads).mono ?_
      rintro afterLoad (exc | _ | loaded) ⟨role, stage⟩
      · refine ⟨role, ?_⟩
        rw [stage, starting]
        exact ⟨.broken id parsed, trivial⟩
      · refine ⟨role, ?_⟩
        rw [stage, starting]
        exact ⟨.absent id parsed, trivial⟩
      rw [starting] at stage
      refine Program.meets_bind.mpr (Worker.during_meets.mpr (now_allows
        fun afterNow begun follows reading => ?_))
      have role := follows.role.trans role
      have stage := follows.stage.trans stage
      refine Program.meets_bind.mpr (Worker.during_meets.mpr (allows_perform.mpr
        ⟨.stopping loaded begun (by rw [role]; exact attempt) stage reading,
          fun reply _ => ?_⟩))
      cases reply with
      | error exc =>
          refine ⟨role, ?_⟩
          rw [Phase.advance_stage, stage]
          exact ⟨.broken id parsed, trivial⟩
      | ok committed =>
      have removing : (afterNow.advance (.commitChanges
          [⟨loaded, loaded.setStatus .stopping begun⟩]) (.ok committed)).stage =
          .removing (loaded.setStatus .stopping begun) [] := by
        rw [Phase.advance_stage, stage, role]
        exact if_neg otherwise
      refine Program.meets_bind.mpr (Worker.during_meets.mpr
        ((removeResources_allows (loaded.setStatus .stopping begun).containerIds
          (loaded.setStatus .stopping begun).networkId.toList ?_ ?_).mono ?_))
      · intro id present
        rw [removing]
        exact Environment.container_mem_recorded.mpr present
      · intro id present
        rw [removing]
        exact Environment.network_mem_recorded.mpr (by simpa using present)
      rintro afterRemoval result ⟨rfl, handled⟩
      obtain ⟨cleared, removed, each⟩ := handled.stage
      rw [removing, Stage.clears_removing, List.nil_append] at removed
      have removalRole := handled.role.trans role
      refine Program.meets_bind.mpr (Worker.during_meets.mpr (now_allows
        fun afterFirst changed first firstReading => ?_))
      refine Program.meets_bind.mpr (Worker.during_meets.mpr (now_allows
        fun afterSecond now second _ => ?_))
      have role := (second.role.trans first.role).trans removalRole
      have stage := (second.stage.trans first.stage).trans removed
      have dealt : ∀ resource ∈ (loaded.setStatus .stopping begun).recorded,
          resource ∈ cleared ∨ ∃ call ∈ afterSecond.failed, call.about resource := by
        intro resource present
        rcases each resource present with done | ⟨call, failed, about⟩
        · exact .inl done
        · exact .inr ⟨call, second.failed _ (first.failed _ failed), about⟩
      refine Program.meets_bind.mpr (Worker.during_meets.mpr (allows_perform.mpr
        ⟨.stopped _ cleared changed now (by rw [role]; exact attempt) stage dealt
          (second.readings _ firstReading), fun reply _ => ?_⟩))
      cases reply with
      | error exc =>
          refine ⟨role, ?_⟩
          rw [Phase.advance_stage, stage]
          exact ⟨.broken id parsed, trivial⟩
      | ok committed =>
      have stopped : (afterSecond.advance (.commitChanges
          [⟨loaded.setStatus .stopping begun,
            Worker.asStopped (loaded.setStatus .stopping begun) changed now⟩])
          (.ok committed)).stage =
          .stopped (Worker.asStopped (loaded.setStatus .stopping begun) changed now) := by
        rw [Phase.advance_stage, stage]
        rfl
      refine Program.meets_bind.mpr (Worker.during_meets.mpr (record_allows
        fun reached counted => ?_))
      exact ⟨counted.role.trans role, _, counted.stage.trans stopped⟩

/-- `teardown_environment` keeps to the protocol. -/
theorem teardownEnvironment_allows
    (task : phase.role = .task message)
    (teardown : message.task = .teardown)
    (starting : phase.stage = .starting) :
    (protocol deployment).Allows (fun reached result =>
        reached.Ended (.task message) result) phase
      (Worker.teardownEnvironment message) := by
  unfold Worker.teardownEnvironment
  refine Program.meets_tryCatch.mpr ((teardownAttempt_allows deployment message task
    teardown starting).mono ?_)
  rintro afterAttempt (failure | answer) ⟨attemptRole, outcome⟩
  · obtain ⟨leaves, retired⟩ := outcome
    have role := attemptRole.trans task
    refine Program.meets_bind.mpr (record_allows fun afterRecord recorded => ?_)
    have role := recorded.role.trans role
    cases decide (Task.teardown.maxRetries ≤ message.retries) with
    | true =>
        refine Program.meets_bind.mpr
          ((markFailed_allows role recorded.stage leaves _).mono ?_)
        rintro afterMark result ⟨rfl, -, marked⟩
        exact Program.meets_raise.mpr (ended_of_marked marked)
    | false =>
        refine selfRetry_allows role (by rw [recorded.stage]; exact retired) ?_ _ _
        intro reached same result
        unfold Phase.Ended
        rw [same, recorded.stage]
        generalize afterAttempt.stage = stage at leaves retired
        generalize failure.held = held at leaves
        cases leaves with
        | starting unparsed => exact unparsed
        | absent id parsed => trivial
        | broken id parsed => trivial
        | building id env network containers parsed => exact retired.elim
  · obtain ⟨env, stage⟩ := outcome
    unfold Phase.Ended
    dsimp only
    rw [stage]
    trivial

end Tasks

section Sweeps

/-- Reading the clock for each row gives one change for each row. -/
theorem changeAll_allows (change : Environment → Time → Environment)
    (rows : List Environment) (phase : Phase) :
    (protocol deployment).Allows (fun reached result =>
        phase.Follows reached ∧ ∃ changes, result = .ok changes ∧
          ∀ written ∈ changes, written.seen ∈ rows ∧ ∃ now ∈ reached.readings,
            written.now = change written.seen now) phase
      (Worker.changeAll change rows) := by
  induction rows generalizing phase with
  | nil => exact ⟨.refl, [], rfl, by simp⟩
  | cons row rows inductionHypothesis =>
      refine Program.meets_bind.mpr (now_allows fun afterNow now follows reading => ?_)
      refine Program.meets_bind.mpr ((inductionHypothesis afterNow).mono ?_)
      rintro reached result ⟨rest, changes, rfl, written⟩
      refine ⟨follows.trans rest, ⟨row, change row now⟩ :: changes, rfl, ?_⟩
      intro other present
      rcases List.mem_cons.mp present with rfl | later
      · exact ⟨List.mem_cons_self, now, rest.readings now reading, rfl⟩
      · obtain ⟨seen, made⟩ := written other later
        exact ⟨List.mem_cons_of_mem _ seen, made⟩

/-- `reap_expired_environments` keeps to the protocol. -/
theorem reapExpired_allows
    (sweep : phase.role = .sweep .reapExpired) :
    (protocol deployment).Allows (fun _ _ => True) phase
      Worker.reapExpiredEnvironments := by
  unfold Worker.reapExpiredEnvironments
  refine Program.meets_bind.mpr (now_allows fun afterNow now follows reading => ?_)
  have role := follows.role.trans sweep
  refine Program.meets_bind.mpr (allows_perform.mpr ⟨⟨role, reading⟩, fun reply _ => ?_⟩)
  cases reply with
  | error exc => trivial
  | ok rows =>
  dsimp only
  split
  · trivial
  · refine Program.meets_bind.mpr ((changeAll_allows _ rows _).mono ?_)
    rintro afterChanges result ⟨changed, changes, rfl, written⟩
    have role := changed.role.trans role
    have selected : afterChanges.stage = .selected rows := changed.stage
    refine Program.meets_bind.mpr (allows_perform.mpr
      ⟨.reaping rows changes role selected written, fun reply _ => ?_⟩)
    cases reply with
    | error exc => trivial
    | ok committed =>
    have claimed : (afterChanges.advance (.commitChanges changes) (.ok committed)).stage =
        .claimed rows := by
      rw [Phase.advance_stage, selected]
      rfl
    refine Program.meets_bind.mpr (Program.meets_forEach
      (fun items reached => (∀ env ∈ items, env ∈ rows) ∧ reached.stage = .claimed rows)
      ?_ (fun _ _ => trivial) rows _ ⟨fun _ present => present, claimed⟩)
    rintro env items reached ⟨present, stage⟩
    refine Program.meets_bind.mpr (allows_perform.mpr
      ⟨.reap rows env stage (present env List.mem_cons_self), fun reply _ => ?_⟩)
    cases reply with
    | error exc => trivial
    | ok task =>
        refine ⟨fun other later => present other (List.mem_cons_of_mem _ later), ?_⟩
        rw [Phase.advance_stage, stage]
        rfl

/-- A label in the grouping has its resources from the listings. -/
def Grouped (containers : List Container) (networks : List Network)
    (found : List (String × DockerManager.LabelledResources)) : Prop :=
  ∀ label resources, (label, resources) ∈ found →
    (∀ id ∈ resources.containerIds, ∃ container ∈ containers,
      container.id = id ∧ container.envLabel = some label) ∧
    (∀ id ∈ resources.networkIds, ∃ network ∈ networks,
      network.id = id ∧ network.envLabel = some label)

/-- Changing one entry of the grouping keeps a property of all entries. -/
theorem forall_mem_addResource {envId : String}
    {change : DockerManager.LabelledResources → DockerManager.LabelledResources}
    {found : List (String × DockerManager.LabelledResources)}
    {holds : String → DockerManager.LabelledResources → Prop}
    (fresh : holds envId (change {}))
    (changed : ∀ resources, holds envId resources → holds envId (change resources))
    (all : ∀ label resources, (label, resources) ∈ found → holds label resources) :
    ∀ label resources, (label, resources) ∈
      DockerManager.addResource envId change found → holds label resources := by
  induction found with
  | nil =>
      intro label resources present
      rw [DockerManager.addResource, List.mem_singleton] at present
      cases present
      exact fresh
  | cons entry found inductionHypothesis =>
      obtain ⟨key, old⟩ := entry
      intro label resources present
      unfold DockerManager.addResource at present
      split at present
      · rename_i same
        rcases List.mem_cons.mp present with here | later
        · cases here
          subst same
          exact changed old (all key old List.mem_cons_self)
        · exact all label resources (List.mem_cons_of_mem _ later)
      · rcases List.mem_cons.mp present with here | later
        · cases here
          exact all key old List.mem_cons_self
        · exact inductionHypothesis
            (fun label resources present =>
              all label resources (List.mem_cons_of_mem _ present))
            label resources later

/-- Grouping one more resource keeps a property of all entries. -/
theorem forall_mem_group {label : Option String} {created cutoff : Time}
    {change : DockerManager.LabelledResources → DockerManager.LabelledResources}
    {found : List (String × DockerManager.LabelledResources)}
    {holds : String → DockerManager.LabelledResources → Prop}
    (fresh : ∀ envId, label = some envId → holds envId (change {}))
    (changed : ∀ envId resources, label = some envId → holds envId resources →
      holds envId (change resources))
    (all : ∀ label resources, (label, resources) ∈ found → holds label resources) :
    ∀ key resources, (key, resources) ∈
      DockerManager.group label created cutoff change found → holds key resources := by
  cases label with
  | none => exact all
  | some envId =>
      unfold DockerManager.group
      dsimp only
      split
      · exact all
      · exact forall_mem_addResource (fresh envId rfl)
          (fun resources => changed envId resources rfl) all

/-- `find_labelled` groups the listed resources by their labels. -/
theorem grouped_grouped (cutoff : Time) (containers : List Container)
    (networks : List Network) :
    Grouped containers networks (DockerManager.grouped cutoff containers networks) := by
  unfold DockerManager.grouped
  refine List.foldlRecOn networks _ ?_ fun found all network present => ?_
  · refine List.foldlRecOn containers _ ?_ fun found all container present => ?_
    · intro label resources present
      cases present
    · refine forall_mem_group ?_ ?_ all
      · rintro envId labelled
        refine ⟨fun id listed => ?_, fun _ listed => absurd listed List.not_mem_nil⟩
        simp only [List.nil_append, List.mem_singleton] at listed
        exact ⟨container, present, listed.symm, labelled⟩
      · rintro envId resources labelled ⟨containersListed, networksListed⟩
        refine ⟨fun id listed => ?_, networksListed⟩
        rcases List.mem_append.mp listed with old | new
        · exact containersListed id old
        · exact ⟨container, present, (List.mem_singleton.mp new).symm, labelled⟩
  · refine forall_mem_group ?_ ?_ all
    · rintro envId labelled
      refine ⟨fun _ listed => absurd listed List.not_mem_nil, fun id listed => ?_⟩
      simp only [List.nil_append, List.mem_singleton] at listed
      exact ⟨network, present, listed.symm, labelled⟩
    · rintro envId resources labelled ⟨containersListed, networksListed⟩
      refine ⟨containersListed, fun id listed => ?_⟩
      rcases List.mem_append.mp listed with old | new
      · exact networksListed id old
      · exact ⟨network, present, (List.mem_singleton.mp new).symm, labelled⟩

/-- The loop of the orphan sweep only removes what was listed under a label
whose row it found missing or terminal. -/
theorem reconcileFound_allows {containers : List Container} {networks : List Network}
    (found : List (String × DockerManager.LabelledResources))
    (grouped : Grouped containers networks found)
    (removed skipped : Nat) (phase : Phase) (verdict : Option Uuid)
    (sweep : phase.role = .sweep .reconcileOrphans)
    (listing : phase.stage = .listing containers networks verdict) :
    (protocol deployment).Allows (fun _ _ => True) phase
      (Worker.reconcileFound found removed skipped) := by
  induction found generalizing phase verdict removed skipped with
  | nil => trivial
  | cons entry found inductionHypothesis =>
      obtain ⟨label, resources⟩ := entry
      have rest : Grouped containers networks found := fun other otherResources present =>
        grouped other otherResources (List.mem_cons_of_mem _ present)
      obtain ⟨containersListed, networksListed⟩ :=
        grouped label resources List.mem_cons_self
      unfold Worker.reconcileFound
      cases parsed : Uuid.parse label with
      | none =>
          exact inductionHypothesis rest removed (skipped + 1) phase verdict sweep listing
      | some id =>
          refine Program.meets_bind.mpr (allows_perform.mpr ⟨?_, fun reply _ => ?_⟩)
          · show phase.Loads id
            simp only [Phase.Loads, listing]
            exact sweep
          · cases reply with
            | error exc => trivial
            | ok row =>
            dsimp only
            have judged : (phase.advance (.loadEnvironment id) (.ok row)).stage =
                .listing containers networks
                  (if row.all fun env => env.status.terminal then some id else none) := by
              rw [Phase.advance_stage, listing]
              rfl
            split
            · rename_i terminal
              rw [if_pos terminal] at judged
              refine Program.meets_bind.mpr ((removeResources_allows
                resources.containerIds resources.networkIds ?_ ?_).mono ?_)
              · intro container present
                obtain ⟨listed, member, same, labelled⟩ := containersListed container present
                rw [judged]
                exact ⟨listed, member, same, label, labelled, parsed⟩
              · intro network present
                obtain ⟨listed, member, same, labelled⟩ := networksListed network present
                rw [judged]
                exact ⟨listed, member, same, label, labelled, parsed⟩
              · rintro reached result ⟨rfl, handled⟩
                obtain ⟨extra, stage, -⟩ := handled.stage
                rw [judged, Stage.clears_listing] at stage
                exact inductionHypothesis rest (removed + 1) skipped reached _
                  (handled.role.trans sweep) stage
            · exact inductionHypothesis rest removed (skipped + 1) _ _ sweep judged

/-- `reconcile_orphans` keeps to the protocol. -/
theorem reconcileOrphans_allows
    (sweep : phase.role = .sweep .reconcileOrphans) :
    (protocol deployment).Allows (fun _ _ => True) phase
      (Worker.reconcileOrphans deployment) := by
  unfold Worker.reconcileOrphans DockerManager.findLabelled
  refine Program.meets_bind.mpr (Program.meets_bind.mpr
    (now_allows fun afterNow now follows _ => ?_))
  have role := follows.role.trans sweep
  refine Program.meets_bind.mpr (allows_perform.mpr ⟨role, fun reply _ => ?_⟩)
  cases reply with
  | error exc => trivial
  | ok containers =>
  refine Program.meets_bind.mpr (allows_perform.mpr ⟨role, fun reply _ => ?_⟩)
  cases reply with
  | error exc => trivial
  | ok networks =>
      exact reconcileFound_allows _ (grouped_grouped _ containers networks) 0 0 _ none
        role rfl

/-- The loop over the timeouts collects changes of selected rows. -/
theorem recoverTimeouts_allows (now : Time) (timeouts : List (EnvironmentStatus × Int))
    (transient : ∀ entry ∈ timeouts,
      entry.1 ∈ [EnvironmentStatus.pending, .provisioning, .stopping])
    (changes : List Change) (counts : List (EnvironmentStatus × Nat)) (phase : Phase)
    (sweep : phase.role = .sweep .recoverStale)
    (pends : phase.Pends changes) :
    (protocol deployment).Allows (fun reached result =>
        reached.role = phase.role ∧
          match result with
          | .ok (changes, _) => reached.Pends changes
          | .error _ => True) phase
      (Worker.recoverTimeouts now timeouts changes counts) := by
  induction timeouts generalizing changes counts phase with
  | nil => exact ⟨rfl, pends⟩
  | cons entry timeouts inductionHypothesis =>
      obtain ⟨status, timeout⟩ := entry
      unfold Worker.recoverTimeouts
      refine Program.meets_bind.mpr (allows_perform.mpr
        ⟨⟨sweep, transient _ List.mem_cons_self, pends⟩, fun reply _ => ?_⟩)
      obtain ⟨rows, scanning, written⟩ := pends
      cases reply with
      | error exc => exact ⟨rfl, trivial⟩
      | ok stale =>
      refine Program.meets_bind.mpr ((changeAll_allows _ stale _).mono ?_)
      rintro middle result ⟨follows, failed, rfl, marked⟩
      have stage : middle.stage = .scanning (rows ++ stale) := by
        rw [follows.stage, Phase.advance_stage, scanning]
        rfl
      refine (inductionHypothesis
        (fun other later => transient other (List.mem_cons_of_mem _ later))
        (changes ++ failed) _ middle (follows.role.trans sweep) ?_).mono ?_
      · refine ⟨rows ++ stale, stage, fun change present => ?_⟩
        rcases List.mem_append.mp present with old | new
        · obtain ⟨seen, instant, reading, message, made⟩ := written change old
          exact ⟨List.mem_append_left _ seen, instant,
            follows.readings _ (Phase.mem_readings_advance reading), message, made⟩
        · obtain ⟨seen, instant, reading, made⟩ := marked change new
          exact ⟨List.mem_append_right _ seen, instant, reading, _, made⟩
      · rintro reached result ⟨role, rest⟩
        exact ⟨role.trans follows.role, rest⟩

/-- `recover_stale_transitions` keeps to the protocol. -/
theorem recoverStale_allows
    (sweep : phase.role = .sweep .recoverStale)
    (scanning : phase.stage = .scanning []) :
    (protocol deployment).Allows (fun _ _ => True) phase
      (Worker.recoverStaleTransitions deployment) := by
  unfold Worker.recoverStaleTransitions
  refine Program.meets_bind.mpr (now_allows fun afterNow now follows _ => ?_)
  have role := follows.role.trans sweep
  refine Program.meets_bind.mpr ((recoverTimeouts_allows now
    (Worker.transientTimeouts deployment.settings) ?_ [] [] afterNow role ?_).mono ?_)
  · intro entry present
    simp only [Worker.transientTimeouts, List.mem_cons, List.not_mem_nil, or_false]
      at present
    rcases present with rfl | rfl | rfl <;> simp
  · exact ⟨[], follows.stage.trans scanning, by simp⟩
  · rintro reached (exc | ⟨changes, counts⟩) ⟨reachedRole, rest⟩
    · trivial
    · dsimp only
      split
      · trivial
      · obtain ⟨rows, stage, written⟩ := rest
        refine Program.meets_bind.mpr (allows_perform.mpr
          ⟨.recovering rows changes (reachedRole.trans role) stage written,
            fun reply _ => ?_⟩)
        cases reply with
        | error exc => trivial
        | ok committed => trivial

end Sweeps

section Requests

variable {principal : String}

/-- `create_environment` keeps to the protocol. -/
theorem createEnvironment_allows {payload : EnvironmentCreate}
    (request : phase.role = .request (.create principal payload)) :
    (protocol deployment).Allows (fun reached result =>
        reached.Ended (.request (.create principal payload)) result) phase
      (Router.createEnvironment deployment principal payload) := by
  unfold Router.createEnvironment
  refine Program.meets_bind.mpr (allows_perform.mpr ⟨⟨payload, request⟩, fun reply _ => ?_⟩)
  rcases reply with exc | count
  · exact fun answer equal => by cases equal
  dsimp only
  by_cases full : deployment.settings.maxEnvironmentsPerUser ≤ (count : Int)
  · rw [if_pos full]
    exact fun answer equal => by cases equal
  rw [if_neg full]
  refine Program.meets_bind.mpr (allows_perform.mpr ⟨?_, fun reply _ => ?_⟩)
  · exact ⟨payload, count, request, rfl, rfl⟩
  rcases reply with exc | rows
  · exact fun answer equal => by cases equal
  refine Program.meets_bind.mpr (ofExcept_allows.mpr ?_)
  rcases rows with _ | ⟨row, _ | ⟨other, rows⟩⟩
  · dsimp only [Router.scalarOneOrNone]
    rw [if_neg (by simp)]
    refine Program.meets_bind.mpr (allows_perform.mpr
      ⟨⟨payload, count, request, rfl, not_le.mp full, rfl, rfl, rfl⟩,
        fun reply _ => ?_⟩)
    rcases reply with exc | env
    · exact fun answer equal => by cases equal
    refine Program.meets_bind.mpr (allows_perform.mpr
      ⟨.create principal payload count env request rfl, fun reply _ => ?_⟩)
    rcases reply with exc | task
    · exact fun answer equal => by cases equal
    refine Program.meets_bind.mpr (allows_perform.mpr
      ⟨⟨principal, payload, count, request, rfl⟩, fun reply _ => ?_⟩)
    rcases reply with exc | committed
    · exact fun answer equal => by cases equal
    intro answer equal
    cases equal
    exact ⟨_, task, _, rfl, rfl⟩
  · exact fun answer equal => by cases equal
  · exact fun answer equal => by cases equal

/-- Loading an owned row gives the row that the session holds. -/
theorem loadOwned_allows {id : Uuid} (target : phase.role.target = some id)
    (starting : phase.stage = .starting) :
    (protocol deployment).Allows (fun reached result =>
        reached.role = phase.role ∧
          ∀ env, result = .ok env → reached.stage = .loaded env) phase
      (Router.loadOwned id principal) := by
  unfold Router.loadOwned
  refine Program.meets_bind.mpr (allows_perform.mpr ⟨?_, fun reply _ => ?_⟩)
  · show phase.Loads id
    simpa only [Phase.Loads, starting] using target
  · rcases reply with exc | _ | env
    · exact ⟨rfl, fun env equal => by cases equal⟩
    · exact ⟨rfl, fun env equal => by cases equal⟩
    · dsimp only
      by_cases own : env.owner = principal
      · rw [if_pos own]
        refine ⟨rfl, fun other equal => ?_⟩
        cases equal
        rw [Phase.advance_stage, starting]
        rfl
      · rw [if_neg own]
        exact ⟨rfl, fun env equal => by cases equal⟩

/-- `delete_environment` keeps to the protocol. -/
theorem deleteEnvironment_allows {id : Uuid}
    (request : phase.role = .request (.delete id principal))
    (starting : phase.stage = .starting) :
    (protocol deployment).Allows (fun reached result =>
        reached.Ended (.request (.delete id principal)) result) phase
      (Router.deleteEnvironment id principal) := by
  unfold Router.deleteEnvironment
  refine Program.meets_bind.mpr ((loadOwned_allows (by rw [request]; rfl) starting).mono ?_)
  rintro afterLoad (exc | env) ⟨role, loaded⟩
  · exact fun answer equal => by cases equal
  have stage := loaded env rfl
  dsimp only
  by_cases gone : env.status = .stopped ∨ env.status = .stopping
  · rw [if_pos gone]
    exact fun answer equal => by cases equal
  rw [if_neg gone]
  refine Program.meets_bind.mpr (allows_perform.mpr
    ⟨.delete id principal env (role.trans request) stage, fun reply _ => ?_⟩)
  rcases reply with exc | task
  · exact fun answer equal => by cases equal
  have deleting : (afterLoad.advance (.publish .teardown env.id.str 0 0)
      (.ok task)).stage = .deleting env task := by
    rw [Phase.advance_stage, stage]
    rfl
  refine Program.meets_bind.mpr (allows_perform.mpr
    ⟨.accepted env task deleting, fun reply _ => ?_⟩)
  rcases reply with exc | committed
  · exact fun answer equal => by cases equal
  intro answer equal
  cases equal
  refine ⟨{ env with celeryTaskId := some task }, task, _, ?_, rfl⟩
  rw [Phase.advance_stage, deleting]
  rfl

/-- `get_environment` keeps to the protocol. -/
theorem getEnvironment_allows {id : Uuid}
    (request : phase.role = .request (.get id principal))
    (starting : phase.stage = .starting) :
    (protocol deployment).Allows (fun _ _ => True) phase
      (Router.getEnvironment id principal) := by
  unfold Router.getEnvironment
  refine Program.meets_bind.mpr ((loadOwned_allows (by rw [request]; rfl) starting).mono ?_)
  rintro afterLoad (exc | env) _
  · trivial
  · trivial

/-- `list_environments` keeps to the protocol. -/
theorem listEnvironments_allows {status : Option EnvironmentStatus} {limit offset : Nat}
    (request : phase.role = .request (.list principal status limit offset)) :
    (protocol deployment).Allows (fun _ _ => True) phase
      (Router.listEnvironments principal status limit offset) := by
  unfold Router.listEnvironments
  refine Program.meets_bind.mpr (allows_perform.mpr ⟨⟨limit, offset, request⟩, fun reply _ => ?_⟩)
  rcases reply with exc | total
  · trivial
  refine Program.meets_bind.mpr (allows_perform.mpr ⟨trivial, fun reply _ => ?_⟩)
  rcases reply with exc | rows
  · trivial
  · trivial

end Requests

/-- Every program keeps to the protocol and ends as its role demands. -/
theorem program_allows (deployment : Deployment) (role : Role) :
    (protocol deployment).Allows (Phase.Ended role) (Phase.start role)
      (program deployment role) := by
  cases role with
  | request request =>
      cases request with
      | create principal payload => exact createEnvironment_allows rfl
      | list principal status limit offset => exact listEnvironments_allows rfl
      | get id principal => exact getEnvironment_allows rfl rfl
      | delete id principal => exact deleteEnvironment_allows rfl rfl
  | task message =>
      unfold program
      dsimp only
      cases task : message.task with
      | provision => exact provisionEnvironment_allows rfl task rfl
      | teardown => exact teardownEnvironment_allows rfl task rfl
  | sweep sweep =>
      cases sweep with
      | reapExpired => exact reapExpired_allows rfl
      | reconcileOrphans => exact reconcileOrphans_allows rfl
      | recoverStale => exact recoverStale_allows rfl rfl

end Provisioner
