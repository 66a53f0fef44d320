import Provisioner.Protocol

/-!
# The Docker manager keeps to the protocol

One specification for each function of the Docker manager, from the readiness
wait up to provisioning and removal: whatever the daemon answers, the calls are
permitted, and the stage says which resources have been created or dealt with.
-/

namespace Provisioner

open Resumption

variable {deployment : Deployment} {phase : Phase}

/-- The reply to a call is a result or an exception of its service. -/
def Possible {request : Call} (reply : Reply request) : Prop :=
  ∀ exc, reply = .error exc → request.target.raises exc.cls = true

/-- One call keeps to the protocol. -/
theorem allows_perform {request : Call}
    {post : Phase → Except Exn request.Result → Prop} :
    (protocol deployment).Allows post phase (perform request) ↔
      phase.permits deployment request ∧
        ∀ reply : Reply request, Possible reply →
          post (phase.advance request reply) reply := by
  constructor
  · rintro ⟨permitted, answered⟩
    refine ⟨permitted, fun reply possible => ?_⟩
    have met := answered reply _ ⟨possible, rfl⟩
    cases reply with
    | ok value => exact met
    | error exc => exact met
  · rintro ⟨permitted, answered⟩
    refine ⟨permitted, ?_⟩
    rintro reply next ⟨possible, rfl⟩
    cases reply with
    | ok value => exact answered (.ok value) possible
    | error exc => exact answered (.error exc) possible

namespace Phase

/-- The thread has learnt something without changing its stage. -/
structure Follows (phase reached : Phase) : Prop where
  role : reached.role = phase.role
  stage : reached.stage = phase.stage
  readings : ∀ instant ∈ phase.readings, instant ∈ reached.readings
  failed : ∀ call ∈ phase.failed, call ∈ reached.failed

theorem Follows.refl : phase.Follows phase :=
  ⟨rfl, rfl, fun _ present => present, fun _ present => present⟩

theorem Follows.trans {middle reached : Phase}
    (first : phase.Follows middle) (second : middle.Follows reached) :
    phase.Follows reached where
  role := second.role.trans first.role
  stage := second.stage.trans first.stage
  readings _ present := second.readings _ (first.readings _ present)
  failed _ present := second.failed _ (first.failed _ present)

theorem mem_readingsAfter {request : Call} {reply : Reply request} {instant : Time}
    (present : instant ∈ phase.readings) :
    instant ∈ phase.readingsAfter request reply := by
  unfold readingsAfter
  split
  · exact List.mem_cons_of_mem _ present
  · exact present

theorem mem_failedAfter {request call : Call} {reply : Reply request}
    (present : call ∈ phase.failed) :
    call ∈ phase.failedAfter request reply := by
  unfold failedAfter
  split
  · exact present
  · split
    · exact present
    · exact List.mem_cons_of_mem _ present

theorem mem_failed_advance {request call : Call} {reply : Reply request}
    (present : call ∈ phase.failed) :
    call ∈ (phase.advance request reply).failed :=
  mem_failedAfter present

theorem mem_readings_advance {request : Call} {reply : Reply request} {instant : Time}
    (present : instant ∈ phase.readings) :
    instant ∈ (phase.advance request reply).readings :=
  mem_readingsAfter present

/-- A call that does not change the stage. -/
theorem Follows.advance {request : Call} {reply : Reply request}
    (same : phase.stage.after phase.role request reply = phase.stage) :
    phase.Follows (phase.advance request reply) where
  role := rfl
  stage := same
  readings _ present := mem_readingsAfter present
  failed _ present := mem_failedAfter present

@[simp] theorem advance_role {request : Call} {reply : Reply request} :
    (phase.advance request reply).role = phase.role := rfl

@[simp] theorem advance_stage {request : Call} {reply : Reply request} :
    (phase.advance request reply).stage =
      phase.stage.after phase.role request reply := rfl

theorem mem_readings_now {instant : Time} :
    instant ∈ (phase.advance .now (.ok instant)).readings :=
  List.mem_cons_self

end Phase

section Readiness

/-- Reading the clock keeps the stage and records the reading. -/
theorem now_allows {post : Phase → Except Exn Time → Prop}
    (next : ∀ reached instant, phase.Follows reached → instant ∈ reached.readings →
      post reached (.ok instant)) :
    (protocol deployment).Allows post phase (perform .now) := by
  refine allows_perform.mpr ⟨trivial, fun reply possible => ?_⟩
  cases reply with
  | ok instant => exact next _ instant (.advance rfl) Phase.mem_readings_now
  | error exc => cases possible exc rfl

/-- A call that is always permitted and never changes the stage. -/
theorem quiet_allows {request : Call}
    (permitted : ∀ phase : Phase, phase.permits deployment request)
    (same : ∀ (role : Role) (stage : Stage) (reply : Reply request),
      stage.after role request reply = stage) :
    (protocol deployment).Allows (fun reached _ => phase.Follows reached) phase
      (perform request) := by
  exact allows_perform.mpr
    ⟨permitted phase, fun reply _ => .advance (same _ _ reply)⟩

/-- Reloading a container keeps the stage. -/
theorem reload_allows {container : DockerId} :
    (protocol deployment).Allows (fun reached _ => phase.Follows reached) phase
      (perform (.containerReload container)) :=
  quiet_allows (fun _ => trivial) fun _ _ reply => by cases reply <;> rfl

/-- Recording a sample keeps the stage and succeeds. -/
theorem record_allows {metric : Metric} {post : Phase → Except Exn Unit → Prop}
    (next : ∀ reached, phase.Follows reached → post reached (.ok ())) :
    (protocol deployment).Allows post phase (perform (.record metric)) := by
  refine allows_perform.mpr ⟨trivial, fun reply possible => ?_⟩
  cases reply with
  | ok value => exact next _ (.advance rfl)
  | error exc => cases possible exc rfl

/-- Sleeping keeps the stage. -/
theorem sleep_allows {instant : Time} :
    (protocol deployment).Allows (fun reached _ => phase.Follows reached) phase
      (perform (.sleepUntil instant)) :=
  quiet_allows (fun _ => trivial) fun _ _ reply => by cases reply <;> rfl

/-- A result that is already known keeps the stage. -/
theorem ofExcept_allows {α ε : Type} {result : Except ε α}
    {post : Phase → Except ε α → Prop} :
    (protocol deployment).Allows post phase (.ofExcept result) ↔ post phase result := by
  cases result <;> rfl

/-- The polling loop only watches. -/
theorem poll_allows (container : DockerId) (spec : ContainerSpec)
    (timeout : Int) (deadline : Time) (rounds : Nat) :
    (protocol deployment).Allows (fun reached _ => phase.Follows reached) phase
      (DockerManager.poll deployment container spec timeout deadline rounds) := by
  induction rounds generalizing phase with
  | zero => exact .refl
  | succ rounds inductionHypothesis =>
      unfold DockerManager.poll
      refine Program.meets_bind.mpr ?_
      refine now_allows fun afterClock instant follows _ => ?_
      dsimp only
      split
      · refine Program.meets_bind.mpr ?_
        refine reload_allows.mono fun afterReload result reloaded => ?_
        have sofar := follows.trans reloaded
        cases result with
        | error exc => exact sofar
        | ok observation =>
            dsimp only
            split
            · exact ofExcept_allows.mpr sofar
            · refine Program.meets_bind.mpr ?_
              refine now_allows fun afterSecond instant second _ => ?_
              refine Program.meets_bind.mpr ?_
              refine sleep_allows.mono fun afterSleep result slept => ?_
              have whole := (sofar.trans second).trans slept
              cases result with
              | error exc => exact whole
              | ok done =>
                  exact inductionHypothesis.mono fun _ _ rest => whole.trans rest
      · exact follows

/-- The readiness wait only watches. -/
theorem waitForReady_allows (container : DockerId) (spec : ContainerSpec) :
    (protocol deployment).Allows (fun reached _ => phase.Follows reached) phase
      (DockerManager.waitForReady deployment container spec) := by
  unfold DockerManager.waitForReady
  refine Program.meets_bind.mpr ?_
  refine now_allows fun afterClock instant follows _ => ?_
  exact (poll_allows container spec _ _ _).mono fun _ _ rest => follows.trans rest

/-- Reading the host port only watches. -/
theorem readPort_allows (container : DockerId) (spec : ContainerSpec)
    (hostPort : Option Nat) :
    (protocol deployment).Allows (fun reached _ => phase.Follows reached) phase
      (DockerManager.readPort container spec hostPort) := by
  unfold DockerManager.readPort
  split
  · refine Program.meets_bind.mpr ?_
    refine reload_allows.mono fun reached result follows => ?_
    cases result with
    | error exc => exact follows
    | ok observation =>
        dsimp only
        split
        · exact follows
        · exact follows
  · exact .refl

end Readiness

section Provisioning

variable {env : Environment} {network : DockerId} {containers : List DockerId}
  {template : List ContainerSpec}

/-- A run request carries the names and labels of its environment and role. -/
theorem runRequest_names {envId networkName : String} {spec : ContainerSpec}
    {environment : List (String × EnvironmentValue)} {request : Compose.RunRequest}
    (built : Compose.runRequest deployment envId networkName spec environment =
      .ok request) :
    request.envLabel = envId ∧ request.roleLabel = spec.role ∧
      request.name = Compose.containerName envId spec.role ∧
      request.network = networkName := by
  unfold Compose.runRequest at built
  split at built
  · cases built
  · cases built
    exact ⟨rfl, rfl, rfl, rfl⟩

/-- Starting a container records it in the stage, or fails and leaves the stage. -/
theorem startContainer_allows {spec : ContainerSpec}
    (attempt : phase.role.runs .provision)
    (building : phase.stage = .building env (some network) containers)
    (known : deployment.templates.lookup env.template = some template)
    (present : spec ∈ template)
    (environment : List (String × EnvironmentValue)) :
    (protocol deployment).Allows (fun reached result =>
        reached.role = phase.role ∧
          match result with
          | .ok id => reached.stage = .building env (some network) (containers ++ [id])
          | .error _ => reached.stage = phase.stage) phase
      (DockerManager.startContainer deployment env.id.str spec environment) := by
  unfold DockerManager.startContainer
  refine Program.meets_bind.mpr (ofExcept_allows.mpr ?_)
  cases built : Compose.runRequest deployment env.id.str
      (Compose.networkName env.id.str) spec environment with
  | error exc => exact ⟨rfl, rfl⟩
  | ok request =>
      obtain ⟨envLabel, roleLabel, name, networkName⟩ := runRequest_names built
      refine Program.meets_tryCatch.mpr (allows_perform.mpr ⟨?_, ?_⟩)
      · exact ⟨env, network, containers, template, spec, attempt, building, known,
          present, envLabel, roleLabel, name, networkName⟩
      · intro reply _
        cases reply with
        | ok id =>
            refine ⟨rfl, ?_⟩
            rw [Phase.advance_stage, building]
            rfl
        | error exc =>
            refine ⟨rfl, ?_⟩
            rw [Phase.advance_stage, building]
            rfl

/-- The loop over the specs collects the containers in the stage. -/
theorem startContainers_allows
    (phase : Phase)
    (known : deployment.templates.lookup env.template = some template)
    (roles : List String) (specs : List ContainerSpec)
    (present : ∀ spec ∈ specs, spec ∈ template)
    (containers : List DockerId) (hostPort : Option Nat)
    (attempt : phase.role.runs .provision)
    (building : phase.stage = .building env (some network) containers)
    (ported : hostPort.isSome → containers ≠ []) :
    (protocol deployment).Allows (fun reached result =>
        reached.role = phase.role ∧
          match result with
          | .ok (started, port) => reached.stage = .building env (some network) started ∧
              (port.isSome → started ≠ [])
          | .error _ => ∃ started, reached.stage = .building env (some network) started)
      phase
      (DockerManager.startContainers deployment env.id.str roles specs containers
        hostPort) := by
  induction specs generalizing phase containers hostPort with
  | nil => exact ⟨rfl, building, ported⟩
  | cons spec specs inductionHypothesis =>
      unfold DockerManager.startContainers
      refine Program.meets_bind.mpr (ofExcept_allows.mpr ?_)
      cases Compose.resolveEnvironment deployment env.id.str spec roles with
      | error exc => exact ⟨rfl, containers, building⟩
      | ok environment =>
          refine Program.meets_bind.mpr ((startContainer_allows attempt building known
            (present spec List.mem_cons_self) environment).mono ?_)
          rintro afterRun (exc | container) ⟨sameRole, ran⟩
          · exact ⟨sameRole, containers, ran.trans building⟩
          · refine Program.meets_bind.mpr
              ((waitForReady_allows container spec).mono ?_)
            rintro afterWait (exc | ready) waited
            · exact ⟨waited.role.trans sameRole, _, waited.stage.trans ran⟩
            · refine Program.meets_bind.mpr
                ((readPort_allows container spec hostPort).mono ?_)
              rintro afterPort (exc | port) read
              · exact ⟨(read.role.trans waited.role).trans sameRole, _,
                  (read.stage.trans waited.stage).trans ran⟩
              · have role := (read.role.trans waited.role).trans sameRole
                have rest := inductionHypothesis afterPort
                  (fun other later => present other (List.mem_cons_of_mem _ later))
                  (containers ++ [container]) port (by rw [role]; exact attempt)
                  ((read.stage.trans waited.stage).trans ran) (fun _ => by simp)
                refine rest.mono ?_
                rintro reached (exc | ⟨started, port⟩) ⟨laterRole, laterStage⟩
                · exact ⟨laterRole.trans role, laterStage⟩
                · exact ⟨laterRole.trans role, laterStage⟩

/-- Provisioning builds the stack that its result describes. -/
theorem provision_allows
    (attempt : phase.role.runs .provision)
    (building : phase.stage = .building env none []) :
    (protocol deployment).Allows (fun reached result =>
        reached.role = phase.role ∧
          match result with
          | .ok stack =>
              reached.stage = .building env (some stack.networkId) stack.containerIds ∧
                stack.containerIds ≠ []
          | .error _ => ∃ network started, reached.stage = .building env network started)
      phase
      (DockerManager.provision deployment env.id.str env.template) := by
  unfold DockerManager.provision
  split
  · exact ⟨rfl, none, [], building⟩
  · exact ⟨rfl, none, [], building⟩
  · rename_i template _ known
    refine Program.meets_bind.mpr (allows_perform.mpr ⟨?_, ?_⟩)
    · exact ⟨env, attempt, building, rfl, rfl⟩
    · intro reply _
      cases reply with
      | error exc =>
          refine ⟨rfl, none, [], ?_⟩
          rw [Phase.advance_stage, building]
          rfl
      | ok network =>
          have created : (phase.advance (.networksCreate (Compose.networkName env.id.str)
              env.id.str) (.ok network)).stage = .building env (some network) [] := by
            rw [Phase.advance_stage, building]
            rfl
          refine Program.meets_bind.mpr ((startContainers_allows
            (phase.advance (.networksCreate _ _) (.ok network)) known
            (template.map ContainerSpec.role) (Compose.startOrder template)
            (fun spec present => Compose.mem_startOrder.mp present) [] none attempt
            created (by simp)).mono ?_)
          rintro reached (exc | ⟨started, port⟩) ⟨role, rest⟩
          · obtain ⟨started, stage⟩ := rest
            exact ⟨role, some network, started, stage⟩
          · obtain ⟨stage, ported⟩ := rest
            cases port with
            | none => exact ⟨role, some network, started, stage⟩
            | some port => exact ⟨role, stage, ported rfl⟩

end Provisioning

namespace Stage

variable {stage : Stage} {env : Environment} {cleared : List Resource}

/-- After several resources have been removed or reported missing. -/
def clears (resources : List Resource) (stage : Stage) : Stage :=
  resources.foldl (fun stage resource => stage.clear resource) stage

theorem clears_append {first second : List Resource} :
    stage.clears (first ++ second) = (stage.clears first).clears second := by
  simp [clears]

@[simp] theorem clears_removing {resources : List Resource} :
    (removing env cleared).clears resources = removing env (cleared ++ resources) := by
  induction resources generalizing cleared with
  | nil => simp [clears]
  | cons resource resources inductionHypothesis =>
      have step : (removing env cleared).clears (resource :: resources) =
          (removing env (cleared ++ [resource])).clears resources := rfl
      rw [step, inductionHypothesis]
      simp

@[simp] theorem clears_listing {containers : List Container} {networks : List Network}
    {verdict : Option Uuid} {resources : List Resource} :
    (listing containers networks verdict).clears resources =
      listing containers networks verdict := by
  induction resources with
  | nil => rfl
  | cons resource resources inductionHypothesis => exact inductionHypothesis

/-- Dealing with a resource does not change what may be removed. -/
@[simp] theorem removes_clear {first second : Resource} :
    (stage.clear first).Removes second ↔ stage.Removes second := by
  cases stage <;> rfl

@[simp] theorem removes_clears {resources : List Resource} {resource : Resource} :
    (stage.clears resources).Removes resource ↔ stage.Removes resource := by
  induction resources generalizing stage with
  | nil => rfl
  | cons first resources inductionHypothesis =>
      exact inductionHypothesis.trans removes_clear

end Stage

/-- Each of these resources was removed, reported missing, or not removed
because a request about it failed. -/
structure Phase.Handles (resources : List Resource) (phase reached : Phase) : Prop where
  role : reached.role = phase.role
  stage : ∃ extra, reached.stage = phase.stage.clears extra ∧
    ∀ resource ∈ resources,
      resource ∈ extra ∨ ∃ call ∈ reached.failed, call.about resource
  failed : ∀ call ∈ phase.failed, call ∈ reached.failed

namespace Phase.Handles

variable {first second : List Resource} {middle reached : Phase}

theorem of_follows (follows : phase.Follows reached) : Handles [] phase reached where
  role := follows.role
  stage := ⟨[], follows.stage, by simp⟩
  failed := follows.failed

theorem trans (before : Handles first phase middle)
    (after : Handles second middle reached) :
    Handles (first ++ second) phase reached := by
  obtain ⟨earlier, middleStage, earlierHandled⟩ := before.stage
  obtain ⟨later, reachedStage, laterHandled⟩ := after.stage
  refine ⟨after.role.trans before.role, ⟨earlier ++ later, ?_, ?_⟩,
    fun call present => after.failed call (before.failed call present)⟩
  · rw [reachedStage, middleStage, Stage.clears_append]
  · intro resource present
    rcases List.mem_append.mp present with old | new
    · rcases earlierHandled resource old with done | ⟨call, present, about⟩
      · exact .inl (List.mem_append_left _ done)
      · exact .inr ⟨call, after.failed call present, about⟩
    · rcases laterHandled resource new with done | failed
      · exact .inl (List.mem_append_right _ done)
      · exact .inr failed

theorem removes {resources : List Resource} (handles : Handles resources phase reached)
    {resource : Resource} :
    reached.stage.Removes resource ↔ phase.stage.Removes resource := by
  obtain ⟨extra, stage, -⟩ := handles.stage
  rw [stage, Stage.removes_clears]

/-- A failed request about a resource deals with it. -/
theorem of_error {request : Call} {resource : Resource} {exc : Exn}
    (about : request.about resource)
    (lost : phase.stage.after phase.role request (.error exc) =
      if exc.isNotFound then phase.stage.clear resource else phase.stage) :
    Handles [resource] phase (phase.advance request (.error exc)) := by
  refine ⟨rfl, ?_, fun _ present => Phase.mem_failed_advance present⟩
  rw [Phase.advance_stage, lost]
  cases found : exc.isNotFound with
  | true => exact ⟨[resource], rfl, by simp⟩
  | false =>
      refine ⟨[], rfl, ?_⟩
      intro other present
      rw [List.mem_singleton] at present
      subst present
      refine .inr ⟨request, ?_, about⟩
      simp [Phase.advance, Phase.failedAfter, found]

end Phase.Handles

section Removal

/-- A request about a resource that leaves it in place. -/
theorem ask_allows {request : Call} {resource : Resource}
    (permitted : phase.permits deployment request)
    (about : request.about resource)
    (kept : ∀ value, phase.stage.after phase.role request (.ok value) = phase.stage)
    (lost : ∀ exc, phase.stage.after phase.role request (.error exc) =
      if exc.isNotFound then phase.stage.clear resource else phase.stage) :
    (protocol deployment).Allows (fun reached result =>
        match result with
        | .ok _ => phase.Follows reached
        | .error _ => Phase.Handles [resource] phase reached) phase
      (perform request) := by
  refine allows_perform.mpr ⟨permitted, fun reply _ => ?_⟩
  cases reply with
  | ok value => exact .advance (kept value)
  | error exc => exact .of_error about (lost exc)

/-- A request that removes a resource. -/
theorem remove_allows {request : Call} {resource : Resource}
    (permitted : phase.permits deployment request)
    (about : request.about resource)
    (removed : ∀ value, phase.stage.after phase.role request (.ok value) =
      phase.stage.clear resource)
    (lost : ∀ exc, phase.stage.after phase.role request (.error exc) =
      if exc.isNotFound then phase.stage.clear resource else phase.stage) :
    (protocol deployment).Allows (fun reached _ =>
        Phase.Handles [resource] phase reached) phase (perform request) := by
  refine allows_perform.mpr ⟨permitted, fun reply _ => ?_⟩
  cases reply with
  | ok value =>
      refine ⟨rfl, ⟨[resource], ?_, by simp⟩, fun _ present =>
        Phase.mem_failed_advance present⟩
      rw [Phase.advance_stage, removed]
      rfl
  | error exc => exact .of_error about (lost exc)

/-- Removing a container deals with it and raises nothing. -/
theorem removeContainer_allows {phase : Phase} (id : DockerId)
    (permitted : phase.stage.Removes (.container id)) :
    (protocol deployment).Allows (fun reached result =>
        result = .ok () ∧ Phase.Handles [.container id] phase reached) phase
      (DockerManager.removeContainer id) := by
  unfold DockerManager.removeContainer
  refine Program.meets_tryCatch.mpr (Program.meets_bind.mpr ?_)
  have get : (protocol deployment).Allows _ phase (perform (.containerGet id)) :=
    ask_allows permitted rfl (fun _ => rfl) fun _ => rfl
  refine get.mono ?_
  rintro afterGet (exc | value) got
  · exact ⟨rfl, got⟩
  · have stopPermitted : afterGet.stage.Removes (.container id) := by
      rw [got.stage]
      exact permitted
    have stop : (protocol deployment).Allows _ afterGet (perform (.containerStop id)) :=
      ask_allows stopPermitted rfl (fun _ => rfl) fun _ => rfl
    refine Program.meets_bind.mpr (stop.mono ?_)
    rintro afterStop (exc | value) stopped
    · exact ⟨rfl, (Phase.Handles.of_follows got).trans stopped⟩
    · have removePermitted : afterStop.stage.Removes (.container id) := by
        rw [stopped.stage]
        exact stopPermitted
      have remove : (protocol deployment).Allows _ afterStop
          (perform (.containerRemove id)) :=
        remove_allows removePermitted rfl (fun _ => rfl)
          fun _ => rfl
      refine remove.mono ?_
      rintro reached (exc | value) removed
      · exact ⟨rfl, (Phase.Handles.of_follows (got.trans stopped)).trans removed⟩
      · exact ⟨rfl, (Phase.Handles.of_follows (got.trans stopped)).trans removed⟩

/-- Removing a network deals with it and raises nothing. -/
theorem removeNetwork_allows {phase : Phase} (id : DockerId)
    (permitted : phase.stage.Removes (.network id)) :
    (protocol deployment).Allows (fun reached result =>
        result = .ok () ∧ Phase.Handles [.network id] phase reached) phase
      (DockerManager.removeNetwork id) := by
  unfold DockerManager.removeNetwork
  refine Program.meets_tryCatch.mpr (Program.meets_bind.mpr ?_)
  have get : (protocol deployment).Allows _ phase (perform (.networkGet id)) :=
    ask_allows permitted rfl (fun _ => rfl) fun _ => rfl
  refine get.mono ?_
  rintro afterGet (exc | value) got
  · exact ⟨rfl, got⟩
  · have removePermitted : afterGet.stage.Removes (.network id) := by
      rw [got.stage]
      exact permitted
    have remove : (protocol deployment).Allows _ afterGet (perform (.networkRemove id)) :=
      remove_allows removePermitted rfl (fun _ => rfl)
        fun _ => rfl
    refine remove.mono ?_
    rintro reached (exc | value) removed
    · exact ⟨rfl, (Phase.Handles.of_follows got).trans removed⟩
    · exact ⟨rfl, (Phase.Handles.of_follows got).trans removed⟩

/-- A loop of removals deals with every item. -/
theorem removeEach_allows {body : DockerId → Action Unit}
    (resource : DockerId → Resource)
    (each : ∀ (phase : Phase) (id : DockerId), phase.stage.Removes (resource id) →
      (protocol deployment).Allows (fun reached result =>
          result = .ok () ∧ Phase.Handles [resource id] phase reached) phase (body id))
    (ids : List DockerId) (phase : Phase)
    (permitted : ∀ id ∈ ids, phase.stage.Removes (resource id)) :
    (protocol deployment).Allows (fun reached result =>
        result = .ok () ∧ Phase.Handles (ids.map resource) phase reached) phase
      (Program.forEach body ids) := by
  induction ids generalizing phase with
  | nil => exact ⟨rfl, .of_follows .refl⟩
  | cons id ids inductionHypothesis =>
      refine Program.meets_bind.mpr
        ((each phase id (permitted id List.mem_cons_self)).mono ?_)
      rintro middle result ⟨rfl, handled⟩
      refine (inductionHypothesis middle fun other later =>
        handled.removes.mpr (permitted other (List.mem_cons_of_mem _ later))).mono ?_
      rintro reached result ⟨ended, rest⟩
      exact ⟨ended, handled.trans rest⟩

/-- `remove_resources` deals with every listed resource and raises nothing. -/
theorem removeResources_allows {phase : Phase} (containerIds networkIds : List DockerId)
    (containers : ∀ id ∈ containerIds, phase.stage.Removes (.container id))
    (networks : ∀ id ∈ networkIds, phase.stage.Removes (.network id)) :
    (protocol deployment).Allows (fun reached result =>
        result = .ok () ∧ Phase.Handles
          (containerIds.map .container ++ networkIds.map .network) phase reached) phase
      (DockerManager.removeResources containerIds networkIds) := by
  unfold DockerManager.removeResources
  refine Program.meets_bind.mpr ((removeEach_allows .container
    (fun _ id => removeContainer_allows id) containerIds phase containers).mono ?_)
  rintro middle result ⟨rfl, handled⟩
  refine (removeEach_allows .network (fun _ id => removeNetwork_allows id) networkIds
    middle fun id present => handled.removes.mpr (networks id present)).mono ?_
  rintro reached result ⟨ended, rest⟩
  exact ⟨ended, handled.trans rest⟩

end Removal

end Provisioner
