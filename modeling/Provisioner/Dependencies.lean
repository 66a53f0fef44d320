import Provisioner.Alone
import Provisioner.Calls

/-!
# Which roles start first

`provision` sorts the specs with the key `depends_on_role` behind the others and keeps the
order of the template otherwise. So a role without the key starts before every role that
depends on it, but a role with the key starts before its dependants only if the template
lists it first.
-/

namespace Provisioner

open Resumption

namespace Dependencies

/-- The roles of a template are distinct, and they depend on each other without a cycle.
A spec with the key and the value `None` depends on nothing. -/
structure WellFormed (template : List ContainerSpec) : Prop where
  distinct : (template.map ContainerSpec.role).Nodup
  named : ∀ spec ∈ template, ∀ role ∈ spec.dependsOnRole.join,
    role ∈ template.map ContainerSpec.role
  acyclic : ∃ rank : String → Nat, ∀ spec ∈ template, ∀ role ∈ spec.dependsOnRole.join,
    rank role < rank spec.role

/-- What `provision` does before the call of `_start_container` for the spec that comes
after these in the start order. -/
def rounds
    (deployment : Deployment)
    (envId : String)
    (template before : List ContainerSpec) :
    Action (DockerId × List DockerId × Option Nat) := do
  let network ← DockerManager.createNetwork envId
  let (containerIds, hostPort) ← DockerManager.startContainers deployment envId
    (template.map ContainerSpec.role) before [] none
  pure (network, containerIds, hostPort)

/-- What `provision` does after the call of `_start_container` for a spec. -/
def remainder
    (deployment : Deployment)
    (envId : String)
    (template : List ContainerSpec)
    (spec : ContainerSpec)
    (after : List ContainerSpec)
    (network : DockerId)
    (containerIds : List DockerId)
    (hostPort : Option Nat)
    (container : DockerId) : Action DockerManager.StackResult := do
  DockerManager.waitForReady deployment container spec
  let hostPort ← DockerManager.readPort container spec hostPort
  let (containerIds, hostPort) ← DockerManager.startContainers deployment envId
    (template.map ContainerSpec.role) after (containerIds ++ [container]) hostPort
  match hostPort with
  | none => .raise ⟨.runtimeError, "No exposed port found after provisioning"⟩
  | some hostPort => pure ⟨network, containerIds, hostPort⟩

/-- `provision` of the template calls `_start_container` for the spec once it has made
the calls of the trace. -/
def Calls
    (deployment : Deployment)
    (envId templateName : String)
    (template : List ContainerSpec)
    (world : World)
    (spec : ContainerSpec)
    (trace : List (Entry Reply)) : Prop :=
  ∃ before after environment reached state,
    Compose.startOrder template = before ++ spec :: after ∧
    DockerManager.provision deployment envId templateName =
      (rounds deployment envId template before >>= fun (network, containerIds, hostPort) =>
        .ofExcept (Compose.resolveEnvironment deployment envId spec
          (template.map ContainerSpec.role)) >>= fun environment =>
        DockerManager.startContainer deployment envId spec environment >>= fun container =>
        remainder deployment envId template spec after network containerIds hostPort
          container) ∧
    Executes (lone deployment Unrestricted) world (rounds deployment envId template before)
      trace reached (.ok state) ∧
    Compose.resolveEnvironment deployment envId spec (template.map ContainerSpec.role) =
      .ok environment

/-- The role was started, and `_wait_for_ready` returned for its container. -/
def Ready
    (deployment : Deployment)
    (spec : ContainerSpec)
    (trace : List (Entry Reply)) : Prop :=
  ∃ earlier request id later observation,
    trace = earlier ++ ⟨.containersRun request, .ok id⟩ :: later ∧
    request.roleLabel = spec.role ∧
    ⟨.containerReload id, .ok observation⟩ ∈ later ∧
    DockerManager.verdict deployment id spec observation = some (.ok ())

/-- Whatever Docker answers, a role is started after the role that it depends on. -/
def Ordered
    (deployment : Deployment)
    (envId templateName : String)
    (template : List ContainerSpec) : Prop :=
  ∀ world spec trace,
    Calls deployment envId templateName template world spec trace →
    ∀ dependency ∈ template, spec.dependsOnRole = some (some dependency.role) →
      Ready deployment dependency trace

/-- The environment of a spec can be resolved. -/
def resolves
    (deployment : Deployment)
    (envId : String)
    (template : List ContainerSpec)
    (spec : ContainerSpec) : Bool :=
  (Compose.resolveEnvironment deployment envId spec
    (template.map ContainerSpec.role)).toOption.isSome

/-- A container can be started for a spec. -/
def startable
    (deployment : Deployment)
    (envId : String)
    (template : List ContainerSpec)
    (spec : ContainerSpec) : Bool :=
  resolves deployment envId template spec &&
    (Compose.resourceLimits deployment.settings spec).toOption.isSome

/-- `provision` can come to a spec with the key, the specs `earlier` being listed before it:
the roles that start before it can start and become ready. -/
structure Attainable
    (deployment : Deployment)
    (envId : String)
    (template earlier : List ContainerSpec)
    (spec : ContainerSpec) : Prop where
  preceded : ∀ other ∈ template, other.dependsOnRole = none ∨ other ∈ earlier →
    0 < deployment.settings.containerReadyTimeoutSeconds ∧
      startable deployment envId template other = true
  resolved : resolves deployment envId template spec = true

/-- A role whose dependency has the key `depends_on_role` itself is listed after its
dependency, as far as `provision` can come to it. -/
def Listed
    (deployment : Deployment)
    (envId : String)
    (template : List ContainerSpec) : Prop :=
  ∀ earlier spec later, template = earlier ++ spec :: later →
    Attainable deployment envId template earlier spec →
    ∀ dependency ∈ template, spec.dependsOnRole = some (some dependency.role) →
      dependency.dependsOnRole.isSome = true → dependency ∈ earlier

variable {deployment : Deployment} {envId templateName : String}
  {template before after earlier later : List ContainerSpec}
  {spec dependency : ContainerSpec} {world last : World} {trace : List (Entry Reply)}

theorem exists_of_resolves (resolved : resolves deployment envId template spec = true) :
    ∃ environment, Compose.resolveEnvironment deployment envId spec
      (template.map ContainerSpec.role) = .ok environment := by
  unfold resolves at resolved
  cases resolution : Compose.resolveEnvironment deployment envId spec
      (template.map ContainerSpec.role) with
  | error exc =>
      rw [resolution] at resolved
      cases resolved
  | ok environment => exact ⟨environment, rfl⟩

/-! ## The start order -/

/-- Where a spec with the key stands in the start order. -/
theorem startOrder_of_listed
    (split : template = earlier ++ spec :: later)
    (depends : spec.dependsOnRole.isSome = true) :
    Compose.startOrder template =
      ((template.filter fun spec => spec.dependsOnRole.isNone) ++
        earlier.filter fun spec => spec.dependsOnRole.isSome) ++
      spec :: later.filter fun spec => spec.dependsOnRole.isSome := by
  unfold Compose.startOrder
  have dependants : (template.filter fun spec => spec.dependsOnRole.isSome) =
      (earlier.filter fun spec => spec.dependsOnRole.isSome) ++
        spec :: later.filter fun spec => spec.dependsOnRole.isSome := by
    rw [split, List.filter_append, List.filter_cons, if_pos depends]
  rw [dependants, List.append_assoc]

/-- The key counts, also with the value `None`. -/
example : (Compose.startOrder
    [{ role := "b", image := "image", dependsOnRole := some (some "a") },
      { role := "a", image := "image", dependsOnRole := some none }]).map ContainerSpec.role =
    ["b", "a"] := by
  decide

theorem nodup_startOrder (distinct : (template.map ContainerSpec.role).Nodup) :
    (Compose.startOrder template).Nodup := by
  have nodup : template.Nodup := distinct.of_map
  unfold Compose.startOrder
  refine List.nodup_append.mpr ⟨nodup.filter _, nodup.filter _, ?_⟩
  intro first free second dependant same
  rw [List.mem_filter] at free dependant
  rw [← same, ← Option.not_isNone, free.2] at dependant
  cases dependant.2

/-- The specs that are started before a spec with the key. -/
theorem before_of_startOrder
    (distinct : (template.map ContainerSpec.role).Nodup)
    (order : Compose.startOrder template = before ++ spec :: after)
    (split : template = earlier ++ spec :: later)
    (depends : spec.dependsOnRole.isSome = true) :
    before = (template.filter fun spec => spec.dependsOnRole.isNone) ++
      earlier.filter fun spec => spec.dependsOnRole.isSome := by
  have nodup := nodup_startOrder distinct
  rw [order] at nodup
  obtain ⟨-, rest, apart⟩ := List.nodup_append.mp nodup
  have listed := startOrder_of_listed split depends
  rw [order] at listed
  refine (List.append_cons_inj_of_notMem (fun present => ?_) ?_).mp listed |>.1
  · exact apart spec present spec List.mem_cons_self rfl
  · exact (List.nodup_cons.mp rest).1

/-! ## What a finished round has done -/

section Rounds

variable {State : Type} {service : Service State Call Reply} {state reached : State}
  {container : DockerId} {roles : List String} {containerIds : List DockerId}
  {hostPort : Option Nat}

theorem Ready.append (ready : Ready deployment spec trace) (left right : List (Entry Reply)) :
    Ready deployment spec (left ++ trace ++ right) := by
  obtain ⟨earlier, request, id, later, observation, rfl, role, reloaded, decided⟩ := ready
  refine ⟨left ++ earlier, request, id, later ++ right, observation, ?_, role,
    List.mem_append_left _ reloaded, decided⟩
  simp only [List.append_assoc, List.cons_append]

/-- A wait that returns has seen that the container is ready. -/
theorem reloaded_of_poll {timeout : Int} {deadline : Time} {budget : Nat}
    (executed : Executes service state
      (DockerManager.poll deployment container spec timeout deadline budget) trace reached
      (.ok ())) :
    ∃ observation, ⟨.containerReload container, .ok observation⟩ ∈ trace ∧
      DockerManager.verdict deployment container spec observation = some (.ok ()) := by
  induction budget generalizing state trace with
  | zero => cases executed
  | succ budget inductionHypothesis =>
      unfold DockerManager.poll at executed
      obtain ⟨clock, rest, middle, instant, rfl, -, polled⟩ := Executes.bind_ok_iff.mp executed
      split at polled
      · obtain ⟨reload, rest, middle, observation, rfl, asked, judged⟩ :=
          Executes.bind_ok_iff.mp polled
        obtain ⟨rfl, -⟩ := Alone.executes_perform.mp asked
        cases verdict : DockerManager.verdict deployment container spec observation with
        | some decided =>
            rw [verdict] at judged
            obtain ⟨-, -, rfl⟩ := Executes.ofExcept_iff.mp judged
            exact ⟨observation, by simp, verdict⟩
        | none =>
            rw [verdict] at judged
            obtain ⟨second, rest, middle, instant, rfl, -, sleeps⟩ :=
              Executes.bind_ok_iff.mp judged
            obtain ⟨slept, rest, middle, woken, rfl, -, again⟩ :=
              Executes.bind_ok_iff.mp sleeps
            obtain ⟨observation, reloaded, decided⟩ := inductionHypothesis again
            exact ⟨observation, by simp [reloaded], decided⟩
      · cases polled

theorem reloaded_of_waitForReady
    (executed : Executes service state
      (DockerManager.waitForReady deployment container spec) trace reached (.ok ())) :
    ∃ observation, ⟨.containerReload container, .ok observation⟩ ∈ trace ∧
      DockerManager.verdict deployment container spec observation = some (.ok ()) := by
  unfold DockerManager.waitForReady at executed
  obtain ⟨clock, polled, middle, instant, rfl, -, polls⟩ := Executes.bind_ok_iff.mp executed
  obtain ⟨observation, reloaded, decided⟩ := reloaded_of_poll polls
  exact ⟨observation, List.mem_append_right _ reloaded, decided⟩

/-- A started container carries its role, and its limits could be computed. -/
theorem request_of_startContainer {environment : List (String × EnvironmentValue)}
    (executed : Executes service state
      (DockerManager.startContainer deployment envId spec environment) trace reached
      (.ok container)) :
    ∃ request, trace = [⟨.containersRun request, .ok container⟩] ∧
      request.roleLabel = spec.role ∧
      (Compose.resourceLimits deployment.settings spec).toOption.isSome = true := by
  unfold DockerManager.startContainer at executed
  obtain ⟨first, second, middle, request, rfl, built, runs⟩ := Executes.bind_ok_iff.mp executed
  obtain ⟨rfl, -, made⟩ := Executes.ofExcept_iff.mp built
  obtain ⟨ran, rest, middle, answered, rfl, asked, ended⟩ := Executes.tryCatch_iff.mp runs
  obtain ⟨rfl, -⟩ := Alone.executes_perform.mp asked
  rcases answered with exc | id
  · cases ended
  obtain ⟨rfl, -, same⟩ := Executes.pure_iff.mp ended
  cases same
  refine ⟨request, rfl, (runRequest_names made.symm).2.1, ?_⟩
  cases limits : Compose.resourceLimits deployment.settings spec with
  | error exc =>
      unfold Compose.runRequest at made
      rw [limits] at made
      cases made
  | ok bounds => rfl

/-- After the rounds for some specs each of them is ready. -/
theorem ready_of_startContainers {specs : List ContainerSpec}
    {ended : List DockerId × Option Nat}
    (executed : Executes service state
      (DockerManager.startContainers deployment envId (template.map ContainerSpec.role) specs
        containerIds hostPort) trace reached (.ok ended))
    (present : dependency ∈ specs) :
    Ready deployment dependency trace ∧
      startable deployment envId template dependency = true := by
  induction specs generalizing state trace containerIds hostPort with
  | nil => cases present
  | cons spec specs inductionHypothesis =>
      unfold DockerManager.startContainers at executed
      obtain ⟨none, rest, middle, environment, rfl, resolved, starts⟩ :=
        Executes.bind_ok_iff.mp executed
      obtain ⟨started, rest, middle, container, rfl, ran, waits⟩ :=
        Executes.bind_ok_iff.mp starts
      obtain ⟨waited, rest, middle, done, rfl, ready, reads⟩ := Executes.bind_ok_iff.mp waits
      obtain ⟨ported, rest, middle, port, rfl, -, others⟩ := Executes.bind_ok_iff.mp reads
      obtain ⟨rfl, -, resolution⟩ := Executes.ofExcept_iff.mp resolved
      obtain ⟨request, rfl, role, limits⟩ := request_of_startContainer ran
      rcases List.mem_cons.mp present with rfl | later
      · refine ⟨?_, ?_⟩
        · obtain ⟨observation, reloaded, decided⟩ := reloaded_of_waitForReady ready
          exact ⟨[], request, container, waited ++ (ported ++ rest), observation, rfl, role,
            List.mem_append_left _ reloaded, decided⟩
        · unfold startable resolves
          rw [← resolution, limits]
          rfl
      · obtain ⟨ready, able⟩ := inductionHypothesis others later
        refine ⟨?_, able⟩
        have longer := ready.append
          ([⟨.containersRun request, .ok container⟩] ++ (waited ++ ported)) []
        simpa only [List.append_assoc, List.append_nil, List.nil_append] using longer

end Rounds

/-- Only containers with these roles are started. -/
def Labelled (roles : List String) (call : Call) : Prop :=
  ∀ request, call = .containersRun request → request.roleLabel ∈ roles

theorem labelled_of_watches {roles : List String} (call : Call) (watches : call.watches = true) :
    Labelled roles call := by
  rintro request rfl
  cases watches

/-- The rounds for some specs start containers with their roles only. -/
theorem startContainers_makes {specs : List ContainerSpec} {roles labels : List String}
    {containerIds : List DockerId} {hostPort : Option Nat}
    (listed : ∀ spec ∈ specs, spec.role ∈ labels) :
    (DockerManager.startContainers deployment envId roles specs containerIds hostPort).Makes
      (Labelled labels) := by
  induction specs generalizing containerIds hostPort with
  | nil => trivial
  | cons spec specs inductionHypothesis =>
      have start : ∀ environment, (DockerManager.startContainer deployment envId spec
          environment).Makes (Labelled labels) := by
        intro environment
        unfold DockerManager.startContainer
        cases built : Compose.runRequest deployment envId (Compose.networkName envId) spec
            environment with
        | error exc => trivial
        | ok request =>
            refine Program.makes_tryCatch (DockerManager.perform_makes ?_) fun _ => trivial
            intro other same
            cases same
            rw [(runRequest_names built).2.1]
            exact listed spec List.mem_cons_self
      exact Program.makes_bind (Program.makes_ofExcept _) fun environment =>
        Program.makes_bind (start environment) fun container =>
        Program.makes_bind
          ((DockerManager.waitForReady_watches _ _).mono labelled_of_watches) fun _ =>
        Program.makes_bind
          ((DockerManager.readPort_watches _ _ _).mono labelled_of_watches) fun _ =>
        inductionHypothesis fun other later => listed other (List.mem_cons_of_mem _ later)

/-- Before a spec is started, only the roles before it are. -/
theorem rounds_makes :
    (rounds deployment envId template before).Makes
      (Labelled (before.map ContainerSpec.role)) := by
  have creates : Labelled (before.map ContainerSpec.role)
      (.networksCreate (Compose.networkName envId) envId) := by
    intro request same
    cases same
  refine Program.makes_bind (DockerManager.perform_makes creates) fun network => ?_
  exact Program.makes_bind
    (startContainers_makes fun spec present => List.mem_map_of_mem present) fun _ => trivial

/-- What is ready before a spec is started comes before it. -/
theorem role_mem_of_ready {state : DockerId × List DockerId × Option Nat}
    (executed : Executes (lone deployment Unrestricted) world
      (rounds deployment envId template before) trace last (.ok state))
    (ready : Ready deployment dependency trace) :
    dependency.role ∈ before.map ContainerSpec.role := by
  obtain ⟨earlier, request, id, later, observation, rfl, role, -, -⟩ := ready
  have present : (⟨.containersRun request, .ok id⟩ : Entry Reply) ∈
      earlier ++ ⟨.containersRun request, .ok id⟩ :: later :=
    List.mem_append_right _ List.mem_cons_self
  have labelled : Labelled (before.map ContainerSpec.role) (.containersRun request) :=
    executed.makes rounds_makes _ present
  rw [← role]
  exact labelled request rfl

/-! ## How far `provision` comes -/

/-- The clock stands still between two readings of a lone thread. -/
theorem clock_of_now {instant : Time}
    (executed : Executes (lone deployment Unrestricted) world (perform .now) trace last
      (.ok instant)) : instant = world.clock ∧ last = world := by
  obtain ⟨-, choice, -, answered⟩ := Alone.executes_perform.mp executed
  cases World.exec_effect answered with
  | read _ _ reads => exact ⟨reads, rfl⟩

/-- Only a wait with a positive timeout returns. -/
theorem timeout_of_waitForReady {container : DockerId}
    (executed : Executes (lone deployment Unrestricted) world
      (DockerManager.waitForReady deployment container spec) trace last (.ok ())) :
    0 < deployment.settings.containerReadyTimeoutSeconds := by
  unfold DockerManager.waitForReady at executed
  obtain ⟨clock, rest, middle, instant, rfl, begins, polls⟩ := Executes.bind_ok_iff.mp executed
  obtain ⟨rfl, rfl⟩ := clock_of_now begins
  unfold DockerManager.pollBudget DockerManager.poll at polls
  obtain ⟨clock, rest, middle, instant, rfl, again, polled⟩ := Executes.bind_ok_iff.mp polls
  obtain ⟨rfl, rfl⟩ := clock_of_now again
  split at polled
  · rename_i early
    have positive : 0 < seconds deployment.settings.containerReadyTimeoutSeconds :=
      (lt_add_iff_pos_right _).mp early
    unfold seconds at positive
    omega
  · cases polled

/-- A second round needs a positive timeout. -/
theorem timeout_of_startContainers {specs : List ContainerSpec} {roles : List String}
    {containerIds : List DockerId} {hostPort : Option Nat} {ended : List DockerId × Option Nat}
    (executed : Executes (lone deployment Unrestricted) world
      (DockerManager.startContainers deployment envId roles specs containerIds hostPort) trace
      last (.ok ended))
    (some : specs ≠ []) : 0 < deployment.settings.containerReadyTimeoutSeconds := by
  cases specs with
  | nil => exact (some rfl).elim
  | cons spec specs =>
      unfold DockerManager.startContainers at executed
      obtain ⟨none, rest, middle, environment, rfl, -, starts⟩ :=
        Executes.bind_ok_iff.mp executed
      obtain ⟨started, rest, middle, container, rfl, -, waits⟩ :=
        Executes.bind_ok_iff.mp starts
      obtain ⟨waited, rest, middle, done, rfl, ready, -⟩ := Executes.bind_ok_iff.mp waits
      exact timeout_of_waitForReady ready

/-- The daemon serves every request, and every container is up and healthy. -/
def Helpful (_ : World) (request : Call) (choice : Choice) : Prop :=
  match request with
  | .containerReload _ => choice = .observed ⟨.running, false, some .healthy, []⟩
  | _ => choice = .ok

/-- Nothing stands in the way of these roles of the environment. -/
structure Prepared (envId : String) (roles : List String) (world : World) : Prop where
  network : ∃ network, world.docker.networksNamed (Compose.networkName envId) = [network]
  names : ∀ role ∈ roles,
    world.docker.nameTaken (Compose.containerName envId role) = false

theorem containerName_role_inj {left right : String} :
    Compose.containerName envId left = Compose.containerName envId right ↔ left = right := by
  unfold Compose.containerName
  rw [String.append_right_inj]

/-- A helpful daemon starts the container of a role that nothing stands in the way of. -/
theorem startContainer_meets {environment : List (String × EnvironmentValue)}
    {roles : List String}
    (limits : (Compose.resourceLimits deployment.settings spec).toOption.isSome = true)
    (fresh : spec.role ∉ roles)
    (prepared : Prepared envId (spec.role :: roles) world) :
    (DockerManager.startContainer deployment envId spec environment).Meets
      (lone deployment Helpful) (fun reached result =>
        ∃ id, result = .ok id ∧ (reached.docker.containers.find id).isSome = true ∧
          Prepared envId roles reached) world := by
  unfold DockerManager.startContainer
  cases built : Compose.runRequest deployment envId (Compose.networkName envId) spec
      environment with
  | error exc =>
      unfold Compose.runRequest at built
      cases bounds : Compose.resourceLimits deployment.settings spec with
      | error exc =>
          rw [bounds] at limits
          cases limits
      | ok bounds =>
          rw [bounds] at built
          cases built
  | ok request =>
      obtain ⟨-, -, name, networkName⟩ := runRequest_names built
      obtain ⟨network, named⟩ := prepared.network
      have free : world.docker.nameTaken request.name = false := by
        rw [name]
        exact prepared.names spec.role List.mem_cons_self
      have resolved : world.docker.resolveNetwork request.network = .ok network.id := by
        unfold Daemon.resolveNetwork
        rw [networkName, named]
      refine Program.meets_tryCatch.mpr (Alone.meets_perform.mpr ⟨?_, ?_⟩)
      · exact ⟨.ok, _, _, rfl, rfl⟩
      · rintro choice reply next rfl answered
        simp only [World.exec, World.succeed, World.containersRun, free, resolved,
          dite_true] at answered
        cases answered
        refine ⟨world.docker.nextId, rfl, ?_, ⟨network, named⟩, fun role present => ?_⟩
        · rw [Daemon.addContainer, Keyed.Table.find_insert]
          exact if_pos rfl ▸ rfl
        · have different : request.name ≠ Compose.containerName envId role := by
            rw [name, Ne, containerName_role_inj]
            rintro rfl
            exact fresh present
          have old := prepared.names role (List.mem_cons_of_mem _ present)
          unfold Daemon.nameTaken at old ⊢
          simp [Daemon.addContainer, Daemon.newContainer, old, different]

/-- Reading the clock of a helpful world. -/
theorem now_meets {post : World → Except Exn Time → Prop}
    (continues : post world (.ok world.clock)) :
    (perform .now).Meets (lone deployment Helpful) post world := by
  refine Alone.meets_plain rfl rfl ?_ fun instant next effect => ?_
  · rintro choice rfl
    rfl
  · cases effect with
    | read _ _ reads =>
        have current : instant = world.clock := reads
        exact current ▸ continues

/-- Looking at a container of a helpful world. -/
theorem reload_meets {container : DockerId} {post : World → Except Exn Observation → Prop}
    (present : (world.docker.containers.find container).isSome = true)
    (continues : post world (.ok ⟨.running, false, some .healthy, []⟩)) :
    (perform (.containerReload container)).Meets (lone deployment Helpful) post world := by
  have answered : world.exec (.containerReload container)
      (.observed ⟨.running, false, some .healthy, []⟩) =
      some (.ok ⟨.running, false, some .healthy, []⟩, world) := if_pos present
  refine Alone.meets_perform.mpr ⟨⟨_, _, _, rfl, answered⟩, ?_⟩
  rintro choice reply next rfl executed
  rw [answered] at executed
  cases executed
  exact continues

/-- A container of a helpful world is ready at the first look. -/
theorem waitForReady_meets {container : DockerId} {post : World → Except Exn Unit → Prop}
    (timeout : 0 < deployment.settings.containerReadyTimeoutSeconds)
    (present : (world.docker.containers.find container).isSome = true)
    (continues : post world (.ok ())) :
    (DockerManager.waitForReady deployment container spec).Meets (lone deployment Helpful)
      post world := by
  unfold DockerManager.waitForReady
  refine Program.meets_bind.mpr (now_meets ?_)
  unfold DockerManager.pollBudget DockerManager.poll
  refine Program.meets_bind.mpr (now_meets ?_)
  have positive : 0 < seconds deployment.settings.containerReadyTimeoutSeconds := by
    unfold seconds
    omega
  have early : world.clock < world.clock +
      seconds deployment.settings.containerReadyTimeoutSeconds :=
    (lt_add_iff_pos_right _).mpr positive
  dsimp only
  rw [if_pos early]
  refine Program.meets_bind.mpr (reload_meets present ?_)
  have ready : DockerManager.verdict deployment container spec
      ⟨.running, false, some .healthy, []⟩ = some (.ok ()) := by
    unfold DockerManager.verdict
    cases spec.healthcheck <;> rfl
  dsimp only
  rw [ready]
  exact continues

/-- Reading the host port back in a helpful world. -/
theorem readPort_meets {container : DockerId} {hostPort : Option Nat}
    {post : World → Except Exn (Option Nat) → Prop}
    (present : (world.docker.containers.find container).isSome = true)
    (continues : ∀ port, post world (.ok port)) :
    (DockerManager.readPort container spec hostPort).Meets (lone deployment Helpful) post
      world := by
  unfold DockerManager.readPort
  split
  · exact Program.meets_bind.mpr (reload_meets present (continues hostPort))
  · exact continues hostPort

/-- In a helpful world all rounds for startable specs finish. -/
theorem startContainers_meets {specs : List ContainerSpec} {containerIds : List DockerId}
    {hostPort : Option Nat}
    (able : ∀ spec ∈ specs, 0 < deployment.settings.containerReadyTimeoutSeconds ∧
      startable deployment envId template spec = true)
    (distinct : (specs.map ContainerSpec.role).Nodup)
    (prepared : Prepared envId (specs.map ContainerSpec.role) world) :
    (DockerManager.startContainers deployment envId (template.map ContainerSpec.role) specs
      containerIds hostPort).Meets (lone deployment Helpful)
      (fun _ result => ∃ ended, result = .ok ended) world := by
  induction specs generalizing world containerIds hostPort with
  | nil => exact ⟨_, rfl⟩
  | cons spec specs inductionHypothesis =>
      obtain ⟨timeout, starts⟩ := able spec List.mem_cons_self
      obtain ⟨resolved, limits⟩ := Bool.and_eq_true_iff.mp starts
      rw [List.map_cons, List.nodup_cons] at distinct
      unfold DockerManager.startContainers
      obtain ⟨environment, resolution⟩ := exists_of_resolves resolved
      rw [resolution, Program.ofExcept_ok, Program.bind_pure]
      refine Program.meets_bind.mpr ((startContainer_meets limits distinct.1 prepared).mono ?_)
      rintro started result ⟨container, rfl, present, rest⟩
      refine Program.meets_bind.mpr (waitForReady_meets timeout present ?_)
      refine Program.meets_bind.mpr (readPort_meets present fun port => ?_)
      exact inductionHypothesis (fun other later => able other (List.mem_cons_of_mem _ later))
        distinct.2 rest

/-- `provision` can come to any spec behind startable ones. -/
theorem exists_rounds
    (able : ∀ spec ∈ before, 0 < deployment.settings.containerReadyTimeoutSeconds ∧
      startable deployment envId template spec = true)
    (distinct : (before.map ContainerSpec.role).Nodup) :
    ∃ trace reached state, Executes (lone deployment Unrestricted) (World.initial true)
      (rounds deployment envId template before) trace reached (.ok state) := by
  have met : (rounds deployment envId template before).Meets (lone deployment Helpful)
      (fun _ result => ∃ state, result = .ok state) (World.initial true) := by
    have created : (World.initial true).succeed
        (.networksCreate (Compose.networkName envId) envId) = some (.ok 0, _) :=
      rfl
    refine Program.meets_bind.mpr (Alone.meets_direct rfl rfl ?_ created ?_)
    · rintro choice rfl
      rfl
    · refine Program.meets_bind.mpr ((startContainers_meets able distinct ?_).mono ?_)
      · refine ⟨⟨⟨0, Compose.networkName envId, some envId, 0⟩, ?_⟩, fun role _ => rfl⟩
        simp [World.initial, Daemon.networksNamed, Daemon.addNetwork, Daemon.empty]
      · rintro reached result ⟨ended, rfl⟩
        exact ⟨_, rfl⟩
  obtain ⟨trace, reached, result, executed, state, rfl⟩ := Alone.exists_ends met
  exact ⟨trace, reached, state, Alone.unrestricted executed⟩

/-- The loop over the specs can be cut anywhere. -/
theorem startContainers_append {roles : List String} {containerIds : List DockerId}
    {hostPort : Option Nat} :
    DockerManager.startContainers deployment envId roles (before ++ after) containerIds
        hostPort =
      (DockerManager.startContainers deployment envId roles before containerIds hostPort >>=
        fun (containerIds, hostPort) =>
          DockerManager.startContainers deployment envId roles after containerIds
            hostPort) := by
  induction before generalizing containerIds hostPort with
  | nil => rfl
  | cons spec before inductionHypothesis =>
      simp only [List.cons_append, DockerManager.startContainers, inductionHypothesis,
        Program.bind_assoc]

/-- `provision` runs the rounds before a spec, resolves its environment, calls
`_start_container`, and goes on. -/
theorem provision_eq
    (known : deployment.templates.lookup templateName = some template)
    (order : Compose.startOrder template = before ++ spec :: after) :
    DockerManager.provision deployment envId templateName =
      (rounds deployment envId template before >>= fun (network, containerIds, hostPort) =>
        .ofExcept (Compose.resolveEnvironment deployment envId spec
          (template.map ContainerSpec.role)) >>= fun environment =>
        DockerManager.startContainer deployment envId spec environment >>= fun container =>
        remainder deployment envId template spec after network containerIds hostPort
          container) := by
  have present : spec ∈ template := by
    rw [← Compose.mem_startOrder, order]
    exact List.mem_append_right _ List.mem_cons_self
  obtain ⟨first, others, rfl⟩ := List.exists_cons_of_ne_nil (List.ne_nil_of_mem present)
  unfold DockerManager.provision rounds remainder
  rw [known]
  dsimp only
  rw [order]
  rw [Program.bind_assoc]
  refine congrArg (DockerManager.createNetwork envId >>= ·) (funext fun network => ?_)
  rw [startContainers_append, Program.bind_assoc, Program.bind_assoc]
  refine congrArg (DockerManager.startContainers deployment envId
    ((first :: others).map ContainerSpec.role) before [] none >>= ·)
    (funext fun ⟨containerIds, hostPort⟩ => ?_)
  rw [Program.pure_eq, Program.bind_pure]
  dsimp only
  rw [DockerManager.startContainers]
  refine (Program.bind_assoc ..).trans
    (congrArg (Program.bind _) (funext fun environment => ?_))
  refine (Program.bind_assoc ..).trans (congrArg (Program.bind _) (funext fun container => ?_))
  refine (Program.bind_assoc ..).trans (congrArg (Program.bind _) (funext fun ready => ?_))
  exact Program.bind_assoc ..

/-! ## When dependencies start first -/

/-- A dependency that comes before its dependant is ready when that is started. -/
theorem ordered_of_listed
    (distinct : (template.map ContainerSpec.role).Nodup)
    (listed : Listed deployment envId template) :
    Ordered deployment envId templateName template := by
  rintro world spec trace ⟨before, after, environment, reached, state, order, -, executed,
    resolved⟩ dependency present depends
  unfold rounds at executed
  obtain ⟨created, rest, middle, network, rfl, -, runs⟩ := Executes.bind_ok_iff.mp executed
  obtain ⟨started, last, middle, ended, rfl, starts, returns⟩ := Executes.bind_ok_iff.mp runs
  obtain ⟨rfl, -, -⟩ := Executes.pure_iff.mp returns
  have keyed : spec.dependsOnRole.isSome = true := by rw [depends]; rfl
  have inside : spec ∈ template := by
    rw [← Compose.mem_startOrder, order]
    exact List.mem_append_right _ List.mem_cons_self
  obtain ⟨earlier, later, split⟩ := List.append_of_mem inside
  have first := before_of_startOrder distinct order split keyed
  have precedes : ∀ other ∈ template, other.dependsOnRole = none ∨ other ∈ earlier →
      other ∈ before := by
    intro other member free
    rw [first]
    cases own : other.dependsOnRole with
    | none =>
        exact List.mem_append_left _ (List.mem_filter.mpr ⟨member, by rw [own]; rfl⟩)
    | some role =>
        have listedFirst : other ∈ earlier := free.resolve_left (by rw [own]; nofun)
        exact List.mem_append_right _
          (List.mem_filter.mpr ⟨listedFirst, by rw [own]; rfl⟩)
  have comes : dependency ∈ before := by
    refine precedes dependency present ?_
    cases further : dependency.dependsOnRole with
    | none => exact .inl rfl
    | some role =>
        have attainable : Attainable deployment envId template earlier spec := by
          refine ⟨fun other member free => ?_, ?_⟩
          · have earlierStart := precedes other member free
            exact ⟨timeout_of_startContainers starts (List.ne_nil_of_mem earlierStart),
              (ready_of_startContainers starts earlierStart).2⟩
          · unfold resolves
            rw [resolved]
            rfl
        exact .inr (listed earlier spec later split attainable dependency present depends
          (by rw [further]; rfl))
  have ready := (ready_of_startContainers starts comes).1.append created []
  simpa using ready

/-- A spec that can be attained is started while its dependency is not ready, unless the
dependency comes first. -/
theorem exists_unready
    (known : deployment.templates.lookup templateName = some template)
    (distinct : (template.map ContainerSpec.role).Nodup)
    (split : template = earlier ++ spec :: later)
    (attainable : Attainable deployment envId template earlier spec)
    (present : dependency ∈ template)
    (depends : spec.dependsOnRole = some (some dependency.role))
    (further : dependency.dependsOnRole.isSome = true)
    (unlisted : dependency ∉ earlier) :
    ∃ trace, Calls deployment envId templateName template (World.initial true) spec trace ∧
      ¬Ready deployment dependency trace := by
  have keyed : spec.dependsOnRole.isSome = true := by rw [depends]; rfl
  have order := startOrder_of_listed split keyed
  have inside : ∀ other ∈ (template.filter fun spec => spec.dependsOnRole.isNone) ++
      earlier.filter fun spec => spec.dependsOnRole.isSome,
      other ∈ template ∧ (other.dependsOnRole = none ∨ other ∈ earlier) := by
    intro other member
    rcases List.mem_append.mp member with free | own
    · obtain ⟨listed, none⟩ := List.mem_filter.mp free
      exact ⟨listed, .inl (Option.isNone_iff_eq_none.mp none)⟩
    · have listed := (List.mem_filter.mp own).1
      refine ⟨?_, .inr listed⟩
      rw [split]
      exact List.mem_append_left _ listed
  have roles : ((Compose.startOrder template).map ContainerSpec.role).Nodup :=
    (nodup_startOrder distinct).map_on fun first firstMember second secondMember =>
      List.inj_on_of_nodup_map distinct (Compose.mem_startOrder.mp firstMember)
        (Compose.mem_startOrder.mp secondMember)
  rw [order, List.map_append] at roles
  obtain ⟨trace, reached, state, executed⟩ := exists_rounds
    (fun other member => attainable.preceded other (inside other member).1
      (inside other member).2) (List.nodup_append.mp roles).1
  obtain ⟨environment, resolution⟩ := exists_of_resolves attainable.resolved
  refine ⟨trace, ⟨_, _, environment, reached, state, order, provision_eq known order,
    executed, resolution⟩, fun ready => ?_⟩
  obtain ⟨other, member, same⟩ := List.mem_map.mp (role_mem_of_ready executed ready)
  have equal : other = dependency := List.inj_on_of_nodup_map distinct
    (inside other member).1 present same
  rcases (inside dependency (equal ▸ member)).2 with free | first
  · rw [free] at further
    cases further
  · exact unlisted first

/-- Every role is started after the role that it depends on exactly if each role whose
dependency has the key `depends_on_role` itself is listed after its dependency, as far as
`provision` can come to it. -/
theorem ordered_iff_listed
    (known : deployment.templates.lookup templateName = some template)
    (distinct : (template.map ContainerSpec.role).Nodup) :
    Ordered deployment envId templateName template ↔ Listed deployment envId template := by
  refine ⟨fun ordered => ?_, ordered_of_listed distinct⟩
  intro earlier spec later split attainable dependency present depends further
  by_contra unlisted
  obtain ⟨trace, calls, unready⟩ := exists_unready known distinct split attainable present
    depends further unlisted
  exact unready (ordered _ spec trace calls dependency present depends)

/-- The specs of the shipped template. -/
def webappPostgres : List ContainerSpec :=
  (Compose.templates.lookup "webapp-postgres").getD []

theorem wellFormed_webappPostgres : WellFormed webappPostgres where
  distinct := by decide
  named := by decide
  acyclic := ⟨fun role => if role = "app" then 1 else 0, by decide⟩

/-- The shipped template starts the database first. -/
theorem ordered_of_webappPostgres :
    Ordered Compose.shipped (Sample.envId 1).str "webapp-postgres" webappPostgres := by
  refine (ordered_iff_listed rfl wellFormed_webappPostgres.distinct).mpr ?_
  intro earlier spec later split attainable dependency present depends further
  have none : ∀ spec ∈ webappPostgres, ∀ dependency ∈ webappPostgres,
      spec.dependsOnRole = some (some dependency.role) →
      dependency.dependsOnRole.isSome = false := by
    decide
  have inside : spec ∈ webappPostgres := by
    rw [split]
    exact List.mem_append_right _ List.mem_cons_self
  rw [none spec inside dependency present depends] at further
  cases further

/-- The end of a chain of roles. -/
def chainEnd : ContainerSpec :=
  { role := "c", image := "image", dependsOnRole := some (some "b") }

/-- The middle of a chain of roles. -/
def chainMiddle : ContainerSpec :=
  { role := "b", image := "image", dependsOnRole := some (some "a") }

/-- A service whose template is a chain of three roles, listed from its end. -/
def chained : Deployment where
  templates := [("chain", [chainEnd, chainMiddle, { role := "a", image := "image" }])]
  strFormat := Compose.formatNamed

/-- In the chain `c` depends on `b`, but it is started before `b` is. -/
theorem unready_of_chain :
    ∃ template, chained.templates.lookup "chain" = some template ∧ WellFormed template ∧
      chainEnd.dependsOnRole = some (some chainMiddle.role) ∧ chainMiddle ∈ template ∧
      ∃ trace, Calls chained (Sample.envId 1).str "chain" template (World.initial true)
        chainEnd trace ∧ ¬Ready chained chainMiddle trace := by
  have wellFormed : WellFormed [chainEnd, chainMiddle, { role := "a", image := "image" }] := by
    refine ⟨by decide, by decide, ⟨fun role => if role = "c" then 2 else
      if role = "b" then 1 else 0, by decide⟩⟩
  have able : ∀ other ∈ [chainEnd, chainMiddle, { role := "a", image := "image" }],
      startable chained (Sample.envId 1).str
        [chainEnd, chainMiddle, { role := "a", image := "image" }] other = true := by
    intro other member
    simp only [List.mem_cons, List.not_mem_nil, or_false] at member
    rcases member with rfl | rfl | rfl <;> rfl
  have present : chainMiddle ∈ [chainEnd, chainMiddle, { role := "a", image := "image" }] :=
    List.mem_cons_of_mem _ List.mem_cons_self
  have attainable : Attainable chained (Sample.envId 1).str
      [chainEnd, chainMiddle, { role := "a", image := "image" }] [] chainEnd := by
    exact ⟨fun other member _ => ⟨by decide, able other member⟩, rfl⟩
  exact ⟨_, rfl, wellFormed, rfl, present,
    exists_unready rfl wellFormed.distinct rfl attainable present rfl rfl List.not_mem_nil⟩

end Dependencies

end Provisioner
