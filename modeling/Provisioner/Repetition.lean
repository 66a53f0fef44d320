import Provisioner.Alone
import Mathlib.Tactic.Linarith

/-!
# Running the provision task again

The names of the network and of the containers are computed from the environment
alone, and nothing that an earlier attempt left behind is looked for, reused or
removed. On a daemon that does everything its rules permit, an attempt therefore
succeeds exactly when it is the first one to leave something behind.
-/

namespace Provisioner

open Resumption

/-- A template that a single attempt can provision. -/
structure Provisionable (deployment : Deployment) (template : List ContainerSpec) : Prop where
  roles : (template.map ContainerSpec.role).Nodup
  exposes : ∃ spec ∈ template, spec.exposes = true
  requests : ∀ spec ∈ template, ∀ envId, ∃ environment request,
    Compose.resolveEnvironment deployment envId spec (template.map ContainerSpec.role) =
      .ok environment ∧
    Compose.runRequest deployment envId (Compose.networkName envId) spec environment =
      .ok request

namespace Repetition

/-- The container serves its purpose. -/
def ready (spec : ContainerSpec) (observation : Observation) : Bool :=
  observation.status = .running &&
    (spec.healthcheck.isNone || observation.health = some .healthy)

/-- The container may still become ready. -/
def starting (observation : Observation) : Bool :=
  observation.status ≠ .exited && observation.status ≠ .dead &&
    observation.health ≠ some .unhealthy

/-- The exposed port is bound to a host port. -/
def bound (spec : ContainerSpec) (observation : Observation) : Bool :=
  !spec.exposes ||
    match observation.ports.lookup (spec.exposePort.getD 0) with
    | some (_ :: _) => true
    | _ => false

/-- A container comes up: its port is bound, and it is ready, at the latest `up`. -/
def comesUp (spec : ContainerSpec) (up : Bool) (observation : Observation) : Bool :=
  bound spec observation && (ready spec observation || !up && starting observation)

/-- The daemon does what its rules permit, and every container is ready once it has
been there for `warmup` seconds. -/
def helpful (template : List ContainerSpec) (warmup : Int)
    (world : World) (request : Call) (choice : Choice) : Bool :=
  choice.succeeds &&
    match request, choice with
    | .containerReload id, .observed observation =>
        (world.docker.containers.find id).all fun container => template.all fun spec =>
          container.roleLabel ≠ some spec.role ||
            comesUp spec (container.created + seconds warmup ≤ world.clock) observation
    | _, _ => true

/-- The answers of a helpful daemon. -/
abbrev Helps (template : List ContainerSpec) (warmup : Int)
    (world : World) (request : Call) (choice : Choice) : Prop :=
  helpful template warmup world request choice = true

variable {deployment : Deployment} {refuses : Bool}
  {allowed : System → Occurrence → Prop} {config : System} {world next : World}
  {template : List ContainerSpec} {spec : ContainerSpec} {warmup : Int}

/-- The rule for a plain call. -/
theorem plain_meets {request : Call} {post : World → Except Exn request.Result → Prop}
    (plain : request.plain = true)
    (continues : ∀ value next, world.Effect request (.ok value) next →
      post next (.ok value)) :
    (perform request).Meets (lone deployment (Helps template warmup)) post world := by
  refine Alone.meets_plain plain ?_ (fun _ allowed => (Bool.and_eq_true_iff.mp allowed).1)
    continues
  cases request <;> rfl

/-- The rule for a request about a resource. -/
theorem ask_meets {request : Call} {reply : Reply request}
    {post : World → Except Exn request.Result → Prop}
    (direct : request.direct = true)
    (succeeded : world.succeed request = some (reply, next))
    (continues : post next reply) :
    (perform request).Meets (lone deployment (Helps template warmup)) post world := by
  refine Alone.meets_direct direct ?_ (fun _ allowed => (Bool.and_eq_true_iff.mp allowed).1)
    succeeded continues
  cases request <;> rfl

/-- What a container shows that is up for every spec of the template. -/
def model (template : List ContainerSpec) : Observation :=
  ⟨.running, false, some .healthy, template.map fun spec => (spec.exposePort.getD 0, [1])⟩

theorem comesUp_model (present : spec ∈ template) (up : Bool) :
    comesUp spec up (model template) = true := by
  have listed : ∃ ports,
      (template.map fun spec => (spec.exposePort.getD 0, [1])).lookup
        (spec.exposePort.getD 0) = some (1 :: ports) := by
    induction template with
    | nil => cases present
    | cons first template inductionHypothesis =>
        rw [List.map_cons, List.lookup_cons]
        cases same : spec.exposePort.getD 0 == first.exposePort.getD 0 with
        | true => exact ⟨[], rfl⟩
        | false =>
            refine inductionHypothesis ((List.mem_cons.mp present).resolve_left ?_)
            rintro rfl
            simp at same
  obtain ⟨ports, looked⟩ := listed
  simp [comesUp, bound, ready, model, looked]

/-- Watching a container shows that it comes up. -/
theorem reload_meets {id : DockerId} {container : Container}
    {post : World → Except Exn Observation → Prop}
    (found : world.docker.containers.find id = some container)
    (role : container.roleLabel = some spec.role)
    (present : spec ∈ template)
    (continues : ∀ observation,
      comesUp spec (container.created + seconds warmup ≤ world.clock) observation = true →
        post world (.ok observation)) :
    (perform (.containerReload id)).Meets (lone deployment (Helps template warmup)) post
      world := by
  have there : (world.docker.containers.find id).isSome = true := by rw [found]; rfl
  refine Alone.meets_perform.mpr ⟨⟨.observed (model template), .ok (model template), world,
    ?_, if_pos there⟩, ?_⟩
  · simp only [Helps, helpful, found, Option.all_some, Bool.and_eq_true, List.all_eq_true]
    refine ⟨rfl, fun other member => ?_⟩
    rw [comesUp_model member, Bool.or_true]
  · intro choice reply next allowed executed
    obtain ⟨succeeds, shows⟩ := Bool.and_eq_true_iff.mp allowed
    cases choice with
    | ok =>
        simp only [World.exec, World.succeed, if_pos there] at executed
        cases executed
    | observed observation =>
        simp only [World.exec, if_pos there] at executed
        cases executed
        simp only [found, Option.all_some, List.all_eq_true] at shows
        have up := shows spec present
        rw [role] at up
        exact continues observation (by simpa using up)
    | _ => first | cases executed | cases succeeds

/-- The same world later. -/
def Later (world reached : World) : Prop :=
  ∃ instant, world.clock ≤ instant ∧ reached = { world with clock := instant }

theorem Later.refl (world : World) : Later world world :=
  ⟨world.clock, Int.le_refl _, rfl⟩

theorem Later.trans {middle reached : World} (first : Later world middle)
    (second : Later middle reached) : Later world reached := by
  obtain ⟨instant, past, rfl⟩ := first
  obtain ⟨later, further, rfl⟩ := second
  exact ⟨later, past.trans further, rfl⟩

/-- A container that comes up is found ready or starting. -/
theorem verdict_of_comesUp (deployment : Deployment) (id : DockerId) {up : Bool}
    {observation : Observation}
    (comes : comesUp spec up observation = true) :
    DockerManager.verdict deployment id spec observation = some (.ok ()) ∨
      up = false ∧ DockerManager.verdict deployment id spec observation = none := by
  obtain ⟨status, oomKilled, health, ports⟩ := observation
  simp only [comesUp, ready, starting, Bool.and_eq_true, Bool.or_eq_true, decide_eq_true_eq,
    Bool.not_eq_true', ne_eq] at comes
  unfold DockerManager.verdict
  rcases comes.2 with ⟨running, healthy⟩ | ⟨early, ⟨notExited, notDead⟩, notUnhealthy⟩
  · subst running
    refine .inl ?_
    dsimp only
    split
    · rfl
    · rename_i checked
      rcases healthy with none | healthy
      · exact (checked none).elim
      · rw [healthy]
  · cases status with
    | exited => exact (notExited rfl).elim
    | dead => exact (notDead rfl).elim
    | running =>
        dsimp only
        split
        · exact .inl rfl
        · cases health with
          | none => exact .inr ⟨early, rfl⟩
          | some health =>
              cases health with
              | starting => exact .inr ⟨early, rfl⟩
              | healthy => exact .inl rfl
              | unhealthy => exact (notUnhealthy rfl).elim
    | _ => exact .inr ⟨early, rfl⟩

/-- One round of the polling loop: the container is ready, or it has another round
after two seconds. -/
theorem round_meets {id : DockerId} {container : Container} {timeout : Int}
    {deadline : Time} {rounds : Nat} {post : World → Except Exn Unit → Prop}
    (found : world.docker.containers.find id = some container)
    (role : container.roleLabel = some spec.role)
    (present : spec ∈ template)
    (early : world.clock < deadline)
    (done : post world (.ok ()))
    (again : world.clock < container.created + seconds warmup →
      (DockerManager.poll deployment id spec timeout deadline rounds).Meets
        (lone deployment (Helps template warmup)) post
        { world with clock := world.clock + seconds 2 }) :
    (DockerManager.poll deployment id spec timeout deadline (rounds + 1)).Meets
      (lone deployment (Helps template warmup)) post world := by
  unfold DockerManager.poll
  refine Program.meets_bind.mpr (plain_meets rfl fun instant afterClock effect => ?_)
  cases effect with
  | read _ _ reads =>
  have current : instant = world.clock := reads
  subst current
  dsimp only
  rw [if_pos early]
  refine Program.meets_bind.mpr (reload_meets found role present fun observation comes => ?_)
  rcases verdict_of_comesUp deployment id comes with decided | ⟨late, decided⟩
  · dsimp only
    rw [decided]
    exact done
  · dsimp only
    rw [decided]
    refine Program.meets_bind.mpr (plain_meets rfl fun instant afterClock effect => ?_)
    cases effect with
    | read _ _ reads =>
    have current : instant = world.clock := reads
    subst current
    refine Program.meets_bind.mpr (plain_meets rfl fun slept afterSleep effect => ?_)
    cases effect with
    | read _ _ reads => cases reads
    | slept _ =>
    have later : max world.clock (world.clock + seconds 2) = world.clock + seconds 2 :=
      max_eq_right (by simp [seconds])
    dsimp only
    rw [later]
    exact again (not_le.mp (of_decide_eq_false late))

/-- The polling loop ends with a container that is ready, if there are enough rounds
and enough time. -/
theorem poll_meets {id : DockerId} {container : Container} (timeout : Int) (deadline : Time)
    (rounds : Nat)
    (found : world.docker.containers.find id = some container)
    (role : container.roleLabel = some spec.role)
    (present : spec ∈ template)
    (inTime : container.created + seconds warmup + seconds 2 ≤ deadline)
    (early : world.clock < deadline)
    (enough : container.created + seconds warmup ≤ world.clock + seconds (2 * rounds)) :
    (DockerManager.poll deployment id spec timeout deadline (rounds + 1)).Meets
      (lone deployment (Helps template warmup))
      (fun reached result => result = .ok () ∧ Later world reached) world := by
  induction rounds generalizing world with
  | zero =>
      refine round_meets found role present early ⟨rfl, .refl world⟩ fun waiting => ?_
      exact (not_lt.mpr enough (by simpa [seconds] using waiting)).elim
  | succ rounds inductionHypothesis =>
      refine round_meets found role present early ⟨rfl, .refl world⟩ fun waiting => ?_
      have rest : (DockerManager.poll deployment id spec timeout deadline (rounds + 1)).Meets
          (lone deployment (Helps template warmup)) (fun reached result => result = .ok () ∧
            Later { world with clock := world.clock + seconds 2 } reached)
          { world with clock := world.clock + seconds 2 } := by
        refine inductionHypothesis found ?_ ?_
        · exact lt_of_lt_of_le (Int.add_lt_add_right waiting _) inTime
        · refine enough.trans (le_of_eq ?_)
          simp only [seconds]
          push_cast
          ring
      refine rest.mono fun reached result ⟨done, later⟩ => ⟨done, ?_⟩
      exact Later.trans ⟨_, by simp [seconds], rfl⟩ later

/-- The readiness wait ends with a container that is ready. -/
theorem waitForReady_meets {id : DockerId} {container : Container}
    (found : world.docker.containers.find id = some container)
    (role : container.roleLabel = some spec.role)
    (present : spec ∈ template)
    (past : container.created ≤ world.clock)
    (warm : 0 ≤ warmup)
    (patient : warmup + 2 ≤ deployment.settings.containerReadyTimeoutSeconds) :
    (DockerManager.waitForReady deployment id spec).Meets
      (lone deployment (Helps template warmup))
      (fun reached result => result = .ok () ∧ Later world reached) world := by
  unfold DockerManager.waitForReady DockerManager.pollBudget
  refine Program.meets_bind.mpr (plain_meets rfl fun instant afterClock effect => ?_)
  cases effect with
  | read _ _ reads =>
  have current : instant = world.clock := reads
  subst current
  have rounds : deployment.settings.containerReadyTimeoutSeconds ≤
      2 * ((deployment.settings.containerReadyTimeoutSeconds.toNat + 1) / 2 : Nat) := by omega
  refine poll_meets _ _ _ found role present ?_ ?_ ?_
  · simp only [seconds]
    linarith
  · simp only [seconds]
    linarith
  · simp only [seconds]
    linarith

/-- The port of a role that is up is read back. -/
theorem readPort_meets {id : DockerId} {container : Container}
    (hostPort : Option Nat)
    (found : world.docker.containers.find id = some container)
    (role : container.roleLabel = some spec.role)
    (present : spec ∈ template) :
    (DockerManager.readPort id spec hostPort).Meets (lone deployment (Helps template warmup))
      (fun reached result => reached = world ∧ ∃ port, result = .ok port ∧
        (port.isSome = true ↔ spec.exposes = true ∨ hostPort.isSome = true)) world := by
  unfold DockerManager.readPort
  split
  · rename_i exposes
    refine Program.meets_bind.mpr (reload_meets found role present fun observation comes => ?_)
    have bound : bound spec observation = true := (Bool.and_eq_true_iff.mp comes).1
    unfold Repetition.bound at bound
    rw [exposes] at bound
    dsimp only
    cases looked : observation.ports.lookup (spec.exposePort.getD 0) with
    | none => simp [looked] at bound
    | some ports =>
        cases ports with
        | nil => simp [looked] at bound
        | cons port ports => exact ⟨rfl, some port, rfl, by simp [exposes]⟩
  · rename_i hidden
    exact ⟨rfl, hostPort, rfl, by simp [hidden]⟩

section Starting

variable {id : Uuid} {environment : List (String × EnvironmentValue)}
  {request : Compose.RunRequest} {network : DockerId}

/-- The name of a role's container is taken. -/
def taken (docker : Daemon) (id : Uuid) (spec : ContainerSpec) : Bool :=
  docker.nameTaken (Compose.containerName id.str spec.role)

/-- A container whose name is free is started. -/
theorem startContainer_meets
    (built : Compose.runRequest deployment id.str (Compose.networkName id.str) spec environment =
      .ok request)
    (free : world.docker.nameTaken request.name = false)
    (resolved : world.docker.resolveNetwork request.network = .ok network) :
    (DockerManager.startContainer deployment id.str spec environment).Meets
      (lone deployment (Helps template warmup))
      (fun reached result => result = .ok world.docker.nextId ∧ reached =
        { world with
          docker := world.docker.addContainer request (some network) world.clock free })
      world := by
  have created : world.containersRun request = (.ok world.docker.nextId,
      { world with
        docker := world.docker.addContainer request (some network) world.clock free }) := by
    unfold World.containersRun
    rw [dif_pos free, resolved]
  unfold DockerManager.startContainer
  rw [built]
  exact Program.meets_bind.mpr (Program.meets_tryCatch.mpr
    (ask_meets rfl (congrArg some created) ⟨rfl, rfl⟩))

/-- A container whose name is taken, or whose network is not there or ambiguous, is
not started. -/
theorem startContainer_refused
    (built : Compose.runRequest deployment id.str (Compose.networkName id.str) spec environment =
      .ok request)
    (blocked : taken world.docker id spec = true ∨
      ∃ exc, world.docker.resolveNetwork (Compose.networkName id.str) = .error exc) :
    (DockerManager.startContainer deployment id.str spec environment).Meets
      (lone deployment (Helps template warmup))
      (fun reached result => reached = world ∧ ∃ exc, result = .error exc) world := by
  obtain ⟨-, -, name, networkName⟩ := runRequest_names built
  unfold taken at blocked
  rw [← name, ← networkName] at blocked
  have refused : ∃ exc, world.containersRun request = (.error exc, world) := by
    unfold World.containersRun
    rcases blocked with taken | ⟨exc, unresolved⟩
    · rw [dif_neg (by rw [taken]; decide)]
      exact ⟨_, rfl⟩
    · rw [unresolved]
      split
      · exact ⟨_, rfl⟩
      · exact ⟨_, rfl⟩
  obtain ⟨exc, refused⟩ := refused
  unfold DockerManager.startContainer
  rw [built]
  exact Program.meets_bind.mpr (Program.meets_tryCatch.mpr
    (ask_meets rfl (congrArg some refused) ⟨rfl, _, rfl⟩))

/-- What does not change while containers are started. -/
structure Started (id : Uuid) (specs : List ContainerSpec) (world reached : World) : Prop where
  db : reached.db = world.db
  networks : reached.docker.networks = world.docker.networks
  past : world.clock ≤ reached.clock
  containers : ∃ added, reached.docker.containers.rows = world.docker.containers.rows ++ added ∧
    added.map (fun container => (container.envLabel, container.roleLabel, container.name)) =
      specs.map fun spec =>
        (some id.str, some spec.role, Compose.containerName id.str spec.role)

theorem Started.refl (world : World) : Started id [] world world :=
  ⟨rfl, rfl, Int.le_refl _, [], by simp, rfl⟩

theorem Started.trans {middle reached : World} {first second : List ContainerSpec}
    (one : Started id first world middle) (two : Started id second middle reached) :
    Started id (first ++ second) world reached := by
  obtain ⟨added, rows, keys⟩ := one.containers
  obtain ⟨more, rows', keys'⟩ := two.containers
  refine ⟨two.db.trans one.db, two.networks.trans one.networks, one.past.trans two.past,
    added ++ more, ?_, ?_⟩
  · rw [rows', rows, List.append_assoc]
  · rw [List.map_append, List.map_append, keys, keys']

/-- Names are taken by what was there and by what was started. -/
theorem Started.taken_iff {reached : World} {specs : List ContainerSpec} {other : ContainerSpec}
    (started : Started id specs world reached) :
    taken reached.docker id other = true ↔
      taken world.docker id other = true ∨ other.role ∈ specs.map ContainerSpec.role := by
  obtain ⟨added, rows, keys⟩ := started.containers
  have names : added.map Container.name = specs.map fun spec =>
      Compose.containerName id.str spec.role := by
    have projected := congrArg (List.map fun key => key.2.2) keys
    simpa [List.map_map, Function.comp_def] using projected
  have inside : (∃ container ∈ added, container.name = Compose.containerName id.str other.role) ↔
      Compose.containerName id.str other.role ∈ added.map Container.name := by
    rw [List.mem_map]
  unfold taken Daemon.nameTaken
  rw [rows, List.any_append, Bool.or_eq_true]
  refine or_congr Iff.rfl ?_
  simp only [List.any_eq_true, decide_eq_true_eq]
  rw [inside, names, List.mem_map, List.mem_map]
  refine exists_congr fun spec => and_congr_right fun _ => ?_
  rw [Compose.containerName_inj]
  exact ⟨fun same => same.2, fun same => ⟨rfl, same⟩⟩

/-- The network that containers attach to stays the same. -/
theorem Started.resolveNetwork {reached : World} {specs : List ContainerSpec} {name : String}
    (started : Started id specs world reached) :
    reached.docker.resolveNetwork name = world.docker.resolveNetwork name := by
  unfold Daemon.resolveNetwork Daemon.networksNamed
  rw [started.networks]

theorem Started.later {middle reached : World} {specs : List ContainerSpec}
    (started : Started id specs world middle) (later : Later middle reached) :
    Started id specs world reached := by
  obtain ⟨instant, past, rfl⟩ := later
  exact ⟨started.db, started.networks, started.past.trans past, started.containers⟩

/-- The specs of the template that one daemon and its deployment can serve. -/
structure Serves (deployment : Deployment) (template : List ContainerSpec) (warmup : Int) :
    Prop where
  provisionable : Provisionable deployment template
  warm : 0 ≤ warmup
  patient : warmup + 2 ≤ deployment.settings.containerReadyTimeoutSeconds

variable {specs : List ContainerSpec} {containerIds : List DockerId} {hostPort : Option Nat}
  {post : World → Except Exn (List DockerId × Option Nat) → Prop}

/-- The loop goes on after a role whose name is free. -/
theorem startNext_meets
    (serves : Serves deployment template warmup)
    (present : spec ∈ template)
    (free : taken world.docker id spec = false)
    (resolved : world.docker.resolveNetwork (Compose.networkName id.str) = .ok network)
    (continues : ∀ reached port, Started id [spec] world reached →
      (port.isSome = true ↔ spec.exposes = true ∨ hostPort.isSome = true) →
      (DockerManager.startContainers deployment id.str (template.map ContainerSpec.role) specs
        (containerIds ++ [world.docker.nextId]) port).Meets
          (lone deployment (Helps template warmup)) post reached) :
    (DockerManager.startContainers deployment id.str (template.map ContainerSpec.role)
      (spec :: specs) containerIds hostPort).Meets
        (lone deployment (Helps template warmup)) post world := by
  obtain ⟨environment, request, resolves, built⟩ :=
    serves.provisionable.requests spec present id.str
  obtain ⟨envLabel, roleLabel, name, networkName⟩ := runRequest_names built
  unfold DockerManager.startContainers
  rw [resolves]
  have unused : world.docker.nameTaken request.name = false := name ▸ free
  refine Program.meets_bind.mpr (Program.meets_bind.mpr
    ((startContainer_meets built unused (networkName ▸ resolved)).mono ?_))
  rintro started result ⟨rfl, same⟩
  have found : started.docker.containers.find world.docker.nextId =
      some (world.docker.newContainer request (some network) world.clock) := by
    have inserted : world.docker.newContainer request (some network) world.clock ∈
        (world.docker.addContainer request (some network) world.clock unused).containers.rows :=
      Daemon.mem_addContainer.mpr (.inr rfl)
    rw [same]
    exact Keyed.Table.find_of_mem inserted
  have role : (world.docker.newContainer request (some network) world.clock).roleLabel =
      some spec.role := congrArg some roleLabel
  have begun : Started id [spec] world started := by
    rw [same]
    refine ⟨rfl, rfl, Int.le_refl _, [_], rfl, ?_⟩
    simp [Daemon.newContainer, envLabel, roleLabel, name]
  refine Program.meets_bind.mpr ((waitForReady_meets found role present begun.past serves.warm
    serves.patient).mono ?_)
  rintro waited result ⟨rfl, later⟩
  have still : waited.docker.containers.find world.docker.nextId =
      some (world.docker.newContainer request (some network) world.clock) := by
    obtain ⟨instant, -, rfl⟩ := later
    exact found
  refine Program.meets_bind.mpr ((readPort_meets hostPort still role present).mono ?_)
  rintro reached result ⟨rfl, port, rfl, exposed⟩
  exact continues reached port (begun.later later) exposed

/-- The loop starts every role, when all names are free. -/
theorem startContainers_meets (specs : List ContainerSpec) (containerIds : List DockerId)
    (hostPort : Option Nat)
    (serves : Serves deployment template warmup)
    (present : ∀ spec ∈ specs, spec ∈ template)
    (roles : (specs.map ContainerSpec.role).Nodup)
    (free : ∀ spec ∈ specs, taken world.docker id spec = false)
    (resolved : world.docker.resolveNetwork (Compose.networkName id.str) = .ok network) :
    (DockerManager.startContainers deployment id.str (template.map ContainerSpec.role)
      specs containerIds hostPort).Meets (lone deployment (Helps template warmup))
      (fun reached result => Started id specs world reached ∧
        ∃ started port, result = .ok (started, port) ∧
          (port.isSome = true ↔ (∃ spec ∈ specs, spec.exposes = true) ∨ hostPort.isSome = true))
      world := by
  induction specs generalizing world containerIds hostPort with
  | nil => exact ⟨.refl world, containerIds, hostPort, rfl, by simp⟩
  | cons spec specs inductionHypothesis =>
      rw [List.forall_mem_cons] at present free
      rw [List.map_cons, List.nodup_cons] at roles
      refine startNext_meets serves present.1 free.1 resolved fun middle port begun exposed => ?_
      have others : ∀ other ∈ specs, taken middle.docker id other = false := by
        intro other later
        rw [← Bool.not_eq_true, begun.taken_iff, free.2 other later]
        rintro (taken | same)
        · cases taken
        · rw [List.map_singleton, List.mem_singleton] at same
          exact roles.1 (same ▸ List.mem_map_of_mem later)
      refine (inductionHypothesis _ port present.2 roles.2 others
        (begun.resolveNetwork.trans resolved)).mono ?_
      rintro reached result ⟨rest, started, last, rfl, ported⟩
      refine ⟨begun.trans rest, started, last, rfl, ?_⟩
      simp only [ported, exposed, List.mem_cons, exists_eq_or_imp]
      rw [or_left_comm, or_assoc]

/-- The loop fails, when a name is taken or the network is ambiguous. -/
theorem startContainers_refused (specs : List ContainerSpec) (containerIds : List DockerId)
    (hostPort : Option Nat)
    (serves : Serves deployment template warmup)
    (present : ∀ spec ∈ specs, spec ∈ template)
    (blocked : (∃ spec ∈ specs, taken world.docker id spec = true) ∨
      specs ≠ [] ∧ ∃ exc,
        world.docker.resolveNetwork (Compose.networkName id.str) = .error exc) :
    (DockerManager.startContainers deployment id.str (template.map ContainerSpec.role)
      specs containerIds hostPort).Meets (lone deployment (Helps template warmup))
      (fun reached result => reached.db = world.db ∧ ∃ exc, result = .error exc) world := by
  induction specs generalizing world containerIds hostPort with
  | nil =>
      rcases blocked with ⟨spec, none, -⟩ | ⟨nonempty, -⟩
      · cases none
      · exact (nonempty rfl).elim
  | cons spec specs inductionHypothesis =>
      rw [List.forall_mem_cons] at present
      by_cases refused : taken world.docker id spec = true ∨
          ∃ exc, world.docker.resolveNetwork (Compose.networkName id.str) = .error exc
      · obtain ⟨environment, request, resolves, built⟩ :=
          serves.provisionable.requests spec present.1 id.str
        unfold DockerManager.startContainers
        rw [resolves]
        refine Program.meets_bind.mpr (Program.meets_bind.mpr
          ((startContainer_refused built refused).mono ?_))
        rintro reached result ⟨rfl, exc, rfl⟩
        exact ⟨rfl, exc, rfl⟩
      · rw [not_or, Bool.not_eq_true] at refused
        obtain ⟨network, resolved⟩ : ∃ network,
            world.docker.resolveNetwork (Compose.networkName id.str) = .ok network := by
          cases resolved : world.docker.resolveNetwork (Compose.networkName id.str) with
          | ok network => exact ⟨network, rfl⟩
          | error exc => exact (refused.2 ⟨exc, resolved⟩).elim
        refine startNext_meets serves present.1 refused.1 resolved fun middle port begun _ => ?_
        refine (inductionHypothesis _ port present.2 ?_).mono ?_
        · rcases blocked with ⟨other, member, used⟩ | ⟨-, unresolved⟩
          · rcases List.mem_cons.mp member with rfl | later
            · rw [refused.1] at used
              cases used
            · exact .inl ⟨other, later, begun.taken_iff.mpr (.inl used)⟩
          · exact (refused.2 unresolved).elim
        · rintro reached result ⟨db, raised⟩
          exact ⟨db.trans begun.db, raised⟩

end Starting

/-- No container and no network carries the label of the environment. -/
structure Untouched (docker : Daemon) (id : Uuid) : Prop where
  containers : ∀ container ∈ docker.containers.rows, container.envLabel ≠ some id.str
  networks : ∀ network ∈ docker.networks.rows, network.envLabel ≠ some id.str

/-- One network carries the label of the environment, and one container for each
role of the template. -/
structure Complete (template : List ContainerSpec) (docker : Daemon) (id : Uuid) : Prop where
  network : (docker.networks.rows.filter fun network =>
    network.envLabel = some id.str).length = 1
  containers : ((docker.containers.rows.filter fun container =>
      container.envLabel = some id.str).map Container.roleLabel).Perm
    (template.map fun spec => some spec.role)

section Attempts

variable {id : Uuid} {row : Environment}

/-- In a reachable world a label is missing exactly when the names are free. -/
theorem untouched_iff
    (integrity : world.Integrity deployment)
    (found : world.db.find id = some row)
    (known : deployment.templates.lookup row.template = some template) :
    Untouched world.docker id ↔ (∀ spec ∈ template, taken world.docker id spec = false) ∧
      world.docker.networksNamed (Compose.networkName id.str) = [] := by
  have owner : ∀ other ∈ world.db.rows, other.id = id → other = row := by
    intro other present own
    have refound := Keyed.Table.find_of_mem present
    rw [own, found] at refound
    exact (Option.some.inj refound).symm
  constructor
  · intro untouched
    refine ⟨fun spec present => ?_, List.filter_eq_nil_iff.mpr fun network present named => ?_⟩
    · refine List.any_eq_false.mpr fun container present named => ?_
      obtain ⟨-, other, member, template', spec', -, -, labelled, -, ownName⟩ :=
        integrity.containers container present
      rw [of_decide_eq_true named, Compose.containerName_inj] at ownName
      rw [← ownName.1] at labelled
      exact untouched.containers container present labelled
    · obtain ⟨-, other, member, labelled, ownName⟩ := integrity.networks network present
      rw [of_decide_eq_true named, Compose.networkName_inj] at ownName
      rw [← ownName] at labelled
      exact untouched.networks network present labelled
  · rintro ⟨free, unnamed⟩
    refine ⟨fun container present label => ?_, fun network present label => ?_⟩
    · obtain ⟨-, other, member, template', spec, known', inside, labelled, -, named⟩ :=
        integrity.containers container present
      have own : other.id = id := Uuid.str_inj.mp (Option.some.inj (labelled.symm.trans label))
      rw [owner other member own, known] at known'
      cases known'
      have unused := List.any_eq_false.mp (free spec inside) container present
      rw [own] at named
      exact unused (decide_eq_true named)
    · obtain ⟨-, other, member, labelled, named⟩ := integrity.networks network present
      have own : other.id.str = id.str := Option.some.inj (labelled.symm.trans label)
      rw [own] at named
      exact List.filter_eq_nil_iff.mp unnamed network present (decide_eq_true named)

/-- Sorting permutes the specs. -/
theorem startOrder_perm (template : List ContainerSpec) :
    (Compose.startOrder template).Perm template := by
  have split := List.filter_append_perm (fun spec : ContainerSpec =>
    spec.dependsOnRole.isNone) template
  have same : (fun spec : ContainerSpec => !spec.dependsOnRole.isNone) =
      fun spec => spec.dependsOnRole.isSome := by
    funext spec
    cases spec.dependsOnRole <;> rfl
  rw [same] at split
  exact split

/-- Provisioning an untouched environment builds all of it. -/
theorem provision_meets {templateName : String}
    (serves : Serves deployment template warmup)
    (known : deployment.templates.lookup templateName = some template)
    (untouched : Untouched world.docker id)
    (free : ∀ spec ∈ template, taken world.docker id spec = false)
    (unnamed : world.docker.networksNamed (Compose.networkName id.str) = []) :
    (DockerManager.provision deployment id.str templateName).Meets
      (lone deployment (Helps template warmup))
      (fun reached result => reached.db = world.db ∧ Complete template reached.docker id ∧
        ∃ stack, result = .ok stack) world := by
  obtain ⟨exposing, member, exposes⟩ := serves.provisionable.exposes
  have created : world.networksCreate (Compose.networkName id.str) id.str =
      (.ok world.docker.nextId, { world with
        docker := world.docker.addNetwork (Compose.networkName id.str) (some id.str)
          world.clock }) := by
    unfold World.networksCreate
    rw [if_neg (fun both => both.2 unnamed)]
  have resolved : (world.docker.addNetwork (Compose.networkName id.str) (some id.str)
      world.clock).resolveNetwork (Compose.networkName id.str) = .ok world.docker.nextId := by
    unfold Daemon.resolveNetwork Daemon.networksNamed Daemon.addNetwork
    unfold Daemon.networksNamed at unnamed
    simp [unnamed]
  unfold DockerManager.provision
  rw [known]
  cases template with
  | nil => cases member
  | cons first template =>
  refine Program.meets_bind.mpr (ask_meets rfl (congrArg some created) ?_)
  refine Program.meets_bind.mpr ((startContainers_meets (Compose.startOrder (first :: template))
    [] none serves (fun spec present => Compose.mem_startOrder.mp present) ?_ ?_ resolved).mono ?_)
  · exact ((startOrder_perm _).map ContainerSpec.role).nodup_iff.mpr serves.provisionable.roles
  · exact fun spec present => free spec (Compose.mem_startOrder.mp present)
  · rintro reached result ⟨started, containerIds, port, rfl, ported⟩
    have bound : port.isSome = true :=
      ported.mpr (.inl ⟨exposing, Compose.mem_startOrder.mpr member, exposes⟩)
    obtain ⟨hostPort, rfl⟩ := Option.isSome_iff_exists.mp bound
    refine ⟨started.db, ⟨?_, ?_⟩, _, rfl⟩
    · rw [started.networks, Daemon.addNetwork, Keyed.Table.rows_insert, List.filter_append,
        List.filter_eq_nil_iff.mpr fun network present =>
          by simpa using untouched.networks network present]
      simp
    · obtain ⟨added, rows, keys⟩ := started.containers
      have labels : ∀ container ∈ added, container.envLabel = some id.str := by
        intro container present
        have key := List.mem_map_of_mem (f := fun container : Container =>
          (container.envLabel, container.roleLabel, container.name)) present
        rw [keys] at key
        obtain ⟨spec, -, same⟩ := List.mem_map.mp key
        exact (congrArg Prod.fst same).symm
      have roles : added.map Container.roleLabel =
          (Compose.startOrder (first :: template)).map fun spec => some spec.role := by
        have projected := congrArg (List.map fun key => key.2.1) keys
        simpa [List.map_map, Function.comp_def] using projected
      rw [rows, List.filter_append,
        List.filter_eq_nil_iff.mpr fun container present =>
          by simpa using untouched.containers container present,
        List.filter_eq_self.mpr fun container present => decide_eq_true (labels container present),
        List.nil_append, roles]
      exact (startOrder_perm _).map _

/-- Provisioning an environment of which something is left fails. -/
theorem provision_refused {templateName : String}
    (serves : Serves deployment template warmup)
    (known : deployment.templates.lookup templateName = some template)
    (blocked : (∃ spec ∈ template, taken world.docker id spec = true) ∨
      world.docker.networksNamed (Compose.networkName id.str) ≠ []) :
    (DockerManager.provision deployment id.str templateName).Meets
      (lone deployment (Helps template warmup))
      (fun reached result => reached.db = world.db ∧ ∃ exc, result = .error exc) world := by
  obtain ⟨exposing, member, -⟩ := serves.provisionable.exposes
  unfold DockerManager.provision
  rw [known]
  cases template with
  | nil => cases member
  | cons first template =>
  by_cases refused : world.docker.refusesDuplicateNetworks = true ∧
      world.docker.networksNamed (Compose.networkName id.str) ≠ []
  · have duplicate : world.networksCreate (Compose.networkName id.str) id.str =
        (.error ⟨.apiError, "network with name " ++ Compose.networkName id.str ++
          " already exists"⟩, world) := if_pos refused
    exact Program.meets_bind.mpr (ask_meets rfl (congrArg some duplicate) ⟨rfl, _, rfl⟩)
  · have created : world.networksCreate (Compose.networkName id.str) id.str =
        (.ok world.docker.nextId, { world with
          docker := world.docker.addNetwork (Compose.networkName id.str) (some id.str)
            world.clock }) := if_neg refused
    refine Program.meets_bind.mpr (ask_meets rfl (congrArg some created) ?_)
    refine Program.meets_bind.mpr ((startContainers_refused
      (Compose.startOrder (first :: template)) [] none serves
      (fun spec present => Compose.mem_startOrder.mp present) ?_).mono ?_)
    · rcases blocked with ⟨spec, present, used⟩ | named
      · exact .inl ⟨spec, Compose.mem_startOrder.mpr present, used⟩
      · refine .inr ⟨List.ne_nil_of_mem (Compose.mem_startOrder.mpr member), ?_⟩
        unfold Daemon.resolveNetwork Daemon.networksNamed Daemon.addNetwork
        unfold Daemon.networksNamed at named
        simp only [Keyed.Table.rows_insert, List.filter_append, decide_true,
          List.filter_cons_of_pos, List.filter_nil]
        cases same : world.docker.networks.rows.filter
            fun network => network.name = Compose.networkName id.str with
        | nil => exact (named same).elim
        | cons network networks =>
            cases networks with
            | nil => exact ⟨_, rfl⟩
            | cons other networks => exact ⟨_, rfl⟩
    · rintro reached result ⟨db, exc, rfl⟩
      exact ⟨db, exc, rfl⟩

/-- Provisioning succeeds exactly on an untouched environment. -/
theorem provision_decides {docker : Daemon} {templateName : String}
    (serves : Serves deployment template warmup)
    (known : deployment.templates.lookup templateName = some template)
    (names : Untouched docker id ↔ (∀ spec ∈ template, taken docker id spec = false) ∧
      docker.networksNamed (Compose.networkName id.str) = [])
    (unchanged : world.docker = docker) :
    (DockerManager.provision deployment id.str templateName).Meets
      (lone deployment (Helps template warmup))
      (fun reached result => reached.db = world.db ∧
        match result with
        | .ok _ => Untouched docker id ∧ Complete template reached.docker id
        | .error _ => ¬Untouched docker id) world := by
  subst unchanged
  by_cases untouched : Untouched world.docker id
  · obtain ⟨free, unnamed⟩ := names.mp untouched
    refine (provision_meets serves known untouched free unnamed).mono ?_
    rintro reached result ⟨db, complete, stack, rfl⟩
    exact ⟨db, untouched, complete⟩
  · refine (provision_refused serves known ?_).mono ?_
    · by_cases free : ∀ spec ∈ template, taken world.docker id spec = false
      · exact .inr fun unnamed => untouched (names.mpr ⟨free, unnamed⟩)
      · simp only [not_forall, Bool.not_eq_false] at free
        obtain ⟨spec, present, used⟩ := free
        exact .inl ⟨spec, present, used⟩
    · rintro reached result ⟨db, exc, rfl⟩
      exact ⟨db, untouched⟩

/-- The row is RUNNING, and its network and its containers are there once. -/
structure Provisioned (template : List ContainerSpec) (world : World) (id : Uuid) : Prop where
  running : ∃ row, world.db.find id = some row ∧ row.status = .running
  complete : Complete template world.docker id

/-- An attempt provisions an untouched environment; otherwise it fails while the
session holds the row as PROVISIONING. -/
theorem provisionAttempt_meets {envId : String} (started : Time)
    (serves : Serves deployment template warmup)
    (integrity : world.Integrity deployment)
    (parsed : Uuid.parse envId = some id)
    (found : world.db.find id = some row)
    (known : deployment.templates.lookup row.template = some template) :
    (Worker.provisionAttempt deployment envId started).Meets
      (lone deployment (Helps template warmup))
      (fun reached result =>
        match result with
        | .ok _ => Untouched world.docker id ∧ Provisioned template reached id
        | .error failure => ¬Untouched world.docker id ∧ (reached.db.find id).isSome = true ∧
            ∃ env, failure.held = some env ∧ env.id = id ∧ env.status = .provisioning)
      world := by
  have own : row.id = id := Keyed.Table.key_of_find found
  subst own
  unfold Worker.provisionAttempt
  rw [Worker.loadEnv_of_parse parsed]
  refine Program.meets_bind.mpr (Worker.during_meets.mpr
    (plain_meets rfl fun loaded afterLoad effect => ?_))
  cases effect with
  | read _ _ reads =>
  have same : loaded = world.db.find row.id := reads
  rw [found] at same
  cases same
  refine Program.meets_bind.mpr (Worker.during_meets.mpr
    (plain_meets rfl fun now afterNow effect => ?_))
  cases effect with
  | read _ _ reads =>
  have current : now = world.clock := reads
  subst current
  refine Program.meets_bind.mpr (Worker.during_meets.mpr
    (plain_meets rfl fun done afterCommit effect => ?_))
  cases effect with
  | read _ _ reads => cases reads
  | committed _ =>
  have begun : (world.db.writeAll [⟨row, row.setStatus .provisioning world.clock⟩]).find
      row.id =
      some (row.setStatus .provisioning world.clock) := by
    rw [Environments.find_writeAll_single rfl found]
    exact congrArg some (Environment.flush_fresh rfl)
  have names := untouched_iff integrity found known
  refine Program.meets_bind.mpr (Worker.during_meets.mpr
    (Program.Meets.mono (provision_decides serves known names ?_) ?_))
  · rfl
  rintro provisioned (exc | stack) ⟨db, outcome⟩
  · refine ⟨outcome, ?_, row.setStatus .provisioning world.clock, rfl, rfl, rfl⟩
    rw [db, begun]
    rfl
  · refine Program.meets_bind.mpr (Worker.during_meets.mpr
      (plain_meets rfl fun started afterNow effect => ?_))
    cases effect with
    | read _ _ reads =>
    refine Program.meets_bind.mpr (Worker.during_meets.mpr
      (plain_meets rfl fun changed afterNow effect => ?_))
    cases effect with
    | read _ _ reads =>
    refine Program.meets_bind.mpr (Worker.during_meets.mpr
      (plain_meets rfl fun done afterCommit effect => ?_))
    cases effect with
    | read _ _ reads => cases reads
    | committed _ =>
    refine Program.meets_bind.mpr (Worker.during_meets.mpr
      (plain_meets rfl fun done afterRecord effect => ?_))
    cases effect with
    | read _ _ reads => cases reads
    | recorded metric =>
    refine Program.meets_bind.mpr (Worker.during_meets.mpr
      (plain_meets rfl fun finished afterNow effect => ?_))
    cases effect with
    | read _ _ reads =>
    refine Program.meets_bind.mpr (Worker.during_meets.mpr
      (plain_meets rfl fun done afterRecord effect => ?_))
    cases effect with
    | read _ _ reads => cases reads
    | recorded metric =>
    have stored : provisioned.db.find row.id =
        some (row.setStatus .provisioning world.clock) := by
      rw [db]
      exact begun
    refine ⟨outcome.1, ⟨_, Environments.find_writeAll_single rfl stored, ?_⟩, outcome.2⟩
    rw [Environment.status_flush]
    · rfl
    · exact fun same => nomatch (same : EnvironmentStatus.running = .provisioning)

/-- A failure is written over the row that the session held. -/
theorem markFailed_meets {envId message : String} {env : Environment}
    (parsed : Uuid.parse envId = some id)
    (present : (world.db.find id).isSome = true)
    (own : env.id = id)
    (status : env.status = .provisioning) :
    (Worker.markFailed (some env) envId message).Meets (lone deployment (Helps template warmup))
      (fun reached result => result = .ok () ∧
        ∃ row, reached.db.find id = some row ∧ row.status = .failed) world := by
  obtain ⟨row, found⟩ := Option.isSome_iff_exists.mp present
  unfold Worker.markFailed
  rw [Worker.loadEnv_of_parse parsed]
  refine Program.meets_tryCatch.mpr (Program.meets_bind.mpr
    (plain_meets rfl fun loaded afterLoad effect => ?_))
  cases effect with
  | read _ _ reads =>
  have same : loaded = world.db.find id := reads
  rw [found] at same
  cases same
  refine Program.meets_bind.mpr (plain_meets rfl fun now afterNow effect => ?_)
  cases effect with
  | read _ _ reads =>
  refine plain_meets rfl fun done afterCommit effect => ?_
  cases effect with
  | read _ _ reads => cases reads
  | committed _ =>
  refine ⟨rfl, _, Environments.find_writeAll_single own found, ?_⟩
  rw [Environment.status_flush]
  · rfl
  · rw [Option.getD_some, status]
    exact fun same => nomatch (same : EnvironmentStatus.failed = .provisioning)

/-- A retry only publishes. -/
theorem selfRetry_meets (message : Message) (countdown : Int) (exc : Exn) :
    (Worker.selfRetry message countdown exc).Meets (lone deployment (Helps template warmup))
      (fun reached _ => reached.db = world.db) world := by
  unfold Worker.selfRetry
  split
  · exact rfl
  · refine Program.meets_bind.mpr (plain_meets rfl fun task afterPublish effect => ?_)
    cases effect with
    | read _ _ reads => cases reads
    | published _ _ _ _ => exact rfl

/-- On a helpful daemon the provision task leaves a provisioned environment exactly
when nothing of the environment was there before. -/
theorem provisioned_iff_untouched {message : Message}
    (serves : Serves deployment template warmup)
    (run : System.Runs deployment refuses allowed config)
    (parsed : Uuid.parse message.envId = some id)
    (found : config.state.db.find id = some row)
    (known : deployment.templates.lookup row.template = some template) :
    (Worker.provisionEnvironment deployment message).Meets
      (lone deployment (Helps template warmup))
      (fun last _ => Provisioned template last id ↔ Untouched config.state.docker id)
      config.state := by
  have integrity := (Integrity.of_runs run).1
  generalize config.state = world at found integrity ⊢
  unfold Worker.provisionEnvironment
  refine Program.meets_bind.mpr (plain_meets rfl fun started afterNow effect => ?_)
  cases effect with
  | read _ _ reads =>
  refine Program.meets_tryCatch.mpr
    ((provisionAttempt_meets started serves integrity parsed found known).mono ?_)
  rintro attempted (failure | answer) outcome
  · obtain ⟨touched, present, env, held, own, status⟩ := outcome
    have failed : ∀ last : World,
        (∃ row, last.db.find id = some row ∧ row.status = .failed) →
        (Provisioned template last id ↔ Untouched world.docker id) := by
      rintro last ⟨row', found', failed⟩
      refine ⟨fun provisioned => ?_, fun untouched => (touched untouched).elim⟩
      obtain ⟨row'', found'', running⟩ := provisioned.running
      rw [found'] at found''
      cases found''
      rw [failed] at running
      cases running
    dsimp only
    rw [held]
    refine Program.meets_bind.mpr ((markFailed_meets parsed present own status).mono ?_)
    rintro marked result ⟨rfl, stored⟩
    refine Program.meets_bind.mpr (plain_meets rfl fun done afterRecord effect => ?_)
    cases effect with
    | read _ _ reads => cases reads
    | recorded metric =>
    cases value : failure.exc.isValueError with
    | true => exact failed _ stored
    | false =>
        refine (selfRetry_meets message _ _).mono fun last result same => failed last ?_
        rw [same]
        exact stored
  · exact ⟨fun _ => outcome.1, fun _ => outcome.2⟩

end Attempts

/-- Every shipped template can be provisioned. -/
theorem provisionable_shipped {name : String}
    (known : Compose.shipped.templates.lookup name = some template) :
    Provisionable Compose.shipped template := by
  have listed : ∀ entry ∈ Compose.shipped.templates,
      Provisionable Compose.shipped entry.2 := by
    intro entry present
    rw [List.mem_singleton.mp present]
    refine ⟨by decide, ⟨_, List.mem_cons_of_mem _ List.mem_cons_self, rfl⟩, ?_⟩
    intro spec member envId
    rcases List.mem_cons.mp member with rfl | later
    · exact ⟨_, _, rfl, rfl⟩
    · rw [List.mem_singleton.mp later]
      exact ⟨_, _, rfl, rfl⟩
  have found : ∃ entry ∈ Compose.shipped.templates, entry.2 = template := by
    rw [List.lookup_eq_some_iff] at known
    obtain ⟨before, after, split, -⟩ := known
    exact ⟨(name, template), by rw [split]; simp, rfl⟩
  obtain ⟨entry, present, rfl⟩ := found
  exact listed entry present

/-- A shipped template on a daemon that is fast enough. -/
theorem serves_shipped {name : String}
    (known : Compose.shipped.templates.lookup name = some template)
    (warm : 0 ≤ warmup) (fast : warmup ≤ 118) : Serves Compose.shipped template warmup := by
  refine ⟨provisionable_shipped known, warm, ?_⟩
  show warmup + 2 ≤ 120
  omega

/-- The specs of the sample row's template. -/
def webapp : List ContainerSpec :=
  (Compose.templates.lookup "webapp-postgres").getD []

/-- The rule on a row that has just been created. -/
theorem provisioned_of_create :
    ∃ config row, System.Runs Compose.shipped true (fun _ _ => True) config ∧
      config.state.db.find (Sample.envId 1) = some row ∧ row.status = .pending ∧
      (Worker.provisionEnvironment Compose.shipped
        ⟨.provision, (Sample.envId 1).str, 0, 0⟩).Meets
          (lone Compose.shipped (Helps webapp 30))
          (fun last _ => Provisioned webapp last (Sample.envId 1)) config.state := by
  have shown : ((System.initial true).run (machine Compose.shipped) (fun _ _ => True)
      (Sample.create 0 1)).map (fun config =>
        ((config.state.db.find (Sample.envId 1)).map fun row => (row.status, row.template),
          config.state.docker.containers.rows, config.state.docker.networks.rows)) =
      some (some (.pending, "webapp-postgres"), [], []) := by decide +kernel
  obtain ⟨config, run, seen⟩ := Run.exists_run shown
  simp only [Prod.mk.injEq] at seen
  obtain ⟨stored, noContainers, noNetworks⟩ := seen
  obtain ⟨row, found, same⟩ := Option.map_eq_some_iff.mp stored
  simp only [Prod.mk.injEq] at same
  have known : Compose.shipped.templates.lookup row.template = some webapp := by
    rw [same.2]
    rfl
  have untouched : Untouched config.state.docker (Sample.envId 1) := by
    refine ⟨?_, ?_⟩
    · rw [noContainers]
      intro container absent
      cases absent
    · rw [noNetworks]
      intro network absent
      cases absent
  refine ⟨config, row, run, found, same.1, ?_⟩
  refine (provisioned_iff_untouched (serves_shipped known (by decide) (by decide)) run
    (Uuid.parse_str _) found known).mono ?_
  exact fun last result decides => decides.mpr untouched

/-- A create and a first attempt that the daemon refuses the first container; the
network stays, the row is FAILED and a retry is queued. -/
def refusedAttempt : List Occurrence :=
  Sample.create 0 1 ++ Sample.deliver ++ Sample.succeed 1 5 ++
    .advance 1 Sample.refused :: Sample.succeed 1 5

/-- The retry, alone on a helpful daemon: the message, the status that it leaves and
the world after it. -/
def retried (config : System) : Option (Message × World × Except Exn Answer) :=
  config.state.queue.head?.bind fun message =>
    ((machine Compose.shipped).execute (Helps webapp 30) (List.replicate 10 .ok) config.state
      (Worker.provisionEnvironment Compose.shipped message)).map
        fun (_, last, result) => (message, last, result)

/-- The retry of an attempt that left its network fails on a helpful daemon, because
the name of the network is taken. -/
theorem retry_not_provisioned :
    ∃ config row message trace last result,
      Reachable (machine Compose.shipped) (System.initial true) config ∧
      config.state.db.find (Sample.envId 1) = some row ∧ row.status = .failed ∧
      message ∈ config.state.queue ∧ message.task = .provision ∧
      message.envId = (Sample.envId 1).str ∧ message.retries = 1 ∧
      Executes (lone Compose.shipped (Helps webapp 30)) config.state
        (Worker.provisionEnvironment Compose.shipped message) trace last result ∧
      ¬Provisioned webapp last (Sample.envId 1) := by
  have shown : ((System.initial true).run (machine Compose.shipped) (fun _ _ => True)
      refusedAttempt).map (fun config =>
        ((config.state.db.find (Sample.envId 1)).map Environment.status,
          (retried config).map fun ended => (ended.1,
            (ended.2.1.db.find (Sample.envId 1)).map Environment.status))) =
      some (some .failed,
        some (⟨.provision, (Sample.envId 1).str, 1, seconds 10⟩, some .failed)) := by
    decide +kernel
  obtain ⟨config, run, seen⟩ := Run.exists_run shown
  simp only [Prod.mk.injEq] at seen
  obtain ⟨before, after⟩ := seen
  obtain ⟨row, found, failed⟩ := Option.map_eq_some_iff.mp before
  obtain ⟨⟨message, last, result⟩, ended, same⟩ := Option.map_eq_some_iff.mp after
  obtain ⟨queued, first, rest⟩ := Option.bind_eq_some_iff.mp ended
  obtain ⟨⟨trace, last', result'⟩, executed, ends⟩ := Option.map_eq_some_iff.mp rest
  simp only [Prod.mk.injEq] at same ends
  obtain ⟨rfl, rfl, rfl⟩ := ends
  obtain ⟨rfl, stored⟩ := same
  refine ⟨config, row, _, trace, last', result', run, found, failed,
    List.mem_of_head? first, rfl, rfl, rfl, Machine.executes_of_execute executed, ?_⟩
  intro provisioned
  obtain ⟨row', found', running⟩ := provisioned.running
  rw [found', Option.map_some, running] at stored
  cases stored

end Repetition

end Provisioner
