import Provisioner.Discovery
import Provisioner.Evidence
import Provisioner.Publishing

/-!
# The grace period holds in every interleaving

The orphan sweep decides on what it was told earlier: it reads the clock, takes two
listings, and asks for one row after the other while attempts go on building. Whenever it
asks for the removal of a resource, its own answers show that the resource was older than
the grace period when the sweep began, that its label names an environment, and that the
row of that environment was then missing or terminal. What the listings show of a resource
stays true as long as the resource exists, so no resource younger than the grace period is
ever removed by the sweep, whatever else happens.
-/

namespace Provisioner

open Resumption

namespace Grace

/-- A listing among the answers shows the resource with this label and this age. -/
inductive Listed (trace : List (Entry Reply)) (label : String) : Resource → Time → Prop
  | container (containers : List Container) (container : Container) :
      (⟨.containersList, .ok containers⟩ : Entry Reply) ∈ trace → container ∈ containers →
      container.envLabel = some label →
      Listed trace label (.container container.id) container.created
  | network (networks : List Network) (network : Network) :
      (⟨.networksList, .ok networks⟩ : Entry Reply) ∈ trace → network ∈ networks →
      network.envLabel = some label →
      Listed trace label (.network network.id) network.created

/-- The answers show a resource with this label that was old enough. -/
def Aged (grace : Int) (trace : List (Entry Reply)) (label : String) (resource : Resource) :
    Prop :=
  ∃ instant created, (⟨.now, .ok instant⟩ : Entry Reply) ∈ trace ∧
    Listed trace label resource created ∧ created ≤ instant - seconds grace

/-- The answers show an old resource and a row that is missing or terminal. -/
def Condemned (grace : Int) (trace : List (Entry Reply)) (resource : Resource) : Prop :=
  ∃ label id row, Aged grace trace label resource ∧ Uuid.parse label = some id ∧
    (⟨.loadEnvironment id, .ok row⟩ : Entry Reply) ∈ trace ∧
    row.all (fun env => env.status.terminal) = true

/-- The orphan sweep asks about condemned resources only. -/
def Justified (deployment : Deployment) (role : Role) (trace : List (Entry Reply))
    (request : Call) : Prop :=
  role = .sweep .reconcileOrphans → ∀ resource, request.about resource →
    Condemned deployment.settings.orphanGraceSeconds trace resource

variable {deployment : Deployment} {refuses : Bool}
  {allowed : System → Occurrence → Prop} {config : System}
  {world next : World} {trace later : List (Entry Reply)} {resource : Resource}
  {label : String} {grace : Int}

theorem Listed.mono {created : Time} (listed : Listed trace label resource created)
    (longer : trace ⊆ later) : Listed later label resource created := by
  cases listed with
  | container containers container answered member labelled =>
      exact .container containers container (longer answered) member labelled
  | network networks network answered member labelled =>
      exact .network networks network (longer answered) member labelled

theorem Aged.mono (aged : Aged grace trace label resource) (longer : trace ⊆ later) :
    Aged grace later label resource := by
  obtain ⟨instant, created, read, listed, old⟩ := aged
  exact ⟨instant, created, longer read, listed.mono longer, old⟩

/-! ## What the sweep knows -/

/-- `remove_resources` asks about the given resources only. -/
theorem removeResources_about (containerIds networkIds : List DockerId) :
    (DockerManager.removeResources containerIds networkIds).Makes fun request =>
      ∀ resource, request.about resource →
        resource ∈ containerIds.map .container ++ networkIds.map .network := by
  refine Program.makes_bind (Program.makes_forEach fun id member => ?_) fun _ =>
    Program.makes_forEach fun id member => ?_
  · have given : Resource.container id ∈
        containerIds.map .container ++ networkIds.map .network :=
      List.mem_append_left _ (List.mem_map_of_mem member)
    refine Program.makes_tryCatch (Program.makes_bind (DockerManager.perform_makes ?_) fun _ =>
      Program.makes_bind (DockerManager.perform_makes ?_) fun _ =>
      DockerManager.perform_makes ?_) fun _ => trivial
    · rintro resource rfl
      exact given
    · rintro resource rfl
      exact given
    · rintro resource rfl
      exact given
  · have given : Resource.network id ∈
        containerIds.map .container ++ networkIds.map .network :=
      List.mem_append_right _ (List.mem_map_of_mem member)
    refine Program.makes_tryCatch (Program.makes_bind (DockerManager.perform_makes ?_) fun _ =>
      DockerManager.perform_makes ?_) fun _ => trivial
    · rintro resource rfl
      exact given
    · rintro resource rfl
      exact given

/-- The grouping reports old resources of the listings only. -/
theorem aged_of_grouped {instant : Time} {containers : List Container}
    {networks : List Network} {entry : String × DockerManager.LabelledResources}
    (read : (⟨.now, .ok instant⟩ : Entry Reply) ∈ trace)
    (container : (⟨.containersList, .ok containers⟩ : Entry Reply) ∈ trace)
    (network : (⟨.networksList, .ok networks⟩ : Entry Reply) ∈ trace)
    (present : entry ∈ DockerManager.grouped (instant - seconds grace) containers networks)
    (listed : resource ∈ entry.2.resources) : Aged grace trace entry.1 resource := by
  have pair := Discovery.mem_pairs present listed
  rw [(Discovery.groups_grouped (instant - seconds grace) containers networks).pairs.mem_iff,
    List.mem_append, List.mem_filterMap, List.mem_filterMap] at pair
  rcases pair with ⟨item, member, reported⟩ | ⟨item, member, reported⟩
  · obtain ⟨labelled, -, old, rfl⟩ := Discovery.reported_eq_some.mp reported
    exact ⟨instant, item.created, read, .container containers item container member labelled, old⟩
  · obtain ⟨labelled, -, old, rfl⟩ := Discovery.reported_eq_some.mp reported
    exact ⟨instant, item.created, read, .network networks item network member labelled, old⟩

/-- The loop over the labelled resources removes condemned resources only. -/
theorem reconcileFound_evidence (found : List (String × DockerManager.LabelledResources))
    (removed skipped : Nat)
    (aged : ∀ entry ∈ found, ∀ resource ∈ entry.2.resources,
      Aged deployment.settings.orphanGraceSeconds trace entry.1 resource) :
    (evidence Evidence.Possible (Justified deployment)).Allows (fun _ _ => True)
      (.sweep .reconcileOrphans, trace) (Worker.reconcileFound found removed skipped) := by
  induction found generalizing removed skipped trace with
  | nil => trivial
  | cons entry found inductionHypothesis =>
      have rest : ∀ later, trace ⊆ later → ∀ entry ∈ found,
          ∀ resource ∈ entry.2.resources,
            Aged deployment.settings.orphanGraceSeconds later entry.1 resource :=
        fun later longer other member resource listed =>
          (aged other (List.mem_cons_of_mem _ member) resource listed).mono longer
      obtain ⟨label, resources⟩ := entry
      unfold Worker.reconcileFound
      split
      · exact inductionHypothesis _ _ (rest trace fun _ present => present)
      · rename_i id parsed
        refine Program.meets_bind.mpr (Evidence.allows_perform (fun _ _ about => about.elim)
          fun reply => ?_)
        rcases reply with exc | row
        · trivial
        · have longer : trace ⊆ trace ++ [⟨.loadEnvironment id, .ok row⟩] :=
            List.subset_append_left _ _
          dsimp only
          split
          · rename_i terminal
            refine Program.meets_bind.mpr (Program.Meets.mono (evidence_of_makes
              (removeResources_about _ _) fun later request further given _ resource about => ?_)
              fun known result kept => ?_)
            · exact ⟨label, id, row, ((aged _ List.mem_cons_self resource
                (given resource about)).mono longer).mono further, parsed,
                further (Evidence.mem_concat _ _), terminal⟩
            · obtain ⟨role, reached⟩ := known
              obtain ⟨rfl, further⟩ := kept
              cases result with
              | ok done =>
                  exact inductionHypothesis _ _
                    (rest reached fun _ present => further (longer present))
              | error exc => trivial
          · exact inductionHypothesis _ _ (rest _ longer)

/-- Every program of the service asks about condemned resources only, as far as the orphan
sweep is concerned. -/
theorem program_evidence (deployment : Deployment) (role : Role) :
    (evidence Evidence.Possible (Justified deployment)).Allows (fun _ _ => True) (role, [])
      (program deployment role) := by
  by_cases sweep : role = .sweep .reconcileOrphans
  · subst sweep
    refine Program.meets_bind.mpr (Program.meets_bind.mpr
      (Evidence.allows_perform (fun _ _ about => about.elim) fun reply => ?_))
    rcases reply with exc | instant
    · trivial
    refine Program.meets_bind.mpr (Evidence.allows_perform (fun _ _ about => about.elim)
      fun reply => ?_)
    rcases reply with exc | containers
    · trivial
    refine Program.meets_bind.mpr (Evidence.allows_perform (fun _ _ about => about.elim)
      fun reply => ?_)
    rcases reply with exc | networks
    · trivial
    exact reconcileFound_evidence _ 0 0 fun entry present resource listed =>
      aged_of_grouped (by simp) (by simp) (by simp) present listed
  · have makes : (program deployment role).Makes fun _ => True :=
      program_makes_quiet (fun _ _ => trivial) fun _ _ _ _ _ => trivial
    exact (evidence_of_makes makes fun _ _ _ _ same => (sweep same).elim).mono
      fun _ _ _ => trivial

/-! ## What the listings show stays true -/

/-- A container does not change as long as it exists. -/
theorem container_of_effect {request : Call} {reply : Reply request} {id : DockerId}
    {container : Container}
    (issued : id < world.docker.nextId)
    (effect : world.Effect request reply next)
    (found : next.docker.containers.find id = some container) :
    world.docker.containers.find id = some container := by
  cases effect with
  | containerCreated request _ network free =>
      unfold Daemon.addContainer at found
      dsimp only at found
      rw [Keyed.Table.find_insert, if_neg (by exact (Nat.ne_of_lt issued).symm)] at found
      exact found
  | containerRemoved other present =>
      unfold Daemon.removeContainer at found
      dsimp only at found
      rw [Keyed.Table.find_erase] at found
      split at found
      · cases found
      · exact found
  | _ => exact found

/-- A network does not change as long as it exists. -/
theorem network_of_effect {request : Call} {reply : Reply request} {id : DockerId}
    {network : Network}
    (issued : id < world.docker.nextId)
    (effect : world.Effect request reply next)
    (found : next.docker.networks.find id = some network) :
    world.docker.networks.find id = some network := by
  cases effect with
  | networkCreated name _ =>
      unfold Daemon.addNetwork at found
      dsimp only at found
      rw [Keyed.Table.find_insert, if_neg (by exact (Nat.ne_of_lt issued).symm)] at found
      exact found
  | networkRemoved other present idle =>
      unfold Daemon.removeNetwork at found
      dsimp only at found
      rw [Keyed.Table.find_erase] at found
      split at found
      · cases found
      · exact found
  | _ => exact found

/-- What a thread was told: instants of the past, and containers and networks that are still
what they were if they still exist. -/
structure Recalls (world : World) (trace : List (Entry Reply)) : Prop where
  instants : ∀ instant, (⟨.now, .ok instant⟩ : Entry Reply) ∈ trace → instant ≤ world.clock
  containers : ∀ containers container,
    (⟨.containersList, .ok containers⟩ : Entry Reply) ∈ trace → container ∈ containers →
    container.id < world.docker.nextId ∧
      ∀ other, world.docker.containers.find container.id = some other → other = container
  networks : ∀ networks network,
    (⟨.networksList, .ok networks⟩ : Entry Reply) ∈ trace → network ∈ networks →
    network.id < world.docker.nextId ∧
      ∀ other, world.docker.networks.find network.id = some other → other = network

/-- What was told stays true under every effect. -/
theorem Recalls.of_effect {request : Call} {reply : Reply request}
    (recalls : Recalls world trace)
    (nextId : world.docker.nextId ≤ next.docker.nextId)
    (effect : world.Effect request reply next) : Recalls next trace where
  instants instant told := (recalls.instants instant told).trans effect.clock
  containers containers container told member := by
    obtain ⟨issued, same⟩ := recalls.containers containers container told member
    exact ⟨Nat.lt_of_lt_of_le issued nextId,
      fun other found => same other (container_of_effect issued effect found)⟩
  networks networks network told member := by
    obtain ⟨issued, same⟩ := recalls.networks networks network told member
    exact ⟨Nat.lt_of_lt_of_le issued nextId,
      fun other found => same other (network_of_effect issued effect found)⟩

/-- What was told stays true while the daemon does not change. -/
theorem Recalls.of_unchanged (recalls : Recalls world trace)
    (docker : next.docker = world.docker) (clock : world.clock ≤ next.clock) :
    Recalls next trace where
  instants instant told := (recalls.instants instant told).trans clock
  containers := docker ▸ recalls.containers
  networks := docker ▸ recalls.networks

/-- The answer to a call is told. -/
theorem Recalls.answered {request : Call} {reply : Reply request}
    (recalls : Recalls next trace)
    (effect : world.Effect request reply next) :
    Recalls next (trace ++ [⟨request, reply⟩]) := by
  refine ⟨fun instant told => ?_, fun containers container told member => ?_,
    fun networks network told member => ?_⟩
  · rcases List.mem_append.mp told with old | new
    · exact recalls.instants instant old
    · cases List.mem_singleton.mp new
      cases effect with
      | read _ _ reads => exact le_of_eq reads
  · rcases List.mem_append.mp told with old | new
    · exact recalls.containers containers container old member
    · cases List.mem_singleton.mp new
      cases effect with
      | read _ _ reads =>
          have reads : containers.Perm
            (world.docker.containers.rows.filter fun row => row.envLabel.isSome) := reads
          have present := List.mem_of_mem_filter (reads.mem_iff.mp member)
          refine ⟨world.docker.containerIssued container present, fun other found => ?_⟩
          rw [Keyed.Table.find_of_mem present] at found
          exact (Option.some.inj found).symm
  · rcases List.mem_append.mp told with old | new
    · exact recalls.networks networks network old member
    · cases List.mem_singleton.mp new
      cases effect with
      | read _ _ reads =>
          have reads : networks.Perm
            (world.docker.networks.rows.filter fun row => row.envLabel.isSome) := reads
          have present := List.mem_of_mem_filter (reads.mem_iff.mp member)
          refine ⟨world.docker.networkIssued network present, fun other found => ?_⟩
          rw [Keyed.Table.find_of_mem present] at found
          exact (Option.some.inj found).symm

/-- What a thread was told is still true. -/
theorem recalls_of_runs (run : System.Runs deployment refuses allowed config) :
    ∀ job ∈ config.threads, Recalls config.state job.trace := by
  refine run.invariant (fun config => ∀ job ∈ config.threads, Recalls config.state job.trace)
    nofun ?_ ?_ ?_
  · intro config action next spawned _ recalls _ surrounds job member
    rcases List.mem_append.mp member with old | new
    · exact (recalls job old).of_unchanged surrounds.unchanged.2.1 surrounds.unchanged.2.2.2.2
    · obtain ⟨role, -, rfl⟩ := Option.map_eq_some_iff.mp (Option.mem_toList.mp new)
      exact ⟨nofun, nofun, nofun⟩
  · intro config index job _ recalls _ found alive
    exact forall_mem_set recalls (recalls job (List.mem_of_getElem? found))
  · intro config index job request resume choice reply next _ recalls _ found alive rest
      permits effect
    have nextId := (Integrity.grows_of_effect permits effect).nextId
    have kept := fun other member => (recalls other member).of_effect nextId effect
    exact forall_mem_set kept ((kept job (List.mem_of_getElem? found)).answered effect)

/-- What is known of a resource that the orphan sweep asks the daemon about: it is older than
the grace period, and it carries the id of an environment whose row was found missing or
terminal. -/
structure Spent (deployment : Deployment) (world : World) (trace : List (Entry Reply))
    (resource : Resource) : Prop where
  old : ∃ created, world.docker.created resource = some created ∧
    created + seconds deployment.settings.orphanGraceSeconds ≤ world.clock
  labelled : ∃ id row, world.docker.label resource = some id.str ∧
    (⟨.loadEnvironment id, .ok row⟩ : Entry Reply) ∈ trace ∧
    ∀ env ∈ row, env.status.terminal = true

/-- A listed resource that exists is what the listing shows. -/
theorem created_of_listed {created : Time}
    (recalls : Recalls world trace)
    (listed : Listed trace label resource created)
    (has : world.docker.has resource = true) :
    world.docker.created resource = some created ∧
      world.docker.label resource = some label := by
  unfold Daemon.created Daemon.label
  cases listed with
  | container containers container told member labelled =>
      obtain ⟨other, found⟩ := Option.isSome_iff_exists.mp has
      cases (recalls.containers containers container told member).2 other found
      dsimp only
      rw [found]
      exact ⟨rfl, labelled⟩
  | network networks network told member labelled =>
      obtain ⟨other, found⟩ := Option.isSome_iff_exists.mp has
      cases (recalls.networks networks network told member).2 other found
      dsimp only
      rw [found]
      exact ⟨rfl, labelled⟩

/-- In every run, whatever the orphan sweep asks the daemon to stop or remove is older than
the grace period, and its environment was found to be over. -/
theorem spent_of_asked (run : System.Runs deployment refuses allowed config)
    {job : Job} {request : Call} {resume : Reply request → Action Answer}
    (member : job ∈ config.threads)
    (sweep : job.role = .sweep .reconcileOrphans)
    (rest : job.rest = .call request resume)
    (about : request.about resource)
    (has : config.state.docker.has resource = true) :
    Spent deployment config.state job.trace resource := by
  obtain ⟨label, id, row, ⟨instant, created, read, listed, old⟩, parsed, loaded, terminal⟩ :=
    run.evidenced_next rfl (Evidence.describes deployment _) (program_evidence deployment) member
      rest sweep resource about
  have recalls := recalls_of_runs run job member
  obtain ⟨made, labelled⟩ := created_of_listed recalls listed has
  obtain ⟨row', -, canonical, -⟩ :=
    Discovery.labelled_of_integrity (Integrity.of_runs run).1 has
  -- Labels in the daemon are canonical, so the parsed id is the one on the label.
  rw [labelled] at canonical
  cases canonical
  rw [Uuid.parse_str] at parsed
  cases parsed
  refine ⟨⟨created, made, ?_⟩, ⟨row'.id, row, labelled, loaded, ?_⟩⟩
  · have past := recalls.instants instant read
    exact (Int.add_le_of_le_sub_right old).trans past
  · intro env present
    rw [Option.mem_def.mp present] at terminal
    exact terminal

/-- A failed start, an hour later the orphan sweep, up to its first request about a
container. -/
def secondThoughts : List Occurrence :=
  Discovery.failedStart ++ Sample.succeed 1 5 ++
    .ambient (.tick 3600000000) :: .ambient (.beat .reconcileOrphans) :: Sample.succeed 2 4

/-- The container that a thread is about to ask for, if it is the orphan sweep. -/
def asked (job : Job) : Option DockerId :=
  match job.role, job.rest with
  | .sweep .reconcileOrphans, .call (.containerGet id) _ => some id
  | _, _ => none

theorem asked_eq_some {job : Job} {id : DockerId} (asks : asked job = some id) :
    job.role = .sweep .reconcileOrphans ∧
      ∃ resume, job.rest = .call (.containerGet id) resume := by
  unfold asked at asks
  split at asks
  · rename_i other resume sweep rest
    cases asks
    exact ⟨sweep, resume, rest⟩
  · cases asks

theorem spent_of_secondThoughts :
    ∃ (config : System) (job : Job), job ∈ config.threads ∧
      Spent Compose.shipped config.state job.trace (.container 1) := by
  have shown : ((System.initial true).run (machine Compose.shipped) (fun _ _ => True)
      secondThoughts).map (fun config => ((config.threads[2]?).bind asked,
        config.state.docker.has (.container 1))) = some (some 1, true) := by
    decide +kernel
  obtain ⟨config, run, seen⟩ := Run.exists_run shown
  obtain ⟨asks, has⟩ := Prod.mk.inj seen
  obtain ⟨job, found, asks⟩ := Option.bind_eq_some_iff.mp asks
  obtain ⟨sweep, resume, rest⟩ := asked_eq_some asks
  have member := List.mem_of_getElem? found
  exact ⟨config, job, member, spent_of_asked run member sweep rest rfl has⟩

end Grace

end Provisioner
