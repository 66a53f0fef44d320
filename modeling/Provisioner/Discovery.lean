import Provisioner.Attempts

/-!
# What the labels find

`find_labelled` groups two listings by label. Grouping neither loses nor repeats a
resource: the resources of the entries, each with the key of its entry, are exactly the
labelled resources that are old enough. As labels are ids of rows, everything that an
attempt has left behind is found under the id of its row.
-/

namespace Provisioner

open Resumption

/-- The resources of one entry of `find_labelled`. -/
def DockerManager.LabelledResources.resources (found : DockerManager.LabelledResources) :
    List Resource :=
  found.containerIds.map .container ++ found.networkIds.map .network

namespace Discovery

variable {label : String} {found : List (String × DockerManager.LabelledResources)}
  {change : DockerManager.LabelledResources → DockerManager.LabelledResources}
  {resource : Resource} {cutoff : Time}

/-- All resources of the entries, each with the key of its entry. -/
def pairs (found : List (String × DockerManager.LabelledResources)) :
    List (String × Resource) :=
  found.flatMap fun entry => entry.2.resources.map (Prod.mk entry.1)

/-- The pair that a listed resource gives rise to. -/
def reported (cutoff : Time) (label : Option String) (created : Time) (resource : Resource) :
    Option (String × Resource) :=
  match label with
  | none => none
  | some envId => if envId = "" ∨ cutoff < created then none else some (envId, resource)

/-- The pair of a container. -/
def reportedContainer (cutoff : Time) (container : Container) : Option (String × Resource) :=
  reported cutoff container.envLabel container.created (.container container.id)

/-- The pair of a network. -/
def reportedNetwork (cutoff : Time) (network : Network) : Option (String × Resource) :=
  reported cutoff network.envLabel network.created (.network network.id)

@[simp] theorem pairs_nil : pairs [] = [] := rfl

@[simp] theorem pairs_cons {entry : String × DockerManager.LabelledResources} :
    pairs (entry :: found) = entry.2.resources.map (Prod.mk entry.1) ++ pairs found := rfl

/-! ## Grouping -/

/-- Adding a resource to the entry of a label adds one pair. -/
theorem pairs_addResource
    (adds : ∀ resources : DockerManager.LabelledResources,
      (change resources).resources.Perm (resource :: resources.resources)) :
    (pairs (DockerManager.addResource label change found)).Perm
      ((label, resource) :: pairs found) := by
  induction found with
  | nil =>
      unfold DockerManager.addResource
      rw [pairs_cons, pairs_nil, List.append_nil]
      exact (adds {}).map (Prod.mk label)
  | cons entry found inductionHypothesis =>
      obtain ⟨key, resources⟩ := entry
      unfold DockerManager.addResource
      split
      · rename_i same
        rw [pairs_cons, pairs_cons, ← same]
        exact ((adds resources).map (Prod.mk key)).append_right _
      · rw [pairs_cons, pairs_cons]
        refine (inductionHypothesis.append_left _).trans ?_
        exact List.perm_middle

/-- The keys stay distinct. -/
theorem nodup_addResource (distinct : (found.map Prod.fst).Nodup) :
    ((DockerManager.addResource label change found).map Prod.fst).Nodup ∧
      ∀ key ∈ (DockerManager.addResource label change found).map Prod.fst,
        key = label ∨ key ∈ found.map Prod.fst := by
  induction found with
  | nil => simp [DockerManager.addResource]
  | cons entry found inductionHypothesis =>
      obtain ⟨key, resources⟩ := entry
      rw [List.map_cons, List.nodup_cons] at distinct
      obtain ⟨rest, among⟩ := inductionHypothesis distinct.2
      unfold DockerManager.addResource
      split
      · refine ⟨?_, fun other present => .inr present⟩
        rw [List.map_cons, List.nodup_cons]
        exact distinct
      · rename_i different
        refine ⟨?_, fun other present => ?_⟩
        · rw [List.map_cons, List.nodup_cons]
          refine ⟨fun present => ?_, rest⟩
          rcases among key present with same | old
          · exact different same
          · exact distinct.1 old
        · rcases List.mem_cons.mp present with rfl | later
          · exact .inr List.mem_cons_self
          · exact (among other later).imp_right (List.mem_cons_of_mem _)

/-- No entry is without a resource. -/
def Filled (found : List (String × DockerManager.LabelledResources)) : Prop :=
  ∀ entry ∈ found, entry.2.resources ≠ []

theorem filled_addResource
    (adds : ∀ resources : DockerManager.LabelledResources,
      (change resources).resources.Perm (resource :: resources.resources))
    (filled : Filled found) : Filled (DockerManager.addResource label change found) := by
  have changed : ∀ resources, (change resources).resources ≠ [] := by
    intro resources empty
    have length := (adds resources).length_eq
    rw [empty] at length
    cases length
  induction found with
  | nil =>
      intro entry present
      rw [List.mem_singleton.mp present]
      exact changed _
  | cons entry found inductionHypothesis =>
      obtain ⟨key, resources⟩ := entry
      obtain ⟨first, rest⟩ := List.forall_mem_cons.mp filled
      unfold DockerManager.addResource
      split
      · exact List.forall_mem_cons.mpr ⟨changed resources, rest⟩
      · exact List.forall_mem_cons.mpr ⟨first, inductionHypothesis rest⟩

/-- What grouping keeps: distinct keys, filled entries, and exactly these pairs. -/
structure Groups (found : List (String × DockerManager.LabelledResources))
    (listed : List (String × Resource)) : Prop where
  distinct : (found.map Prod.fst).Nodup
  filled : Filled found
  pairs : (pairs found).Perm listed

/-- Grouping one more resource adds its pair, if it has one. -/
theorem Groups.group {listed : List (String × Resource)} {other : Option String}
    {created : Time}
    (adds : ∀ resources : DockerManager.LabelledResources,
      (change resources).resources.Perm (resource :: resources.resources))
    (groups : Groups found listed) :
    Groups (DockerManager.group other created cutoff change found)
      (listed ++ (reported cutoff other created resource).toList) := by
  unfold DockerManager.group reported
  cases other with
  | none =>
      dsimp only
      rw [Option.toList_none, List.append_nil]
      exact groups
  | some envId =>
      dsimp only
      split
      · rw [Option.toList_none, List.append_nil]
        exact groups
      · refine ⟨(nodup_addResource groups.distinct).1, filled_addResource adds groups.filled, ?_⟩
        refine (pairs_addResource adds).trans ((groups.pairs.cons _).trans ?_)
        exact (List.perm_append_singleton _ _).symm

/-- Grouping a whole listing adds the pairs of its items. -/
theorem Groups.foldl {ρ : Type} {listed : List (String × Resource)}
    {step : List (String × DockerManager.LabelledResources) → ρ →
      List (String × DockerManager.LabelledResources)}
    (pair : ρ → Option (String × Resource))
    (keeps : ∀ found listed item, Groups found listed →
      Groups (step found item) (listed ++ (pair item).toList))
    (groups : Groups found listed) (items : List ρ) :
    Groups (items.foldl step found) (listed ++ items.filterMap pair) := by
  induction items generalizing found listed with
  | nil =>
      rw [List.filterMap_nil, List.append_nil]
      exact groups
  | cons item items inductionHypothesis =>
      have rest := inductionHypothesis (keeps found listed item groups)
      rw [List.append_assoc] at rest
      cases paired : pair item with
      | none =>
          rw [List.filterMap_cons_none paired]
          rw [paired, Option.toList_none, List.nil_append] at rest
          exact rest
      | some pair =>
          rw [List.filterMap_cons_some paired]
          rw [paired, Option.toList_some] at rest
          exact rest

/-- `find_labelled` reports exactly the labelled resources that are old enough. -/
theorem groups_grouped (cutoff : Time) (containers : List Container) (networks : List Network) :
    Groups (DockerManager.grouped cutoff containers networks)
      (containers.filterMap (reportedContainer cutoff) ++
        networks.filterMap (reportedNetwork cutoff)) := by
  have none : Groups [] [] := by
    refine ⟨List.nodup_nil, ?_, .refl _⟩
    intro entry present
    cases present
  unfold DockerManager.grouped
  refine Groups.foldl (reportedNetwork cutoff) (fun found listed network groups => ?_)
    (none.foldl (reportedContainer cutoff) (fun found listed container groups => ?_) containers)
    networks
  · refine groups.group fun resources => ?_
    unfold DockerManager.LabelledResources.resources
    dsimp only
    rw [List.map_append, ← List.append_assoc, List.map_singleton]
    exact List.perm_append_singleton _ _
  · refine groups.group fun resources => ?_
    unfold DockerManager.LabelledResources.resources
    dsimp only
    rw [List.map_append, List.append_assoc]
    exact List.perm_middle

/-- The resources of an entry are found under its key. -/
theorem mem_pairs {entry : String × DockerManager.LabelledResources}
    (present : entry ∈ found) :
    resource ∈ entry.2.resources → (entry.1, resource) ∈ pairs found := fun listed =>
  List.mem_flatMap.mpr ⟨entry, present, List.mem_map_of_mem listed⟩

theorem snd_pairs (found : List (String × DockerManager.LabelledResources)) :
    (pairs found).map Prod.snd = found.flatMap fun entry => entry.2.resources := by
  induction found with
  | nil => rfl
  | cons entry found inductionHypothesis =>
      rw [pairs_cons, List.map_append, List.map_map, inductionHypothesis, List.flatMap_cons]
      have same : Prod.snd ∘ Prod.mk entry.1 = (id : Resource → Resource) := rfl
      rw [same, List.map_id]

end Discovery

/-- When a container or a network was created. -/
def Daemon.created (daemon : Daemon) : Resource → Option Time
  | .container id => (daemon.containers.find id).map Container.created
  | .network id => (daemon.networks.find id).map Network.created

/-- A resource exists with this label and was created by the cutoff. -/
def Daemon.Shows (daemon : Daemon) (cutoff : Time) (label : String) (resource : Resource) : Prop :=
  label ≠ "" ∧ daemon.label resource = some label ∧
    ∃ created, daemon.created resource = some created ∧ created ≤ cutoff

namespace Discovery

variable {daemon : Daemon} {containers : List Container} {networks : List Network}

theorem reported_eq_some {cutoff created : Time} {label : Option String} {key : String}
    {resource shown : Resource} :
    reported cutoff label created resource = some (key, shown) ↔
      label = some key ∧ key ≠ "" ∧ created ≤ cutoff ∧ resource = shown := by
  unfold reported
  cases label with
  | none => simp
  | some envId =>
      dsimp only
      split
      · rename_i skipped
        refine ⟨nofun, ?_⟩
        rintro ⟨same, named, old, -⟩
        cases same
        exact (skipped.elim named (not_lt.mpr old)).elim
      · rename_i kept
        obtain ⟨named, old⟩ := not_or.mp kept
        constructor
        · intro same
          cases same
          exact ⟨rfl, named, not_lt.mp old, rfl⟩
        · rintro ⟨same, -, -, rfl⟩
          cases same
          rfl

theorem shows_container {id : DockerId} :
    daemon.Shows cutoff label (.container id) ↔ ∃ container ∈ daemon.containers.rows,
      container.id = id ∧ container.envLabel = some label ∧ label ≠ "" ∧
        container.created ≤ cutoff := by
  unfold Daemon.Shows Daemon.label Daemon.created
  dsimp only
  constructor
  · rintro ⟨named, labelled, created, dated, old⟩
    obtain ⟨container, found, labelled⟩ := Option.bind_eq_some_iff.mp labelled
    rw [found] at dated
    cases dated
    obtain ⟨present, same⟩ := Keyed.Table.find_eq_some_iff.mp found
    exact ⟨container, present, same, labelled, named, old⟩
  · rintro ⟨container, present, rfl, labelled, named, old⟩
    rw [Keyed.Table.find_of_mem present]
    exact ⟨named, labelled, container.created, rfl, old⟩

theorem shows_network {id : DockerId} :
    daemon.Shows cutoff label (.network id) ↔ ∃ network ∈ daemon.networks.rows,
      network.id = id ∧ network.envLabel = some label ∧ label ≠ "" ∧
        network.created ≤ cutoff := by
  unfold Daemon.Shows Daemon.label Daemon.created
  dsimp only
  constructor
  · rintro ⟨named, labelled, created, dated, old⟩
    obtain ⟨network, found, labelled⟩ := Option.bind_eq_some_iff.mp labelled
    rw [found] at dated
    cases dated
    obtain ⟨present, same⟩ := Keyed.Table.find_eq_some_iff.mp found
    exact ⟨network, present, same, labelled, named, old⟩
  · rintro ⟨network, present, rfl, labelled, named, old⟩
    rw [Keyed.Table.find_of_mem present]
    exact ⟨named, labelled, network.created, rfl, old⟩

/-- A container is reported exactly when the daemon shows it. -/
theorem mem_reportedContainers
    (listed : containers.Perm (daemon.containers.rows.filter fun row => row.envLabel.isSome)) :
    (label, resource) ∈ containers.filterMap (reportedContainer cutoff) ↔
      ∃ id, resource = .container id ∧ daemon.Shows cutoff label (.container id) := by
  rw [List.mem_filterMap]
  constructor
  · rintro ⟨container, present, paired⟩
    obtain ⟨labelled, named, old, rfl⟩ := reported_eq_some.mp paired
    exact ⟨_, rfl, shows_container.mpr ⟨container,
      List.mem_of_mem_filter (listed.mem_iff.mp present), rfl, labelled, named, old⟩⟩
  · rintro ⟨id, rfl, shows⟩
    obtain ⟨container, present, rfl, labelled, named, old⟩ := shows_container.mp shows
    refine ⟨container, listed.mem_iff.mpr (List.mem_filter.mpr ⟨present, ?_⟩),
      reported_eq_some.mpr ⟨labelled, named, old, rfl⟩⟩
    rw [labelled]
    rfl

/-- So is a network. -/
theorem mem_reportedNetworks
    (listed : networks.Perm (daemon.networks.rows.filter fun row => row.envLabel.isSome)) :
    (label, resource) ∈ networks.filterMap (reportedNetwork cutoff) ↔
      ∃ id, resource = .network id ∧ daemon.Shows cutoff label (.network id) := by
  rw [List.mem_filterMap]
  constructor
  · rintro ⟨network, present, paired⟩
    obtain ⟨labelled, named, old, rfl⟩ := reported_eq_some.mp paired
    exact ⟨_, rfl, shows_network.mpr ⟨network,
      List.mem_of_mem_filter (listed.mem_iff.mp present), rfl, labelled, named, old⟩⟩
  · rintro ⟨id, rfl, shows⟩
    obtain ⟨network, present, rfl, labelled, named, old⟩ := shows_network.mp shows
    refine ⟨network, listed.mem_iff.mpr (List.mem_filter.mpr ⟨present, ?_⟩),
      reported_eq_some.mpr ⟨labelled, named, old, rfl⟩⟩
    rw [labelled]
    rfl

/-- No resource of a listing is reported twice. -/
theorem nodup_reported {ρ : Type} {key : ρ → DockerId} {label : ρ → Option String}
    {created : ρ → Time} {resource : ρ → Resource} {items : List ρ}
    (distinct : (items.map key).Nodup)
    (named : ∀ item other, resource item = resource other → key item = key other) :
    ((items.filterMap fun item =>
      reported cutoff (label item) (created item) (resource item)).map Prod.snd).Nodup := by
  rw [List.map_filterMap]
  have apart : items.Pairwise fun item other => key item ≠ key other :=
    List.pairwise_map.mp distinct
  refine apart.filterMap _ ?_
  intro item other different first one second two same
  obtain ⟨⟨label', shown⟩, paired, rfl⟩ := Option.map_eq_some_iff.mp one
  obtain ⟨⟨label'', shown'⟩, paired', rfl⟩ := Option.map_eq_some_iff.mp two
  obtain ⟨-, -, -, rfl⟩ := reported_eq_some.mp paired
  obtain ⟨-, -, -, rfl⟩ := reported_eq_some.mp paired'
  exact different (named item other same)

/-- What is found in a daemon: every resource that it shows, once, under its label. -/
structure Finds (daemon : Daemon) (cutoff : Time)
    (found : List (String × DockerManager.LabelledResources)) : Prop where
  distinct : (found.map Prod.fst).Nodup
  filled : Filled found
  shown : ∀ label resource, (label, resource) ∈ pairs found ↔ daemon.Shows cutoff label resource
  once : (found.flatMap fun entry => entry.2.resources).Nodup

/-- Grouping the listings of a daemon finds what it shows. -/
theorem finds_grouped
    (container : containers.Perm
      (daemon.containers.rows.filter fun row => row.envLabel.isSome))
    (network : networks.Perm (daemon.networks.rows.filter fun row => row.envLabel.isSome)) :
    Finds daemon cutoff (DockerManager.grouped cutoff containers networks) := by
  have groups := groups_grouped cutoff containers networks
  refine ⟨groups.distinct, groups.filled, fun label resource => ?_, ?_⟩
  · rw [groups.pairs.mem_iff, List.mem_append, mem_reportedContainers container,
      mem_reportedNetworks network]
    constructor
    · rintro (⟨id, rfl, shows⟩ | ⟨id, rfl, shows⟩)
      · exact shows
      · exact shows
    · intro shows
      cases resource with
      | container id => exact .inl ⟨id, rfl, shows⟩
      | network id => exact .inr ⟨id, rfl, shows⟩
  · rw [← snd_pairs, (groups.pairs.map Prod.snd).nodup_iff, List.map_append, List.nodup_append']
    have containers' : (containers.map Container.id).Nodup :=
      (container.map _).nodup_iff.mpr
        (daemon.containers.nodup.sublist (List.filter_sublist.map _))
    have networks' : (networks.map Network.id).Nodup :=
      (network.map _).nodup_iff.mpr
        (daemon.networks.nodup.sublist (List.filter_sublist.map _))
    refine ⟨nodup_reported containers' fun _ _ same => Resource.container.inj same,
      nodup_reported networks' fun _ _ same => Resource.network.inj same, ?_⟩
    · intro resource first second
      obtain ⟨⟨label, shown⟩, one, rfl⟩ := List.mem_map.mp first
      obtain ⟨⟨label', shown'⟩, two, same⟩ := List.mem_map.mp second
      obtain ⟨id, rfl, -⟩ := (mem_reportedContainers container).mp one
      obtain ⟨id', rfl, -⟩ := (mem_reportedNetworks network).mp two
      cases same

/-- `find_labelled` with services that do not fail. -/
theorem findLabelled_meets {deployment : Deployment} {world : World} (minAge : Int) :
    (DockerManager.findLabelled minAge).Meets (lone deployment Reliable)
      (fun reached result => reached = world ∧ ∃ found, result = .ok found ∧
        Finds world.docker (world.clock - seconds minAge) found) world := by
  unfold DockerManager.findLabelled
  refine Program.meets_bind.mpr (Alone.reliable_meets rfl fun now afterNow effect => ?_)
  cases effect with
  | read _ _ reads =>
  have current : now = world.clock := reads
  subst current
  refine Program.meets_bind.mpr (Alone.reliable_meets rfl fun containers afterList effect => ?_)
  cases effect with
  | read _ _ container =>
  refine Program.meets_bind.mpr (Alone.reliable_meets rfl fun networks afterList effect => ?_)
  cases effect with
  | read _ _ network => exact ⟨rfl, _, rfl, finds_grouped container network⟩

/-! ## What attempts leave behind -/

variable {deployment : Deployment} {refuses : Bool} {config : System} {id : Uuid}

/-- In this step a provision attempt for the environment creates the resource. -/
structure Creates (config : System) (event : Occurrence) (after : System) (resource : Resource)
    (id : Uuid) : Prop where
  attempt : ∃ message request job, config.turn event = some (job, request) ∧
    job.role = .task message ∧ message.task = .provision ∧ Uuid.parse message.envId = some id
  absent : ¬config.state.docker.has resource = true
  created : after.state.docker.has resource = true

/-- The resource was created, at some time before, for the row with this id. -/
def MadeFor (deployment : Deployment) (refuses : Bool) (config : System) (resource : Resource)
    (id : Uuid) : Prop :=
  ∃ before event after, Reachable (machine deployment) (System.initial refuses) before ∧
    Step (machine deployment) before event after ∧ Creates before event after resource id ∧
    Reachable (machine deployment) after config

/-- The label of a created resource is the id that it was created for. -/
theorem label_of_creates {before after : System} {event : Occurrence}
    (run : Reachable (machine deployment) (System.initial refuses) before)
    (stepped : Step (machine deployment) before event after)
    (creates : Creates before event after resource id) :
    after.state.docker.label resource = some id.str := by
  obtain ⟨message, request, job, turn, role, task, parsed⟩ := creates.attempt
  cases stepped with
  | ambient action state acted => cases turn
  | spawn action state role acted => cases turn
  | kill index job found alive => cases turn
  | call index other request' resume choice reply state found alive rest executed =>
      rw [Config.turn_advance found rest] at turn
      cases turn
      have member := List.mem_of_getElem? found
      obtain ⟨-, id', target, labelled⟩ := Attempts.label_of_created
        (Attempts.onTarget_of_runs run job member) (System.Runs.permits run member rest)
        (World.exec_effect executed) creates.absent creates.created
      have own : Uuid.parse message.envId = some id' := by
        rw [Job.role_phase, role] at target
        exact target
      rw [parsed] at own
      cases own
      exact labelled

/-- A resource that was created keeps its label from then on. -/
theorem label_before {after : System}
    (run : Reachable (machine deployment) (System.initial refuses) after)
    (later : Reachable (machine deployment) after config)
    (created : after.state.docker.has resource = true) :
    resource.Issued config.state.docker ∧
      ∀ label, config.state.docker.label resource = some label →
        after.state.docker.label resource = some label := by
  induction later with
  | refl => exact ⟨Teardown.issued_of_has created, fun _ labelled => labelled⟩
  | next ran _ stepped inductionHypothesis =>
      obtain ⟨issued, kept⟩ := inductionHypothesis
      cases stepped with
      | ambient action state acted =>
          have docker := (surrounds_of_eq acted).unchanged.2.1
          dsimp only
          rw [docker]
          exact ⟨issued, kept⟩
      | spawn action state role acted =>
          have docker := (surrounds_of_eq acted).unchanged.2.1
          unfold Config.spawn
          dsimp only
          rw [docker]
          exact ⟨issued, kept⟩
      | kill index job found alive => exact ⟨issued, kept⟩
      | call index job request resume choice reply state found alive rest executed =>
          have effect := World.exec_effect executed
          have permits := System.Runs.permits (run.trans ran) (List.mem_of_getElem? found) rest
          refine ⟨Nat.lt_of_lt_of_le issued (Integrity.grows_of_effect permits effect).nextId,
            fun label labelled => kept label ?_⟩
          exact Attempts.label_of_effect issued effect labelled

/-- An existing resource carries the id of a row, and was not created in the future. -/
theorem labelled_of_integrity {world : World}
    (integrity : world.Integrity deployment)
    (has : world.docker.has resource = true) :
    ∃ row ∈ world.db.rows, world.docker.label resource = some row.id.str ∧
      ∃ created, world.docker.created resource = some created ∧ created ≤ world.clock := by
  unfold Daemon.label Daemon.created
  cases resource with
  | container id =>
      obtain ⟨container, found⟩ := Option.isSome_iff_exists.mp has
      obtain ⟨past, row, member, template, spec, -, -, labelled, -⟩ :=
        integrity.containers container (Keyed.Table.mem_of_find found)
      dsimp only
      rw [found]
      exact ⟨row, member, labelled, container.created, rfl, past⟩
  | network id =>
      obtain ⟨network, found⟩ := Option.isSome_iff_exists.mp has
      obtain ⟨past, row, member, labelled, -⟩ :=
        integrity.networks network (Keyed.Table.mem_of_find found)
      dsimp only
      rw [found]
      exact ⟨row, member, labelled, network.created, rfl, past⟩

/-- A resource that was created for an environment and still exists carries its id, and
the environment has a row. -/
theorem label_of_madeFor
    (made : MadeFor deployment refuses config resource id)
    (has : config.state.docker.has resource = true) :
    config.state.docker.label resource = some id.str ∧
      ∃ row ∈ config.state.db.rows, row.id = id := by
  obtain ⟨before, event, after, run, stepped, creates, later⟩ := made
  have first := run.next trivial stepped
  obtain ⟨row, member, labelled, -⟩ :=
    labelled_of_integrity (Integrity.of_runs (first.trans later)).1 has
  have old := (label_before first later creates.created).2 _ labelled
  rw [label_of_creates run stepped creates] at old
  have same : id = row.id := Uuid.str_injective (Option.some.inj old)
  rw [same]
  exact ⟨labelled, row, member, rfl⟩

/-- Every existing resource was created for some environment. -/
theorem exists_madeFor
    (run : Reachable (machine deployment) (System.initial refuses) config)
    (has : config.state.docker.has resource = true) :
    ∃ id, MadeFor deployment refuses config resource id := by
  induction run with
  | refl => cases resource <;> cases has
  | next ran permitted stepped inductionHypothesis =>
      rename_i before after event
      have further : before.state.docker.has resource = true →
          ∃ id, MadeFor deployment refuses after resource id := by
        intro old
        obtain ⟨id, first, event', middle, run, step, creates, later⟩ := inductionHypothesis old
        exact ⟨id, first, event', middle, run, step, creates, later.next trivial stepped⟩
      have whole := stepped
      cases stepped with
      | ambient action state acted =>
          refine further ?_
          rw [← (surrounds_of_eq acted).unchanged.2.1]
          exact has
      | spawn action state role acted =>
          refine further ?_
          rw [← (surrounds_of_eq acted).unchanged.2.1]
          exact has
      | kill index job found alive => exact further has
      | call index job request resume choice reply state found alive rest executed =>
          by_cases old : before.state.docker.has resource = true
          · exact further old
          · have member := List.mem_of_getElem? found
            obtain ⟨attempt, id, target, -⟩ := Attempts.label_of_created
              (Attempts.onTarget_of_runs ran job member)
              (System.Runs.permits ran member rest) (World.exec_effect executed) old has
            rw [Job.role_phase] at attempt target
            refine ⟨id, before, _, _, ran, whole, ⟨?_, old, has⟩, .refl⟩
            cases role : job.role with
            | task message =>
                rw [role] at attempt target
                exact ⟨message, request, job, Config.turn_advance found rest, role, attempt,
                  target⟩
            | request other =>
                rw [role] at attempt
                exact attempt.elim
            | sweep sweep =>
                rw [role] at attempt
                exact attempt.elim

/-- Everything created and still existing is found, once and under the id of its row;
and what is found under the id of an environment was created for it. -/
structure Discovers (deployment : Deployment) (refuses : Bool) (config : System)
    (found : List (String × DockerManager.LabelledResources)) : Prop where
  distinct : (found.map Prod.fst).Nodup
  complete : ∀ resource id, MadeFor deployment refuses config resource id →
    config.state.docker.has resource = true →
    (found.flatMap fun entry => entry.2.resources).count resource = 1 ∧
      (∃ entry ∈ found, entry.1 = id.str ∧ resource ∈ entry.2.resources) ∧
      (Worker.loadEnv id.str).Meets (lone deployment Reliable) (fun reached result =>
        reached = config.state ∧ ∃ row, result = .ok (some row) ∧ row.id = id) config.state
  exact : ∀ entry ∈ found, ∀ id : Uuid, entry.1 = id.str → ∀ resource ∈ entry.2.resources,
    MadeFor deployment refuses config resource id ∧ config.state.docker.has resource = true

/-- Querying the text of an identifier finds its row. -/
theorem loadEnv_meets {world : World} {row : Environment} (member : row ∈ world.db.rows) :
    (Worker.loadEnv row.id.str).Meets (lone deployment Reliable) (fun reached result =>
      reached = world ∧ ∃ found, result = .ok (some found) ∧ found.id = row.id) world := by
  rw [Worker.loadEnv_of_parse (Uuid.parse_str row.id)]
  refine Alone.reliable_meets rfl fun found next effect => ?_
  cases effect with
  | read _ _ reads =>
      have same : found = world.db.find row.id := reads
      rw [same, Keyed.Table.find_of_mem member]
      exact ⟨rfl, row, rfl, rfl⟩

/-- In every state of every run the labels find exactly what the attempts have left. -/
theorem discovery_exact
    (run : Reachable (machine deployment) (System.initial refuses) config) :
    (DockerManager.findLabelled 0).Meets (lone deployment Reliable)
      (fun reached result => reached = config.state ∧ ∃ found, result = .ok found ∧
        Discovers deployment refuses config found) config.state := by
  refine (findLabelled_meets 0).mono ?_
  rintro reached result ⟨rfl, found, rfl, finds⟩
  refine ⟨rfl, found, rfl, finds.distinct, fun resource id made has => ?_,
    fun entry present id key resource listed => ?_⟩
  · obtain ⟨labelled, row, member, rfl⟩ := label_of_madeFor made has
    obtain ⟨-, -, -, created, dated, past⟩ :=
      labelled_of_integrity (Integrity.of_runs run).1 has
    have shows : (row.id.str, resource) ∈ pairs found := by
      refine (finds.shown _ _).mpr ⟨Uuid.str_ne_empty row.id, labelled, created, dated, ?_⟩
      have none : seconds 0 = 0 := rfl
      rw [none, Int.sub_zero]
      exact past
    obtain ⟨entry, present, paired⟩ := List.mem_flatMap.mp shows
    obtain ⟨other, inside, same⟩ := List.mem_map.mp paired
    rw [Prod.mk.injEq] at same
    obtain ⟨key, rfl⟩ := same
    refine ⟨?_, ⟨entry, present, key, inside⟩, loadEnv_meets member⟩
    exact List.count_eq_one_of_mem finds.once (List.mem_flatMap.mpr ⟨entry, present, inside⟩)
  · obtain ⟨-, labelled, -⟩ := (finds.shown _ _).mp (mem_pairs present listed)
    have has : config.state.docker.has resource = true := by
      unfold Daemon.label at labelled
      cases resource with
      | container id =>
          obtain ⟨container, found, -⟩ := Option.bind_eq_some_iff.mp labelled
          exact Option.isSome_iff_exists.mpr ⟨container, found⟩
      | network id =>
          obtain ⟨network, found, -⟩ := Option.bind_eq_some_iff.mp labelled
          exact Option.isSome_iff_exists.mpr ⟨network, found⟩
    obtain ⟨made, madeFor⟩ := exists_madeFor run has
    obtain ⟨own, -⟩ := label_of_madeFor madeFor has
    rw [own, key] at labelled
    have same : made = id := Uuid.str_injective (Option.some.inj labelled)
    exact ⟨same ▸ madeFor, has⟩

/-- A first attempt whose first container is created and then fails to start. -/
def failedStart : List Occurrence :=
  Sample.create 0 1 ++ Sample.deliver ++ Sample.succeed 1 5 ++
    [.advance 1 (.failAfter ⟨.apiError, "server error"⟩)]

/-- The rule on a network and a container that no row records. -/
theorem discovery_exact_of_failedStart :
    ∃ config, Reachable (machine Compose.shipped) (System.initial true) config ∧
      config.state.docker.has (.container 1) = true ∧
      (config.state.db.rows.flatMap Environment.recorded) = [] ∧
      (DockerManager.findLabelled 0).Meets (lone Compose.shipped Reliable)
        (fun reached result => reached = config.state ∧ ∃ found, result = .ok found ∧
          Discovers Compose.shipped true config found) config.state := by
  have shown : ((System.initial true).run (machine Compose.shipped) (fun _ _ => True)
      failedStart).map (fun config => (config.state.docker.has (.container 1),
        config.state.db.rows.flatMap Environment.recorded)) = some (true, []) := by
    decide +kernel
  obtain ⟨config, run, seen⟩ := Run.exists_run shown
  rw [Prod.mk.injEq] at seen
  exact ⟨config, run, seen.1, seen.2, discovery_exact run⟩

end Discovery

end Provisioner
