import Provisioner.Sweeps
import Provisioner.Discovery
import Provisioner.Calls

/-!
# What the orphan sweep removes

One run of `reconcile_orphans` on any table and any daemon whose containers are attached
only to networks of their own label. A label condemns its resources when it parses as an
identifier whose row is missing or terminal; the sweep removes the condemned containers
that are old enough, and those condemned networks that no surviving container uses.
-/

namespace Provisioner

open Resumption

namespace Orphans

variable {deployment : Deployment} {world middle reached last : World}
  {found : List (String × DockerManager.LabelledResources)} {cutoff : Time} {label : String}

/-- The label parses as an identifier that names no row or a terminal one. -/
def Orphaned (db : Environments) (label : String) : Prop :=
  ∃ id, Uuid.parse label = some id ∧ (db.find id).all (fun env => env.status.terminal) = true

/-- The resource is old enough, and its label is orphaned. -/
def Condemned (world : World) (cutoff : Time) (resource : Resource) : Prop :=
  ∃ label, world.docker.Shows cutoff label resource ∧ Orphaned world.db label

/-- Containers are attached only to networks of their own label. -/
def OwnNetworks (daemon : Daemon) : Prop :=
  ∀ container ∈ daemon.containers.rows, ∀ network ∈ daemon.networks.rows,
    container.network = some network.id → network.envLabel = container.envLabel

instance (daemon : Daemon) : Decidable (OwnNetworks daemon) :=
  inferInstanceAs (Decidable (∀ container ∈ _, ∀ network ∈ _, _ → _))

/-- The entries list resources under their own labels only. -/
def Labelled (found : List (String × DockerManager.LabelledResources)) (daemon : Daemon) :
    Prop :=
  ∀ entry ∈ found,
    (∀ container ∈ daemon.containers.rows, container.id ∈ entry.2.containerIds →
      container.envLabel = some entry.1) ∧
    ∀ network ∈ daemon.networks.rows, network.id ∈ entry.2.networkIds →
      network.envLabel = some entry.1

/-- A daemon with no other resources. -/
structure Within (daemon daemon' : Daemon) : Prop where
  containers : ∀ container ∈ daemon'.containers.rows, container ∈ daemon.containers.rows
  networks : ∀ network ∈ daemon'.networks.rows, network ∈ daemon.networks.rows

theorem Within.ownNetworks {daemon daemon' : Daemon} (within : Within daemon daemon')
    (own : OwnNetworks daemon) : OwnNetworks daemon' :=
  fun container present network member =>
    own container (within.containers container present) network (within.networks network member)

theorem Within.labelled {daemon daemon' : Daemon} (within : Within daemon daemon')
    (labelled : Labelled found daemon) : Labelled found daemon' := by
  intro entry present
  obtain ⟨containers, networks⟩ := labelled entry present
  exact ⟨fun container member => containers container (within.containers container member),
    fun network member => networks network (within.networks network member)⟩

/-- An entry condemns an id. -/
def Condemns (db : Environments) (found : List (String × DockerManager.LabelledResources))
    (field : DockerManager.LabelledResources → List DockerId) (id : DockerId) : Prop :=
  ∃ entry ∈ found, Orphaned db entry.1 ∧ id ∈ field entry.2

/-- The world after the sweep has dealt with the entries. -/
structure Purged (found : List (String × DockerManager.LabelledResources))
    (world reached : World) : Prop where
  db : reached.db = world.db
  containers : ∀ container, container ∈ reached.docker.containers.rows ↔
    container ∈ world.docker.containers.rows ∧
      ¬Condemns world.db found DockerManager.LabelledResources.containerIds container.id
  networks : ∀ network, network ∈ reached.docker.networks.rows ↔
    network ∈ world.docker.networks.rows ∧
      (Condemns world.db found DockerManager.LabelledResources.networkIds network.id →
        reached.docker.attached network.id = true)

/-- An entry that is not orphaned condemns nothing. -/
theorem condemns_cons {db : Environments} {entry : String × DockerManager.LabelledResources}
    {field : DockerManager.LabelledResources → List DockerId} {id : DockerId} :
    Condemns db (entry :: found) field id ↔
      (Orphaned db entry.1 ∧ id ∈ field entry.2) ∨ Condemns db found field id := by
  unfold Condemns
  constructor
  · rintro ⟨other, present, orphaned, listed⟩
    rcases List.mem_cons.mp present with rfl | later
    · exact .inl ⟨orphaned, listed⟩
    · exact .inr ⟨other, later, orphaned, listed⟩
  · rintro (⟨orphaned, listed⟩ | ⟨other, present, orphaned, listed⟩)
    · exact ⟨entry, List.mem_cons_self, orphaned, listed⟩
    · exact ⟨other, List.mem_cons_of_mem _ present, orphaned, listed⟩

/-- A label that is not orphaned is skipped. -/
theorem Purged.skip {entry : String × DockerManager.LabelledResources}
    (kept : ¬Orphaned world.db entry.1)
    (purged : Purged found world reached) : Purged (entry :: found) world reached := by
  refine ⟨purged.db, fun container => ?_, fun network => ?_⟩
  · rw [purged.containers, condemns_cons, or_iff_right fun both => kept both.1]
  · rw [purged.networks, condemns_cons, or_iff_right fun both => kept both.1]

/-- Some container that survives uses the network. -/
theorem attached_iff {daemon : Daemon} {id : DockerId} :
    daemon.attached id = true ↔
      ∃ container ∈ daemon.containers.rows, container.network = some id := by
  unfold Daemon.attached
  rw [List.any_eq_true]
  exact exists_congr fun container => and_congr_right fun _ => decide_eq_true_iff

/-- Once the containers and the networks of an orphaned label are dealt with, the rest
of the sweep leaves the users of these networks alone, as they carry the same label. -/
theorem Purged.cons {removed detached : World}
    {entry : String × DockerManager.LabelledResources}
    (orphaned : Orphaned world.db entry.1)
    (distinct : ((entry :: found).map Prod.fst).Nodup)
    (labelled : Labelled (entry :: found) world.docker)
    (own : OwnNetworks world.docker)
    (first : Sweeps.Removed entry.2.containerIds world removed)
    (second : Sweeps.Detached entry.2.networkIds removed detached)
    (purged : Purged found detached reached) : Purged (entry :: found) world reached := by
  have rows : detached.db = world.db := second.db.trans first.db
  have containers : ∀ container, container ∈ reached.docker.containers.rows ↔
      container ∈ world.docker.containers.rows ∧
        ¬Condemns world.db (entry :: found) DockerManager.LabelledResources.containerIds
          container.id := by
    intro container
    rw [purged.containers, second.containers, first.containers, condemns_cons, rows, not_or,
      and_assoc]
    exact and_congr_right fun _ => and_congr_left fun _ =>
      (not_congr (and_iff_right orphaned)).symm
  refine ⟨purged.db.trans rows, containers, fun network => ?_⟩
  rw [purged.networks, second.networks, first.networks, condemns_cons, rows, or_imp, and_assoc]
  refine and_congr_right fun member => and_congr_left fun _ => ?_
  have users : network.id ∈ entry.2.networkIds →
      (removed.docker.attached network.id = true ↔
        reached.docker.attached network.id = true) := by
    intro listed
    rw [attached_iff, attached_iff]
    refine exists_congr fun container => and_congr_left fun attached => ?_
    rw [purged.containers, second.containers]
    refine ⟨fun present => ⟨present, ?_⟩, And.left⟩
    rintro ⟨other, later, -, inside⟩
    have survives := ((first.containers container).mp present).1
    have label := ((labelled entry List.mem_cons_self).2 network member listed)
    have label' := (labelled other (List.mem_cons_of_mem _ later)).1 container survives inside
    have same := own container survives network member attached
    rw [label, label'] at same
    rw [List.map_cons, List.nodup_cons] at distinct
    exact distinct.1 (Option.some.inj same ▸ List.mem_map_of_mem later)
  constructor
  · rintro used ⟨-, listed⟩
    exact (users listed).mp (used listed)
  · intro used listed
    exact (users listed).mpr (used ⟨orphaned, listed⟩)

theorem serves_reliable : Sweeps.Serves Reliable where
  ok _ _ := rfl
  safe _ _ _ allowed _ := allowed

/-- The loop of the sweep deals with every entry and counts each of them once. -/
theorem reconcileFound_meets
    (found : List (String × DockerManager.LabelledResources)) (removed skipped : Nat)
    (distinct : (found.map Prod.fst).Nodup)
    (labelled : Labelled found world.docker)
    (own : OwnNetworks world.docker) :
    (Worker.reconcileFound found removed skipped).Meets (lone deployment Reliable)
      (fun reached result => Purged found world reached ∧ ∃ removed' skipped',
        result = .ok (.reconciled removed' skipped') ∧
          removed' + skipped' = removed + skipped + found.length) world := by
  induction found generalizing world removed skipped with
  | nil =>
      refine ⟨⟨rfl, fun container => ?_, fun network => ?_⟩, removed, skipped, rfl, rfl⟩
      · exact (and_iff_left fun ⟨entry, present, _⟩ => nomatch present).symm
      · exact (and_iff_left fun ⟨entry, present, _⟩ => nomatch present).symm
  | cons entry found inductionHypothesis =>
      obtain ⟨label, resources⟩ := entry
      have rest : (found.map Prod.fst).Nodup := (List.nodup_cons.mp distinct).2
      have others : Labelled found world.docker :=
        fun entry later => labelled entry (List.mem_cons_of_mem _ later)
      unfold Worker.reconcileFound
      cases parsed : Uuid.parse label with
      | none =>
          refine (inductionHypothesis removed (skipped + 1) rest others own).mono ?_
          rintro reached result ⟨purged, removed', skipped', rfl, counted⟩
          refine ⟨purged.skip ?_, removed', skipped', rfl, ?_⟩
          · rintro ⟨id, named, -⟩
            rw [parsed] at named
            cases named
          · rw [List.length_cons]
            omega
      | some id =>
          refine Program.meets_bind.mpr (Alone.reliable_meets rfl fun row afterLoad effect => ?_)
          cases effect with
          | read _ _ reads =>
          have same : row = world.db.find id := reads
          subst same
          dsimp only
          split
          · rename_i terminal
            have orphaned : Orphaned world.db label := ⟨id, parsed, terminal⟩
            refine Program.meets_bind.mpr (Program.meets_bind.mpr
              ((Sweeps.removeContainers_meets serves_reliable resources.containerIds).mono ?_))
            rintro middle result ⟨rfl, first⟩
            refine (Sweeps.removeNetworks_meets serves_reliable resources.networkIds).mono ?_
            rintro detached result ⟨rfl, second⟩
            have within : Within world.docker detached.docker := by
              refine ⟨fun container present => ?_, fun network present => ?_⟩
              · rw [second.containers] at present
                exact ((first.containers container).mp present).1
              · rw [← first.networks]
                exact ((second.networks network).mp present).1
            refine (inductionHypothesis (removed + 1) skipped rest (within.labelled others)
              (within.ownNetworks own)).mono ?_
            rintro reached result ⟨purged, removed', skipped', rfl, counted⟩
            refine ⟨.cons orphaned distinct labelled own first second purged, removed',
              skipped', rfl, ?_⟩
            rw [List.length_cons]
            omega
          · rename_i kept
            refine (inductionHypothesis removed (skipped + 1) rest others own).mono ?_
            rintro reached result ⟨purged, removed', skipped', rfl, counted⟩
            refine ⟨purged.skip ?_, removed', skipped', rfl, ?_⟩
            · rintro ⟨other, named, terminal⟩
              rw [parsed] at named
              cases named
              exact kept terminal
            · rw [List.length_cons]
              omega

/-- What the entries list is what the daemon shows under their keys. -/
theorem labelled_of_finds {daemon : Daemon} (finds : Discovery.Finds daemon cutoff found) :
    Labelled found daemon := by
  intro entry present
  refine ⟨fun container member listed => ?_, fun network member listed => ?_⟩
  · have shows := (finds.shown entry.1 (.container container.id)).mp
      (Discovery.mem_pairs present (List.mem_append_left _ (List.mem_map_of_mem listed)))
    obtain ⟨other, inside, same, labelled, -⟩ := Discovery.shows_container.mp shows
    exact Keyed.Table.eq_of_key_eq inside member same ▸ labelled
  · have shows := (finds.shown entry.1 (.network network.id)).mp
      (Discovery.mem_pairs present (List.mem_append_right _ (List.mem_map_of_mem listed)))
    obtain ⟨other, inside, same, labelled, -⟩ := Discovery.shows_network.mp shows
    exact Keyed.Table.eq_of_key_eq inside member same ▸ labelled

/-- The entries condemn a container exactly when the world does. -/
theorem condemns_iff {resource : Resource}
    (finds : Discovery.Finds world.docker cutoff found) :
    (∃ entry ∈ found, Orphaned world.db entry.1 ∧ resource ∈ entry.2.resources) ↔
      Condemned world cutoff resource := by
  constructor
  · rintro ⟨entry, present, orphaned, listed⟩
    exact ⟨entry.1, (finds.shown _ _).mp (Discovery.mem_pairs present listed), orphaned⟩
  · rintro ⟨label, shows, orphaned⟩
    obtain ⟨entry, present, paired⟩ := List.mem_flatMap.mp ((finds.shown _ _).mpr shows)
    obtain ⟨other, inside, same⟩ := List.mem_map.mp paired
    rw [Prod.mk.injEq] at same
    obtain ⟨rfl, rfl⟩ := same
    exact ⟨entry, present, orphaned, inside⟩

/-- The distinct labels with a resource that is old enough. -/
def Labels (daemon : Daemon) (cutoff : Time) (labels : List String) : Prop :=
  labels.Nodup ∧ ∀ label, label ∈ labels ↔ ∃ resource, daemon.Shows cutoff label resource

theorem labels_of_finds {daemon : Daemon} (finds : Discovery.Finds daemon cutoff found) :
    Labels daemon cutoff (found.map Prod.fst) := by
  refine ⟨finds.distinct, fun label => ⟨fun listed => ?_, ?_⟩⟩
  · obtain ⟨entry, present, rfl⟩ := List.mem_map.mp listed
    obtain ⟨resource, inside⟩ := List.exists_mem_of_ne_nil _ (finds.filled entry present)
    exact ⟨resource, (finds.shown _ _).mp (Discovery.mem_pairs present inside)⟩
  · rintro ⟨resource, shows⟩
    obtain ⟨entry, present, paired⟩ := List.mem_flatMap.mp ((finds.shown _ _).mpr shows)
    obtain ⟨other, inside, same⟩ := List.mem_map.mp paired
    rw [Prod.mk.injEq] at same
    obtain ⟨rfl, -⟩ := same
    exact List.mem_map_of_mem present

/-- The exact effect of one run of the orphan sweep. -/
structure Reconciles (settings : Settings) (world last : World) (result : Except Exn Answer) :
    Prop where
  db : last.db = world.db
  containers : ∀ container, container ∈ last.docker.containers.rows ↔
    container ∈ world.docker.containers.rows ∧
      ¬Condemned world (world.clock - seconds settings.orphanGraceSeconds)
        (.container container.id)
  networks : ∀ network, network ∈ last.docker.networks.rows ↔
    network ∈ world.docker.networks.rows ∧
      (Condemned world (world.clock - seconds settings.orphanGraceSeconds)
          (.network network.id) →
        ∃ container ∈ last.docker.containers.rows, container.network = some network.id)
  answer : ∃ removed skipped, result = .ok (.reconciled removed skipped) ∧ ∃ labels,
    Labels world.docker (world.clock - seconds settings.orphanGraceSeconds) labels ∧
      removed + skipped = labels.length

/-- The sweep comes to its end with its exact effect. -/
theorem reconcile_meets (own : OwnNetworks world.docker) :
    (Worker.reconcileOrphans deployment).Meets (lone deployment Reliable)
      (fun last result => Reconciles deployment.settings world last result) world := by
  unfold Worker.reconcileOrphans
  refine Program.meets_bind.mpr ((Discovery.findLabelled_meets _).mono ?_)
  rintro reached result ⟨rfl, found, rfl, finds⟩
  refine (reconcileFound_meets found 0 0 finds.distinct (labelled_of_finds finds) own).mono ?_
  rintro last result ⟨purged, removed, skipped, rfl, counted⟩
  have condemns : ∀ resource, (∃ entry ∈ found, Orphaned reached.db entry.1 ∧
      resource ∈ entry.2.resources) ↔ _ := fun resource => condemns_iff finds
  refine ⟨purged.db, fun container => ?_, fun network => ?_, removed, skipped, rfl, _,
    labels_of_finds finds, ?_⟩
  · rw [purged.containers, ← condemns]
    simp [Condemns, DockerManager.LabelledResources.resources]
  · rw [purged.networks, ← condemns, attached_iff]
    simp [Condemns, DockerManager.LabelledResources.resources]
  · rw [List.length_map]
    omega

/-! ## Running it again -/

/-- The call is not a sleep. -/
def Still (request : Call) : Prop :=
  ∀ instant, request ≠ .sleepUntil instant

theorem reconcileFound_makes (found : List (String × DockerManager.LabelledResources))
    (removed skipped : Nat) : (Worker.reconcileFound found removed skipped).Makes Still := by
  induction found generalizing removed skipped with
  | nil => trivial
  | cons entry found inductionHypothesis =>
      obtain ⟨label, resources⟩ := entry
      unfold Worker.reconcileFound
      split
      · exact inductionHypothesis _ _
      · refine Program.makes_bind (DockerManager.perform_makes nofun) fun row => ?_
        split
        · refine Program.makes_bind ((DockerManager.removeResources_docks _ _).mono
            fun request docker => ?_) fun _ => inductionHypothesis _ _
          rintro instant rfl
          cases docker
        · exact inductionHypothesis _ _

theorem reconcileOrphans_makes : (Worker.reconcileOrphans deployment).Makes Still := by
  refine Program.makes_bind ?_ fun found => reconcileFound_makes found 0 0
  refine Program.makes_bind (DockerManager.perform_makes nofun) fun _ => ?_
  refine Program.makes_bind (DockerManager.perform_makes nofun) fun _ => ?_
  exact Program.makes_bind (DockerManager.perform_makes nofun) fun _ => trivial

/-- Without sleeps the clock stands still. -/
theorem clock_of_still {program : Action Answer} {trace : List (Entry Reply)}
    {result : Except Exn Answer} {granted : World → Call → Choice → Prop}
    (executed : Executes (lone deployment granted) world program trace last result)
    (still : program.Makes Still) : last.clock = world.clock := by
  induction executed with
  | pure state value => rfl
  | raise state error => rfl
  | call state middle last request resume reply trace result answered continued
      inductionHypothesis =>
      obtain ⟨choice, -, executed⟩ := answered
      rw [inductionHypothesis (still.2 reply)]
      cases World.exec_effect executed with
      | slept instant => exact (still.1 instant rfl).elim
      | _ => rfl

/-- Nothing that a run leaves behind is condemned, except networks in use. -/
theorem reconcile_again {last' : World} {result result' : Except Exn Answer}
    (clock : last.clock = world.clock)
    (first : Reconciles deployment.settings world last result)
    (second : Reconciles deployment.settings last last' result') :
    last'.db = last.db ∧
      (∀ container, container ∈ last'.docker.containers.rows ↔
        container ∈ last.docker.containers.rows) ∧
      ∀ network, network ∈ last'.docker.networks.rows ↔
        network ∈ last.docker.networks.rows := by
  have within : Within world.docker last.docker :=
    ⟨fun container present => ((first.containers container).mp present).1,
      fun network present => ((first.networks network).mp present).1⟩
  have still : ∀ cutoff resource, Condemned last cutoff resource →
      Condemned world cutoff resource := by
    rintro cutoff resource ⟨label, shows, orphaned⟩
    rw [first.db] at orphaned
    refine ⟨label, ?_, orphaned⟩
    cases resource with
    | container id =>
        obtain ⟨container, present, rest⟩ := Discovery.shows_container.mp shows
        exact Discovery.shows_container.mpr ⟨container, within.containers container present, rest⟩
    | network id =>
        obtain ⟨network, present, rest⟩ := Discovery.shows_network.mp shows
        exact Discovery.shows_network.mpr ⟨network, within.networks network present, rest⟩
  have containers : ∀ container, container ∈ last'.docker.containers.rows ↔
      container ∈ last.docker.containers.rows := by
    intro container
    rw [second.containers, clock]
    refine and_iff_left_of_imp fun present condemned => ?_
    exact ((first.containers container).mp present).2 (still _ _ condemned)
  refine ⟨second.db, containers, fun network => ?_⟩
  rw [second.networks, clock]
  refine and_iff_left_of_imp fun present condemned => ?_
  obtain ⟨container, member, attached⟩ :=
    ((first.networks network).mp present).2 (still _ _ condemned)
  exact ⟨container, (containers container).mpr member, attached⟩

/-- One run of the orphan sweep with the clock standing still and no other writer has
exactly its effect, and a second run changes nothing further. -/
theorem reconcile_exact (deployment : Deployment) (world : World)
    (own : OwnNetworks world.docker) :
    (∃ last result, Housekeeping.Finishes deployment .reconcileOrphans world last result) ∧
      ∀ last result, Housekeeping.Finishes deployment .reconcileOrphans world last result →
        Reconciles deployment.settings world last result ∧ last.clock = world.clock ∧
          ∀ last' result', Housekeeping.Finishes deployment .reconcileOrphans last last' result' →
            last'.db = last.db ∧
              (∀ container, container ∈ last'.docker.containers.rows ↔
                container ∈ last.docker.containers.rows) ∧
              ∀ network, network ∈ last'.docker.networks.rows ↔
                network ∈ last.docker.networks.rows := by
  refine ⟨Housekeeping.exists_finishes (reconcile_meets own), ?_⟩
  rintro last result ⟨trace, executed⟩
  have first := executed.meets (reconcile_meets own)
  have clock := clock_of_still executed reconcileOrphans_makes
  refine ⟨first, clock, ?_⟩
  rintro last' result' ⟨trace', executed'⟩
  have within : Within world.docker last.docker :=
    ⟨fun container present => ((first.containers container).mp present).1,
      fun network present => ((first.networks network).mp present).1⟩
  exact reconcile_again clock first (executed'.meets (reconcile_meets (within.ownNetworks own)))

/-- The rule on a failed attempt that left a network and a container behind, an hour
later. -/
theorem reconcile_exact_of_failedStart :
    ∃ config, Reachable (machine Compose.shipped) (System.initial true) config ∧
      config.state.docker.containers.rows.length = 1 ∧
      ∃ last result,
        Housekeeping.Finishes Compose.shipped .reconcileOrphans config.state last result ∧
          Reconciles Compose.shipped.settings config.state last result := by
  have shown : ((System.initial true).run (machine Compose.shipped) (fun _ _ => True)
      (Discovery.failedStart ++ Sample.succeed 1 5 ++ [.ambient (.tick 3600000000)])).map
        (fun config => (decide (OwnNetworks config.state.docker),
          config.state.docker.containers.rows.length)) = some (true, 1) := by
    decide +kernel
  obtain ⟨config, run, seen⟩ := Run.exists_run shown
  rw [Prod.mk.injEq] at seen
  obtain ⟨⟨last, result, finishes⟩, exact⟩ :=
    reconcile_exact Compose.shipped config.state (of_decide_eq_true seen.1)
  exact ⟨config, run, seen.2, last, result, finishes, (exact last result finishes).1⟩

end Orphans

end Provisioner
