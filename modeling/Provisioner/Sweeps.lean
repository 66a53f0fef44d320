import Provisioner.Discovery
import Provisioner.Housekeeping
import Provisioner.Purge

/-!
# The sweeps close every gap

The reaper claims every RUNNING row whose expiry has passed, the staleness sweep
fails every row that has been in transit for too long, and the orphan sweep
removes every resource whose row is terminal. From any reachable state, whatever
was in flight, the three together leave only terminal rows and no resources.
-/

namespace Provisioner

open Resumption

namespace Sweeps

variable {deployment : Deployment} {refuses : Bool}
  {allowed : System → Occurrence → Prop} {config : System} {world next : World}
  {granted : World → Call → Choice → Prop}

/-- Only the broker is allowed to fail. -/
def BrokerFails (_ : World) (request : Call) (choice : Choice) : Prop :=
  request.target = .broker ∨ choice.succeeds = true

/-- Every call may succeed, and only the broker may fail. -/
structure Serves (granted : World → Call → Choice → Prop) : Prop where
  ok : ∀ world request, granted world request .ok
  safe : ∀ world request choice, granted world request choice →
    request.target ≠ .broker → choice.succeeds = true

/-- The daemon does not fail. -/
theorem Serves.docker (serves : Serves granted) (world : World) (request : Call)
    (choice : Choice) (allowed : granted world request choice)
    (docker : request.target = .docker) : choice.succeeds = true :=
  serves.safe world request choice allowed (by rw [docker]; decide)

theorem serves_brokerFails : Serves BrokerFails where
  ok _ _ := .inr rfl
  safe _ _ _ allowed other := allowed.resolve_left other

/-- The rule for a plain call to another service than the broker. -/
theorem plain_meets {request : Call} {post : World → Except Exn request.Result → Prop}
    (plain : request.plain = true)
    (other : decide (request.target = .broker) = false)
    (continues : ∀ value next, world.Effect request (.ok value) next →
      post next (.ok value)) :
    (perform request).Meets (lone deployment BrokerFails) post world :=
  Alone.meets_plain plain (.inr rfl)
    (fun _ allowed => allowed.resolve_left (of_decide_eq_false other)) continues

/-- Setting statuses one by one does not depend on the broker. -/
theorem changeAll_meets (change : Environment → Time → Environment)
    (rows : List Environment) :
    (Worker.changeAll change rows).Meets (lone deployment BrokerFails)
      (fun reached result => reached = world ∧
        result = .ok (rows.map fun row => ⟨row, change row world.clock⟩)) world :=
  Housekeeping.changeAll_meets (fun _ => .inr rfl) (fun _ _ allowed => allowed.resolve_left nofun)
    change rows

/-- The world after a step that leaves Docker and the time alone. -/
structure Calm (world next : World) : Prop where
  docker : next.docker = world.docker
  clock : next.clock = world.clock

/-- No row is RUNNING, and every status was set by `now`. -/
structure Claimed (db : Environments) (now : Time) : Prop where
  dated : ∀ row ∈ db.rows, ∃ instant, row.statusChangedAt = some instant ∧ instant ≤ now
  claimed : ∀ row ∈ db.rows, row.status ≠ .running

/-- Claiming all RUNNING rows leaves none. -/
theorem claimed_writeAll {db : Environments} {now : Time} {rows : List Environment}
    (dated : ∀ row ∈ db.rows, ∃ instant, row.statusChangedAt = some instant ∧ instant ≤ now)
    (nodup : (rows.map Environment.id).Nodup)
    (chosen : ∀ row, row ∈ rows ↔ row ∈ db.rows ∧ row.status = .running) :
    Claimed (db.writeAll (rows.map fun row => ⟨row, row.setStatus .stopping now⟩)) now := by
  have written : ∀ row' ∈ (db.writeAll (rows.map fun row =>
      ⟨row, row.setStatus .stopping now⟩)).rows, ∃ row ∈ db.rows,
        (row ∈ rows ∧ row' = row.setStatus .stopping now) ∨ (row ∉ rows ∧ row' = row) :=
    fun _ => Environments.mem_writeAll_selected
      (fun row listed => ((chosen row).mp listed).1) nodup fun _ => rfl
  refine ⟨fun row' present => ?_, fun row' present running => ?_⟩
  · obtain ⟨row, member, ⟨-, rfl⟩ | ⟨-, rfl⟩⟩ := written row' present
    · exact ⟨now, rfl, Int.le_refl _⟩
    · exact dated _ member
  · obtain ⟨row, member, ⟨-, rfl⟩ | ⟨unlisted, rfl⟩⟩ := written row' present
    · cases running
    · exact unlisted ((chosen _).mpr ⟨member, running⟩)

/-- Publishing leaves the rows alone, whether or not the broker fails. -/
theorem publish_meets (task : Task) (envId : String) (retries : Nat) (countdown : Int)
    {post : World → Except Exn TaskId → Prop}
    (continues : ∀ next (reply : Except Exn TaskId), Calm world next → next.db = world.db →
      post next reply) :
    (perform (.publish task envId retries countdown)).Meets (lone deployment BrokerFails)
      post world := by
  refine Alone.meets_perform.mpr ⟨⟨.ok, _, _, .inl rfl, rfl⟩, ?_⟩
  intro choice reply next _ executed
  have effect := World.exec_effect executed
  cases effect with
  | failed _ exc raises => exact continues world _ ⟨rfl, rfl⟩ rfl
  | read _ _ reads => cases reads
  | published _ _ _ _ => exact continues _ _ ⟨rfl, rfl⟩ rfl

/-- The reaper leaves no RUNNING row once every expiry has passed. -/
theorem reap_meets
    (dated : ∀ row ∈ world.db.rows, ∃ instant,
      row.statusChangedAt = some instant ∧ instant ≤ world.clock)
    (expired : ∀ row ∈ world.db.rows, row.status = .running →
      ∃ instant ∈ row.expiresAt, instant ≤ world.clock) :
    Worker.reapExpiredEnvironments.Meets (lone deployment BrokerFails)
      (fun reached _ => Calm world reached ∧ Claimed reached.db world.clock) world := by
  unfold Worker.reapExpiredEnvironments
  refine Program.meets_bind.mpr (plain_meets rfl rfl fun now afterNow effect => ?_)
  cases effect with
  | read _ _ reads =>
  have current : now = world.clock := reads
  subst current
  refine Program.meets_bind.mpr (plain_meets rfl rfl fun rows afterSelect effect => ?_)
  cases effect with
  | read _ _ reads =>
  have selected : rows.Perm (world.db.expired world.clock) := reads
  have chosen : ∀ row, row ∈ rows ↔ row ∈ world.db.rows ∧ row.status = .running := by
    intro row
    rw [selected.mem_iff]
    simp only [Environments.expired, List.mem_filter, decide_eq_true_eq]
    constructor
    · rintro ⟨present, running, _⟩
      exact ⟨present, running⟩
    · rintro ⟨present, running⟩
      exact ⟨present, running, expired row present running⟩
  dsimp only
  split
  · rename_i none
    refine ⟨⟨rfl, rfl⟩, dated, fun row present running => ?_⟩
    have listed := (chosen row).mpr ⟨present, running⟩
    rw [List.isEmpty_iff.mp none] at listed
    cases listed
  · refine Program.meets_bind.mpr ((changeAll_meets _ rows).mono ?_)
    rintro reached result ⟨rfl, rfl⟩
    refine Program.meets_bind.mpr (plain_meets rfl rfl fun done afterCommit effect => ?_)
    cases effect with
    | read _ _ reads => cases reads
    | committed _ =>
    have claimed := claimed_writeAll dated (Environments.nodup_of_perm selected) chosen
    refine Program.meets_bind.mpr (Program.meets_forEach (fun _ state =>
        Calm reached state ∧ Claimed state.db reached.clock)
      ?_ (fun _ held => held) rows _ ⟨⟨rfl, rfl⟩, claimed⟩)
    rintro row rest state ⟨calm, claimed⟩
    refine Program.meets_bind.mpr (publish_meets _ _ _ _ fun next reply unmoved same => ?_)
    have kept : Calm reached next ∧ Claimed next.db reached.clock :=
      ⟨⟨unmoved.docker.trans calm.docker, unmoved.clock.trans calm.clock⟩, same ▸ claimed⟩
    rcases reply with exc | task
    · exact kept
    · exact kept

/-- The rows that the rest of the staleness sweep will fail, or that are over. -/
def Transient (db : Environments) (now : Time) (timeouts : List (EnvironmentStatus × Int)) :
    Prop :=
  ∀ row ∈ db.rows, row.status.terminal = true ∨
    row.status ∈ timeouts.map Prod.fst ∧ ∃ instant, row.statusChangedAt = some instant ∧
      ∀ entry ∈ timeouts, instant ≤ now - seconds entry.2

/-- The rows of one timeout are failed together. -/
theorem transient_writeAll (instant : Time) {db : Environments} {now : Time}
    {status : EnvironmentStatus} {timeout : Int}
    {timeouts : List (EnvironmentStatus × Int)} {stale : List Environment}
    (transient : Transient db now ((status, timeout) :: timeouts))
    (selected : stale.Perm (db.stale status (now - seconds timeout))) :
    Transient (db.writeAll (stale.map fun row =>
      ⟨row, Worker.asFailed row (Worker.presumedDead status timeout) instant⟩)) now timeouts := by
  have written : ∀ row' ∈ (db.writeAll (stale.map fun row =>
      ⟨row, Worker.asFailed row (Worker.presumedDead status timeout) instant⟩)).rows,
      ∃ row ∈ db.rows,
        (row ∈ stale ∧ row' = Worker.asFailed row (Worker.presumedDead status timeout) instant) ∨
          (row ∉ stale ∧ row' = row) :=
    fun _ => Environments.mem_writeAll_selected
      (fun row listed => List.mem_of_mem_filter (selected.mem_iff.mp listed))
      (Environments.nodup_of_perm selected) fun _ => rfl
  intro row' present
  obtain ⟨row, member, ⟨-, rfl⟩ | ⟨unlisted, rfl⟩⟩ := written row' present
  · exact .inl rfl
  · rcases transient row' member with terminal | ⟨listed, instant, dated, past⟩
    · exact .inl terminal
    · rw [List.forall_mem_cons] at past
      refine .inr ⟨?_, instant, dated, past.2⟩
      rw [List.map_cons, List.mem_cons] at listed
      refine listed.resolve_left fun same => unlisted ?_
      rw [selected.mem_iff]
      simp only [Environments.stale, List.mem_filter, decide_eq_true_eq]
      exact ⟨member, same, instant, dated, past.1⟩

/-- The loop over the timeouts leaves no transient row in the session's view. -/
theorem recoverTimeouts_meets (now : Time) (timeouts : List (EnvironmentStatus × Int))
    (changes : List Change) (counts : List (EnvironmentStatus × Nat))
    (transient : Transient (world.db.writeAll changes) now timeouts)
    (none : counts = [] → changes = []) :
    (Worker.recoverTimeouts now timeouts changes counts).Meets (lone deployment BrokerFails)
      (fun reached result => reached = world ∧ ∃ changes counts, result = .ok (changes, counts) ∧
        Transient (world.db.writeAll changes) now [] ∧ (counts = [] → changes = [])) world := by
  induction timeouts generalizing changes counts with
  | nil => exact ⟨rfl, changes, counts, rfl, transient, none⟩
  | cons entry timeouts inductionHypothesis =>
      obtain ⟨status, timeout⟩ := entry
      unfold Worker.recoverTimeouts
      refine Program.meets_bind.mpr (plain_meets rfl rfl fun stale afterSelect effect => ?_)
      cases effect with
      | read _ _ reads =>
      have selected : stale.Perm
          ((world.db.writeAll changes).stale status (now - seconds timeout)) := reads
      refine Program.meets_bind.mpr ((changeAll_meets _ stale).mono ?_)
      rintro reached result ⟨rfl, rfl⟩
      refine inductionHypothesis _ _ ?_ ?_
      · have failed := transient_writeAll reached.clock transient selected
        unfold Environments.writeAll at failed ⊢
        rw [List.foldl_append]
        exact failed
      · intro counted
        split at counted
        · rename_i empty
          rw [List.isEmpty_iff.mp empty, none counted]
          rfl
        · simp at counted

/-- The staleness sweep leaves only terminal rows. -/
theorem recover_meets
    (transient : Transient world.db world.clock
      (Worker.transientTimeouts deployment.settings)) :
    (Worker.recoverStaleTransitions deployment).Meets (lone deployment BrokerFails)
      (fun reached _ => Calm world reached ∧
        ∀ row ∈ reached.db.rows, row.status.terminal = true) world := by
  have terminal : ∀ {db : Environments}, Transient db world.clock [] →
      ∀ row ∈ db.rows, row.status.terminal = true := by
    intro db written row present
    rcases written row present with done | ⟨listed, -⟩
    · exact done
    · cases listed
  unfold Worker.recoverStaleTransitions
  refine Program.meets_bind.mpr (plain_meets rfl rfl fun now afterNow effect => ?_)
  cases effect with
  | read _ _ reads =>
  have current : now = world.clock := reads
  subst current
  refine Program.meets_bind.mpr
    ((recoverTimeouts_meets world.clock _ [] [] transient fun _ => rfl).mono ?_)
  rintro reached result ⟨rfl, changes, counts, rfl, written, none⟩
  dsimp only
  split
  · rename_i empty
    rw [none (List.isEmpty_iff.mp empty)] at written
    exact ⟨⟨rfl, rfl⟩, terminal written⟩
  · refine Program.meets_bind.mpr (plain_meets rfl rfl fun done afterCommit effect => ?_)
    cases effect with
    | read _ _ reads => cases reads
    | committed _ => exact ⟨⟨rfl, rfl⟩, terminal written⟩

/-- The world after a sweep has removed some containers. -/
structure Removed (ids : List DockerId) (world reached : World) : Prop where
  db : reached.db = world.db
  networks : reached.docker.networks = world.docker.networks
  containers : ∀ container, container ∈ reached.docker.containers.rows ↔
    container ∈ world.docker.containers.rows ∧ container.id ∉ ids

/-- The loop over the containers removes all of them. -/
theorem removeContainers_meets (serves : Serves granted) (ids : List DockerId) :
    (Program.forEach DockerManager.removeContainer ids).Meets (lone deployment granted)
      (fun reached result => result = .ok () ∧ Removed ids world reached) world := by
  refine (Purge.forEach_meets
    (fun id _ => Purge.removeContainer_meets serves.ok serves.docker id) ids).mono ?_
  rintro reached result ⟨rfl, rfl⟩
  obtain ⟨rows, networks, -⟩ := @Daemon.foldl_removeContainer world.docker ids
  refine ⟨rfl, rfl, networks, fun container => ?_⟩
  change container ∈ (ids.foldl Daemon.removeContainer world.docker).containers.rows ↔ _
  rw [rows, List.mem_filter, decide_eq_true_iff]

/-- The world after a sweep has removed the networks that nothing is attached to. -/
structure Detached (ids : List DockerId) (world reached : World) : Prop where
  db : reached.db = world.db
  containers : reached.docker.containers = world.docker.containers
  networks : ∀ network, network ∈ reached.docker.networks.rows ↔
    network ∈ world.docker.networks.rows ∧
      (network.id ∈ ids → world.docker.attached network.id = true)

/-- The loop over the networks removes all that are not in use. -/
theorem removeNetworks_meets (serves : Serves granted) (ids : List DockerId) :
    (Program.forEach DockerManager.removeNetwork ids).Meets (lone deployment granted)
      (fun reached result => result = .ok () ∧ Detached ids world reached) world := by
  refine (Purge.forEach_meets
    (fun id _ => Purge.removeNetwork_meets serves.ok serves.docker id) ids).mono ?_
  rintro reached result ⟨rfl, rfl⟩
  refine ⟨rfl, rfl, Daemon.foldl_detach_containers.1, fun network => ?_⟩
  change network ∈ (ids.foldl Daemon.detach world.docker).networks.rows ↔ _
  rw [Daemon.foldl_detach_networks, List.mem_filter, decide_eq_true_iff, or_iff_not_imp_left,
    not_not]

section Grouping

variable {label : String} {found : List (String × DockerManager.LabelledResources)}

/-- Looking a label up compares it with the first entry. -/
theorem lookup_cons {key : String} {resources : DockerManager.LabelledResources} :
    List.lookup label ((key, resources) :: found) =
      if label = key then some resources else found.lookup label := by
  by_cases same : label = key
  · rw [if_pos same, same, List.lookup_cons_self]
  · rw [if_neg same, List.lookup_cons, beq_eq_false_iff_ne.mpr same]

/-- With distinct keys, every entry is looked up. -/
theorem lookup_of_mem {entry : String × DockerManager.LabelledResources}
    (distinct : (found.map Prod.fst).Nodup) (present : entry ∈ found) :
    found.lookup entry.1 = some entry.2 := by
  induction found with
  | nil => cases present
  | cons other found inductionHypothesis =>
      rw [List.map_cons, List.nodup_cons] at distinct
      rcases List.mem_cons.mp present with rfl | later
      · exact List.lookup_cons_self
      · have differs : entry.1 ≠ other.1 := fun same =>
          distinct.1 (same ▸ List.mem_map_of_mem later)
        rw [lookup_cons, if_neg differs]
        exact inductionHypothesis distinct.2 later

/-- An id is grouped under a label. -/
def Covers (field : DockerManager.LabelledResources → List DockerId) (label : String)
    (id : DockerId) (found : List (String × DockerManager.LabelledResources)) : Prop :=
  ∃ resources, found.lookup label = some resources ∧ id ∈ field resources

variable {field : DockerManager.LabelledResources → List DockerId} {id : DockerId}
  {cutoff : Time} {containers : List Container} {networks : List Network}

/-- What `find_labelled` reports is grouped under its label. -/
theorem covers_of_reported {resource : Resource}
    (lists : ∀ resources : DockerManager.LabelledResources,
      resource ∈ resources.resources → id ∈ field resources)
    (reported : (label, resource) ∈
      containers.filterMap (Discovery.reportedContainer cutoff) ++
        networks.filterMap (Discovery.reportedNetwork cutoff)) :
    Covers field label id (DockerManager.grouped cutoff containers networks) := by
  have groups := Discovery.groups_grouped cutoff containers networks
  obtain ⟨entry, present, inside⟩ := List.mem_flatMap.mp (groups.pairs.mem_iff.mpr reported)
  obtain ⟨shown, listed, same⟩ := List.mem_map.mp inside
  cases same
  exact ⟨entry.2, lookup_of_mem groups.distinct present, lists _ listed⟩

/-- Every listed container with a label that is old enough is grouped. -/
theorem covers_container {container : Container}
    (present : container ∈ containers)
    (labelled : container.envLabel = some label)
    (named : label ≠ "")
    (old : container.created ≤ cutoff) :
    Covers DockerManager.LabelledResources.containerIds label container.id
      (DockerManager.grouped cutoff containers networks) := by
  have reported : Discovery.reportedContainer cutoff container =
      some (label, .container container.id) :=
    Discovery.reported_eq_some.mpr ⟨labelled, named, old, rfl⟩
  refine covers_of_reported (fun resources listed => ?_)
    (List.mem_append_left _ (List.mem_filterMap.mpr ⟨container, present, reported⟩))
  simpa [DockerManager.LabelledResources.resources] using listed

/-- So is every listed network. -/
theorem covers_network {network : Network}
    (present : network ∈ networks)
    (labelled : network.envLabel = some label)
    (named : label ≠ "")
    (old : network.created ≤ cutoff) :
    Covers DockerManager.LabelledResources.networkIds label network.id
      (DockerManager.grouped cutoff containers networks) := by
  have reported : Discovery.reportedNetwork cutoff network =
      some (label, .network network.id) :=
    Discovery.reported_eq_some.mpr ⟨labelled, named, old, rfl⟩
  refine covers_of_reported (fun resources listed => ?_)
    (List.mem_append_right _ (List.mem_filterMap.mpr ⟨network, present, reported⟩))
  simpa [DockerManager.LabelledResources.resources] using listed

end Grouping

/-- The entries that the orphan sweep has still to deal with cover all that exists. -/
structure Listed (found : List (String × DockerManager.LabelledResources)) (world : World) :
    Prop where
  terminal : ∀ row ∈ world.db.rows, row.status.terminal = true
  containers : ∀ container ∈ world.docker.containers.rows, ∃ id : Uuid,
    container.envLabel = some id.str ∧
      Covers DockerManager.LabelledResources.containerIds id.str container.id found
  networks : ∀ network ∈ world.docker.networks.rows, ∃ id : Uuid,
    network.envLabel = some id.str ∧
      Covers DockerManager.LabelledResources.networkIds id.str network.id found
  attached : ∀ container ∈ world.docker.containers.rows, ∀ id,
    container.network = some id → ∃ network ∈ world.docker.networks.rows,
      network.id = id ∧ network.envLabel = container.envLabel

/-- What is looked up under another label comes from the rest. -/
theorem covers_tail {field : DockerManager.LabelledResources → List DockerId}
    {label other : String} {id : DockerId} {resources : DockerManager.LabelledResources}
    {found : List (String × DockerManager.LabelledResources)}
    (covers : Covers field label id ((other, resources) :: found)) :
    (label = other ∧ id ∈ field resources) ∨ (label ≠ other ∧ Covers field label id found) := by
  obtain ⟨entry, looked, listed⟩ := covers
  by_cases same : label = other
  · subst same
    rw [lookup_cons, if_pos rfl] at looked
    cases looked
    exact .inl ⟨rfl, listed⟩
  · rw [lookup_cons, if_neg same] at looked
    exact .inr ⟨same, entry, looked, listed⟩

/-- A label that names no environment has no resources. -/
theorem listed_of_foreign {label : String} {resources : DockerManager.LabelledResources}
    {found : List (String × DockerManager.LabelledResources)}
    (foreign : Uuid.parse label = none)
    (listed : Listed ((label, resources) :: found) world) : Listed found world where
  terminal := listed.terminal
  containers container present := by
    obtain ⟨id, labelled, covers⟩ := listed.containers container present
    refine ⟨id, labelled, ((covers_tail covers).resolve_left ?_).2⟩
    rintro ⟨rfl, -⟩
    rw [Uuid.parse_str] at foreign
    cases foreign
  networks network present := by
    obtain ⟨id, labelled, covers⟩ := listed.networks network present
    refine ⟨id, labelled, ((covers_tail covers).resolve_left ?_).2⟩
    rintro ⟨rfl, -⟩
    rw [Uuid.parse_str] at foreign
    cases foreign
  attached := listed.attached

/-- Once the containers and the networks of a label are dealt with, the rest covers
what is left. -/
theorem listed_of_removed {middle reached : World} {label : String}
    {resources : DockerManager.LabelledResources}
    {found : List (String × DockerManager.LabelledResources)}
    (listed : Listed ((label, resources) :: found) world)
    (removed : Removed resources.containerIds world middle)
    (detached : Detached resources.networkIds middle reached) : Listed found reached := by
  have left : ∀ container, container ∈ reached.docker.containers.rows →
      container ∈ world.docker.containers.rows ∧ container.envLabel ≠ some label ∧
        ∃ id : Uuid, container.envLabel = some id.str ∧
          Covers DockerManager.LabelledResources.containerIds id.str container.id found := by
    intro container present
    rw [detached.containers] at present
    obtain ⟨member, kept⟩ := (removed.containers container).mp present
    obtain ⟨id, labelled, covers⟩ := listed.containers container member
    rcases covers_tail covers with ⟨-, gone⟩ | ⟨other, rest⟩
    · exact (kept gone).elim
    · exact ⟨member, fun same => other (Option.some.inj (labelled.symm.trans same)), id,
        labelled, rest⟩
  have used : ∀ id, middle.docker.attached id = true → ∃ container,
      container ∈ reached.docker.containers.rows ∧ container.network = some id := by
    intro id attached
    obtain ⟨container, present, same⟩ := List.any_eq_true.mp attached
    rw [← detached.containers] at present
    exact ⟨container, present, of_decide_eq_true same⟩
  refine ⟨?_, fun container present => (left container present).2.2, ?_, ?_⟩
  · rw [detached.db, removed.db]
    exact listed.terminal
  · intro network present
    obtain ⟨member, idle⟩ := (detached.networks network).mp present
    rw [removed.networks] at member
    obtain ⟨id, labelled, covers⟩ := listed.networks network member
    rcases covers_tail covers with ⟨same, gone⟩ | ⟨other, rest⟩
    · obtain ⟨container, present, attached⟩ := used network.id (idle gone)
      obtain ⟨inside, other, -⟩ := left container present
      obtain ⟨own, ownPresent, equal, labels⟩ := listed.attached container inside _ attached
      have unique : own = network := Keyed.Table.eq_of_key_eq ownPresent member equal
      rw [← labels, unique, labelled, same] at other
      exact (other rfl).elim
    · exact ⟨id, labelled, rest⟩
  · intro container present id attached
    obtain ⟨inside, -⟩ := left container present
    obtain ⟨network, member, same, labels⟩ := listed.attached container inside id attached
    refine ⟨network, (detached.networks network).mpr ⟨?_, fun _ => ?_⟩, same, labels⟩
    · rw [removed.networks]
      exact member
    · rw [detached.containers] at present
      refine List.any_eq_true.mpr ⟨container, present, ?_⟩
      rw [attached, same]
      exact decide_eq_true rfl

/-- The loop of the orphan sweep removes everything that its entries cover. -/
theorem reconcileFound_meets
    (found : List (String × DockerManager.LabelledResources)) (removed skipped : Nat)
    (listed : Listed found world) :
    (Worker.reconcileFound found removed skipped).Meets (lone deployment BrokerFails)
      (fun reached _ => reached.db = world.db ∧ reached.docker.containers.rows = [] ∧
        reached.docker.networks.rows = []) world := by
  induction found generalizing world removed skipped with
  | nil =>
      refine ⟨rfl, List.eq_nil_iff_forall_not_mem.mpr fun container present => ?_,
        List.eq_nil_iff_forall_not_mem.mpr fun network present => ?_⟩
      · obtain ⟨id, -, resources, looked, -⟩ := listed.containers container present
        cases looked
      · obtain ⟨id, -, resources, looked, -⟩ := listed.networks network present
        cases looked
  | cons entry found inductionHypothesis =>
      obtain ⟨label, resources⟩ := entry
      unfold Worker.reconcileFound
      cases parsed : Uuid.parse label with
      | none => exact inductionHypothesis removed (skipped + 1) (listed_of_foreign parsed listed)
      | some id =>
          refine Program.meets_bind.mpr (plain_meets rfl rfl fun row afterLoad effect => ?_)
          cases effect with
          | read _ _ reads =>
          have same : row = world.db.find id := reads
          have ended : row.all (fun env => env.status.terminal) = true := by
            rw [same, Option.all_eq_true]
            exact fun env stored => listed.terminal env (Keyed.Table.mem_of_find stored)
          dsimp only
          rw [if_pos ended]
          refine Program.meets_bind.mpr (Program.meets_bind.mpr
            ((removeContainers_meets serves_brokerFails resources.containerIds).mono ?_))
          rintro middle result ⟨rfl, first⟩
          refine (removeNetworks_meets serves_brokerFails resources.networkIds).mono ?_
          rintro reached result ⟨rfl, second⟩
          refine (inductionHypothesis (removed + 1) skipped
            (listed_of_removed listed first second)).mono ?_
          rintro last result ⟨db, none⟩
          exact ⟨db.trans (second.db.trans first.db), none⟩

/-- Every labelled resource is past the grace period. -/
structure Aged (deployment : Deployment) (world : World) : Prop where
  containers : ∀ container ∈ world.docker.containers.rows, container.envLabel.isSome →
    container.created + seconds deployment.settings.orphanGraceSeconds ≤ world.clock
  networks : ∀ network ∈ world.docker.networks.rows, network.envLabel.isSome →
    network.created + seconds deployment.settings.orphanGraceSeconds ≤ world.clock

/-- Every row is terminal, and no resource is labelled with an environment's id. -/
structure Closed (world : World) : Prop where
  rows : ∀ row ∈ world.db.rows, row.status = .stopped ∨ row.status = .failed
  containers : ∀ container ∈ world.docker.containers.rows, ∀ id : Uuid,
    container.envLabel ≠ some id.str
  networks : ∀ network ∈ world.docker.networks.rows, ∀ id : Uuid,
    network.envLabel ≠ some id.str

/-- The two statuses of `TERMINAL_STATUSES`. -/
theorem stopped_or_failed {status : EnvironmentStatus} (terminal : status.terminal = true) :
    status = .stopped ∨ status = .failed := by
  cases status <;> first | exact .inl rfl | exact .inr rfl | cases terminal

/-- The orphan sweep removes everything once all rows are terminal. -/
theorem reconcile_meets {earlier : World}
    (integrity : earlier.Integrity deployment)
    (docker : world.docker = earlier.docker)
    (terminal : ∀ row ∈ world.db.rows, row.status.terminal = true)
    (aged : Aged deployment world) :
    (Worker.reconcileOrphans deployment).Meets (lone deployment BrokerFails)
      (fun reached _ => Closed reached) world := by
  unfold Worker.reconcileOrphans DockerManager.findLabelled
  refine Program.meets_bind.mpr (Program.meets_bind.mpr
    (plain_meets rfl rfl fun now afterNow effect => ?_))
  cases effect with
  | read _ _ reads =>
  have current : now = world.clock := reads
  subst current
  refine Program.meets_bind.mpr (plain_meets rfl rfl fun containers afterList effect => ?_)
  cases effect with
  | read _ _ reads =>
  have listedContainers : containers.Perm
      (world.docker.containers.rows.filter fun row => row.envLabel.isSome) := reads
  refine Program.meets_bind.mpr (plain_meets rfl rfl fun networks afterList effect => ?_)
  cases effect with
  | read _ _ reads =>
  have listedNetworks : networks.Perm
      (world.docker.networks.rows.filter fun row => row.envLabel.isSome) := reads
  have listed : Listed (DockerManager.grouped
      (world.clock - seconds deployment.settings.orphanGraceSeconds) containers networks)
      world := by
    refine ⟨terminal, fun container present => ?_, fun network present => ?_, ?_⟩
    · obtain ⟨-, row, -, template, spec, -, -, labelled, -⟩ :=
        integrity.containers container (docker ▸ present)
      have some : container.envLabel.isSome := by rw [labelled]; rfl
      have inside : container ∈ containers :=
        listedContainers.mem_iff.mpr (List.mem_filter.mpr ⟨present, some⟩)
      exact ⟨row.id, labelled, covers_container inside labelled (Uuid.str_ne_empty _)
        (Int.le_sub_right_of_add_le (aged.containers container present some))⟩
    · obtain ⟨-, row, -, labelled, -⟩ := integrity.networks network (docker ▸ present)
      have some : network.envLabel.isSome := by rw [labelled]; rfl
      have inside : network ∈ networks :=
        listedNetworks.mem_iff.mpr (List.mem_filter.mpr ⟨present, some⟩)
      exact ⟨row.id, labelled, covers_network inside labelled (Uuid.str_ne_empty _)
        (Int.le_sub_right_of_add_le (aged.networks network present some))⟩
    · rw [docker]
      exact integrity.attached
  refine (reconcileFound_meets _ 0 0 listed).mono ?_
  rintro reached result ⟨db, noContainers, noNetworks⟩
  refine ⟨?_, ?_, ?_⟩
  · rw [db]
    exact fun row present => stopped_or_failed (terminal row present)
  · rw [noContainers]
    exact nofun
  · rw [noNetworks]
    exact nofun

/-- When all messages are lost, reaping at `reapAt`, recovering after every timeout
and reconciling after the grace period come to an end and leave the world closed. -/
def Closes (deployment : Deployment) (world : World) (reapAt : Time) : Prop :=
  (program deployment (.sweep .reapExpired)).Meets (lone deployment BrokerFails)
    (fun reaped _ => ∀ recoverAt,
      (∀ entry ∈ Worker.transientTimeouts deployment.settings,
        reapAt + seconds entry.2 < recoverAt) →
      (program deployment (.sweep .recoverStale)).Meets (lone deployment BrokerFails)
        (fun recovered _ => ∀ reconcileAt,
          Aged deployment { recovered with clock := reconcileAt } →
          (program deployment (.sweep .reconcileOrphans)).Meets (lone deployment BrokerFails)
            (fun reconciled _ => Closed reconciled)
            { recovered with clock := reconcileAt })
        { reaped with clock := recoverAt })
    { world with queue := [], clock := reapAt }

/-- The three sweeps close every reachable world, whatever was in flight. -/
theorem closes_of_runs {reapAt : Time}
    (run : System.Runs deployment refuses allowed config)
    (later : config.state.clock ≤ reapAt)
    (expired : ∀ row ∈ config.state.db.rows, ∀ instant ∈ row.expiresAt, instant ≤ reapAt) :
    Closes deployment config.state reapAt := by
  have integrity := (Integrity.of_runs run).1
  refine Program.Meets.mono (reap_meets ?_ ?_) ?_
  · intro row present
    obtain ⟨instant, dated, past⟩ := integrity.dated row present
    exact ⟨instant, dated, past.trans later⟩
  · intro row present running
    obtain ⟨instant, expires⟩ := Option.isSome_iff_exists.mp
      (integrity.expires row present running)
    exact ⟨instant, expires, expired row present instant expires⟩
  rintro reaped - ⟨calm, claimed⟩ recoverAt stale
  refine Program.Meets.mono (recover_meets ?_) ?_
  · intro row present
    obtain ⟨instant, dated, past⟩ := claimed.dated row present
    have notRunning := claimed.claimed row present
    cases status : row.status with
    | running => exact (notRunning status).elim
    | stopped => exact .inl rfl
    | failed => exact .inl rfl
    | _ =>
        refine .inr ⟨by simp [Worker.transientTimeouts], instant, dated, fun entry listed => ?_⟩
        exact past.trans (Int.le_sub_right_of_add_le (stale entry listed).le)
  rintro recovered - ⟨calm', terminal⟩ reconcileAt aged
  refine reconcile_meets integrity ?_ terminal aged
  exact calm'.docker.trans calm.docker

/-- Nothing is dated after `instant`, and what the sample environment has by then. -/
def observe (instant : Time) (config : System) : Bool × Option EnvironmentStatus × Nat :=
  (config.state.clock ≤ instant &&
      config.state.db.rows.all fun row => row.expiresAt.all fun expiry => expiry ≤ instant,
    (config.state.db.find (Sample.envId 1)).map Environment.status,
    config.state.docker.containers.rows.length)

/-- The rule on a RUNNING environment with two containers. -/
theorem closes_of_firstAttempt :
    ∃ config row, System.Runs Compose.shipped true (fun _ _ => True) config ∧
      config.state.db.find (Sample.envId 1) = some row ∧ row.status = .running ∧
      config.state.docker.containers.rows.length = 2 ∧
      Closes Compose.shipped config.state (seconds 1000) := by
  have shown : ((System.initial true).run (machine Compose.shipped) (fun _ _ => True)
      (Sample.firstAttempt ++ Sample.succeed 1 1)).map (observe (seconds 1000)) =
      some (true, some .running, 2) := by decide +kernel
  obtain ⟨config, run, seen⟩ := Run.exists_run shown
  simp only [observe, Prod.mk.injEq, Bool.and_eq_true, decide_eq_true_eq] at seen
  obtain ⟨⟨past, expired⟩, status, containers⟩ := seen
  obtain ⟨row, found, running⟩ := Option.map_eq_some_iff.mp status
  refine ⟨config, row, run, found, running, containers, closes_of_runs run past ?_⟩
  intro row present instant expires
  have all := List.all_eq_true.mp expired row present
  rw [expires] at all
  exact of_decide_eq_true all

end Sweeps

end Provisioner
