import Provisioner.Guards

/-!
# What the quota says about the host

The quota counts active rows, and a row that has become STOPPED or FAILED may
still have containers. A row weighs on the host when it is active or has a
container; the quota bounds the containers of an owner in every run in which a
row only comes to weigh on the host while its owner has room for it.
-/

namespace Provisioner

open Resumption

/-- The largest number of roles in a template. -/
def Deployment.maxRoles (deployment : Deployment) : Nat :=
  (deployment.templates.map fun entry => entry.2.length).foldr max 0

/-- A template has no more roles than the largest. -/
theorem Deployment.length_le_maxRoles {deployment : Deployment} {name : String}
    {template : List ContainerSpec}
    (known : deployment.templates.lookup name = some template) :
    template.length ≤ deployment.maxRoles := by
  have present : (name, template) ∈ deployment.templates := by
    obtain ⟨before, after, split, -⟩ := List.lookup_eq_some_iff.mp known
    rw [split]
    simp
  clear known
  unfold maxRoles
  generalize deployment.templates = templates at present ⊢
  induction templates with
  | nil => cases present
  | cons entry templates inductionHypothesis =>
      rw [List.map_cons, List.foldr_cons]
      rcases List.mem_cons.mp present with rfl | later
      · exact Nat.le_max_left _ _
      · exact (inductionHypothesis later).trans (Nat.le_max_right _ _)

namespace World

variable (world : World)

/-- The container carries the label of the row. -/
def owns (row : Environment) (container : Container) : Bool :=
  container.envLabel = some row.id.str

/-- The row is active or has a container. -/
def weighs (row : Environment) : Bool :=
  row.active || world.docker.containers.rows.any (owns row)

/-- The rows of an owner that weigh on the host. -/
def weight (owner : String) : Nat :=
  world.db.tally world.weighs fun row => row.owner = owner

/-- The containers that are labelled with a row of the owner. -/
def containersOf (owner : String) : List Container :=
  world.docker.containers.rows.filter fun container =>
    world.db.rows.any fun row => row.owner = owner && owns row container

end World

namespace Capacity

variable {deployment : Deployment} {refuses : Bool} {config : System}
  {world next : World} {phase : Phase}

/-- A union of two parts is no larger than the two together. -/
theorem countP_or_le {α : Type} (items : List α) (first second : α → Bool) :
    (items.countP fun item => first item || second item) ≤
      items.countP first + items.countP second := by
  induction items with
  | nil => simp
  | cons item items inductionHypothesis =>
      rw [List.countP_cons, List.countP_cons, List.countP_cons]
      cases first item <;> cases second item <;> simp <;> omega

/-- Nor is a union of parts of which some are bounded and the others empty. -/
theorem countP_any_le {α β : Type} {items : List α} {owners : List β}
    {belongs : β → α → Bool} {counts : β → Bool} {bound : Nat}
    (each : ∀ owner ∈ owners,
      items.countP (belongs owner) ≤ if counts owner then bound else 0) :
    (items.countP fun item => owners.any fun owner => belongs owner item) ≤
      owners.countP counts * bound := by
  induction owners with
  | nil => simp
  | cons owner owners inductionHypothesis =>
      rw [List.forall_mem_cons] at each
      have union := countP_or_le items (belongs owner)
        fun item => owners.any fun owner => belongs owner item
      have rest := inductionHypothesis each.2
      have first := each.1
      simp only [List.any_cons]
      rw [List.countP_cons]
      split at first
      · rename_i counted
        rw [if_pos counted, Nat.add_mul, Nat.one_mul]
        omega
      · rename_i not
        rw [if_neg not, Nat.add_zero]
        omega

/-- A row has at most one container for each role of its template. -/
theorem length_owned_le {row : Environment}
    (integrity : world.Integrity deployment)
    (present : row ∈ world.db.rows) :
    (world.docker.containers.rows.filter (World.owns row)).length ≤ deployment.maxRoles := by
  have starts : ∀ container ∈ world.docker.containers.rows.filter (World.owns row),
      row.Starts deployment container := by
    intro container owned
    obtain ⟨inside, label⟩ := List.mem_filter.mp owned
    obtain ⟨-, other, member, starts⟩ := integrity.containers container inside
    have labelled : container.envLabel = some other.id.str := by
      obtain ⟨-, -, -, -, labelled, -⟩ := starts
      exact labelled
    have same : other.id = row.id :=
      Uuid.str_inj.mp (Option.some.inj (labelled.symm.trans (of_decide_eq_true label)))
    rw [← Keyed.Table.eq_of_key_eq member present same]
    exact starts
  cases known : deployment.templates.lookup row.template with
  | none =>
      have none : world.docker.containers.rows.filter (World.owns row) = [] := by
        refine List.eq_nil_iff_forall_not_mem.mpr fun container owned => ?_
        obtain ⟨template, spec, other, -⟩ := starts container owned
        rw [known] at other
        cases other
      rw [none]
      exact Nat.zero_le _
  | some template =>
      have names : (world.docker.containers.rows.filter (World.owns row)).map Container.name ⊆
          template.map fun spec => Compose.containerName row.id.str spec.role := by
        intro name listed
        obtain ⟨container, owned, rfl⟩ := List.mem_map.mp listed
        obtain ⟨template', spec, other, inside, -, -, named⟩ := starts container owned
        rw [known] at other
        cases other
        exact List.mem_map.mpr ⟨spec, inside, named.symm⟩
      have distinct : ((world.docker.containers.rows.filter (World.owns row)).map
          Container.name).Nodup :=
        world.docker.namesUnique.sublist (List.filter_sublist.map _)
      have few := (distinct.subperm names).length_le
      rw [List.length_map, List.length_map] at few
      exact few.trans (Deployment.length_le_maxRoles known)

/-- The containers of an owner are bounded by the rows that weigh on the host. -/
theorem length_containersOf_le (owner : String) (integrity : world.Integrity deployment) :
    (world.containersOf owner).length ≤ world.weight owner * deployment.maxRoles := by
  unfold World.containersOf World.weight Environments.tally
  rw [← List.countP_eq_length_filter]
  refine countP_any_le fun row present => ?_
  by_cases own : row.owner = owner
  · simp only [own, decide_true, Bool.true_and]
    by_cases weighs : world.weighs row = true
    · rw [if_pos weighs, List.countP_eq_length_filter]
      exact length_owned_le integrity present
    · rw [if_neg weighs]
      unfold World.weighs at weighs
      rw [Bool.or_eq_true, not_or, Bool.not_eq_true, Bool.not_eq_true] at weighs
      refine Nat.le_of_eq (List.countP_eq_zero.mpr fun container inside owns => ?_)
      exact List.any_eq_false.mp weighs.2 container inside owns
  · simp [own]

/-- An insert is committed while its owner has no more rows that weigh on the host
than the request counted active ones; and a row that does not weigh on the host
becomes active or gets a container only while its owner has room for it. -/
def keepsUp (deployment : Deployment) (world : World) (phase : Phase) : Call → Bool
  | .commitInsert env =>
      match phase.stage.fresh with
      | some (count, _) => world.weight env.owner ≤ count
      | none => true
  | .commitChanges changes => world.db.admits world.weighs
      (fun db row => (db.tally world.weighs (fun other => other.owner = row.owner) : Int) <
        deployment.settings.maxEnvironmentsPerUser)
      changes
  | .containersRun request => world.db.rows.all fun row =>
      row.id.str ≠ request.envLabel || world.weighs row ||
        (world.weight row.owner : Int) < deployment.settings.maxEnvironmentsPerUser
  | _ => true

/-- No row comes to weigh on the host over the quota. -/
def Fits (deployment : Deployment) (config : System) (event : Occurrence) : Prop :=
  ∀ turn ∈ config.turn event,
    keepsUp deployment config.state (Job.phase turn.1) turn.2 = true

instance (config : System) (event : Occurrence) : Decidable (Fits deployment config event) :=
  inferInstanceAs (Decidable (∀ turn ∈ config.turn event, _))

/-- No owner has more rows that weigh on the host than the quota. -/
def Bounded (deployment : Deployment) (world : World) : Prop :=
  ∀ owner, (world.weight owner : Int) ≤ deployment.settings.maxEnvironmentsPerUser

/-- Rows that weigh no more than before keep the bound. -/
theorem bounded_of_weighs
    (bounded : Bounded deployment world)
    (db : next.db = world.db)
    (weighs : ∀ row ∈ world.db.rows, next.weighs row = true → world.weighs row = true) :
    Bounded deployment next := by
  intro owner
  refine le_trans (Int.ofNat_le.mpr ?_) (bounded owner)
  unfold World.weight Environments.tally
  rw [db]
  refine List.countP_mono_left fun row present counted => ?_
  rw [Bool.and_eq_true] at counted ⊢
  exact ⟨counted.1, weighs row present counted.2⟩

/-- A new container makes at most its own row weigh on the host. -/
theorem bounded_of_containerCreated {request : Compose.RunRequest}
    {network : Option DockerId} {free : world.docker.nameTaken request.name = false}
    (bounded : Bounded deployment world)
    (kept : keepsUp deployment world phase (.containersRun request) = true) :
    Bounded deployment { world with
      docker := world.docker.addContainer request network world.clock free } := by
  have grown : ∀ row, World.weighs { world with
      docker := world.docker.addContainer request network world.clock free } row =
        (world.weighs row || decide (request.envLabel = row.id.str)) := by
    intro row
    unfold World.weighs Daemon.addContainer
    simp [World.owns, Daemon.newContainer, Bool.or_assoc]
  by_cases heavy : ∀ row ∈ world.db.rows, request.envLabel = row.id.str →
      world.weighs row = true
  · refine bounded_of_weighs bounded rfl fun row present weighs => ?_
    rw [grown, Bool.or_eq_true] at weighs
    exact weighs.elim id fun label => heavy row present (of_decide_eq_true label)
  · simp only [not_forall, Bool.not_eq_true] at heavy
    obtain ⟨row, present, label, light⟩ := heavy
    have room : (world.weight row.owner : Int) < deployment.settings.maxEnvironmentsPerUser := by
      have admitted := List.all_eq_true.mp kept row present
      simpa [label, light] using admitted
    have only : ∀ other ∈ world.db.rows, request.envLabel = other.id.str → other = row :=
      fun other inside same =>
        Keyed.Table.eq_of_key_eq inside present (Uuid.str_inj.mp (same.symm.trans label))
    intro owner
    by_cases own : row.owner = owner
    · subst own
      have single : (world.db.rows.countP fun other =>
          request.envLabel = other.id.str) ≤ [row].length := by
        rw [List.countP_eq_length_filter]
        refine ((world.db.nodup.of_map _).filter _).subperm ?_ |>.length_le
        intro other listed
        obtain ⟨inside, same⟩ := List.mem_filter.mp listed
        exact List.mem_singleton.mpr (only other inside (of_decide_eq_true same))
      have union := countP_or_le world.db.rows
        (fun other => other.owner = row.owner && world.weighs other)
        (fun other => request.envLabel = other.id.str)
      have covered : World.weight { world with
          docker := world.docker.addContainer request network world.clock free } row.owner ≤
          world.db.rows.countP fun other => (other.owner = row.owner && world.weighs other) ||
            decide (request.envLabel = other.id.str) := by
        refine List.countP_mono_left fun other inside counted => ?_
        rw [grown, Bool.and_eq_true, Bool.or_eq_true] at counted
        rw [Bool.or_eq_true, Bool.and_eq_true]
        exact counted.2.imp (fun weighs => ⟨counted.1, weighs⟩) id
      have before : (world.db.rows.countP fun other =>
          other.owner = row.owner && world.weighs other) = world.weight row.owner := rfl
      rw [List.length_singleton] at single
      omega
    · refine le_trans (Int.ofNat_le.mpr ?_) (bounded owner)
      refine List.countP_mono_left fun other inside counted => ?_
      rw [grown, Bool.and_eq_true, Bool.or_eq_true] at counted
      obtain ⟨mine, weighs | label⟩ := counted
      · rw [mine, weighs]
        rfl
      · rw [only other inside (of_decide_eq_true label), decide_eq_true_eq] at mine
        exact (own mine).elim

/-- One answered call keeps the bound. -/
theorem bounded_of_effect {request : Call} {reply : Reply request}
    (bounded : Bounded deployment world)
    (counted : Quota.Counted deployment phase)
    (kept : keepsUp deployment world phase request = true)
    (permits : phase.permits deployment request)
    (effect : world.Effect request reply next) : Bounded deployment next := by
  cases effect with
  | inserted env absent =>
      intro owner
      have before := bounded owner
      obtain ⟨principal, payload, count, role, stage⟩ := permits
      have fresh : phase.stage.fresh = some (count, env) := by rw [stage]; rfl
      have below := counted count env fresh
      simp only [keepsUp, fresh, decide_eq_true_eq] at kept
      have grown : World.weight { world with db := world.db.insert env absent } owner =
          world.weight owner + (decide (env.owner = owner) && world.weighs env).toNat := by
        rw [World.weight, Environments.tally_insert]
        rfl
      rw [grown]
      by_cases own : env.owner = owner
      · subst own
        have one := Bool.toNat_le (decide (env.owner = env.owner) && world.weighs env)
        omega
      · simpa [own] using before
  | committed changes =>
      intro owner
      have commits : phase.Commits changes := permits
      refine Environments.tally_writeAll_le ?_ ?_ kept (bounded owner)
      · intro change present row
        rw [(commits.persists present).flush.owner]
      · intro db row own room
        rw [decide_eq_true_eq] at own room
        rw [← own]
        exact room
  | containerCreated request _ network free => exact bounded_of_containerCreated bounded kept
  | containerRemoved id present =>
      refine bounded_of_weighs bounded rfl fun row _ weighs => ?_
      unfold World.weighs at weighs ⊢
      rw [Bool.or_eq_true, List.any_eq_true] at weighs ⊢
      refine weighs.imp_right ?_
      rintro ⟨container, inside, owns⟩
      exact ⟨container, (Daemon.mem_removeContainer.mp inside).1, owns⟩
  | _ => exact bounded_of_weighs bounded rfl fun _ _ weighs => weighs

/-- The rules of the bound, for runs in which every row fits. -/
theorem rules (deployment : Deployment) :
    Rules deployment (Fits deployment) (Bounded deployment)
      (fun _ phase => Quota.Counted deployment phase) (fun _ _ => True) where
  stable world next phase _ counted := counted
  ambient config action next spawned bounded _ surrounds := by
    obtain ⟨db, docker, -⟩ := surrounds.unchanged
    refine ⟨bounded_of_weighs bounded db fun row _ weighs => ?_, trivial,
      fun role _ count env present => ?_⟩
    · unfold World.weighs at weighs ⊢
      rwa [docker] at weighs
    · rcases Phase.start_stage role with same | same <;> rw [same] at present <;> cases present
  call config event job request reply next bounded counted fits turn permits effect :=
    ⟨bounded_of_effect bounded counted (fits _ turn) permits effect, trivial,
      Quota.counted_advance counted permits⟩

/-- In a run in which every row fits, the containers of an owner never exceed the
quota times the largest number of roles. -/
theorem containers_le (owner : String)
    (assumed : 0 ≤ deployment.settings.maxEnvironmentsPerUser)
    (run : System.Runs deployment refuses (Fits deployment) config) :
    ((config.state.containersOf owner).length : Int) ≤
      deployment.settings.maxEnvironmentsPerUser * deployment.maxRoles := by
  have bounded := (run.sound
    (fun _ => by simpa [World.initial, World.weight, Environments.tally] using assumed)
    (rules deployment)).1 owner
  have few := length_containersOf_le owner (Integrity.of_runs run).1
  calc ((config.state.containersOf owner).length : Int)
      ≤ (config.state.weight owner * deployment.maxRoles : Nat) := Int.ofNat_le.mpr few
    _ = (config.state.weight owner : Int) * deployment.maxRoles := by push_cast; rfl
    _ ≤ deployment.settings.maxEnvironmentsPerUser * deployment.maxRoles :=
        Int.mul_le_mul_of_nonneg_right bounded (Int.natCast_nonneg _)

/-- The bound on a first attempt that has committed RUNNING. -/
theorem containers_le_of_firstAttempt :
    ∃ config, System.Runs Compose.shipped true (Fits Compose.shipped) config ∧
      (config.state.containersOf "alice").length = 2 ∧
      ((config.state.containersOf "alice").length : Int) ≤
        Compose.shipped.settings.maxEnvironmentsPerUser * Compose.shipped.maxRoles := by
  have shown : ((System.initial true).run (machine Compose.shipped) (Fits Compose.shipped)
      (Sample.firstAttempt ++ Sample.succeed 1 1)).map
        (fun config => (config.state.containersOf "alice").length) = some 2 := by
    decide +kernel
  obtain ⟨config, run, two⟩ := Run.exists_run shown
  exact ⟨config, run, two, containers_le "alice" (by decide) run⟩

/-- The thread is a create request. -/
def creates (job : Job) : Bool :=
  match job.role with
  | .request (.create _ _) => true
  | _ => false

/-- The thread is a create request that has begun and is not over. -/
def creating (job : Job) : Bool :=
  creates job && job.live && !job.trace.isEmpty &&
    match job.rest with
    | .call _ _ => true
    | _ => false

/-- A create request moves only while no other one has begun. -/
def serial (config : System) : Occurrence → Bool
  | .advance index _ => !config.threads[index]?.any creates ||
      (List.range config.threads.length).all fun position =>
        position = index || !config.threads[position]?.any creating
  | _ => true

/-- Create requests are executed one at a time. -/
def Serial (config : System) (event : Occurrence) : Prop :=
  serial config event = true

instance (config : System) (event : Occurrence) : Decidable (Serial config event) :=
  inferInstanceAs (Decidable (_ = true))

/-- A container that is up but unhealthy. -/
def unhealthy : Choice :=
  .observed ⟨.running, false, some .unhealthy, []⟩

/-- `thread` starts both roles, the second one is unhealthy, and the attempt fails. -/
def failingAttempt (thread : Nat) : List Occurrence :=
  Sample.succeed thread 8 ++ .advance thread Sample.healthy :: Sample.succeed thread 3 ++
    .advance thread unhealthy :: Sample.succeed thread 5

/-- Six environments are created one after the other, and the first attempt of each
fails and leaves its containers. -/
def sixFailures : List Occurrence :=
  (List.range 6).flatMap fun round =>
    Sample.create (2 * round) (.ofNat 100 round) ++ .ambient (.deliver round) ::
      failingAttempt (2 * round + 1)

/-- Six failed environments of one owner have more containers than the shipped quota
of five environments with two roles, although creates were executed one at a time. -/
theorem exceeded_by_failures :
    ∃ config, Run (machine Compose.shipped) Serial (System.initial true) config ∧
      (config.state.containersOf "alice").length = 12 ∧
      ¬((config.state.containersOf "alice").length : Int) ≤
        Compose.shipped.settings.maxEnvironmentsPerUser * Compose.shipped.maxRoles := by
  have shown : ((System.initial true).run (machine Compose.shipped) Serial sixFailures).map
      (fun config => (config.state.containersOf "alice").length) = some 12 := by
    decide +kernel
  obtain ⟨config, run, twelve⟩ := Run.exists_run shown
  refine ⟨config, run, twelve, ?_⟩
  rw [twelve]
  decide

end Capacity

end Provisioner
