import Provisioner.Evidence
import Provisioner.Publishing

/-!
# The guards of `create_environment`

The quota and the duplicate lookup are reads in one transaction that the insert
acts on later, and attempts and sweeps make terminal rows active again without
asking either guard. Both bounds are bounds on the number of active rows of a
kind; they hold in every run in which an insert finds no more than its guard read,
and a row only comes back when there is room for it.
-/

namespace Provisioner

open Resumption

namespace Environments

/-- The number of rows of a kind that count. -/
def tally (db : Environments) (counts kind : Environment → Bool) : Nat :=
  db.rows.countP fun row => kind row && counts row

/-- Whenever a transaction makes a row count that did not, there is room for it. -/
def admits (counts : Environment → Bool) (room : Environments → Environment → Bool) :
    Environments → List Change → Bool
  | _, [] => true
  | db, change :: changes =>
      ((db.find change.seen.id).all fun row =>
        counts row || !counts (row.flush change.seen change.now) || room db row) &&
      admits counts room (db.write change) changes

variable {db : Environments} {counts kind : Environment → Bool} {limit : Int}
  {room : Environments → Environment → Bool} {change : Change} {changes : List Change}

theorem activeCount_eq (owner : String) :
    db.activeCount owner = db.tally Environment.active fun row => row.owner = owner := by
  unfold activeCount tally
  congr 1
  funext row
  simp

theorem length_activeNamed (owner name : String) :
    (db.activeNamed owner name).length =
      db.tally Environment.active fun row => row.owner = owner && row.name = name := by
  unfold activeNamed tally
  rw [List.countP_eq_length_filter]
  congr 2
  funext row
  simp [Bool.and_assoc]

/-- An insert adds at most one row that counts. -/
theorem tally_insert {env : Environment} {absent : db.find env.id = none} :
    tally (db.insert env absent) counts kind =
      db.tally counts kind + (kind env && counts env).toNat :=
  Keyed.Table.countP_insert _

/-- Writing one change keeps the bound when there is room for a row that comes to
count. -/
theorem tally_write_le
    (stable : ∀ row, kind (row.flush change.seen change.now) = kind row)
    (spare : ∀ row, kind row = true → room db row = true →
      (db.tally counts kind : Int) < limit)
    (admitted : db.admits counts room [change] = true)
    (bounded : (db.tally counts kind : Int) ≤ limit) :
    ((db.write change).tally counts kind : Int) ≤ limit := by
  cases found : db.find change.seen.id with
  | none =>
      have same : db.write change = db := Keyed.Table.update_of_absent found
      rw [same]
      exact bounded
  | some row =>
      have counted : (db.write change).tally counts kind + (kind row && counts row).toNat =
          db.tally counts kind +
            (kind (row.flush change.seen change.now) &&
              counts (row.flush change.seen change.now)).toNat :=
        Keyed.Table.countP_update (fun row => kind row && counts row) found
      rw [stable] at counted
      simp only [admits, found, Option.all_some, Bool.and_true, Bool.or_eq_true,
        Bool.not_eq_true'] at admitted
      cases selected : kind row with
      | false =>
          simp only [selected, Bool.false_and, Bool.toNat_false] at counted
          omega
      | true =>
          rcases admitted with (before | not) | free
          · have some := Bool.toNat_le (counts (row.flush change.seen change.now))
            simp only [selected, before, Bool.true_and, Bool.toNat_true] at counted
            omega
          · simp only [selected, not, Bool.true_and, Bool.toNat_false] at counted
            omega
          · have below := spare row selected free
            have some := Bool.toNat_le
              (kind row && counts (row.flush change.seen change.now))
            rw [selected] at some counted
            omega

/-- A transaction keeps the bound when there is room for every row that comes to
count. -/
theorem tally_writeAll_le
    (stable : ∀ change ∈ changes, ∀ row,
      kind (row.flush change.seen change.now) = kind row)
    (spare : ∀ db row, kind row = true → room db row = true →
      (db.tally counts kind : Int) < limit)
    (admitted : db.admits counts room changes = true)
    (bounded : (db.tally counts kind : Int) ≤ limit) :
    ((db.writeAll changes).tally counts kind : Int) ≤ limit := by
  induction changes generalizing db with
  | nil => exact bounded
  | cons change changes inductionHypothesis =>
      rw [List.forall_mem_cons] at stable
      simp only [admits, Bool.and_eq_true] at admitted
      have first : ((db.write change).tally counts kind : Int) ≤ limit := by
        refine tally_write_le stable.1 (spare db) ?_ bounded
        simp only [admits, Bool.and_true]
        exact admitted.1
      exact inductionHypothesis stable.2 admitted.2 first

end Environments

variable {deployment : Deployment} {refuses : Bool} {config : System}
  {world next : World} {phase : Phase}

/-- A payload with a name of its own. -/
def numbered (number : Fin 5) : EnvironmentCreate :=
  { Sample.payload with
    name := match number with
      | 0 => "demo-0"
      | 1 => "demo-1"
      | 2 => "demo-2"
      | 3 => "demo-3"
      | 4 => "demo-4"
    nameLength := by
      match number with
      | 0 | 1 | 2 | 3 | 4 => decide
    nameCharacters := by
      match number with
      | 0 | 1 | 2 | 3 | 4 => simp }

/-- Five creates, one after the other; the first attempt on the first row fails, and its
retry makes the row active again. -/
def comeback : List Occurrence :=
  (List.finRange 5).flatMap (fun number : Fin 5 =>
    .ambient (.request (.create "alice" (numbered number))) :: Sample.succeed number.val 2 ++
      .advance number.val (.fresh (Sample.envId (.ofNat 100 number.val))) ::
        Sample.succeed number.val 2) ++
  Sample.deliver ++ Sample.succeed 5 4 ++ .advance 5 Sample.refused :: Sample.succeed 5 5 ++
    .ambient (.tick 10000000) :: .ambient (.deliver 4) :: Sample.succeed 6 4

namespace Quota

/-- An insert is committed while its owner has no more active rows than the
request counted, and a terminal row becomes active again only while its owner
is below the quota. -/
def keepsUp (deployment : Deployment) (world : World) (phase : Phase) : Call → Bool
  | .commitInsert env =>
      match phase.stage.fresh with
      | some (count, _) => world.db.activeCount env.owner ≤ count
      | none => true
  | .commitChanges changes => world.db.admits Environment.active
      (fun db row =>
        (db.activeCount row.owner : Int) < deployment.settings.maxEnvironmentsPerUser)
      changes
  | _ => true

/-- No create acts on an outdated count, and no row comes back over the quota. -/
def Unraced (deployment : Deployment) (config : System) (event : Occurrence) : Prop :=
  ∀ turn ∈ config.turn event,
    keepsUp deployment config.state (Job.phase turn.1) turn.2 = true

instance (config : System) (event : Occurrence) :
    Decidable (Unraced deployment config event) :=
  inferInstanceAs (Decidable (∀ turn ∈ config.turn event, _))

/-- No owner has more active rows than the quota. -/
def Bounded (deployment : Deployment) (world : World) : Prop :=
  ∀ owner, (world.db.activeCount owner : Int) ≤ deployment.settings.maxEnvironmentsPerUser

/-- A request that has flushed its insert has counted fewer rows than the quota. -/
def Counted (deployment : Deployment) (phase : Phase) : Prop :=
  ∀ count env, phase.stage.fresh = some (count, env) →
    (count : Int) < deployment.settings.maxEnvironmentsPerUser

/-- The guard of the request holds for the count that it remembers. -/
theorem counted_advance {request : Call} {reply : Reply request}
    (counted : Counted deployment phase)
    (permits : phase.permits deployment request) :
    Counted deployment (phase.advance request reply) := by
  intro count env present
  rcases Stage.fresh_after present with ⟨old, fresh, -⟩ | ⟨checked, flushes⟩
  · exact counted count old fresh
  · cases flushes with
    | flush name owner template ttlSeconds _ =>
        obtain ⟨payload, earlier, -, stage, below, -⟩ := permits
        rw [checked] at stage
        cases stage
        exact below

/-- One answered call keeps every owner within the quota. -/
theorem bounded_of_effect {request : Call} {reply : Reply request}
    (bounded : Bounded deployment world)
    (counted : Counted deployment phase)
    (kept : keepsUp deployment world phase request = true)
    (permits : phase.permits deployment request)
    (effect : world.Effect request reply next) : Bounded deployment next := by
  intro owner
  have before := bounded owner
  rcases effect.db with same | ⟨env, absent, rfl, same⟩ | ⟨changes, rfl, same⟩
  · rw [same]
    exact before
  · obtain ⟨principal, payload, count, role, stage⟩ := permits
    have fresh : phase.stage.fresh = some (count, env) := by rw [stage]; rfl
    have below := counted count env fresh
    simp only [keepsUp, fresh, decide_eq_true_eq] at kept
    rw [same]
    rw [Environments.activeCount_eq] at before kept ⊢
    rw [Environments.tally_insert]
    by_cases own : env.owner = owner
    · subst own
      have one := Bool.toNat_le (decide (env.owner = env.owner) && env.active)
      omega
    · simpa [own] using before
  · have commits : phase.Commits changes := permits
    rw [same]
    rw [Environments.activeCount_eq] at before ⊢
    refine Environments.tally_writeAll_le ?_ ?_ kept before
    · intro change present row
      rw [(commits.persists present).flush.owner]
    · intro db row own room
      rw [decide_eq_true_eq] at own room
      rw [Environments.activeCount_eq, own] at room
      exact room

/-- The quota rules, for runs without races. -/
theorem rules (deployment : Deployment) :
    Rules deployment (Unraced deployment) (Bounded deployment)
      (fun _ phase => Counted deployment phase) (fun _ _ => True) where
  stable world next phase _ counted := counted
  ambient config action next spawned bounded _ surrounds := by
    refine ⟨?_, trivial, fun role _ count env present => ?_⟩
    · intro owner
      rw [surrounds.unchanged.1]
      exact bounded owner
    · rcases Phase.start_stage role with same | same <;> rw [same] at present <;> cases present
  call config event job request reply next bounded counted unraced turn permits effect :=
    ⟨bounded_of_effect bounded counted (unraced _ turn) permits effect, trivial,
      counted_advance counted permits⟩

/-- In a run without races no owner ever has more active rows than the quota. -/
theorem activeCount_le (owner : String)
    (assumed : 0 ≤ deployment.settings.maxEnvironmentsPerUser)
    (run : System.Runs deployment refuses (Unraced deployment) config) :
    (config.state.db.activeCount owner : Int) ≤
      deployment.settings.maxEnvironmentsPerUser :=
  (run.sound (fun _ => by simpa [World.initial, Environments.activeCount] using assumed)
    (rules deployment)).1 owner

/-- The bound when the owner is at the quota, and a row has come back meanwhile. -/
theorem activeCount_le_of_comeback :
    ∃ config, System.Runs Compose.shipped true (Unraced Compose.shipped) config ∧
      config.state.db.activeCount "alice" = 5 ∧
      (config.state.db.activeCount "alice" : Int) ≤
        Compose.shipped.settings.maxEnvironmentsPerUser := by
  have shown : ((System.initial true).run (machine Compose.shipped) (Unraced Compose.shipped)
      comeback).map (fun config => config.state.db.activeCount "alice") = some 5 := by
    decide +kernel
  obtain ⟨config, run, five⟩ := Run.exists_run shown
  exact ⟨config, run, five, activeCount_le "alice" (by decide) run⟩

/-- Six requests count, and then all six insert. -/
def sixCreates : List Occurrence :=
  (List.range 6).flatMap (fun thread =>
    .ambient (.request (.create "alice" Sample.payload)) :: Sample.succeed thread 2) ++
  (List.range 6).flatMap fun thread =>
    .advance thread (.fresh (Sample.envId (.ofNat 100 thread))) :: Sample.succeed thread 2

/-- Six interleaved requests of one owner exceed the shipped quota of five. -/
theorem exceeded_by_creates :
    ∃ config, Reachable (machine Compose.shipped) (System.initial true) config ∧
      config.state.db.activeCount "alice" = 6 ∧
      ¬(config.state.db.activeCount "alice" : Int) ≤
        Compose.shipped.settings.maxEnvironmentsPerUser := by
  have shown : ((System.initial true).run (machine Compose.shipped) (fun _ _ => True)
      sixCreates).map (fun config => config.state.db.activeCount "alice") = some 6 := by
    decide +kernel
  obtain ⟨config, run, six⟩ := Run.exists_run shown
  refine ⟨config, run, six, ?_⟩
  rw [six]
  decide

end Quota

namespace Names

/-- What a duplicate lookup returned. -/
def lookup : Entry Reply → Option (List Environment)
  | ⟨.findActive _ _, .ok rows⟩ => some rows
  | _ => none

/-- An insert is committed while no more active rows have its owner and name than the
request's own lookup returned, and a terminal row becomes active again only while its name
is free. -/
def keepsUp (world : World) (trace : List (Entry Reply)) : Call → Bool
  | .commitInsert env => (trace.filterMap lookup).all fun rows =>
      (world.db.activeNamed env.owner env.name).length ≤ rows.length
  | .commitChanges changes => world.db.admits Environment.active
      (fun db row => (db.activeNamed row.owner row.name).isEmpty) changes
  | _ => true

/-- No create acts on an outdated lookup, and no row comes back under a name that
was taken meanwhile. -/
def Unraced (config : System) (event : Occurrence) : Prop :=
  ∀ turn ∈ config.turn event, keepsUp config.state turn.1.trace turn.2 = true

instance (config : System) (event : Occurrence) : Decidable (Unraced config event) :=
  inferInstanceAs (Decidable (∀ turn ∈ config.turn event, _))

/-- No owner has two active rows of one name. -/
def Unique (world : World) : Prop :=
  ∀ owner name, (world.db.activeNamed owner name).length ≤ 1

/-! ### The guard of a request -/

/-- What entitles a create to the commit of its insert: its lookup found nothing. -/
def Checked (role : Role) (trace : List (Entry Reply)) : Call → Prop
  | .commitInsert _ => ∀ principal payload, role = .request (.create principal payload) →
      (⟨.findActive principal payload.name, .ok []⟩ : Entry Reply) ∈ trace
  | _ => True

/-- A create that comes to its insert has passed the guard against duplicates. -/
theorem create_checked (deployment : Deployment) (principal : String)
    (payload : EnvironmentCreate) :
    (evidence Evidence.Possible Checked).Allows (fun _ _ => True)
      (.request (.create principal payload), [])
      (Router.createEnvironment deployment principal payload) := by
  refine Program.meets_bind.mpr (Evidence.allows_perform trivial fun reply => ?_)
  rcases reply with exc | count
  · trivial
  dsimp only
  split
  · trivial
  refine Program.meets_bind.mpr (Evidence.allows_perform trivial fun reply => ?_)
  rcases reply with exc | rows
  · trivial
  -- One row is refused with 409, and more than one raises.
  rcases rows with _ | ⟨row, _ | ⟨other, rows⟩⟩
  · refine Program.meets_bind.mpr (Program.meets_pure.mpr ?_)
    dsimp only
    rw [if_neg (by simp)]
    refine Program.meets_bind.mpr (Evidence.allows_perform trivial fun reply => ?_)
    rcases reply with exc | env
    · trivial
    refine Program.meets_bind.mpr (Evidence.allows_perform trivial fun reply => ?_)
    rcases reply with exc | task
    · trivial
    refine Program.meets_bind.mpr (Evidence.allows_perform ?_ fun reply => ?_)
    · intro principal' payload' same
      cases same
      exact List.mem_append_left _ (List.mem_append_left _ (Evidence.mem_concat _ _))
    · rcases reply with exc | done <;> trivial
  · trivial
  · trivial

/-- Every thread that comes to an insert has passed the guard. -/
theorem program_checked (deployment : Deployment) (role : Role) :
    (evidence Evidence.Possible Checked).Allows (fun _ _ => True) (role, [])
      (program deployment role) := by
  by_cases create : ∃ principal payload, role = .request (.create principal payload)
  · obtain ⟨principal, payload, rfl⟩ := create
    exact create_checked deployment principal payload
  · have makes : (program deployment role).Makes fun request =>
        ∀ later, Checked role later request := by
      refine program_makes_quiet (fun request _ later => ?_) fun _ _ _ _ _ _ => trivial
      cases request with
      | commitInsert env =>
          intro principal payload same
          exact (create ⟨principal, payload, same⟩).elim
      | _ => trivial
    exact (evidence_of_makes makes fun later request _ fits => fits later).mono
      fun _ _ _ => trivial

/-- When no insert is outdated, none finds an active row of its owner and name. -/
theorem free_of_keepsUp {job : Job} {env : Environment}
    {resume : Reply (.commitInsert env) → Action Answer}
    (run : System.Runs deployment refuses allowed config)
    (member : job ∈ config.threads)
    (rest : job.rest = .call (.commitInsert env) resume)
    (kept : keepsUp config.state job.trace (.commitInsert env) = true) :
    config.state.db.activeNamed env.owner env.name = [] := by
  have checked : Checked job.role job.trace (.commitInsert env) := run.evidenced_next rfl
    (Evidence.describes deployment _) (program_checked deployment) member rest
  obtain ⟨principal, payload, count, role, -⟩ := System.Runs.permits run member rest
  rw [Job.role_phase] at role
  have looked := checked principal payload role
  have none : [] ∈ job.trace.filterMap lookup := List.mem_filterMap.mpr ⟨_, looked, rfl⟩
  have few := of_decide_eq_true (List.all_eq_true.mp kept [] none)
  exact List.eq_nil_of_length_eq_zero (Nat.le_zero.mp few)

/-- One answered call keeps active names unique. -/
theorem unique_of_effect {request : Call} {reply : Reply request}
    (unique : Unique world)
    (free : ∀ env, request = .commitInsert env →
      world.db.activeNamed env.owner env.name = [])
    (admitted : ∀ changes, request = .commitChanges changes →
      world.db.admits Environment.active
        (fun db row => (db.activeNamed row.owner row.name).isEmpty) changes = true)
    (permits : phase.permits deployment request)
    (effect : world.Effect request reply next) : Unique next := by
  intro owner name
  have before := unique owner name
  rcases effect.db with same | ⟨env, absent, rfl, same⟩ | ⟨changes, rfl, same⟩
  · rw [same]
    exact before
  · rw [same]
    have none : (world.db.activeNamed env.owner env.name).length = 0 := by
      rw [free env rfl]
      rfl
    rw [Environments.length_activeNamed] at before none ⊢
    rw [Environments.tally_insert]
    by_cases own : env.owner = owner ∧ env.name = name
    · obtain ⟨rfl, rfl⟩ := own
      have one := Bool.toNat_le
        ((decide (env.owner = env.owner) && decide (env.name = env.name)) && env.active)
      omega
    · have other : (decide (env.owner = owner) && decide (env.name = name)) = false := by
        simpa using own
      simpa [other] using before
  · have commits : phase.Commits changes := permits
    rw [same]
    rw [Environments.length_activeNamed] at before ⊢
    have bounded : ((Environments.tally (world.db.writeAll changes) Environment.active
        fun row => row.owner = owner && row.name = name : Nat) : Int) ≤ 1 := by
      refine Environments.tally_writeAll_le ?_ ?_ (admitted changes rfl)
        (by exact_mod_cast before)
      · intro change present row
        rw [(commits.persists present).flush.owner, (commits.persists present).flush.name]
      · intro db row own room
        simp only [Bool.and_eq_true, decide_eq_true_eq] at own
        rw [own.1, own.2, List.isEmpty_iff_length_eq_zero,
          Environments.length_activeNamed] at room
        omega
    exact_mod_cast bounded

/-- Active names are unique in every run without races. -/
theorem unique_of_runs (run : System.Runs deployment refuses Unraced config) :
    Unique config.state := by
  refine run.invariant (fun config => Unique config.state) ?_ ?_ ?_ ?_
  · intro owner name
    simp [System.initial, World.initial, Environments.activeNamed]
  · intro config action next spawned _ unique _ surrounds owner name
    rw [surrounds.unchanged.1]
    exact unique owner name
  · intro config index job _ unique _ _ _
    exact unique
  · intro config index job request resume choice reply next ran unique unraced found alive
      rest permits effect
    have kept := unraced (job, request) (Config.turn_advance found rest)
    refine unique_of_effect unique ?_ ?_ permits effect
    · rintro env rfl
      exact free_of_keepsUp ran (List.mem_of_getElem? found) rest kept
    · rintro changes rfl
      exact kept

/-- At most one row has a name, so the lookup does not raise. -/
theorem scalarOneOrNone_of_length {rows : List Environment} (few : rows.length ≤ 1) :
    ∃ found, Router.scalarOneOrNone rows = .ok found := by
  cases rows with
  | nil => exact ⟨none, rfl⟩
  | cons row rows =>
      cases rows with
      | nil => exact ⟨some row, rfl⟩
      | cons other rows =>
          rw [List.length_cons, List.length_cons] at few
          omega

/-- In a run without races two active rows of one owner and name are the same, and
no duplicate lookup has found two rows. -/
theorem active_unique (run : System.Runs deployment refuses Unraced config) :
    (∀ first ∈ config.state.db.rows, ∀ second ∈ config.state.db.rows,
      first.active = true → second.active = true → first.owner = second.owner →
      first.name = second.name → first = second) ∧
    ∀ job ∈ config.threads, ∀ owner name rows,
      ⟨.findActive owner name, .ok rows⟩ ∈ job.trace →
      ∃ found, Router.scalarOneOrNone rows = .ok found := by
  refine ⟨?_, ?_⟩
  · intro first firstPresent second secondPresent firstActive secondActive owner name
    have few := unique_of_runs run second.owner second.name
    have firstListed : first ∈
        config.state.db.activeNamed second.owner second.name := by
      simp [Environments.activeNamed, firstPresent, firstActive, owner, name]
    have secondListed : second ∈
        config.state.db.activeNamed second.owner second.name := by
      simp [Environments.activeNamed, secondPresent, secondActive]
    obtain ⟨left, leftInside, rfl⟩ := List.getElem_of_mem firstListed
    obtain ⟨right, rightInside, same⟩ := List.getElem_of_mem secondListed
    have equal : left = right := by omega
    subst equal
    exact same
  · intro job present owner name rows recorded
    have listed := run.entries rfl
      (fun _ entry => ∀ owner name rows, entry = ⟨.findActive owner name, .ok rows⟩ →
        rows.length ≤ 1) ?_ job present _ recorded owner name rows rfl
    · exact scalarOneOrNone_of_length listed
    · rintro config event job request choice reply next ran unraced turn member executed
        owner name rows same
      cases same
      have effect := World.exec_effect executed
      cases effect with
      | read _ _ reads =>
          have found : rows.Perm (config.state.db.activeNamed owner name) := reads
          rw [found.length_eq]
          exact unique_of_runs ran owner name

/-- The rule with five active rows, one of which has come back. -/
theorem active_unique_of_comeback :
    ∃ config, System.Runs Compose.shipped true Unraced config ∧
      config.state.db.activeCount "alice" = 5 ∧
      (∀ first ∈ config.state.db.rows, ∀ second ∈ config.state.db.rows,
        first.active = true → second.active = true → first.owner = second.owner →
        first.name = second.name → first = second) ∧
      ∀ job ∈ config.threads, ∀ owner name rows,
        ⟨.findActive owner name, .ok rows⟩ ∈ job.trace →
        ∃ found, Router.scalarOneOrNone rows = .ok found := by
  have shown : ((System.initial true).run (machine Compose.shipped) Unraced comeback).map
      (fun config => config.state.db.activeCount "alice") = some 5 := by decide +kernel
  obtain ⟨config, run, five⟩ := Run.exists_run shown
  exact ⟨config, run, five, active_unique run⟩

/-- Two requests look the name up, then both insert, and a third one meets both
rows. -/
def twoCreates : List Occurrence :=
  (List.range 2).flatMap (fun thread =>
    .ambient (.request (.create "alice" Sample.payload)) :: Sample.succeed thread 2) ++
  (List.range 2).flatMap (fun thread =>
    .advance thread (.fresh (Sample.envId (.ofNat 100 thread))) :: Sample.succeed thread 2) ++
  .ambient (.request (.create "alice" Sample.payload)) :: Sample.succeed 2 2

/-- The guarded columns of a row. -/
def guarded (config : System) (number : Fin 100) : Option (Bool × String × String) :=
  (config.state.db.find (Sample.envId number)).map fun row =>
    (row.active, row.owner, row.name)

/-- Some request ended in an unhandled `MultipleResultsFound`. -/
def unhandled (config : System) : Bool :=
  config.threads.any fun job =>
    match job.rest with
    | .raise exc => exc.cls = .multipleResultsFound
    | _ => false

/-- Two interleaved requests leave two active rows of one owner and name, and the
next request for that name raises `MultipleResultsFound`. -/
theorem duplicated_by_creates :
    ∃ config first second,
      Reachable (machine Compose.shipped) (System.initial true) config ∧
      first ∈ config.state.db.rows ∧ second ∈ config.state.db.rows ∧ first ≠ second ∧
      first.active = true ∧ second.active = true ∧
      first.owner = second.owner ∧ first.name = second.name ∧
      ∃ job ∈ config.threads, ∃ exc,
        job.rest = .raise exc ∧ exc.cls = .multipleResultsFound := by
  have shown : ((System.initial true).run (machine Compose.shipped) (fun _ _ => True)
      twoCreates).map (fun config => (guarded config 0, guarded config 1,
        unhandled config)) =
      some (some (true, "alice", "demo"), some (true, "alice", "demo"), true) := by
    decide +kernel
  obtain ⟨config, run, seen⟩ := Run.exists_run shown
  simp only [guarded, Prod.mk.injEq, Option.map_eq_some_iff] at seen
  obtain ⟨⟨first, foundFirst, firstActive, firstOwner, firstName⟩,
    ⟨second, foundSecond, secondActive, secondOwner, secondName⟩, raised⟩ := seen
  refine ⟨config, first, second, run, Keyed.Table.mem_of_find foundFirst,
    Keyed.Table.mem_of_find foundSecond, ?_, firstActive, secondActive,
    firstOwner.trans secondOwner.symm, firstName.trans secondName.symm, ?_⟩
  · rintro rfl
    have ids := (Keyed.Table.key_of_find foundFirst).symm.trans
      (Keyed.Table.key_of_find foundSecond)
    exact absurd ids (by decide)
  · obtain ⟨job, present, ended⟩ := List.any_eq_true.mp raised
    refine ⟨job, present, ?_⟩
    split at ended
    · rename_i exc rest
      exact ⟨exc, rest, by simpa using ended⟩
    · cases ended

end Names

end Provisioner
