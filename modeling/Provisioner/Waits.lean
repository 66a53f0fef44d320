import Provisioner.Housekeeping
import Provisioner.Calls

/-!
# How long a provision may wait

The staleness sweep reads the time of the PROVISIONING commit, and a provision waits
for one container after the other without touching that time. Each wait is bounded by
the readiness timeout, up to the two seconds of its last sleep, so a provision of
several containers can take several times as long. It outlives the sweep exactly if the
longest such sum reaches the staleness timeout.
-/

namespace Provisioner

open Resumption

namespace Waits

/-- How often a wait that is never satisfied sleeps for two seconds. -/
def rounds (timeout : Int) : Nat :=
  (timeout.toNat + 1) / 2

/-- The longest time in seconds that `count` containers take: all but the last become
ready at the last poll before the deadline, and the last one never does. -/
def longest (timeout : Int) : Nat → Nat
  | 0 => 0
  | count + 1 => count * (2 * (rounds timeout - 1)) + 2 * rounds timeout

/-- How many containers a provision can start. It ends at a spec that cannot be turned
into a request, and at a second container for a role. -/
def startable
    (deployment : Deployment)
    (envId : String)
    (roles : List String) : List String → List ContainerSpec → Nat
  | _, [] => 0
  | used, spec :: specs =>
      match Compose.resolveEnvironment deployment envId spec roles with
      | .error _ => 0
      | .ok environment =>
          match Compose.runRequest deployment envId (Compose.networkName envId) spec
              environment with
          | .error _ => 0
          | .ok _ =>
              if spec.role ∈ used then 0
              else startable deployment envId roles (spec.role :: used) specs + 1

/-- How many containers a provision of the template can start. -/
def startableOf (deployment : Deployment) (templateName envId : String) : Nat :=
  let template := (deployment.templates.lookup templateName).getD []
  startable deployment envId (template.map ContainerSpec.role) []
    (Compose.startOrder template)

/-- Time passes up to a limit, and now and then the staleness sweep runs. A sweep takes
no time, so it falls between two calls of the provision as a whole. -/
inductive Elapses (deployment : Deployment) (limit : Time) : World → World → Prop
  | none (world : World) : Elapses deployment limit world world
  | wait {world middle : World} (instant : Time) :
      Elapses deployment limit world middle →
      middle.clock ≤ instant →
      instant ≤ limit →
      Elapses deployment limit world { middle with clock := instant }
  | sweep {world middle last : World} {result : Except Exn Answer} :
      Elapses deployment limit world middle →
      Housekeeping.Finishes deployment .recoverStale middle last result →
      Elapses deployment limit world last

/-- When a call returns. Only sleeping takes time. -/
def returnsAt (world : World) : Call → Time
  | .sleepUntil instant => max world.clock instant
  | _ => world.clock

/-- A row that was not FAILED is FAILED now. -/
def FailedBy (id : Uuid) (before after : World) : Prop :=
  (∃ row, before.db.find id = some row ∧ row.status ≠ .failed) ∧
    ∃ row, after.db.find id = some row ∧ row.status = .failed

/-- No sweep that runs while the call is under way fails the row. -/
def Undisturbed (deployment : Deployment) (id : Uuid) (world : World) (request : Call) :
    Prop :=
  ∀ middle last result, Elapses deployment (returnsAt world request) world middle →
    Housekeeping.Finishes deployment .recoverStale middle last result →
    ¬FailedBy id middle last

/-- A provision is under way from its PROVISIONING commit to its next use of the
database. Between its last poll and that use no time passes. -/
def underWay (before : Bool) : (request : Call) → Reply request → Bool
  | .commitChanges changes, .ok _ =>
      changes.any fun change => change.now.status = .provisioning
  | .commitChanges _, .error _ => false
  | .loadEnvironment _, _ => false
  | _, _ => before

/-- A provision task amid runs of the staleness sweep. The state notes whether it is
under way, and then no sweep may fail its row. -/
def watch (deployment : Deployment) (id : Uuid) : Service (World × Bool) Call Reply where
  permits state request := state.2 = true → Undisturbed deployment id state.1 request
  answers state request reply next :=
    ∃ middle choice, Elapses deployment (returnsAt state.1 request) state.1 middle ∧
      middle.exec request choice = some (reply, next.1) ∧
      next.2 = underWay state.2 request reply

/-- The staleness sweep never fails the row while a provision of it is under way,
whatever the containers report and whenever the sweep runs. -/
def Spared (deployment : Deployment) (templateName : String) (id : Uuid) : Prop :=
  ∀ world message, message.task = .provision → Uuid.parse message.envId = some id →
    (∀ env, world.db.find id = some env → env.template = templateName) →
    (program deployment (.task message)).Meets (watch deployment id) (fun _ _ => True)
      (world, false)

/-! ## Sums of waits -/

section Sums

variable {timeout : Int}

theorem longest_one (timeout : Int) : longest timeout 1 = 2 * rounds timeout := by
  simp [longest]

/-- The last container may take all of its rounds. -/
theorem rounds_le_longest (timeout : Int) (count : Nat) :
    2 * rounds timeout ≤ longest timeout (count + 1) :=
  Nat.le_add_left _ _

/-- A container that is not the last one leaves one round unused. -/
theorem longest_succ (count : Nat) :
    2 * (rounds timeout - 1) + longest timeout (count + 1) = longest timeout (count + 2) := by
  simp only [longest, Nat.add_one_mul]
  omega

/-- After a container that became ready there is time for the others. -/
theorem rounds_add_longest_le (timeout : Int) (count : Nat) :
    2 * rounds timeout + longest timeout count ≤ longest timeout (count + 1) + 2 := by
  cases count with
  | zero =>
      rw [longest_one]
      exact Nat.le_add_right _ _
  | succ count =>
      rw [← longest_succ]
      omega

/-- The rounds reach the deadline. -/
theorem timeout_le_rounds (timeout : Int) : timeout ≤ 2 * (rounds timeout : Int) := by
  unfold rounds
  omega

/-- The last round starts before the deadline. -/
theorem rounds_le_timeout (positive : 0 < timeout) : 2 * (rounds timeout : Int) ≤ timeout + 1 := by
  unfold rounds
  omega

theorem rounds_pos (positive : 0 < timeout) : 0 < rounds timeout := by
  unfold rounds
  omega

end Sums

/-! ## A provision amid sweeps -/

section Rules

variable {deployment : Deployment} {id : Uuid} {since : Time} {world middle last : World}

/-- A change of all rows that keeps ids shows when a row is looked up. -/
theorem find_of_rows_map {before after : Environments} {change : Environment → Environment}
    {row : Environment} (rows : after.rows = before.rows.map change)
    (keeps : (change row).id = row.id) (found : before.find id = some row) :
    after.find id = some (change row) := by
  obtain ⟨present, own⟩ := Keyed.Table.find_eq_some_iff.mp found
  refine Keyed.Table.find_eq_some_iff.mpr ⟨?_, keeps.trans own⟩
  rw [rows]
  exact List.mem_map_of_mem present

theorem recovered_id {settings : Settings} {now : Time} (row : Environment) :
    (Housekeeping.recovered settings now row).id = row.id ∧
      (Housekeeping.recovered settings now row).template = row.template := by
  by_cases overdue : Housekeeping.Overdue settings now row
  · obtain ⟨message, -, same⟩ := Housekeeping.recovered_of_overdue overdue
    rw [same]
    exact ⟨rfl, rfl⟩
  · rw [Housekeeping.recovered_of_not_overdue overdue]
    exact ⟨rfl, rfl⟩

/-- The sweep looks at every row. -/
theorem find_of_recovers {result : Except Exn Answer} {row : Environment}
    (recovers : Housekeeping.Recovers deployment.settings world last result)
    (found : world.db.find id = some row) :
    last.db.find id = some (Housekeeping.recovered deployment.settings world.clock row) :=
  find_of_rows_map recovers.rows (recovered_id row).1 found

/-- The row was set PROVISIONING at an instant; only the sweep can have touched its status
since. -/
def Committed (id : Uuid) (since : Time) (world : World) : Prop :=
  ∃ row, world.db.find id = some row ∧ row.statusChangedAt = some since ∧
    (row.status = .provisioning ∨ row.status = .failed)

/-- The row is not stale before the timeout. -/
theorem not_overdue_of_early {settings : Settings} {now : Time} {row : Environment}
    (changed : row.statusChangedAt = some since)
    (status : row.status = .provisioning ∨ row.status = .failed)
    (early : now < since + seconds settings.provisioningTimeoutSeconds) :
    ¬Housekeeping.Overdue settings now row := by
  rintro ⟨entry, listed, same, changedAt, dated, past⟩
  cases changed.symm.trans dated
  simp only [Worker.transientTimeouts, List.mem_cons, List.not_mem_nil, or_false] at listed
  rcases status with provisioning | failed
  · rw [provisioning] at same
    rcases listed with rfl | rfl | rfl
    · cases same
    · exact Int.not_le.mpr early (Int.add_le_of_le_sub_right past)
    · cases same
  · rw [failed] at same
    rcases listed with rfl | rfl | rfl <;> cases same

/-- What is left of the world while a call of a provision is under way. -/
structure Passes (world middle : World) (limit : Time) : Prop where
  docker : middle.docker = world.docker
  later : world.clock ≤ middle.clock
  limited : middle.clock ≤ limit

/-- Whatever else happens, the sweep only changes rows. -/
theorem passes_of_elapses {limit : Time} (elapses : Elapses deployment limit world middle)
    (start : world.clock ≤ limit) : Passes world middle limit := by
  induction elapses with
  | none => exact ⟨rfl, Int.le_refl _, start⟩
  | wait instant _ later limited inductionHypothesis =>
      exact ⟨inductionHypothesis.docker, Int.le_trans inductionHypothesis.later later, limited⟩
  | sweep _ finishes inductionHypothesis =>
      have others := (Housekeeping.recovers_of_finishes finishes).others
      rw [others]
      exact ⟨inductionHypothesis.docker, inductionHypothesis.later, inductionHypothesis.limited⟩

/-- Before the timeout the sweep leaves the row alone. -/
theorem committed_of_elapses {limit : Time}
    (elapses : Elapses deployment limit world middle)
    (start : world.clock ≤ limit)
    (early : limit < since + seconds deployment.settings.provisioningTimeoutSeconds)
    (committed : Committed id since world) : Committed id since middle := by
  induction elapses with
  | none => exact committed
  | wait instant _ _ _ inductionHypothesis => exact inductionHypothesis
  | sweep before finishes inductionHypothesis =>
      obtain ⟨row, found, changed, status⟩ := inductionHypothesis
      have recovers := Housekeeping.recovers_of_finishes finishes
      have kept := Housekeeping.recovered_of_not_overdue (not_overdue_of_early changed status
        (Int.lt_of_le_of_lt (passes_of_elapses before start).limited early))
      refine ⟨row, ?_, changed, status⟩
      rw [find_of_recovers recovers found, kept]

theorem clock_le_returnsAt (world : World) (request : Call) :
    world.clock ≤ returnsAt world request := by
  cases request with
  | sleepUntil instant => exact Int.le_max_left _ _
  | _ => exact Int.le_refl _

/-- Before the timeout no sweep fails the row. -/
theorem undisturbed_of_early {request : Call}
    (early : returnsAt world request <
      since + seconds deployment.settings.provisioningTimeoutSeconds)
    (committed : Committed id since world) : Undisturbed deployment id world request := by
  rintro middle last result elapses finishes ⟨⟨row, found, alive⟩, row', found', failed⟩
  have start := clock_le_returnsAt world request
  obtain ⟨same, sameFound, changed, status⟩ := committed_of_elapses elapses start early committed
  cases found.symm.trans sameFound
  have kept := Housekeeping.recovered_of_not_overdue (not_overdue_of_early changed status
    (Int.lt_of_le_of_lt (passes_of_elapses elapses start).limited early))
  have unchanged := find_of_recovers (Housekeeping.recovers_of_finishes finishes) found
  rw [kept] at unchanged
  cases found'.symm.trans unchanged
  exact alive failed

/-- The rule for a call of a provision that is under way. -/
theorem watched_meets {request : Call}
    {post : World × Bool → Except Exn request.Result → Prop}
    (early : returnsAt world request <
      since + seconds deployment.settings.provisioningTimeoutSeconds)
    (committed : Committed id since world)
    (continues : ∀ middle (reply : Reply request) next,
      Passes world middle (returnsAt world request) → Committed id since middle →
      middle.Effect request reply next → post (next, underWay true request reply) reply) :
    (perform request).Meets (watch deployment id) post (world, true) := by
  refine ⟨fun _ => undisturbed_of_early early committed, ?_⟩
  rintro reply ⟨next, flag⟩ ⟨middle, choice, elapses, executed, noted⟩
  have start := clock_le_returnsAt world request
  have passed := passes_of_elapses elapses start
  have still := committed_of_elapses elapses start early committed
  have reached := continues middle reply next passed still (World.exec_effect executed)
  cases noted
  cases reply with
  | ok value => exact reached
  | error exc => exact reached

/-- The rule for a call while no provision is under way. -/
theorem idle_meets {request : Call}
    {post : World × Bool → Except Exn request.Result → Prop}
    (continues : ∀ middle (reply : Reply request) next,
      Elapses deployment (returnsAt world request) world middle →
      middle.Effect request reply next → post (next, underWay false request reply) reply) :
    (perform request).Meets (watch deployment id) post (world, false) := by
  refine ⟨nofun, ?_⟩
  rintro reply ⟨next, flag⟩ ⟨middle, choice, elapses, executed, noted⟩
  have reached := continues middle reply next elapses (World.exec_effect executed)
  cases noted
  cases reply with
  | ok value => exact reached
  | error exc => exact reached

/-- A call that does not start a provision. -/
def Harmless : Call → Prop
  | .commitChanges changes => ∀ change ∈ changes, change.now.status ≠ .provisioning
  | _ => True

theorem underWay_of_harmless {request : Call} (harmless : Harmless request)
    (reply : Reply request) : underWay false request reply = false := by
  cases request with
  | commitChanges changes =>
      cases reply with
      | ok value =>
          unfold underWay
          rw [List.any_eq_false]
          intro change listed
          simpa using harmless change listed
      | error exc => rfl
  | _ => rfl

/-- A program that starts no provision may go on as it likes. -/
theorem meets_of_harmless {ε α : Type} {program : Program Call Reply ε α}
    (harmless : program.Makes Harmless) :
    program.Meets (watch deployment id) (fun reached _ => reached.2 = false) (world, false) := by
  refine Program.Makes.meets harmless ?_ rfl
  rintro ⟨state, flag⟩ request ended good
  cases ended
  refine ⟨nofun, ?_⟩
  rintro reply ⟨next, after⟩ ⟨middle, choice, -, -, noted⟩
  cases noted
  exact underWay_of_harmless good reply

end Rules

/-! ## Waiting in time -/

section InTime

/-- Rounds that are left end later. -/
theorem le_add_rounds (instant : Int) (left : Nat) :
    instant ≤ instant + seconds (2 * left) := by
  unfold seconds
  omega

/-- Seconds that are counted do not go back. -/
theorem le_add_seconds (instant : Int) (count : Nat) : instant ≤ instant + seconds count :=
  Int.le_add_of_nonneg_right (Int.mul_nonneg (Int.natCast_nonneg _) (by decide))

theorem add_seconds (instant : Int) (first second : Nat) :
    instant + seconds (2 * first) + seconds second =
      instant + seconds (2 * first + second : Nat) := by
  unfold seconds
  omega

/-- One round, and then the rounds that are left. -/
theorem add_round (instant : Int) (left : Nat) :
    instant + seconds 2 + seconds (2 * left) = instant + seconds (2 * (left + 1 : Nat)) := by
  unfold seconds
  omega

/-- A container that became ready leaves enough time for the others. -/
theorem ready_in_time {instant reached timeout : Int} {count : Nat}
    (ready : reached + seconds 2 ≤ instant + seconds (2 * rounds timeout)) :
    reached + seconds (longest timeout count) ≤
      instant + seconds (longest timeout (count + 1)) := by
  have sums := rounds_add_longest_le timeout count
  unfold seconds at *
  omega

/-- Where rounds end within one round of a deadline, the first of them began before it. -/
theorem round_before {instant deadline : Int} {count : Nat}
    (before : instant + seconds 2 + seconds (2 * count) < deadline + seconds 2) :
    instant < deadline := by
  unfold seconds at before
  omega

/-- All rounds of a timeout begin before its deadline. -/
theorem rounds_before {timeout : Int} (positive : 0 < timeout) (instant : Int) :
    instant + seconds (2 * rounds timeout) < instant + seconds timeout + seconds 2 := by
  have bound := rounds_le_timeout positive
  unfold seconds
  omega

/-- The last round of a timeout begins before its deadline. -/
theorem last_round_before {timeout : Int} (positive : 0 < timeout) (instant : Int) :
    instant + seconds (2 * (rounds timeout - 1 : Nat)) < instant + seconds timeout := by
  have bound := rounds_le_timeout positive
  have some_round := rounds_pos positive
  unfold seconds
  omega

theorem add_no_rounds (instant : Int) : instant + seconds (2 * (0 : Nat)) = instant := by
  unfold seconds
  omega

variable {deployment : Deployment} {id : Uuid} {since : Time} {world : World}

theorem committed_of_db {next : World} (same : next.db = world.db)
    (committed : Committed id since world) : Committed id since next := by
  unfold Committed
  rw [same]
  exact committed

/-- Before its timeout the row of a provision under way may be looked after. -/
def Early (deployment : Deployment) (since instant : Time) : Prop :=
  instant < since + seconds deployment.settings.provisioningTimeoutSeconds

theorem now_meets {post : World × Bool → Except Exn Time → Prop}
    (early : Early deployment since world.clock)
    (committed : Committed id since world)
    (continues : ∀ next, Committed id since next → next.docker = world.docker →
      next.clock = world.clock → post (next, true) (.ok world.clock)) :
    (perform .now).Meets (watch deployment id) post (world, true) := by
  apply watched_meets early committed
  intro middle reply next passes still effect
  have same : middle.clock = world.clock := Int.le_antisymm passes.limited passes.later
  cases effect with
  | failed _ exc raises => cases raises
  | read _ instant reads =>
      have current : instant = middle.clock := reads
      rw [current, same]
      exact continues middle still passes.docker same

theorem sleep_meets {instant : Time} {post : World × Bool → Except Exn Unit → Prop}
    (later : world.clock ≤ instant)
    (early : Early deployment since instant)
    (committed : Committed id since world)
    (continues : ∀ next, Committed id since next → next.docker = world.docker →
      next.clock = instant → post (next, true) (.ok ())) :
    (perform (.sleepUntil instant)).Meets (watch deployment id) post (world, true) := by
  have ends : returnsAt world (.sleepUntil instant) = instant := Int.max_eq_right later
  apply watched_meets (ends.symm ▸ early) committed
  intro middle reply next passes still effect
  have limited : middle.clock ≤ instant := ends ▸ passes.limited
  cases effect with
  | failed _ exc raises => cases raises
  | read _ value reads => cases reads
  | slept _ =>
      exact continues _ (committed_of_db rfl still) passes.docker (Int.max_eq_right limited)

theorem docker_meets {request : Call} {post : World × Bool → Except Exn request.Result → Prop}
    (docker : request.target = .docker)
    (early : Early deployment since world.clock)
    (committed : Committed id since world)
    (continues : ∀ (middle : World) (reply : Reply request) next, middle.docker = world.docker →
      Committed id since next → next.clock = world.clock → middle.Effect request reply next →
      post (next, true) reply) :
    (perform request).Meets (watch deployment id) post (world, true) := by
  have instant : returnsAt world request = world.clock := by
    cases request <;> first | rfl | cases docker
  apply watched_meets (instant.symm ▸ early) committed
  intro middle reply next passes still effect
  have same : middle.clock = world.clock :=
    Int.le_antisymm (instant ▸ passes.limited) passes.later
  have noted : underWay true request reply = true := by
    cases request <;> first | rfl | cases docker
  have kept : next.db = middle.db ∧ next.clock = middle.clock := by
    cases effect <;> first | exact ⟨rfl, rfl⟩ | cases docker
  rw [noted]
  exact continues middle reply next passes.docker (committed_of_db kept.1 still)
    (kept.2.trans same) effect

/-- How a wait with some rounds left goes: if the container becomes ready, one round is
left over. -/
structure Waited (id : Uuid) (since : Time) (world : World) (left : Nat)
    (reached : World × Bool) (result : Except Exn Unit) : Prop where
  building : reached.2 = true
  committed : Committed id since reached.1
  docker : reached.1.docker = world.docker
  limited : reached.1.clock ≤ world.clock + seconds (2 * left)
  ready : ∀ value, result = .ok value →
    reached.1.clock + seconds 2 ≤ world.clock + seconds (2 * left)

/-- A poll loop takes no more rounds than fit before its deadline. -/
theorem poll_meets {timeout : Int} {deadline : Time} (container : DockerId)
    (spec : ContainerSpec) (fuel left : Nat) (world : World)
    (committed : Committed id since world)
    (enough : deadline ≤ world.clock + seconds (2 * left))
    (early : Early deployment since (world.clock + seconds (2 * left))) :
    (DockerManager.poll deployment container spec timeout deadline fuel).Meets
      (watch deployment id) (Waited id since world left) (world, true) := by
  have forward := le_add_rounds world.clock left
  induction fuel generalizing left world with
  | zero => exact ⟨rfl, committed, rfl, forward, nofun⟩
  | succ fuel inductionHypothesis =>
      have current : Early deployment since world.clock := Int.lt_of_le_of_lt forward early
      refine Program.meets_bind.mpr (now_meets current committed fun next still same clock => ?_)
      dsimp only
      split
      · rename_i before
        cases left with
        | zero =>
            rw [add_no_rounds] at enough
            exact (Int.not_le.mpr before enough).elim
        | succ left =>
        refine Program.meets_bind.mpr (docker_meets rfl (clock ▸ current) still
          fun middle reply next' same' still' clock' effect => ?_)
        have docker : next'.docker = world.docker := by
          cases effect <;> exact same'.trans same
        have now : next'.clock = world.clock := clock'.trans clock
        cases reply with
        | error exc => exact ⟨rfl, still', docker, now ▸ forward, nofun⟩
        | ok observation =>
            dsimp only
            split
            · rename_i decided known
              have spare : next'.clock + seconds 2 ≤
                  world.clock + seconds (2 * (left + 1 : Nat)) := by
                rw [now, ← add_round]
                exact le_add_rounds _ _
              cases decided with
              | ok value => exact ⟨rfl, still', docker, now ▸ forward, fun _ _ => spare⟩
              | error exc => exact ⟨rfl, still', docker, now ▸ forward, nofun⟩
            · rw [← add_round] at enough early
              refine Program.meets_bind.mpr (now_meets (now ▸ current) still'
                fun next₂ still₂ same₂ clock₂ => ?_)
              have woken : Early deployment since (next'.clock + seconds 2) := by
                rw [now]
                exact Int.lt_of_le_of_lt (le_add_rounds _ left) early
              have rest : next₂.clock ≤ next'.clock + seconds 2 := by
                rw [clock₂]
                exact le_add_rounds _ 1
              refine Program.meets_bind.mpr (sleep_meets rest woken still₂
                fun next₃ still₃ same₃ clock₃ => ?_)
              have round : next₃.clock = world.clock + seconds 2 := by rw [clock₃, now]
              rw [← round] at enough early
              refine (inductionHypothesis left next₃ still₃ enough early
                (le_add_rounds _ _)).mono ?_
              rintro reached result ⟨building, committed', docker', limited, ready⟩
              rw [round, add_round] at limited ready
              exact ⟨building, committed', docker'.trans (same₃.trans (same₂.trans docker)),
                limited, ready⟩
      · exact ⟨rfl, still, same, clock ▸ forward, nofun⟩

/-- A wait takes no more rounds than the timeout allows. -/
theorem waitForReady_meets (container : DockerId) (spec : ContainerSpec)
    (committed : Committed id since world)
    (early : Early deployment since (world.clock +
      seconds (2 * rounds deployment.settings.containerReadyTimeoutSeconds))) :
    (DockerManager.waitForReady deployment container spec).Meets (watch deployment id)
      (Waited id since world (rounds deployment.settings.containerReadyTimeoutSeconds))
      (world, true) := by
  have current : Early deployment since world.clock :=
    Int.lt_of_le_of_lt (le_add_rounds _ _) early
  refine Program.meets_bind.mpr (now_meets current committed fun next still same clock => ?_)
  rw [← clock] at early
  refine (poll_meets container spec _ _ next still ?_ early).mono ?_
  · rw [clock]
    exact Int.add_le_add_left (seconds_le (timeout_le_rounds _)) _
  · rintro reached result ⟨building, committed', docker, limited, ready⟩
    rw [clock] at limited ready
    exact ⟨building, committed', docker.trans same, limited, ready⟩

/-- A provision under way is within its time. -/
structure Timely (deployment : Deployment) (id : Uuid) (since : Time)
    (state : World × Bool) : Prop where
  building : state.2 = true
  committed : Committed id since state.1
  early : Early deployment since state.1.clock

/-- A name once taken stays taken. -/
theorem nameTaken_addContainer {daemon : Daemon} {request : Compose.RunRequest}
    {network : Option DockerId} {now : Time} (free : daemon.nameTaken request.name = false)
    (name : String) :
    (daemon.addContainer request network now free).nameTaken name =
      (daemon.nameTaken name || decide (request.name = name)) := by
  unfold Daemon.nameTaken Daemon.addContainer
  rw [Keyed.Table.rows_insert, List.any_append, List.any_cons, List.any_nil, Bool.or_false]
  rfl

/-- A container that starts had a free name. -/
theorem startContainer_meets (envId : String) (spec : ContainerSpec)
    (environment : List (String × EnvironmentValue))
    (committed : Committed id since world) (early : Early deployment since world.clock) :
    (DockerManager.startContainer deployment envId spec environment).Meets (watch deployment id)
      (fun reached result => Timely deployment id since reached ∧
        reached.1.clock = world.clock ∧
        ∀ container, result = .ok container →
          (∃ request, Compose.runRequest deployment envId (Compose.networkName envId) spec
            environment = .ok request) ∧
          world.docker.nameTaken (Compose.containerName envId spec.role) = false ∧
          ∀ name, reached.1.docker.nameTaken name = (world.docker.nameTaken name ||
            decide (Compose.containerName envId spec.role = name))) (world, true) := by
  unfold DockerManager.startContainer
  cases requested : Compose.runRequest deployment envId (Compose.networkName envId) spec
      environment with
  | error exc => exact ⟨⟨rfl, committed, early⟩, rfl, nofun⟩
  | ok request =>
  have named : request.name = Compose.containerName envId spec.role := by
    unfold Compose.runRequest at requested
    split at requested
    · cases requested
    · cases requested
      rfl
  rw [← named]
  refine Program.meets_tryCatch.mpr (docker_meets rfl early committed
    fun middle reply next same still clock effect => ?_)
  have timely : Timely deployment id since (next, true) := ⟨rfl, still, clock.symm ▸ early⟩
  cases effect with
  | failed _ exc raises => exact ⟨timely, clock, nofun⟩
  | read _ value reads => cases reads
  | containerCreated _ _ network free answer _ _ =>
      cases reply with
      | error exc => exact ⟨timely, clock, nofun⟩
      | ok container =>
          refine ⟨timely, clock, fun _ _ => ⟨⟨request, rfl⟩, same ▸ free, fun name => ?_⟩⟩
          rw [← same]
          exact nameTaken_addContainer free name

/-- Reading the port takes no time. -/
theorem readPort_meets (container : DockerId) (spec : ContainerSpec) (hostPort : Option Nat)
    (committed : Committed id since world) (early : Early deployment since world.clock) :
    (DockerManager.readPort container spec hostPort).Meets (watch deployment id)
      (fun reached _ => Timely deployment id since reached ∧
        reached.1.docker = world.docker ∧ reached.1.clock = world.clock) (world, true) := by
  unfold DockerManager.readPort
  split
  · refine Program.meets_bind.mpr (docker_meets rfl early committed
      fun middle reply next same still clock effect => ?_)
    have docker : next.docker = world.docker := by cases effect <;> exact same
    have timely : Timely deployment id since (next, true) := ⟨rfl, still, clock.symm ▸ early⟩
    cases reply with
    | error exc => exact ⟨timely, docker, clock⟩
    | ok observation =>
        dsimp only
        split <;> exact ⟨timely, docker, clock⟩
  · exact ⟨⟨rfl, committed, early⟩, rfl, rfl⟩

/-- The loop over the specs is in time as long as the longest sum of waits is. -/
theorem startContainers_meets (envId : String) (roles : List String)
    (specs : List ContainerSpec) (used : List String) (containers : List DockerId)
    (hostPort : Option Nat) (world : World)
    (committed : Committed id since world)
    (taken : ∀ role ∈ used,
      world.docker.nameTaken (Compose.containerName envId role) = true)
    (early : Early deployment since (world.clock +
      seconds (longest deployment.settings.containerReadyTimeoutSeconds
        (startable deployment envId roles used specs)))) :
    (DockerManager.startContainers deployment envId roles specs containers hostPort).Meets
      (watch deployment id) (fun reached _ => Timely deployment id since reached)
      (world, true) := by
  have current : Early deployment since world.clock :=
    Int.lt_of_le_of_lt (le_add_seconds _ _) early
  induction specs generalizing used containers hostPort world with
  | nil => exact ⟨rfl, committed, current⟩
  | cons spec specs inductionHypothesis =>
      unfold DockerManager.startContainers
      cases resolved : Compose.resolveEnvironment deployment envId spec roles with
      | error exc => exact ⟨rfl, committed, current⟩
      | ok environment =>
      rw [Program.ofExcept_ok, Program.bind_pure]
      refine Program.meets_bind.mpr ((startContainer_meets envId spec environment committed
        current).mono ?_)
      rintro ⟨next, flag⟩ (exc | container) ⟨timely, clock, started⟩
      · exact timely
      obtain ⟨⟨request, requested⟩, free, names⟩ := started container rfl
      have fresh : spec.role ∉ used := by
        intro again
        rw [taken spec.role again] at free
        cases free
      have more : startable deployment envId roles used (spec :: specs) =
          startable deployment envId roles (spec.role :: used) specs + 1 := by
        simp only [startable, resolved, requested, if_neg fresh]
      rw [more, ← clock] at early
      obtain ⟨building, committed', current'⟩ := timely
      cases building
      have inTime := Int.lt_of_le_of_lt (Int.add_le_add_left (seconds_le
        (Int.ofNat_le.mpr (rounds_le_longest _ _))) next.clock) early
      refine Program.meets_bind.mpr ((waitForReady_meets container spec committed'
        inTime).mono ?_)
      rintro ⟨ready, flag⟩ (exc | value) ⟨building, committed₂, same, limited, spare⟩
      · exact ⟨building, committed₂, Int.lt_of_le_of_lt limited inTime⟩
      cases building
      have enough := Int.lt_of_le_of_lt (ready_in_time (spare _ rfl)) early
      have current₂ : Early deployment since ready.clock :=
        Int.lt_of_le_of_lt (le_add_seconds _ _) enough
      refine Program.meets_bind.mpr ((readPort_meets container spec hostPort committed₂
        current₂).mono ?_)
      rintro ⟨last, flag⟩ (exc | port) ⟨⟨building, committed₃, current₃⟩, docker, clock₃⟩
      · exact ⟨building, committed₃, current₃⟩
      cases building
      refine inductionHypothesis (spec.role :: used) _ _ last committed₃ ?_ (clock₃ ▸ enough)
        current₃
      intro role present
      rw [docker, same, names]
      rcases List.mem_cons.mp present with rfl | before
      · simp
      · rw [taken role before]
        rfl

/-- A provision is in time as long as the longest sum of waits is. -/
theorem provision_meets (envId templateName : String)
    (committed : Committed id since world)
    (early : Early deployment since (world.clock +
      seconds (longest deployment.settings.containerReadyTimeoutSeconds
        (startableOf deployment templateName envId)))) :
    (DockerManager.provision deployment envId templateName).Meets (watch deployment id)
      (fun reached _ => Timely deployment id since reached) (world, true) := by
  have current : Early deployment since world.clock :=
    Int.lt_of_le_of_lt (le_add_seconds _ _) early
  unfold DockerManager.provision
  split
  · exact ⟨rfl, committed, current⟩
  · exact ⟨rfl, committed, current⟩
  · rename_i template _ listed
    refine Program.meets_bind.mpr (docker_meets rfl current committed
      fun middle reply next same still clock effect => ?_)
    have timely : Timely deployment id since (next, true) := ⟨rfl, still, clock.symm ▸ current⟩
    cases reply with
    | error exc => exact timely
    | ok network =>
    rw [startableOf, listed, ← clock] at early
    refine Program.meets_bind.mpr ((startContainers_meets envId _ _ [] [] none next still
      (fun _ absent => nomatch absent) early).mono ?_)
    rintro reached (exc | ⟨containers, port⟩) timely
    · exact timely
    · cases port <;> exact timely

end InTime

/-! ## The task amid sweeps -/

section Task

variable {deployment : Deployment} {id : Uuid} {since : Time} {world middle : World}

/-- The row as it was loaded, or as a sweep at this instant left it. -/
def Seen (loaded : Environment) (instant : Time) (world : World) : Prop :=
  world.clock = instant ∧ ∃ row, world.db.find loaded.id = some row ∧
    (row = loaded ∨ (row.status = .failed ∧ row.statusChangedAt = some instant))

theorem seen_of_elapses {loaded : Environment} {instant : Time}
    (elapses : Elapses deployment instant world middle)
    (seen : Seen loaded instant world) : Seen loaded instant middle := by
  have start : world.clock ≤ instant := Int.le_of_eq seen.1
  induction elapses with
  | none => exact seen
  | wait later _ _ limited inductionHypothesis =>
      rename_i forward
      obtain ⟨same, found⟩ := inductionHypothesis
      exact ⟨Int.le_antisymm limited (same ▸ forward), found⟩
  | sweep before finishes inductionHypothesis =>
      obtain ⟨same, row, found, status⟩ := inductionHypothesis
      have recovers := Housekeeping.recovers_of_finishes finishes
      have clock : ∀ middle last : World, last = { middle with db := last.db } →
          last.clock = middle.clock := fun _ _ others => by rw [others]
      refine ⟨(clock _ _ recovers.others).trans same, _, find_of_recovers recovers found, ?_⟩
      rw [same]
      by_cases overdue : Housekeeping.Overdue deployment.settings instant row
      · obtain ⟨message, -, failed⟩ := Housekeeping.recovered_of_overdue overdue
        rw [failed]
        exact .inr ⟨rfl, rfl⟩
      · rw [Housekeeping.recovered_of_not_overdue overdue]
        exact status

/-- The sweep keeps templates. -/
theorem template_of_elapses {limit : Time} {templateName : String}
    (elapses : Elapses deployment limit world middle)
    (template : ∀ env, world.db.find id = some env → env.template = templateName)
    (env : Environment) (found : middle.db.find id = some env) :
    env.template = templateName := by
  induction elapses generalizing env with
  | none => exact template env found
  | wait _ _ _ _ inductionHypothesis => exact inductionHypothesis env found
  | sweep before finishes inductionHypothesis =>
      rename_i middle last result
      have recovers := Housekeeping.recovers_of_finishes finishes
      cases row : middle.db.find id with
      | none =>
          rw [Keyed.Table.find_eq_none_iff] at row
          obtain ⟨present, own⟩ := Keyed.Table.find_eq_some_iff.mp found
          rw [recovers.rows] at present
          obtain ⟨old, member, rfl⟩ := List.mem_map.mp present
          exact (row old member ((recovered_id old).1.symm.trans own)).elim
      | some old =>
          cases found.symm.trans (find_of_recovers recovers row)
          exact (recovered_id old).2.trans (inductionHypothesis old row)

/-- The PROVISIONING commit starts the staleness clock, even where a sweep has just failed
the row. -/
theorem committed_of_seen {loaded : Environment} {instant : Time}
    (seen : Seen loaded instant world) :
    Committed loaded.id instant
      { world with
        db := world.db.writeAll [⟨loaded, loaded.setStatus .provisioning instant⟩] } := by
  obtain ⟨-, row, found, status⟩ := seen
  refine ⟨_, Environments.find_writeAll_single rfl found, ?_⟩
  rcases status with rfl | ⟨failed, changed⟩
  · have stored : row.flush row (row.setStatus .provisioning instant) =
        row.setStatus .provisioning instant := Environment.flush_fresh rfl
    simp only [stored]
    exact ⟨rfl, .inl rfl⟩
  · constructor
    · have flushed := Environment.column_eq_or loaded.statusChangedAt (some instant)
        row.statusChangedAt
      rcases flushed with stored | ⟨-, new⟩
      · exact stored.trans changed
      · exact new
    · have flushed := Environment.column_eq_or loaded.status .provisioning row.status
      rcases flushed with stored | ⟨-, new⟩
      · exact .inr (stored.trans failed)
      · exact .inl new

/-- No provision is under way, or it is in time. -/
def Calm (deployment : Deployment) (id : Uuid) (state : World × Bool) : Prop :=
  state.2 = false ∨ ∃ since, Timely deployment id since state

/-- The task's `try` block is in time as long as the longest sum of waits is. -/
theorem provisionAttempt_meets {envId templateName : String} (started : Time)
    (parsed : Uuid.parse envId = some id)
    (template : ∀ env, world.db.find id = some env → env.template = templateName)
    (fits : (longest deployment.settings.containerReadyTimeoutSeconds
      (startableOf deployment templateName id.str) : Int) <
        deployment.settings.provisioningTimeoutSeconds) :
    (Worker.provisionAttempt deployment envId started).Meets (watch deployment id)
      (fun reached _ => Calm deployment id reached) (world, false) := by
  unfold Worker.provisionAttempt
  rw [Worker.loadEnv_of_parse parsed]
  refine Program.meets_bind.mpr (Worker.during_meets.mpr (idle_meets
    fun middle reply next elapses effect => ?_))
  cases effect with
  | failed _ exc raises => exact .inl rfl
  | read _ row reads =>
  have stored : row = middle.db.find id := reads
  cases row with
  | none => exact .inl rfl
  | some loaded =>
  have own := Keyed.Table.key_of_find stored.symm
  have known := template_of_elapses elapses template loaded stored.symm
  subst own
  have seen : Seen loaded middle.clock middle := ⟨rfl, loaded, stored.symm, .inl rfl⟩
  dsimp only [Except.mapError]
  refine Program.meets_bind.mpr (Worker.during_meets.mpr (idle_meets
    fun middle' reply next elapses' effect' => ?_))
  have seen' : Seen loaded middle.clock middle' := seen_of_elapses elapses' seen
  cases effect' with
  | failed _ exc raises => cases raises
  | read _ now reads' =>
  have current : now = middle.clock := Eq.trans reads' seen'.1
  subst current
  dsimp only [Except.mapError]
  refine Program.meets_bind.mpr (Worker.during_meets.mpr (idle_meets
    fun middle₂ reply next elapses₂ effect₂ => ?_))
  have stands : Elapses deployment middle'.clock middle' middle₂ := elapses₂
  rw [seen'.1] at stands
  have seen₂ := seen_of_elapses stands seen'
  cases effect₂ with
  | failed _ exc raises => exact .inl rfl
  | read _ _ reads => cases reads
  | committed _ =>
  have committed := committed_of_seen seen₂
  have building : underWay false
      (.commitChanges [⟨loaded, loaded.setStatus .provisioning middle.clock⟩]) (.ok ()) =
      true := rfl
  rw [building]
  dsimp only [Except.mapError]
  have early : Early deployment middle.clock (middle₂.clock +
      seconds (longest deployment.settings.containerReadyTimeoutSeconds
        (startableOf deployment templateName loaded.id.str))) := by
    rw [seen₂.1]
    exact Int.add_lt_add_left (seconds_lt fits) _
  rw [← known] at early
  refine Program.meets_bind.mpr (Worker.during_meets.mpr
    ((provision_meets loaded.id.str loaded.template committed early).mono ?_))
  rintro ⟨reached, flag⟩ (exc | result) timely
  · exact .inr ⟨_, timely⟩
  obtain ⟨flagged, committed', early'⟩ := timely
  cases flagged
  dsimp only [Except.mapError]
  refine Program.meets_bind.mpr (Worker.during_meets.mpr (now_meets early' committed'
    fun next still _ clock => ?_))
  dsimp only [Except.mapError]
  refine Program.meets_bind.mpr (Worker.during_meets.mpr (now_meets (clock ▸ early') still
    fun next' still' _ clock' => ?_))
  dsimp only [Except.mapError]
  have now : next'.clock = reached.clock := clock'.trans clock
  refine Program.meets_bind.mpr (Worker.during_meets.mpr (watched_meets
    (Int.lt_of_le_of_lt (Int.le_of_eq now) early') still'
    fun middle₃ reply next₃ _ _ effect₃ => ?_))
  cases effect₃ with
  | failed _ exc raises => exact .inl rfl
  | read _ _ reads => cases reads
  | committed _ =>
  dsimp only [Except.mapError]
  refine (meets_of_harmless ?_).mono fun reached result ended => .inl ended
  exact Program.makes_bind (Program.makes_mapError (DockerManager.perform_makes trivial))
    fun _ => Program.makes_bind
      (Program.makes_mapError (DockerManager.perform_makes trivial)) fun _ =>
      Program.makes_bind (Program.makes_mapError (DockerManager.perform_makes trivial))
        fun _ => trivial

/-- Recording a failure starts no provision. -/
theorem markFailed_harmless (held : Option Environment) (envId message : String) :
    (Worker.markFailed held envId message).Makes Harmless := by
  unfold Worker.markFailed Worker.loadEnv
  refine Program.makes_tryCatch (Program.makes_bind ?_ fun found => ?_) fun _ => trivial
  · split
    · trivial
    · exact DockerManager.perform_makes trivial
  · cases found with
    | none => trivial
    | some fresh =>
        refine Program.makes_bind (DockerManager.perform_makes trivial) fun now => ?_
        refine DockerManager.perform_makes fun change listed => ?_
        rw [List.mem_singleton] at listed
        subst listed
        exact nofun

/-- Asking for a retry starts no provision. -/
theorem selfRetry_harmless (message : Message) (countdown : Int) (exc : Exn) :
    (Worker.selfRetry message countdown exc).Makes Harmless := by
  unfold Worker.selfRetry
  split
  · trivial
  · exact Program.makes_bind (DockerManager.perform_makes trivial) fun _ => trivial

/-- A program that uses the database first ends the provision under way. -/
theorem meets_of_load {ε α : Type} {program : Program Call Reply ε α}
    {resume : Reply (.loadEnvironment id) → Program Call Reply ε α} {state : World × Bool}
    (calm : Calm deployment id state)
    (first : program = .call (.loadEnvironment id) resume)
    (harmless : program.Makes Harmless) :
    program.Meets (watch deployment id) (fun _ _ => True) state := by
  obtain ⟨reached, flag⟩ := state
  rcases calm with ended | ⟨since, building, committed, early⟩
  · cases ended
    exact (meets_of_harmless harmless).mono fun _ _ _ => trivial
  · cases building
    rw [first] at harmless ⊢
    refine ⟨fun _ => undisturbed_of_early early committed, ?_⟩
    rintro reply ⟨next, flag⟩ ⟨middle, choice, -, -, noted⟩
    cases noted
    exact (meets_of_harmless (harmless.2 reply)).mono fun _ _ _ => trivial

/-- A template whose longest sum of waits is below the staleness timeout is spared. -/
theorem spared_of_lt {templateName : String}
    (fits : (longest deployment.settings.containerReadyTimeoutSeconds
      (startableOf deployment templateName id.str) : Int) <
        deployment.settings.provisioningTimeoutSeconds) :
    Spared deployment templateName id := by
  intro world message task parsed template
  simp only [program, task]
  refine Program.meets_bind.mpr (idle_meets fun middle reply next elapses effect => ?_)
  have template' := template_of_elapses elapses template
  cases effect with
  | failed _ exc raises => cases raises
  | read _ started reads =>
  refine Program.meets_tryCatch.mpr
    ((provisionAttempt_meets started parsed template' fits).mono ?_)
  rintro reached (failure | answer) calm
  · refine meets_of_load calm (by
      unfold Worker.markFailed
      rw [Worker.loadEnv_of_parse parsed]
      rfl) ?_
    refine Program.makes_bind (markFailed_harmless _ _ _) fun _ => ?_
    refine Program.makes_bind (DockerManager.perform_makes trivial) fun _ => ?_
    split
    · exact selfRetry_harmless _ _ _
    · trivial
  · trivial

end Task

/-! ## The longest provision -/

section Late

variable {deployment : Deployment} {id : Uuid} {since : Time} {world : World}

/-- What is met after a call holds for each of its answers. -/
theorem answered {request : Call} {post : World × Bool → Except Exn request.Result → Prop}
    {flag : Bool} (choice : Choice) {reply : Reply request} {next : World}
    (met : (perform request).Meets (watch deployment id) post (world, flag))
    (executed : world.exec request choice = some (reply, next)) :
    post (next, underWay flag request reply) reply := by
  have reached := met.2 reply (next, underWay flag request reply)
    ⟨world, choice, .none world, executed, rfl⟩
  cases reply with
  | ok value => exact reached
  | error exc => exact reached

/-- The row is PROVISIONING since an instant. -/
def Building (id : Uuid) (since : Time) (world : World) : Prop :=
  ∃ row, world.db.find id = some row ∧ row.status = .provisioning ∧
    row.statusChangedAt = some since

/-- A row that the sweep must not fail is not stale yet. -/
theorem early_of_now {post : World × Bool → Except Exn Time → Prop}
    (met : (perform .now).Meets (watch deployment id) post (world, true))
    (building : Building id since world) : Early deployment since world.clock := by
  obtain ⟨row, found, status, changed⟩ := building
  refine Int.not_le.mp fun late => ?_
  have swept : ∃ last result,
      Housekeeping.Finishes deployment .recoverStale world last result :=
    Housekeeping.exists_finishes Housekeeping.recover_meets
  obtain ⟨last, result, finishes⟩ := swept
  have overdue : Housekeeping.Overdue deployment.settings world.clock row :=
    ⟨(.provisioning, deployment.settings.provisioningTimeoutSeconds),
      by simp [Worker.transientTimeouts], status, since, changed,
      Int.le_sub_right_of_add_le late⟩
  have stored := find_of_recovers (Housekeeping.recovers_of_finishes finishes) found
  obtain ⟨message, -, failed⟩ := Housekeeping.recovered_of_overdue overdue
  rw [failed] at stored
  refine met.1 rfl world last result (.none world) finishes ⟨⟨row, found, ?_⟩, _, stored, rfl⟩
  rw [status]
  decide

/-- The world some rounds later. -/
def after (world : World) (count : Nat) : World :=
  { world with clock := world.clock + seconds (2 * count) }

@[simp] theorem after_db (count : Nat) : (after world count).db = world.db := rfl

@[simp] theorem after_docker (count : Nat) : (after world count).docker = world.docker := rfl

theorem after_zero (world : World) : after world 0 = world := by
  unfold after
  rw [add_no_rounds]

theorem after_after (count : Nat) : after (after world 1) count = after world (count + 1) := by
  unfold after
  congr 1
  exact add_round world.clock count

/-- A container that is still starting. -/
def starting : Observation :=
  ⟨.created, false, none, []⟩

/-- A container that is ready, whether or not it has a healthcheck. -/
def healthy : Observation :=
  ⟨.running, false, some .healthy, []⟩

theorem verdict_healthy (container : DockerId) (spec : ContainerSpec) :
    DockerManager.verdict deployment container spec healthy = some (.ok ()) := by
  unfold DockerManager.verdict healthy
  dsimp only
  split <;> rfl

theorem reload_observed {container : DockerId} (observation : Observation)
    (present : (world.docker.containers.find container).isSome) :
    world.exec (.containerReload container) (.observed observation) =
      some (.ok observation, world) :=
  if_pos present

section Poll

variable {post : World × Bool → Except Exn Unit → Prop} {container : DockerId}
  {spec : ContainerSpec} {timeout : Int} {deadline : Time} {fuel : Nat}

/-- A container that is still starting costs a round. -/
theorem next_round
    (met : (DockerManager.poll deployment container spec timeout deadline (fuel + 1)).Meets
      (watch deployment id) post (world, true))
    (present : (world.docker.containers.find container).isSome)
    (before : world.clock < deadline) :
    (DockerManager.poll deployment container spec timeout deadline fuel).Meets
      (watch deployment id) post (after world 1, true) := by
  have first := answered .ok (Program.meets_bind.mp met) rfl
  dsimp only at first
  rw [if_pos before] at first
  have second := answered _ (Program.meets_bind.mp first) (reload_observed starting present)
  have third := answered .ok (Program.meets_bind.mp second) rfl
  have fourth := answered .ok (Program.meets_bind.mp third) rfl
  have woken : max world.clock (world.clock + seconds 2) = world.clock + seconds 2 :=
    Int.max_eq_right (le_add_rounds world.clock 1)
  rw [woken] at fourth
  exact fourth

/-- A container that keeps starting costs all rounds that begin before the deadline. -/
theorem next_rounds (count : Nat) (world : World)
    (met : (DockerManager.poll deployment container spec timeout deadline
      (count + fuel)).Meets (watch deployment id) post (world, true))
    (present : (world.docker.containers.find container).isSome)
    (before : world.clock + seconds (2 * count) < deadline + seconds 2) :
    (DockerManager.poll deployment container spec timeout deadline fuel).Meets
      (watch deployment id) post (after world count, true) := by
  induction count generalizing world with
  | zero =>
      rw [Nat.zero_add] at met
      rwa [after_zero]
  | succ count inductionHypothesis =>
      rw [Nat.add_right_comm] at met
      have soon : world.clock < deadline := by
        rw [← add_round] at before
        exact round_before before
      rw [← after_after]
      refine inductionHypothesis (after world 1) (next_round met present soon) present ?_
      rw [← add_round] at before
      exact before

end Poll

/-- A container that never becomes ready takes all rounds of the timeout. -/
theorem late_of_waits {container : DockerId} {spec : ContainerSpec}
    {post : World × Bool → Except Exn Unit → Prop}
    (positive : 0 < deployment.settings.containerReadyTimeoutSeconds)
    (met : (DockerManager.waitForReady deployment container spec).Meets (watch deployment id)
      post (world, true))
    (present : (world.docker.containers.find container).isSome)
    (building : Building id since world) :
    Early deployment since (world.clock +
      seconds (2 * rounds deployment.settings.containerReadyTimeoutSeconds)) := by
  have polls := answered .ok (Program.meets_bind.mp met) rfl
  have last := next_rounds _ world polls present
    (rounds_before positive world.clock)
  exact early_of_now (Program.meets_bind.mp last) building

/-- A container may become ready at the last poll before the deadline. -/
theorem ready_of_waits {container : DockerId} {spec : ContainerSpec}
    {post : World × Bool → Except Exn Unit → Prop}
    (positive : 0 < deployment.settings.containerReadyTimeoutSeconds)
    (met : (DockerManager.waitForReady deployment container spec).Meets (watch deployment id)
      post (world, true))
    (present : (world.docker.containers.find container).isSome) :
    post (after world (rounds deployment.settings.containerReadyTimeoutSeconds - 1), true)
      (.ok ()) := by
  have polls := answered .ok (Program.meets_bind.mp met) rfl
  have budget : DockerManager.pollBudget deployment.settings.containerReadyTimeoutSeconds =
      rounds deployment.settings.containerReadyTimeoutSeconds - 1 + 2 := by
    have some_round := rounds_pos positive
    unfold DockerManager.pollBudget
    unfold rounds at *
    omega
  dsimp only at polls
  rw [budget] at polls
  have begins := last_round_before positive world.clock
  have last := next_rounds _ world polls present
    (Int.lt_of_lt_of_le begins (le_add_rounds _ 1))
  have first := answered .ok (Program.meets_bind.mp last) rfl
  dsimp only at first
  rw [if_pos (by exact begins)] at first
  have second := answered _ (Program.meets_bind.mp first) (reload_observed healthy present)
  dsimp only at second
  rw [verdict_healthy] at second
  exact second

/-- Containers exist for some roles only, and there is one network to attach to. -/
structure Open (envId : String) (used : List String) (world : World) : Prop where
  network : ∃ network,
    world.docker.resolveNetwork (Compose.networkName envId) = .ok network
  names : ∀ container ∈ world.docker.containers.rows,
    ∃ role ∈ used, container.name = Compose.containerName envId role

/-- A container for a new role starts, and it exists. -/
theorem started_of_open {spec : ContainerSpec}
    {environment : List (String × EnvironmentValue)} {used : List String}
    {post : World × Bool → Except Exn DockerId → Prop} {request : Compose.RunRequest}
    (met : (DockerManager.startContainer deployment id.str spec environment).Meets
      (watch deployment id) post (world, true))
    (requested : Compose.runRequest deployment id.str (Compose.networkName id.str) spec
      environment = .ok request)
    (fresh : spec.role ∉ used)
    (free : Open id.str used world)
    (building : Building id since world) :
    ∃ next container, post (next, true) (.ok container) ∧ next.clock = world.clock ∧
      (next.docker.containers.find container).isSome ∧
      Open id.str (spec.role :: used) next ∧ Building id since next := by
  have shape : request.name = Compose.containerName id.str spec.role ∧
      request.network = Compose.networkName id.str := by
    unfold Compose.runRequest at requested
    split at requested
    · cases requested
    · cases requested
      exact ⟨rfl, rfl⟩
  have unused : world.docker.nameTaken request.name = false := by
    rw [Daemon.nameTaken, List.any_eq_false]
    intro container present
    obtain ⟨role, member, named⟩ := free.names container present
    rw [decide_eq_true_eq, named, shape.1, Compose.containerName_inj]
    rintro ⟨-, rfl⟩
    exact fresh member
  obtain ⟨network, resolved⟩ := free.network
  have executed : world.exec (.containersRun request) .ok = some (.ok world.docker.nextId,
      { world with
        docker := world.docker.addContainer request (some network) world.clock unused }) := by
    change some (world.containersRun request) = _
    unfold World.containersRun
    rw [dif_pos unused, shape.2, resolved]
  unfold DockerManager.startContainer at met
  rw [requested, Program.ofExcept_ok, Program.bind_pure] at met
  refine ⟨_, _, answered .ok (Program.meets_tryCatch.mp met) executed, rfl, ?_,
    ⟨⟨network, resolved⟩, ?_⟩, building⟩
  · have created : world.docker.newContainer request (some network) world.clock ∈
        (world.docker.addContainer request (some network) world.clock unused).containers.rows :=
      Daemon.mem_addContainer.mpr (.inr rfl)
    exact Option.isSome_of_eq_some (Keyed.Table.find_of_mem created)
  · intro container present
    change container ∈ (world.docker.addContainer request (some network) world.clock
      unused).containers.rows at present
    rw [Daemon.mem_addContainer] at present
    rcases present with old | rfl
    · obtain ⟨role, member, named⟩ := free.names container old
      exact ⟨role, List.mem_cons_of_mem _ member, named⟩
    · exact ⟨spec.role, List.mem_cons_self, shape.1⟩

/-- Reading the port of a container that is there succeeds at once. -/
theorem read_of_present {container : DockerId} {spec : ContainerSpec} {hostPort : Option Nat}
    {post : World × Bool → Except Exn (Option Nat) → Prop}
    (met : (DockerManager.readPort container spec hostPort).Meets (watch deployment id) post
      (world, true))
    (present : (world.docker.containers.find container).isSome) :
    post (world, true) (.ok hostPort) := by
  unfold DockerManager.readPort at met
  split at met
  · exact answered _ (Program.meets_bind.mp met) (reload_observed healthy present)
  · exact met

/-- The loop over the specs can take the longest sum of waits. -/
theorem late_of_starts (roles : List String) (specs : List ContainerSpec) (used : List String)
    (containers : List DockerId) (hostPort : Option Nat) (count : Nat) (world : World)
    {post : World × Bool → Except Exn (List DockerId × Option Nat) → Prop}
    (positive : 0 < deployment.settings.containerReadyTimeoutSeconds)
    (met : (DockerManager.startContainers deployment id.str roles specs containers
      hostPort).Meets (watch deployment id) post (world, true))
    (startables : startable deployment id.str roles used specs = count + 1)
    (free : Open id.str used world)
    (building : Building id since world) :
    Early deployment since (world.clock +
      seconds (longest deployment.settings.containerReadyTimeoutSeconds (count + 1))) := by
  induction specs generalizing used containers hostPort count world with
  | nil => cases startables
  | cons spec specs inductionHypothesis =>
      unfold startable at startables
      split at startables
      · cases startables
      rename_i environment resolved
      split at startables
      · cases startables
      rename_i request requested
      split at startables
      · cases startables
      rename_i fresh
      unfold DockerManager.startContainers at met
      rw [resolved, Program.ofExcept_ok, Program.bind_pure] at met
      obtain ⟨next, container, continued, clock, present, free', building'⟩ :=
        started_of_open (Program.meets_bind.mp met) requested fresh free building
      rw [← clock]
      have waits := Program.meets_bind.mp continued
      cases count with
      | zero =>
          rw [longest_one]
          exact late_of_waits positive waits present building'
      | succ count =>
          have ready := Program.meets_bind.mp (ready_of_waits positive waits present)
          have rest := inductionHypothesis (spec.role :: used) _ _ count _
            (read_of_present ready present) (Nat.succ.inj startables)
            ⟨free'.network, free'.names⟩ building'
          rw [← longest_succ]
          rw [← add_seconds]
          exact rest

/-- A provision against an empty daemon can take the longest sum of waits. -/
theorem late_of_provision {templateName : String} {count : Nat}
    {post : World × Bool → Except Exn DockerManager.StackResult → Prop}
    (positive : 0 < deployment.settings.containerReadyTimeoutSeconds)
    (met : (DockerManager.provision deployment id.str templateName).Meets (watch deployment id)
      post (world, true))
    (startables : startableOf deployment templateName id.str = count + 1)
    (empty : world.docker = .empty true)
    (building : Building id since world) :
    Early deployment since (world.clock +
      seconds (longest deployment.settings.containerReadyTimeoutSeconds (count + 1))) := by
  unfold startableOf at startables
  unfold DockerManager.provision at met
  split at met
  · rename_i unknown
    rw [unknown] at startables
    cases startables
  · rename_i unknown
    rw [unknown] at startables
    cases startables
  · rename_i template _ listed
    rw [listed] at startables
    dsimp only [Option.getD_some] at startables
    have executed : world.exec (.networksCreate (Compose.networkName id.str) id.str) .ok =
        some (.ok world.docker.nextId, { world with
          docker := world.docker.addNetwork (Compose.networkName id.str) (some id.str)
            world.clock }) := by
      change some (world.networksCreate _ _) = _
      unfold World.networksCreate
      rw [if_neg (by rw [empty]; exact fun named => named.2 rfl)]
    have created := answered .ok (Program.meets_bind.mp met) executed
    dsimp only at created
    have starts := Program.meets_bind.mp created
    have opened : Open id.str [] { world with
        docker := world.docker.addNetwork (Compose.networkName id.str) (some id.str)
          world.clock } := by
      rw [empty]
      refine ⟨⟨0, ?_⟩, fun container absent => nomatch absent⟩
      have only : (Daemon.addNetwork (.empty true) (Compose.networkName id.str) (some id.str)
          world.clock).networksNamed (Compose.networkName id.str) =
            [⟨0, Compose.networkName id.str, some id.str, world.clock⟩] := by
        simp [Daemon.networksNamed, Daemon.addNetwork, Daemon.empty]
      unfold Daemon.resolveNetwork
      rw [only]
    have still : Building id since { world with
        docker := world.docker.addNetwork (Compose.networkName id.str) (some id.str)
          world.clock } := building
    have late := late_of_starts _ _ [] [] none count _ positive starts startables opened still
    exact late

/-- The world in which a row was just inserted. -/
def insertedWorld (id : Uuid) (templateName : String) : World where
  db :=
    { rows := [.inserted id "first" "alice" templateName 300 0]
      nodup := List.nodup_singleton _ }
  docker := .empty true
  queue := []
  sent := []
  clock := 0
  issued := [id]
  nextTask := 0
  metrics := []

theorem find_insertedWorld (id : Uuid) (templateName : String) :
    (insertedWorld id templateName).db.find id =
      some (.inserted id "first" "alice" templateName 300 0) := by
  simp [insertedWorld, Keyed.Table.find, Environment.inserted]

/-- A template that is spared has a longest sum of waits below the staleness timeout. -/
theorem lt_of_spared {templateName : String}
    (positive : 0 < deployment.settings.containerReadyTimeoutSeconds)
    (stale : 0 < deployment.settings.provisioningTimeoutSeconds)
    (spared : Spared deployment templateName id) :
    (longest deployment.settings.containerReadyTimeoutSeconds
      (startableOf deployment templateName id.str) : Int) <
        deployment.settings.provisioningTimeoutSeconds := by
  cases startables : startableOf deployment templateName id.str with
  | zero => exact stale
  | succ count =>
  have found := find_insertedWorld id templateName
  have met := spared (insertedWorld id templateName) ⟨.provision, id.str, 0, 0⟩ rfl
    (Uuid.parse_str id) (fun env stored => by
      cases found.symm.trans stored
      rfl)
  have started := answered .ok (Program.meets_bind.mp met) rfl
  have attempt := Program.meets_tryCatch.mp started
  unfold Worker.provisionAttempt at attempt
  rw [Worker.loadEnv_of_parse (Uuid.parse_str id)] at attempt
  have loaded := answered .ok (Worker.during_meets.mp (Program.meets_bind.mp attempt)) rfl
  rw [found] at loaded
  have dated := answered .ok (Worker.during_meets.mp (Program.meets_bind.mp loaded)) rfl
  have committed := answered .ok (Worker.during_meets.mp (Program.meets_bind.mp dated)) rfl
  have provision := Worker.during_meets.mp (Program.meets_bind.mp committed)
  have late := late_of_provision positive provision startables rfl
    ⟨_, Environments.find_writeAll_single rfl found, rfl, rfl⟩
  exact lt_of_seconds_lt (Int.lt_of_add_lt_add_left late)

end Late

/-- The staleness sweep spares the provisions of a template exactly if the longest sum of
waits, over all containers that the template can start, is below the staleness timeout. -/
theorem spared_iff_longest_lt (deployment : Deployment) (templateName : String) (id : Uuid)
    (ready : 0 < deployment.settings.containerReadyTimeoutSeconds)
    (stale : 0 < deployment.settings.provisioningTimeoutSeconds) :
    Spared deployment templateName id ↔
      (longest deployment.settings.containerReadyTimeoutSeconds
        (startableOf deployment templateName id.str) : Int) <
          deployment.settings.provisioningTimeoutSeconds :=
  ⟨lt_of_spared ready stale, spared_of_lt⟩

/-- The rule on the shipped settings: the two containers of the shipped template wait for
238 seconds at most. -/
theorem spared_of_shipped :
    longest Compose.shipped.settings.containerReadyTimeoutSeconds
        (startableOf Compose.shipped "webapp-postgres" (Sample.envId 1).str) = 238 ∧
      Spared Compose.shipped "webapp-postgres" (Sample.envId 1) := by
  have sum : longest Compose.shipped.settings.containerReadyTimeoutSeconds
      (startableOf Compose.shipped "webapp-postgres" (Sample.envId 1).str) = 238 := by
    decide +kernel
  refine ⟨sum, (spared_iff_longest_lt Compose.shipped "webapp-postgres" (Sample.envId 1)
    (by decide) (by decide)).mpr ?_⟩
  rw [sum]
  decide

/-- The shipped templates with a longer readiness timeout, which is still below the
staleness timeout. -/
def patient : Deployment :=
  { Compose.shipped with settings := { containerReadyTimeoutSeconds := 600 } }

/-- With two containers the sweep fails a live provision although the readiness timeout is
below the staleness timeout. -/
theorem patient_not_spared :
    0 < patient.settings.containerReadyTimeoutSeconds ∧
      patient.settings.containerReadyTimeoutSeconds <
        patient.settings.provisioningTimeoutSeconds ∧
      ¬Spared patient "webapp-postgres" (Sample.envId 1) := by
  refine ⟨by decide, by decide, fun spared => ?_⟩
  have below := lt_of_spared (by decide) (by decide) spared
  have sum : longest patient.settings.containerReadyTimeoutSeconds
      (startableOf patient "webapp-postgres" (Sample.envId 1).str) = 1198 := by
    decide +kernel
  rw [sum] at below
  exact absurd below (by decide)

end Waits

end Provisioner
