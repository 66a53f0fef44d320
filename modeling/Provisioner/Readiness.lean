import Mathlib.Data.Rat.Floor
import Mathlib.Tactic.Linarith
import Provisioner.DockerManager
import Provisioner.Resumption.Execution

/-!
# What decides readiness

`_wait_for_ready` against a container that shows an arbitrary sequence of states, on a clock
on which every call takes some time and a sleep lasts at least as long as asked. The first
state that decides anything before the deadline decides the result.
-/

namespace Provisioner

open Resumption

namespace Readiness

/-- `_wait_for_ready` -/
def waitForReady
    (deployment : Deployment)
    (container : DockerId)
    (spec : ContainerSpec)
    (timeout : Option Int) : Action Unit := do
  -- `timeout or settings.container_ready_timeout_seconds`
  let timeout := match timeout with
    | none | some 0 => deployment.settings.containerReadyTimeoutSeconds
    | some timeout => timeout
  let instant ← perform .now
  DockerManager.poll deployment container spec timeout (instant + seconds timeout)
    (DockerManager.pollBudget timeout)

theorem waitForReady_default (deployment : Deployment) (container : DockerId)
    (spec : ContainerSpec) :
    DockerManager.waitForReady deployment container spec =
      waitForReady deployment container spec none := rfl

/-! ## States that decide -/

/-- The container has stopped. -/
def Stopped (observation : Observation) : Prop :=
  observation.status = .exited ∨ observation.status = .dead

/-- The container was killed for its use of memory. -/
def Killed (observation : Observation) : Prop :=
  Stopped observation ∧ observation.oomKilled = true

/-- The container is ready: it is running, and healthy if it has a healthcheck. -/
def Ready (spec : ContainerSpec) (observation : Observation) : Prop :=
  observation.status = .running ∧
    (spec.healthcheck.isSome → observation.health = some .healthy)

/-- The container will not become ready. -/
def Failed (spec : ContainerSpec) (observation : Observation) : Prop :=
  Stopped observation ∨
    observation.status = .running ∧ spec.healthcheck.isSome ∧
      observation.health = some .unhealthy

/-- The observation decides the wait. -/
def Decisive (spec : ContainerSpec) (observation : Observation) : Prop :=
  Ready spec observation ∨ Failed spec observation

/-- The limits of the spec can be computed, as the message about memory requires. -/
def Limited (deployment : Deployment) (spec : ContainerSpec) : Prop :=
  ∃ limits, Compose.resourceLimits deployment.settings spec = .ok limits

/-- The message about memory. -/
def memoryExceeded (container : DockerId) (spec : ContainerSpec) (memory : MemoryLimit) : Exn :=
  ⟨.runtimeError, DockerManager.describe container spec ++ " exceeded its memory limit of " ++
    DockerManager.memoryText memory ++ " and was killed during startup"⟩

/-- Other messages about a container that failed. -/
def failure (container : DockerId) (spec : ContainerSpec) (what : String) : Exn :=
  ⟨.runtimeError, DockerManager.describe container spec ++ what⟩

section Verdict

variable {deployment : Deployment} {container : DockerId} {spec : ContainerSpec}
  {observation : Observation}

theorem verdict_of_ready (ready : Ready spec observation) :
    DockerManager.verdict deployment container spec observation = some (.ok ()) := by
  unfold DockerManager.verdict
  rw [ready.1]
  dsimp only
  split
  · rfl
  · rename_i checked
    rw [ready.2 (Option.isSome_iff_ne_none.mpr fun none => checked (by rw [none]; rfl))]

theorem verdict_of_stopped (stopped : Stopped observation) :
    DockerManager.verdict deployment container spec observation =
      some (.error (DockerManager.startupFailure deployment container spec
        observation.oomKilled)) := by
  unfold DockerManager.verdict
  rcases stopped with exited | dead
  · rw [exited]
  · rw [dead]

theorem verdict_of_unhealthy (running : observation.status = .running)
    (checked : spec.healthcheck.isSome) (unhealthy : observation.health = some .unhealthy) :
    DockerManager.verdict deployment container spec observation =
      some (.error (failure container spec " failed its healthcheck")) := by
  unfold DockerManager.verdict
  rw [running]
  dsimp only
  rw [if_neg (by rw [Option.isNone_iff_eq_none]; rintro none; rw [none] at checked; cases checked),
    unhealthy]
  rfl

/-- Anything else decides nothing. -/
theorem verdict_of_not_decisive (undecided : ¬Decisive spec observation) :
    DockerManager.verdict deployment container spec observation = none := by
  obtain ⟨notReady, notFailed⟩ := not_or.mp undecided
  obtain ⟨notStopped, notUnhealthy⟩ := not_or.mp notFailed
  obtain ⟨status, oomKilled, health, ports⟩ := observation
  unfold DockerManager.verdict
  cases status with
  | exited => exact absurd (.inl rfl) notStopped
  | dead => exact absurd (.inr rfl) notStopped
  | running =>
      dsimp only
      split
      · rename_i unchecked
        refine absurd ⟨rfl, fun checked => ?_⟩ notReady
        rw [Option.isNone_iff_eq_none] at unchecked
        rw [unchecked] at checked
        cases checked
      · rename_i checked
        have checked : spec.healthcheck.isSome := by
          cases same : spec.healthcheck with
          | none => exact absurd (by rw [same]; rfl) checked
          | some _ => rfl
        cases health with
        | none => rfl
        | some health =>
            cases health with
            | starting => rfl
            | healthy => exact absurd ⟨rfl, fun _ => rfl⟩ notReady
            | unhealthy => exact absurd ⟨rfl, checked, rfl⟩ notUnhealthy
  | _ => rfl

/-- An observation is decisive exactly if the poll gives a verdict. -/
theorem verdict_eq_none_iff :
    DockerManager.verdict deployment container spec observation = none ↔
      ¬Decisive spec observation := by
  refine ⟨fun none decisive => ?_, verdict_of_not_decisive⟩
  rcases decisive with ready | stopped | ⟨running, checked, unhealthy⟩
  · rw [verdict_of_ready ready] at none
    cases none
  · rw [verdict_of_stopped stopped] at none
    cases none
  · rw [verdict_of_unhealthy running checked unhealthy] at none
    cases none

end Verdict

/-! ## What a verdict means -/

/-- What the result of the wait says about the observation that decided it. -/
structure Judges (deployment : Deployment) (container : DockerId) (spec : ContainerSpec)
    (observation : Observation) (result : Except Exn Unit) : Prop where
  ready : result = .ok () ↔ Ready spec observation
  failed : (∃ text, result = .error ⟨.runtimeError, text⟩) ↔
    Failed spec observation ∧ (Killed observation → Limited deployment spec)
  memory : (∃ limit, result = .error (memoryExceeded container spec limit)) ↔
    Killed observation ∧ Limited deployment spec
  raised : (∃ text, result = .error ⟨.typeError, text⟩) ↔
    Killed observation ∧ ¬Limited deployment spec
  intime : ¬∃ text, result = .error ⟨.timeoutError, text⟩

section Judges

variable {deployment : Deployment} {container : DockerId} {spec : ContainerSpec}
  {observation : Observation} {result : Except Exn Unit}

/-- Only the message about memory begins like this. -/
theorem failure_ne_memoryExceeded {what : String} {limit : MemoryLimit}
    (differs : what.toList.take 2 ≠ [' ', 'e']) :
    failure container spec what ≠ memoryExceeded container spec limit := by
  intro same
  have texts := congrArg Exn.message same
  simp only [failure, memoryExceeded, String.append_assoc] at texts
  have rest := (String.append_right_inj _).mp texts
  apply differs
  rw [rest, String.toList_append, List.take_append_of_le_length (by decide)]
  decide

theorem not_stopped_of_running (running : observation.status = .running) :
    ¬Stopped observation := by
  rintro (exited | dead)
  · rw [running] at exited
    cases exited
  · rw [running] at dead
    cases dead

theorem not_ready_of_stopped (stopped : Stopped observation) : ¬Ready spec observation :=
  fun ready => not_stopped_of_running ready.1 stopped

/-- A container that is ready has not failed. -/
theorem not_failed_of_ready (ready : Ready spec observation) : ¬Failed spec observation := by
  rintro (stopped | ⟨-, checked, unhealthy⟩)
  · exact not_ready_of_stopped stopped ready
  · rw [ready.2 checked] at unhealthy
    cases unhealthy

/-- Limits that cannot be computed raise a `TypeError`. -/
theorem typeError_of_limits {exc : Exn}
    (failed : Compose.resourceLimits deployment.settings spec = .error exc) :
    exc.cls = .typeError := by
  unfold Compose.resourceLimits at failed
  dsimp only at failed
  split at failed
  · cases failed
    rfl
  · cases failed

theorem judges_of_ready (ready : Ready spec observation) :
    Judges deployment container spec observation (.ok ()) := by
  have alive : ¬Killed observation := fun killed => not_ready_of_stopped killed.1 ready
  exact
    { ready := iff_of_true rfl ready
      failed := iff_of_false (by simp) fun failed => not_failed_of_ready ready failed.1
      memory := iff_of_false (by simp) fun killed => alive killed.1
      raised := iff_of_false (by simp) fun killed => alive killed.1
      intime := by simp }

/-- A failure of another kind than by memory. -/
theorem judges_of_failure {what : String} (differs : what.toList.take 2 ≠ [' ', 'e'])
    (failed : Failed spec observation) (alive : ¬Killed observation) :
    Judges deployment container spec observation
      (.error (failure container spec what)) where
  ready := iff_of_false (by simp) fun ready => not_failed_of_ready ready failed
  failed := iff_of_true ⟨_, rfl⟩ ⟨failed, fun killed => absurd killed alive⟩
  memory := iff_of_false
    (by
      rintro ⟨limit, same⟩
      exact failure_ne_memoryExceeded differs (Except.error.inj same))
    fun killed => alive killed.1
  raised := iff_of_false (by simp [failure]) fun killed => alive killed.1
  intime := by simp [failure]

theorem judges_of_killed (killed : Killed observation) :
    Judges deployment container spec observation
      (.error (DockerManager.startupFailure deployment container spec true)) := by
  have notReady : ¬Ready spec observation := not_ready_of_stopped killed.1
  unfold DockerManager.startupFailure
  rw [if_pos rfl]
  cases computed : Compose.resourceLimits deployment.settings spec with
  | ok limits =>
      have limited : Limited deployment spec := ⟨limits, computed⟩
      exact
        { ready := iff_of_false (by simp) notReady
          failed := iff_of_true ⟨_, rfl⟩ ⟨.inl killed.1, fun _ => limited⟩
          memory := iff_of_true ⟨_, rfl⟩ ⟨killed, limited⟩
          raised := iff_of_false (by simp) fun unlimited => unlimited.2 limited
          intime := by simp }
  | error exc =>
      have unlimited : ¬Limited deployment spec := by
        rintro ⟨limits, limited⟩
        rw [computed] at limited
        cases limited
      have cls := typeError_of_limits computed
      obtain ⟨cls', message⟩ := exc
      cases cls
      exact
        { ready := iff_of_false (by simp) notReady
          failed := iff_of_false (by simp) fun failed => unlimited (failed.2 killed)
          memory := iff_of_false (by simp [memoryExceeded]) fun failed => unlimited failed.2
          raised := iff_of_true ⟨_, rfl⟩ ⟨killed, unlimited⟩
          intime := by simp }

/-- A verdict says what was observed. -/
theorem judges_of_verdict (decisive : Decisive spec observation)
    (given : DockerManager.verdict deployment container spec observation = some result) :
    Judges deployment container spec observation result := by
  rcases decisive with ready | stopped | ⟨running, checked, unhealthy⟩
  · rw [verdict_of_ready ready] at given
    cases given
    exact judges_of_ready ready
  · rw [verdict_of_stopped stopped] at given
    cases given
    cases killed : observation.oomKilled with
    | true => exact judges_of_killed ⟨stopped, killed⟩
    | false =>
        exact judges_of_failure (by decide) (.inl stopped) fun other =>
          absurd (killed.symm.trans other.2) Bool.false_ne_true
  · rw [verdict_of_unhealthy running checked unhealthy] at given
    cases given
    exact judges_of_failure (by decide) (.inr ⟨running, checked, unhealthy⟩)
      fun killed => not_stopped_of_running running killed.1

end Judges

/-! ## Clock and container -/

/-- What the container shows at each poll, and how long each call takes. -/
structure Scenario where
  observations : Nat → Observation
  /-- In microseconds. A sleep takes so much longer than asked. -/
  durations : Nat → Nat

/-- The clock, and how many calls and how many polls have been made. -/
structure Moment where
  clock : Time
  calls : Nat
  polls : Nat

namespace Scenario

variable (scenario : Scenario)

/-- One more call has been made. -/
def pass (moment : Moment) : Moment :=
  { moment with
    clock := moment.clock + scenario.durations moment.calls
    calls := moment.calls + 1 }

/-- One more poll has been made. -/
def look (moment : Moment) : Moment :=
  { scenario.pass moment with polls := moment.polls + 1 }

/-- The clock has reached an instant, if it had not before. -/
def sleepUntil (instant : Time) (moment : Moment) : Moment :=
  scenario.pass { moment with clock := max moment.clock instant }

/-- The answer to a call of the readiness wait. -/
def answer (moment : Moment) : (request : Call) → Option (Reply request × Moment)
  | .now => some (.ok moment.clock, scenario.pass moment)
  | .containerReload _ =>
      some (.ok (scenario.observations moment.polls), scenario.look moment)
  | .sleepUntil instant => some (.ok (), scenario.sleepUntil instant moment)
  | _ => none

/-- The service that the readiness wait runs against. -/
def service : Service Moment Call Reply where
  permits moment request := (scenario.answer moment request).isSome
  answers moment request reply next := scenario.answer moment request = some (reply, next)

/-- A round of the polling loop that decides nothing: the clock is read, the container is
looked at, and the thread sleeps for two seconds. -/
def round (moment : Moment) : Moment :=
  let polled := scenario.look (scenario.pass moment)
  scenario.sleepUntil (polled.clock + seconds 2) (scenario.pass polled)

/-- The moment at which poll `number` begins, if the loop comes to it. -/
def begins (start : Time) : Nat → Moment
  | 0 => scenario.pass ⟨start, 0, 0⟩
  | number + 1 => scenario.round (begins start number)

end Scenario

section Clock

variable {scenario : Scenario} {start deadline : Time} {moment next : Moment}

theorem clock_pass (scenario : Scenario) (moment : Moment) :
    moment.clock ≤ (scenario.pass moment).clock :=
  Int.le_add_of_nonneg_right (Int.natCast_nonneg _)

theorem clock_round (scenario : Scenario) (moment : Moment) :
    moment.clock + seconds 2 ≤ (scenario.round moment).clock := by
  have looked : moment.clock ≤ (scenario.look (scenario.pass moment)).clock :=
    (clock_pass scenario moment).trans (clock_pass scenario (scenario.pass moment))
  have slept := le_max_right (scenario.pass (scenario.look (scenario.pass moment))).clock
    ((scenario.look (scenario.pass moment)).clock + seconds 2)
  exact (Int.add_le_add_right looked _).trans (slept.trans (clock_pass scenario _))

@[simp] theorem polls_begins (number : Nat) :
    (scenario.begins start number).polls = number := by
  induction number with
  | zero => rfl
  | succ number inductionHypothesis =>
      have one : (scenario.begins start (number + 1)).polls =
        (scenario.begins start number).polls + 1 := rfl
      rw [one, inductionHypothesis]

/-- Two polls are at least two seconds apart. -/
theorem clock_begins (number : Nat) :
    start + seconds (2 * number) ≤ (scenario.begins start number).clock := by
  induction number with
  | zero =>
      have none : start + seconds (2 * (0 : Nat)) = start := Int.add_zero start
      rw [none]
      exact clock_pass scenario ⟨start, 0, 0⟩
  | succ number inductionHypothesis =>
      have round : start + seconds (2 * (number + 1 : Nat)) =
          start + seconds (2 * number) + seconds 2 := by
        unfold seconds
        push_cast
        ring
      rw [round]
      exact (Int.add_le_add_right inductionHypothesis _).trans (clock_round scenario _)

/-- Later polls begin later. -/
theorem clock_begins_mono {earlier later : Nat} (order : earlier ≤ later) :
    (scenario.begins start earlier).clock ≤ (scenario.begins start later).clock := by
  have two : (0 : Int) ≤ seconds 2 := by decide
  induction order with
  | refl => exact le_refl _
  | step _ inductionHypothesis =>
      exact inductionHypothesis.trans
        ((Int.le_add_of_nonneg_right two).trans (clock_round scenario _))

end Clock

/-! ## The loop -/

/-- The poll decides the wait: it begins before the deadline, and it is the first one whose
observation is decisive. -/
structure Decides (scenario : Scenario) (spec : ContainerSpec) (start deadline : Time)
    (number : Nat) : Prop where
  intime : (scenario.begins start number).clock < deadline
  decisive : Decisive spec (scenario.observations number)
  first : ∀ earlier < number, ¬Decisive spec (scenario.observations earlier)

/-- How the wait ends after so many polls: as the deciding poll says, or late. -/
inductive Settles (deployment : Deployment) (container : DockerId) (spec : ContainerSpec)
    (timeout : Int) (scenario : Scenario) (start deadline : Time) :
    Nat → Except Exn Unit → Prop
  | decided (number : Nat) (result : Except Exn Unit) :
      Decides scenario spec start deadline number →
      DockerManager.verdict deployment container spec (scenario.observations number) =
        some result →
      Settles deployment container spec timeout scenario start deadline (number + 1) result
  | late (polls : Nat) :
      (∀ number, (scenario.begins start number).clock < deadline →
        ¬Decisive spec (scenario.observations number)) →
      Settles deployment container spec timeout scenario start deadline polls
        (.error (DockerManager.notReady container spec timeout))

section Loop

variable {deployment : Deployment} {container : DockerId} {spec : ContainerSpec}
  {timeout : Int} {scenario : Scenario} {start deadline : Time} {moment next : Moment}

/-- The rule for one call: there is one answer. -/
theorem meets_perform {request : Call} {reply : Reply request}
    {post : Moment → Except Exn request.Result → Prop}
    (answered : scenario.answer moment request = some (reply, next))
    (met : post next reply) : (perform request).Meets scenario.service post moment := by
  have permitted : (scenario.answer moment request).isSome := by
    rw [answered]
    rfl
  refine ⟨permitted, fun other after same => ?_⟩
  rw [show scenario.answer moment request = some (other, after) from same] at answered
  cases answered
  cases reply with
  | ok value => exact met
  | error exc => exact met

/-- Once the deadline has passed, nothing decides any more. -/
theorem not_decisive_of_passed {number : Nat}
    (undecided : ∀ earlier < number, ¬Decisive spec (scenario.observations earlier))
    (passed : deadline ≤ (scenario.begins start number).clock) (later : Nat)
    (before : (scenario.begins start later).clock < deadline) :
    ¬Decisive spec (scenario.observations later) := by
  apply undecided
  by_contra behind
  exact absurd before (not_lt.mpr (passed.trans (clock_begins_mono (Nat.le_of_not_lt behind))))

/-- The loop from poll `number` on: no poll before has decided, all of them began before the
deadline, and the remaining rounds reach it. -/
theorem poll_meets (rounds number : Nat)
    (undecided : ∀ earlier < number, ¬Decisive spec (scenario.observations earlier))
    (intime : ∀ earlier < number, (scenario.begins start earlier).clock < deadline)
    (enough : deadline ≤ (scenario.begins start (number + rounds)).clock) :
    (DockerManager.poll deployment container spec timeout deadline rounds).Meets
      scenario.service
      (fun last result =>
        Settles deployment container spec timeout scenario start deadline last.polls result ∧
          ∀ earlier < last.polls, (scenario.begins start earlier).clock < deadline)
      (scenario.begins start number) := by
  induction rounds generalizing number with
  | zero =>
      refine ⟨.late _ (not_decisive_of_passed undecided enough), ?_⟩
      rwa [polls_begins]
  | succ rounds inductionHypothesis =>
      unfold DockerManager.poll
      refine Program.meets_bind.mpr (meets_perform rfl ?_)
      dsimp only
      split
      · rename_i before
        have intime : ∀ earlier < number + 1,
            (scenario.begins start earlier).clock < deadline := by
          intro earlier made
          rcases Nat.lt_succ_iff_lt_or_eq.mp made with old | rfl
          · exact intime earlier old
          · exact before
        refine Program.meets_bind.mpr (meets_perform rfl ?_)
        have looked : (scenario.pass (scenario.begins start number)).polls = number :=
          polls_begins number
        dsimp only
        rw [looked]
        split
        · rename_i result given
          have decisive : Decisive spec (scenario.observations number) := by
            by_contra undecided
            rw [verdict_eq_none_iff.mpr undecided] at given
            cases given
          have polled : (scenario.look (scenario.pass (scenario.begins start number))).polls =
              number + 1 := congrArg (· + 1) looked
          have settled : Settles deployment container spec timeout scenario start deadline
              (number + 1) result :=
            .decided number result ⟨before, decisive, undecided⟩ given
          rw [← polled] at settled intime
          cases result with
          | ok value => exact ⟨settled, intime⟩
          | error exc => exact ⟨settled, intime⟩
        · rename_i given
          refine Program.meets_bind.mpr (meets_perform rfl ?_)
          refine Program.meets_bind.mpr (meets_perform rfl ?_)
          refine inductionHypothesis (number + 1) (fun earlier made => ?_) intime ?_
          · rcases Nat.lt_succ_iff_lt_or_eq.mp made with old | rfl
            · exact undecided earlier old
            · exact verdict_eq_none_iff.mp given
          · rwa [Nat.add_right_comm]
      · rename_i passed
        refine ⟨.late _ (not_decisive_of_passed undecided (not_lt.mp passed)), ?_⟩
        have same : (scenario.pass (scenario.begins start number)).polls = number :=
          polls_begins number
        rwa [same]

/-- The wait ends, as `Settles` says, after at most half as many polls as the timeout has
seconds. -/
theorem waitForReady_meets (positive : 0 < timeout) :
    (waitForReady deployment container spec (some timeout)).Meets scenario.service
      (fun last result =>
        Settles deployment container spec timeout scenario start (start + seconds timeout)
          last.polls result ∧ (last.polls : ℤ) ≤ ⌈(timeout : ℚ) / 2⌉)
      ⟨start, 0, 0⟩ := by
  have given : (match some timeout with
      | none | some 0 => deployment.settings.containerReadyTimeoutSeconds
      | some timeout => timeout) = timeout := by
    split
    · rename_i none
      cases none
    · rename_i zero
      cases zero
      exact absurd positive (lt_irrefl 0)
    · rename_i same
      exact (Option.some.inj same).symm
  unfold waitForReady
  rw [given]
  refine Program.meets_bind.mpr (meets_perform rfl ?_)
  have enough : timeout ≤ 2 * (0 + DockerManager.pollBudget timeout : Nat) := by
    unfold DockerManager.pollBudget
    omega
  refine (poll_meets (DockerManager.pollBudget timeout) 0
    (fun _ none => absurd none (Nat.not_lt_zero _))
    (fun _ none => absurd none (Nat.not_lt_zero _))
    ((Int.add_le_add_left (seconds_le enough) start).trans (clock_begins _))).mono ?_
  rintro last result ⟨settled, intime⟩
  refine ⟨settled, ?_⟩
  cases polls : last.polls with
  | zero => exact Int.ceil_nonneg (by positivity)
  | succ number =>
      have before := intime number (by rw [polls]; exact Nat.lt_succ_self number)
      have soon : 2 * (number : ℤ) < timeout :=
        lt_of_seconds_lt (lt_of_add_lt_add_left ((clock_begins number).trans_lt before))
      rw [Int.le_ceil_iff, Nat.cast_succ, Int.cast_add, Int.cast_one, add_sub_cancel_right]
      have soon : (2 : ℚ) * number < timeout := by exact_mod_cast soon
      rw [Int.cast_natCast]
      linarith

end Loop

/-! ## The result -/

/-- How the wait ends, read off the observations. -/
structure Outcome (deployment : Deployment) (container : DockerId) (spec : ContainerSpec)
    (scenario : Scenario) (start deadline : Time) (result : Except Exn Unit) : Prop where
  ready : result = .ok () ↔
    ∃ number, Decides scenario spec start deadline number ∧
      Ready spec (scenario.observations number)
  failed : (∃ text, result = .error ⟨.runtimeError, text⟩) ↔
    ∃ number, Decides scenario spec start deadline number ∧
      Failed spec (scenario.observations number) ∧
      (Killed (scenario.observations number) → Limited deployment spec)
  memory : (∃ limit, result = .error (memoryExceeded container spec limit)) ↔
    ∃ number, Decides scenario spec start deadline number ∧
      Killed (scenario.observations number) ∧ Limited deployment spec
  raised : (∃ text, result = .error ⟨.typeError, text⟩) ↔
    ∃ number, Decides scenario spec start deadline number ∧
      Killed (scenario.observations number) ∧ ¬Limited deployment spec
  late : (∃ text, result = .error ⟨.timeoutError, text⟩) ↔
    ∀ number, (scenario.begins start number).clock < deadline →
      ¬Decisive spec (scenario.observations number)
  healthy : result = .ok () → spec.healthcheck.isSome →
    ∃ number, (scenario.begins start number).clock < deadline ∧
      (scenario.observations number).health = some .healthy

section Result

variable {deployment : Deployment} {container : DockerId} {spec : ContainerSpec}
  {timeout : Int} {scenario : Scenario} {start deadline : Time} {number polls : Nat}
  {result : Except Exn Unit}

/-- At most one poll decides. -/
theorem Decides.iff_exists (decides : Decides scenario spec start deadline number)
    (holds : Observation → Prop) :
    holds (scenario.observations number) ↔
      ∃ other, Decides scenario spec start deadline other ∧
        holds (scenario.observations other) := by
  constructor
  · exact fun holds' => ⟨number, decides, holds'⟩
  · rintro ⟨other, decides', holds'⟩
    rcases Nat.lt_trichotomy other number with earlier | rfl | later
    · exact absurd decides'.decisive (decides.first other earlier)
    · exact holds'
    · exact absurd decides.decisive (decides'.first number later)

theorem Settles.outcome
    (settled : Settles deployment container spec timeout scenario start deadline polls result) :
    Outcome deployment container spec scenario start deadline result := by
  cases settled with
  | decided number result decides given =>
      have judges := judges_of_verdict decides.decisive given
      exact
        { ready := judges.ready.trans (decides.iff_exists (Ready spec))
          failed := judges.failed.trans (decides.iff_exists fun seen =>
            Failed spec seen ∧ (Killed seen → Limited deployment spec))
          memory := judges.memory.trans (decides.iff_exists fun seen =>
            Killed seen ∧ Limited deployment spec)
          raised := judges.raised.trans (decides.iff_exists fun seen =>
            Killed seen ∧ ¬Limited deployment spec)
          late := iff_of_false judges.intime fun undecided =>
            undecided number decides.intime decides.decisive
          healthy := fun ready checked =>
            ⟨number, decides.intime, (judges.ready.mp ready).2 checked⟩ }
  | late polls undecided =>
      have none {holds : Nat → Prop} :
          ¬∃ number, Decides scenario spec start deadline number ∧ holds number := by
        rintro ⟨number, decides, -⟩
        exact undecided number decides.intime decides.decisive
      exact
        { ready := iff_of_false (by simp) none
          failed := iff_of_false (by simp [DockerManager.notReady]) none
          memory := iff_of_false (by simp [DockerManager.notReady, memoryExceeded]) none
          raised := iff_of_false (by simp [DockerManager.notReady]) none
          late := iff_of_true ⟨_, rfl⟩ undecided
          healthy := by simp }

/-- The wait ends. -/
theorem exists_executes_wait (deployment : Deployment) (container : DockerId)
    (spec : ContainerSpec) (positive : 0 < timeout) (scenario : Scenario) (start : Time) :
    ∃ trace last result, Executes scenario.service ⟨start, 0, 0⟩
      (waitForReady deployment container spec (some timeout)) trace last result := by
  refine exists_executes (fun state request permitted => ?_)
    (@waitForReady_meets deployment container spec timeout scenario start positive)
  obtain ⟨⟨reply, next⟩, answered⟩ := Option.isSome_iff_exists.mp permitted
  exact ⟨reply, next, answered⟩

theorem outcome_of_executes (positive : 0 < timeout) {trace : List (Entry Reply)}
    {last : Moment}
    (executed : Executes scenario.service ⟨start, 0, 0⟩
      (waitForReady deployment container spec (some timeout)) trace last result) :
    (last.polls : ℤ) ≤ ⌈(timeout : ℚ) / 2⌉ ∧
      Outcome deployment container spec scenario start (start + seconds timeout) result := by
  obtain ⟨settled, few⟩ := executed.meets (waitForReady_meets positive)
  exact ⟨few, settled.outcome⟩

/-- The wait ends after at most half as many polls as the timeout has seconds, and the first
decisive observation before the deadline decides how. -/
theorem waitForReady_decided (deployment : Deployment) (container : DockerId)
    (spec : ContainerSpec) (positive : 0 < timeout) (scenario : Scenario) (start : Time) :
    (∃ trace last result, Executes scenario.service ⟨start, 0, 0⟩
      (waitForReady deployment container spec (some timeout)) trace last result) ∧
    ∀ trace last result, Executes scenario.service ⟨start, 0, 0⟩
        (waitForReady deployment container spec (some timeout)) trace last result →
      (last.polls : ℤ) ≤ ⌈(timeout : ℚ) / 2⌉ ∧
      Outcome deployment container spec scenario start (start + seconds timeout) result :=
  ⟨exists_executes_wait deployment container spec positive scenario start,
    fun _ _ _ executed => outcome_of_executes positive executed⟩

end Result

/-- A spec whose CPU limit is present with the value `None`. -/
def unlimitedSpec : ContainerSpec where
  role := "app"
  image := "app:1"
  cpuLimit := some none

/-- A container that shows one state for ever, on a clock on which only sleeping takes
time. -/
def constant (observation : Observation) : Scenario where
  observations _ := observation
  durations _ := 0

/-- A container that is starting at first and healthy from its second poll on. -/
def comesUp : Scenario where
  observations number := ⟨.running, false, some (if number = 0 then .starting else .healthy), []⟩
  durations _ := 0

/-- The wait for a database that comes up returns. -/
theorem waitForReady_decided_of_comesUp :
    ∃ trace last, Executes comesUp.service ⟨0, 0, 0⟩
      (waitForReady Compose.shipped 1
        { role := "db", image := "db:1", healthcheck := some { test := ["CMD", "true"] } }
        (some 5)) trace last (.ok ()) := by
  obtain ⟨⟨trace, last, result, executed⟩, decided⟩ := waitForReady_decided Compose.shipped 1
    { role := "db", image := "db:1", healthcheck := some { test := ["CMD", "true"] } }
    (by decide : (0 : Int) < 5) comesUp 0
  obtain ⟨-, outcome⟩ := decided trace last result executed
  have ready : result = .ok () := by
    refine outcome.ready.mpr ⟨1, ⟨by decide, .inl ⟨rfl, fun _ => rfl⟩, fun earlier first => ?_⟩,
      rfl, fun _ => rfl⟩
    obtain rfl : earlier = 0 := Nat.lt_one_iff.mp first
    rintro (⟨-, healthy⟩ | stopped | ⟨-, -, unhealthy⟩)
    · cases healthy rfl
    · exact not_stopped_of_running rfl stopped
    · cases unhealthy
  exact ⟨trace, last, ready ▸ executed⟩

/-- A container that was killed for its use of memory, with a spec whose limits cannot be
computed: the wait raises a `TypeError`. -/
theorem raises_typeError_of_unlimited :
    Decides (constant ⟨.exited, true, none, []⟩) unlimitedSpec 0 (seconds 5) 0 ∧
    Failed unlimitedSpec ((constant ⟨.exited, true, none, []⟩).observations 0) ∧
    ∃ trace last exc, Executes (constant ⟨.exited, true, none, []⟩).service ⟨0, 0, 0⟩
        (waitForReady Compose.shipped 1 unlimitedSpec (some 5)) trace last (.error exc) ∧
      exc.cls ≠ .runtimeError := by
  have killed : Killed ((constant ⟨.exited, true, none, []⟩).observations 0) := ⟨.inl rfl, rfl⟩
  have decides : Decides (constant ⟨.exited, true, none, []⟩) unlimitedSpec 0 (seconds 5) 0 :=
    ⟨by decide, .inr (.inl killed.1), fun earlier first => absurd first (Nat.not_lt_zero _)⟩
  refine ⟨decides, .inl killed.1, ?_⟩
  have five : (0 : Int) < 5 := by decide
  obtain ⟨trace, last, result, executed⟩ := exists_executes_wait Compose.shipped 1
    unlimitedSpec five (constant ⟨.exited, true, none, []⟩) 0
  have outcome := (outcome_of_executes five executed).2
  have unlimited : ¬Limited Compose.shipped unlimitedSpec := by
    rintro ⟨limits, computed⟩
    cases computed
  have start : (0 : Time) + seconds 5 = seconds 5 := rfl
  rw [start] at outcome
  obtain ⟨text, rfl⟩ := outcome.raised.mpr ⟨0, decides, killed, unlimited⟩
  exact ⟨trace, last, _, executed, by intro same; cases same⟩

end Readiness

end Provisioner
