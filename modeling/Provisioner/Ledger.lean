import Provisioner.Attempts
import Provisioner.Evidence
import Provisioner.Lineage
import Provisioner.Publishing
import Provisioner.Resumption.Tally
import Mathlib.Data.List.Induction

/-!
# The counters

All workers count in the same counters. An attempt counts itself once, under its outcome, and
observes its duration if it is a provision that succeeded; if it will be tried again it sends its
message once more. Attempts are cut off anywhere, repeated, and refused by the broker. Still the
totals agree, up to the attempts that have been cut off or refused just in between.
-/

namespace Provisioner

open Resumption

namespace Ledger

variable {deployment : Deployment} {refuses : Bool}
  {allowed : System → Occurrence → Prop} {config : System}

/-! ## The books of a thread -/

/-- What a call has sent: the task, the environment and the number of retries. -/
def sentBy : Entry Reply → Option (Task × String × Nat)
  | ⟨.publish task envId retries _, .ok _⟩ => some (task, envId, retries)
  | _ => none

/-- The samples that a thread has recorded. -/
def samples (job : Job) : List Metric :=
  job.account Lineage.sampleOf

/-- The messages that a thread has sent. -/
def posts (job : Job) : List (Task × String × Nat) :=
  job.account sentBy

/-- How the books of a thread may stand. -/
inductive Books : Role → List Metric → List (Task × String × Nat) → Prop
  /-- Requests and sweeps record nothing and send first attempts. -/
  | other (role : Role) (posts : List (Task × String × Nat)) :
      role.message = none → (∀ post ∈ posts, post.2.2 = 0) → Books role [] posts
  | fresh (message : Message) : Books (.task message) [] []
  | counted (message : Message) (metric : Metric) (outcome : Outcome) :
      Lineage.total metric = some (message.task, outcome) → Books (.task message) [metric] []
  | timed (message : Message) (template : String) (elapsed : Int) :
      message.task = .provision →
      Books (.task message)
        [.provisionTotal template .success, .provisionDuration template elapsed] []
  | retried (message : Message) (metric : Metric) :
      Lineage.total metric = some (message.task, .retry) →
      Books (.task message) [metric] [(message.task, message.envId, message.retries + 1)]

/-- A call is in order if the books may stand as it leaves them. -/
def Justified (role : Role) (trace : List (Entry Reply)) : Call → Prop
  | .record metric =>
      Books role (trace.filterMap Lineage.sampleOf ++ [metric]) (trace.filterMap sentBy)
  | .publish task envId retries _ =>
      Books role (trace.filterMap Lineage.sampleOf)
        (trace.filterMap sentBy ++ [(task, envId, retries)])
  | _ => True

/-- The broker has refused a message. -/
def Refused (trace : List (Entry Reply)) : Prop :=
  ∃ task envId retries countdown exc,
    (⟨.publish task envId retries countdown, .error exc⟩ : Entry Reply) ∈ trace

/-- What is settled when a thread is finished: a counted success of a provision has been timed,
and a counted retry has been sent unless the broker refused it. -/
structure Settled (trace : List (Entry Reply)) : Prop where
  timed : ∀ template, trace.filterMap Lineage.sampleOf ≠ [.provisionTotal template .success]
  sent : ∀ task, some (task, .retry) ∈ (trace.filterMap Lineage.sampleOf).map Lineage.total →
    trace.filterMap sentBy = [] → Refused trace

/-! ## Programs -/

/-- The books of a thread on its way. -/
structure Stands (role : Role) (metrics : List Metric) (posts : List (Task × String × Nat))
    (known : Role × List (Entry Reply)) : Prop where
  role : known.1 = role
  samples : known.2.filterMap Lineage.sampleOf = metrics
  posts : known.2.filterMap sentBy = posts

variable {role : Role} {metrics : List Metric} {sent : List (Task × String × Nat)}
  {known : Role × List (Entry Reply)} {message : Message}

/-- One more answered call. -/
theorem Stands.push {metrics' : List Metric} {sent' : List (Task × String × Nat)}
    (stands : Stands role metrics sent known) (entry : Entry Reply)
    (recorded : metrics' = metrics ++ (Lineage.sampleOf entry).toList)
    (posted : sent' = sent ++ (sentBy entry).toList) :
    Stands role metrics' sent' (known.1, known.2 ++ [entry]) := by
  refine ⟨stands.role, ?_, ?_⟩
  · rw [filterMap_concat, stands.samples, recorded]
  · rw [filterMap_concat, stands.posts, posted]

/-- Silent calls leave the books as they are. -/
theorem silent_allows {ε α : Type} {program : Program Call Reply ε α}
    (makes : program.Makes (·.silent = true)) (stands : Stands role metrics sent known) :
    (evidence Evidence.Possible Justified).Allows
      (fun reached _ => Stands role metrics sent reached) known program := by
  refine makes.meets (fun reached request stands silent => ⟨?_, ?_⟩) stands
  · change Justified _ _ _
    cases request <;> trivial
  · rintro reply next ⟨-, rfl⟩
    have unnoted : (Lineage.sampleOf ⟨request, reply⟩).toList = [] ∧
        (sentBy ⟨request, reply⟩).toList = [] := by
      cases request <;> first | exact ⟨rfl, rfl⟩ | cases silent
    exact stands.push ⟨request, reply⟩ (by rw [unnoted.1, List.append_nil])
      (by rw [unnoted.2, List.append_nil])

/-- Reading the clock never raises. -/
theorem now_allows {post : Role × List (Entry Reply) → Except Exn Time → Prop}
    (stands : Stands role metrics sent known)
    (continues : ∀ reached instant, Stands role metrics sent reached →
      post reached (.ok instant)) :
    (evidence Evidence.Possible Justified).Allows post known (perform .now) := by
  refine evidence_call trivial fun reply able => ?_
  rcases reply with exc | instant
  · cases able exc rfl
  · exact continues _ instant (stands.push ⟨.now, .ok instant⟩ (List.append_nil _).symm
      (List.append_nil _).symm)

/-- A sample is recorded if the books may stand so. -/
theorem record_allows {metric : Metric}
    {post : Role × List (Entry Reply) → Except Exn Unit → Prop}
    (stands : Stands role metrics sent known)
    (books : Books role (metrics ++ [metric]) sent)
    (continues : ∀ reached, Stands role (metrics ++ [metric]) sent reached →
      post reached (.ok ())) :
    (evidence Evidence.Possible Justified).Allows post known (perform (.record metric)) := by
  refine evidence_call ?_ fun reply able => ?_
  · change Books _ _ _
    rw [stands.samples, stands.posts, stands.role]
    exact books
  · rcases reply with exc | done
    · -- The process itself never raises.
      cases able exc rfl
    · exact continues _ (stands.push ⟨.record metric, .ok done⟩ rfl (List.append_nil _).symm)

/-- A message is sent if the books may stand so, or the broker refuses it. -/
theorem publish_allows {task : Task} {envId : String} {retries : Nat} {countdown : Int}
    {post : Role × List (Entry Reply) → Except Exn TaskId → Prop}
    (stands : Stands role metrics sent known)
    (books : Books role metrics (sent ++ [(task, envId, retries)]))
    (done : ∀ reached id, Stands role metrics (sent ++ [(task, envId, retries)]) reached →
      post reached (.ok id))
    (failed : ∀ reached exc, Stands role metrics sent reached → Refused reached.2 →
      post reached (.error exc)) :
    (evidence Evidence.Possible Justified).Allows post known
      (perform (.publish task envId retries countdown)) := by
  refine evidence_call ?_ fun reply able => ?_
  · change Books _ _ _
    rw [stands.samples, stands.posts, stands.role]
    exact books
  · rcases reply with exc | id
    · exact failed _ exc (stands.push ⟨.publish task envId retries countdown, .error exc⟩
        (List.append_nil _).symm (List.append_nil _).symm)
        ⟨task, envId, retries, countdown, exc, Evidence.mem_concat _ _⟩
    · exact done _ id (stands.push ⟨.publish task envId retries countdown, .ok id⟩
        (List.append_nil _).symm rfl)

/-- An attempt that counted no retry has nothing more to send. -/
theorem settled_of_stands (stands : Stands role metrics sent known)
    (timed : ∀ template, metrics ≠ [.provisionTotal template .success])
    (unretried : ∀ task, some (task, .retry) ∉ metrics.map Lineage.total) : Settled known.2 where
  timed := by
    rw [stands.samples]
    exact timed
  sent task counted := by
    rw [stands.samples] at counted
    exact (unretried task counted).elim

/-- An attempt that has recorded nothing has nothing to settle. -/
theorem settled_of_blank (stands : Stands role [] sent known) : Settled known.2 :=
  settled_of_stands stands (fun _ same => by cases same) fun _ => List.not_mem_nil

/-- An attempt that counted a failure has nothing to settle. -/
theorem settled_of_failure {metric : Metric} {task : Task}
    (failed : Lineage.total metric = some (task, .failure))
    (stands : Stands role [metric] sent known) : Settled known.2 := by
  refine settled_of_stands stands (fun template same => ?_) fun task' counted => ?_
  · cases same
    cases failed
  · rw [List.map_singleton, failed] at counted
    cases List.mem_singleton.mp counted

/-- An attempt that counted a retry sends its message once more. -/
theorem selfRetry_allows {metric : Metric} {countdown : Int} {exc : Exn}
    (left : message.retries < message.task.maxRetries)
    (counted : Lineage.total metric = some (message.task, .retry))
    (stands : Stands (.task message) [metric] [] known) :
    (evidence Evidence.Possible Justified).Allows (fun reached _ => Settled reached.2) known
      (Worker.selfRetry message countdown exc) := by
  have untimed : ∀ {reached sent}, Stands (.task message) [metric] sent reached →
      ∀ template, reached.2.filterMap Lineage.sampleOf ≠ [.provisionTotal template .success] := by
    intro reached sent stands template same
    rw [stands.samples] at same
    cases same
    obtain ⟨-, success⟩ := Prod.mk.inj (Option.some.inj counted)
    cases success
  unfold Worker.selfRetry
  rw [if_neg (Nat.not_le_of_lt left)]
  refine Program.meets_bind.mpr (publish_allows stands (.retried message metric counted)
    (fun reached id stands => ⟨untimed stands, fun task _ none => ?_⟩)
    fun reached exc stands refused => ⟨untimed stands, fun _ _ _ => refused⟩)
  rw [stands.posts] at none
  cases none

/-- What the `try` block of an attempt has recorded: nothing if it raises, and `counted` if it
does not. -/
def Tried (message : Message) (counted : List Metric → Prop)
    (known : Role × List (Entry Reply)) (result : Except Worker.Failure Answer) : Prop :=
  match result with
  | .ok _ => ∃ metrics, counted metrics ∧ Stands (.task message) metrics [] known
  | .error _ => Stands (.task message) [] [] known

/-- A silent step of the `try` block. -/
theorem step_allows {α : Type} {step : Action α} {template : String}
    {held : Option Environment} {next : α → Program Call Reply Worker.Failure Answer}
    {counted : List Metric → Prop}
    (makes : step.Makes (·.silent = true)) (stands : Stands (.task message) [] [] known)
    (continues : ∀ reached value, Stands (.task message) [] [] reached →
      (evidence Evidence.Possible Justified).Allows (Tried message counted) reached
        (next value)) :
    (evidence Evidence.Possible Justified).Allows (Tried message counted) known
      (Worker.during template held step >>= next) := by
  refine Program.meets_bind.mpr (Worker.during_meets.mpr ((silent_allows makes stands).mono ?_))
  rintro reached (exc | value) stands
  · exact stands
  · exact continues reached value stands

/-- A provision that ends has counted a success and its duration. -/
theorem provisionAttempt_allows {envId : String} {started : Time}
    (task : message.task = .provision) (stands : Stands (.task message) [] [] known) :
    (evidence Evidence.Possible Justified).Allows
      (Tried message fun metrics => ∃ template elapsed, metrics =
        [.provisionTotal template .success, .provisionDuration template elapsed])
      known (Worker.provisionAttempt deployment envId started) := by
  unfold Worker.provisionAttempt
  refine step_allows (Worker.loadEnv_silent _) stands fun loaded found stands => ?_
  cases found with
  | none => exact stands
  | some env =>
      refine step_allows (Worker.perform_silent rfl) stands fun read now stands => ?_
      refine step_allows (Worker.perform_silent rfl) stands fun written _ stands => ?_
      refine step_allows (Worker.provision_silent _ _ _) stands fun built stack stands => ?_
      refine step_allows (Worker.perform_silent rfl) stands fun read now stands => ?_
      refine step_allows (Worker.perform_silent rfl) stands fun read changed stands => ?_
      refine step_allows (Worker.perform_silent rfl) stands fun written _ stands => ?_
      refine Program.meets_bind.mpr (Worker.during_meets.mpr (record_allows stands
        (.counted message _ .success (congrArg (fun task => some (task, _)) task.symm))
        fun counted stands => ?_))
      refine Program.meets_bind.mpr (Worker.during_meets.mpr
        (now_allows stands fun read ended stands => ?_))
      refine Program.meets_bind.mpr (Worker.during_meets.mpr (record_allows stands
        (.timed message _ _ task) fun timed stands => ?_))
      exact ⟨_, ⟨_, _, rfl⟩, stands⟩

/-- A teardown that ends has counted a success. -/
theorem teardownAttempt_allows {envId : String}
    (task : message.task = .teardown) (stands : Stands (.task message) [] [] known) :
    (evidence Evidence.Possible Justified).Allows
      (Tried message fun metrics => metrics = [.teardownTotal .success])
      known (Worker.teardownAttempt envId) := by
  unfold Worker.teardownAttempt
  refine step_allows (Worker.loadEnv_silent _) stands fun loaded found stands => ?_
  cases found with
  | none => exact stands
  | some env =>
      refine step_allows (Worker.perform_silent rfl) stands fun read now stands => ?_
      refine step_allows (Worker.perform_silent rfl) stands fun written _ stands => ?_
      refine step_allows (Worker.removeResources_silent _ _) stands fun removed _ stands => ?_
      refine step_allows (Worker.perform_silent rfl) stands fun read changed stands => ?_
      refine step_allows (Worker.perform_silent rfl) stands fun read now stands => ?_
      refine step_allows (Worker.perform_silent rfl) stands fun written _ stands => ?_
      refine Program.meets_bind.mpr (Worker.during_meets.mpr (record_allows stands
        (.counted message _ .success (congrArg (fun task => some (task, _)) task.symm))
        fun counted stands => ?_))
      exact ⟨_, rfl, stands⟩

/-- `provision_environment` -/
theorem provisionEnvironment_allows (task : message.task = .provision)
    (stands : Stands (.task message) [] [] known) :
    (evidence Evidence.Possible Justified).Allows (fun reached _ => Settled reached.2) known
      (Worker.provisionEnvironment deployment message) := by
  refine Program.meets_bind.mpr (now_allows stands fun read started stands => ?_)
  refine Program.meets_tryCatch.mpr ((provisionAttempt_allows task stands).mono ?_)
  rintro reached (failure | answer) tried
  · have stands : Stands (.task message) [] [] reached := tried
    refine Program.meets_bind.mpr ((silent_allows (Worker.markFailed_silent _ _ _) stands).mono ?_)
    rintro marked (exc | _) stands
    · exact settled_of_blank stands
    have counted : ∀ outcome, Lineage.total (.provisionTotal failure.template outcome) =
        some (message.task, outcome) :=
      fun outcome => congrArg (fun task => some (task, outcome)) task.symm
    dsimp only
    cases failure.exc.isValueError with
    | true =>
        -- A `ValueError` is not retried.
        refine Program.meets_bind.mpr (record_allows stands
          (.counted message _ .failure (counted .failure)) fun recorded stands => ?_)
        exact settled_of_failure (counted .failure) stands
    | false =>
        by_cases exhausted : Task.provision.maxRetries ≤ message.retries
        · rw [decide_eq_true exhausted]
          refine Program.meets_bind.mpr (record_allows stands
            (.counted message _ .failure (counted .failure)) fun recorded stands => ?_)
          unfold Worker.selfRetry
          rw [task]
          dsimp only
          rw [if_pos (show (!false) = true from rfl), if_pos exhausted]
          exact settled_of_failure (counted .failure) stands
        · rw [decide_eq_false exhausted]
          refine Program.meets_bind.mpr (record_allows stands
            (.counted message _ .retry (counted .retry)) fun recorded stands => ?_)
          refine selfRetry_allows ?_ (counted .retry) stands
          rw [task]
          exact Nat.lt_of_not_le exhausted
  · obtain ⟨metrics, ⟨template, elapsed, rfl⟩, stands⟩ := tried
    exact settled_of_stands stands (fun _ same => by cases same) (by simp [Lineage.total])

/-- `teardown_environment` -/
theorem teardownEnvironment_allows (task : message.task = .teardown)
    (stands : Stands (.task message) [] [] known) :
    (evidence Evidence.Possible Justified).Allows (fun reached _ => Settled reached.2) known
      (Worker.teardownEnvironment message) := by
  refine Program.meets_tryCatch.mpr ((teardownAttempt_allows task stands).mono ?_)
  rintro reached (failure | answer) tried
  · have stands : Stands (.task message) [] [] reached := tried
    have counted : ∀ outcome, Lineage.total (.teardownTotal outcome) =
        some (message.task, outcome) :=
      fun outcome => congrArg (fun task => some (task, outcome)) task.symm
    dsimp only
    by_cases exhausted : Task.teardown.maxRetries ≤ message.retries
    · rw [decide_eq_true exhausted]
      refine Program.meets_bind.mpr (record_allows stands
        (.counted message _ .failure (counted .failure)) fun recorded stands => ?_)
      refine Program.meets_bind.mpr
        ((silent_allows (Worker.markFailed_silent _ _ _) stands).mono ?_)
      rintro marked (exc | _) stands <;> exact settled_of_failure (counted .failure) stands
    · rw [decide_eq_false exhausted]
      refine Program.meets_bind.mpr (record_allows stands
        (.counted message _ .retry (counted .retry)) fun recorded stands => ?_)
      refine selfRetry_allows ?_ (counted .retry) stands
      rw [task]
      exact Nat.lt_of_not_le exhausted
  · obtain ⟨metrics, rfl, stands⟩ := tried
    exact settled_of_stands stands (fun _ same => by cases same) (by simp [Lineage.total])

/-- The books of a request or a sweep on its way. -/
def Clear (role : Role) (known : Role × List (Entry Reply)) : Prop :=
  ∃ sent, Stands role [] sent known ∧ ∀ post ∈ sent, post.2.2 = 0

/-- A call of a request or a sweep records nothing, and sends a first attempt if it sends. -/
def Starts (request : Call) : Prop :=
  (∀ metric, request ≠ .record metric) ∧
    ∀ task envId retries countdown, request = .publish task envId retries countdown → retries = 0

/-- One call of a request or a sweep. -/
theorem clear_call {request : Call} (other : role.message = none) (clear : Clear role known)
    (starts : Starts request) :
    Justified known.1 known.2 request ∧
      ∀ reply : Reply request, Clear role (known.1, known.2 ++ [⟨request, reply⟩]) := by
  obtain ⟨sent, stands, zero⟩ := clear
  obtain ⟨unrecorded, first⟩ := starts
  have same : ∀ reply : Reply request, sentBy ⟨request, reply⟩ = none →
      Clear role (known.1, known.2 ++ [⟨request, reply⟩]) := by
    intro reply unsent
    refine ⟨sent, stands.push ⟨request, reply⟩ ?_ (by rw [unsent]; simp), zero⟩
    cases request <;> first | rfl | exact (unrecorded _ rfl).elim
  cases request with
  | record metric => exact (unrecorded metric rfl).elim
  | publish task envId retries countdown =>
      cases first task envId retries countdown rfl
      have zeros : ∀ post ∈ sent ++ [(task, envId, 0)], post.2.2 = 0 := by
        intro post member
        rcases List.mem_append.mp member with old | new
        · exact zero post old
        · rw [List.mem_singleton.mp new]
      refine ⟨?_, fun reply => ?_⟩
      · change Books _ _ _
        rw [stands.samples, stands.posts, stands.role]
        exact .other role _ other zeros
      · rcases reply with exc | id
        · exact same _ rfl
        · exact ⟨_, stands.push ⟨.publish task envId 0 countdown, .ok id⟩ rfl rfl, zeros⟩
  | _ => exact ⟨trivial, fun reply => same reply rfl⟩

/-- A request or a sweep records nothing and sends first attempts. -/
theorem others_allow (other : role.message = none) :
    (evidence Evidence.Possible Justified).Allows (fun reached _ => Settled reached.2) (role, [])
      (program deployment role) := by
  have starts : (program deployment role).Makes Starts := by
    refine program_makes (fun request silent => ⟨?_, ?_⟩) ?_ ?_
    · rintro metric rfl
      cases silent
    · rintro task envId retries countdown rfl
      cases silent
    · rintro message metric rfl
      cases other
    · intro task envId retries countdown publishes
      refine ⟨fun metric same => (by cases same), fun _ _ _ _ same => ?_⟩
      cases same
      cases role with
      | task message => cases other
      | request request => cases request <;> first | exact publishes.2 | exact publishes.elim
      | sweep sweep => cases sweep <;> first | exact publishes.2 | exact publishes.elim
  have kept : (evidence Evidence.Possible Justified).Allows
      (fun reached _ => Clear role reached) (role, []) (program deployment role) := by
    refine starts.meets (fun known request clear starts => ?_)
      ⟨[], ⟨rfl, rfl, rfl⟩, fun _ member => (List.not_mem_nil member).elim⟩
    obtain ⟨permitted, next⟩ := clear_call other clear starts
    refine ⟨permitted, ?_⟩
    rintro reply reached ⟨-, rfl⟩
    exact next reply
  refine kept.mono fun reached result clear => ?_
  obtain ⟨sent, stands, -⟩ := clear
  exact settled_of_blank stands

/-- Every program keeps its books in order. -/
theorem program_allows (deployment : Deployment) (role : Role) :
    (evidence Evidence.Possible Justified).Allows (fun reached _ => Settled reached.2) (role, [])
      (program deployment role) := by
  cases role with
  | request request => exact others_allow rfl
  | sweep sweep => exact others_allow rfl
  | task message =>
      unfold program
      dsimp only
      split
      · rename_i provision
        exact provisionEnvironment_allows provision ⟨rfl, rfl, rfl⟩
      · rename_i teardown
        exact teardownEnvironment_allows teardown ⟨rfl, rfl, rfl⟩

/-! ## Runs -/

/-- The books are in order if every call has been. -/
theorem books_of_justified {trace : List (Entry Reply)}
    (justified : ∀ before entry after, trace = before ++ entry :: after →
      Justified role before entry.request) :
    Books role (trace.filterMap Lineage.sampleOf) (trace.filterMap sentBy) := by
  induction trace using List.reverseRecOn with
  | nil =>
      cases role with
      | task message => exact .fresh message
      | request request => exact .other _ _ rfl fun _ member => (List.not_mem_nil member).elim
      | sweep sweep => exact .other _ _ rfl fun _ member => (List.not_mem_nil member).elim
  | append_singleton trace entry inductionHypothesis =>
      have before := inductionHypothesis fun before other after split =>
        justified before other (after ++ [entry]) (by rw [split, List.append_assoc]; rfl)
      have last := justified trace entry [] rfl
      have unnoted : Lineage.sampleOf entry = none → sentBy entry = none →
          Books role (trace.filterMap Lineage.sampleOf ++ (Lineage.sampleOf entry).toList)
            (trace.filterMap sentBy ++ (sentBy entry).toList) := by
        intro unrecorded unsent
        rw [unrecorded, unsent, Option.toList_none, List.append_nil, Option.toList_none,
          List.append_nil]
        exact before
      obtain ⟨request, reply⟩ := entry
      rw [filterMap_concat, filterMap_concat]
      cases request with
      | record metric => exact (List.append_nil (trace.filterMap sentBy)).symm ▸ last
      | publish task envId retries countdown =>
          cases reply with
          | ok id => exact (List.append_nil (trace.filterMap Lineage.sampleOf)).symm ▸ last
          | error exc => exact unnoted rfl rfl
      | _ => exact unnoted rfl rfl

/-- In every run the books of every thread are in order. -/
theorem books_of_runs (run : System.Runs deployment refuses allowed config) :
    ∀ job ∈ config.threads, Books (Thread.role job) (samples job) (posts job) :=
  fun job member => books_of_justified (run.evidenced rfl (Evidence.describes deployment _)
    (fun role => (program_allows deployment role).mono fun _ _ _ => trivial) job member)

/-- In every run the books of a finished thread are settled. -/
theorem settled_of_runs (run : System.Runs deployment refuses allowed config) :
    ∀ job ∈ config.threads, ¬job.rest.Suspended → Settled (Thread.trace job) := by
  have meets : config.Meets (evidence Evidence.Possible Justified) (fun role => (role, []))
      fun _ known _ => Settled known.2 :=
    Run.meets run rfl (Evidence.describes deployment _) (program_allows deployment)
  intro job member finished
  have meets := meets job member
  rw [phase_evidence] at meets
  cases rest : job.rest with
  | pure answer => rw [rest] at meets; exact meets
  | raise exc => rw [rest] at meets; exact meets
  | call request resume => rw [rest] at finished; exact (finished trivial).elim

/-- The surroundings neither record nor send anything. -/
theorem surrounds_of_acted {world next : World} {action : Ambient} {spawned : Option Role}
    (acted : surroundings world action = some (next, spawned)) :
    next.metrics = world.metrics ∧ next.sent = world.sent := by
  cases surrounds_of_eq acted <;> exact ⟨rfl, rfl⟩

/-- The samples of the service are those of its threads. -/
theorem metrics_perm (run : System.Runs deployment refuses allowed config) :
    config.state.metrics.Perm (config.threads.flatMap samples) := by
  refine run.tallies World.metrics Lineage.sampleOf rfl rfl
    (fun _ _ _ _ acted => (surrounds_of_acted acted).1)
    fun world request choice reply next executed => ?_
  cases World.exec_effect executed with
  | failed _ exc raises =>
      cases request with
      | record metric => cases raises
      | _ => exact (List.append_nil _).symm
  | recorded metric => rfl
  | read request value reads =>
      cases request with
      | record metric => cases reads
      | _ => exact (List.append_nil _).symm
  | _ => exact (List.append_nil _).symm

/-- The messages of the service are those that its threads have sent. -/
theorem sent_perm (run : System.Runs deployment refuses allowed config) :
    (config.state.sent.map fun message => (message.task, message.envId, message.retries)).Perm
      (config.threads.flatMap posts) := by
  refine run.tallies (fun world => world.sent.map fun message =>
    (message.task, message.envId, message.retries)) sentBy rfl rfl
    (fun _ _ _ _ acted => congrArg (List.map _) (surrounds_of_acted acted).2)
    fun world request choice reply next executed => ?_
  cases World.exec_effect executed with
  | failed _ exc raises => cases request <;> exact (List.append_nil _).symm
  | published task envId retries countdown => exact List.map_append
  | read request value reads =>
      cases request with
      | publish task envId retries countdown => cases reads
      | _ => exact (List.append_nil _).symm
  | _ => exact (List.append_nil _).symm

/-! ## Totals -/

/-- The sample counts an outcome of the task. -/
def counts (task : Task) (metric : Metric) : Bool :=
  (Lineage.total metric).map Prod.fst = some task

/-- The sample is a duration of the template. -/
def observes (template : String) : Metric → Bool
  | .provisionDuration name _ => name = template
  | _ => false

/-- The message is a retry of the task. -/
def retries (task : Task) (post : Task × String × Nat) : Bool :=
  post.1 = task ∧ post.2.2 ≠ 0

/-- The thread has counted a success of the template and not observed its duration. -/
def Untimed (template : String) (job : Job) : Prop :=
  samples job = [.provisionTotal template .success]

/-- The thread has counted a retry of the task and not sent it. -/
def Unsent (task : Task) (job : Job) : Prop :=
  (samples job).map Lineage.total = [some (task, .retry)] ∧ posts job = []

instance (template : String) (job : Job) : Decidable (Untimed template job) :=
  inferInstanceAs (Decidable (_ = _))

instance (task : Task) (job : Job) : Decidable (Unsent task job) :=
  inferInstanceAs (Decidable (_ ∧ _))

/-- The totals agree. -/
structure Balanced (config : System) : Prop where
  /-- An attempt is counted under one outcome at most. -/
  once : ∀ job ∈ config.threads, ((samples job).filterMap Lineage.total).length ≤ 1
  /-- And under its own task. -/
  own : ∀ job ∈ config.threads, ∀ counted ∈ (samples job).filterMap Lineage.total,
    job.role.runs counted.1
  /-- A task has as many outcomes as it has attempts that have come to one. -/
  outcomes : ∀ task, config.state.metrics.countP (counts task) =
    config.threads.countP fun job => job.role.runs task ∧ samples job ≠ []
  /-- A success has a duration, or its attempt has not come to observe it. -/
  durations : ∀ template, config.state.metrics.count (.provisionTotal template .success) =
    config.state.metrics.countP (observes template) +
      config.threads.countP fun job => Untimed template job
  /-- A retry has been sent, or its attempt has not come to send it. -/
  retries : ∀ task,
    config.state.metrics.countP (fun metric => Lineage.total metric = some (task, .retry)) =
      config.state.sent.countP (fun message => message.task = task ∧ message.retries ≠ 0) +
        config.threads.countP fun job => Unsent task job
  untimed : ∀ job ∈ config.threads, ∀ template, Untimed template job → job.rest.Suspended
  unsent : ∀ job ∈ config.threads, ∀ task, Unsent task job →
    job.rest.Suspended ∨ Refused job.trace

/-- The books of one thread count one outcome at most, of its own task. -/
theorem Books.once (books : Books role metrics sent) :
    (metrics.filterMap Lineage.total).length ≤ 1 ∧
      ∀ counted ∈ metrics.filterMap Lineage.total, role.runs counted.1 := by
  have single : ∀ metric message outcome, Lineage.total metric = some (message.task, outcome) →
      ([metric].filterMap Lineage.total).length ≤ 1 ∧
        ∀ counted ∈ [metric].filterMap Lineage.total, (Role.task message).runs counted.1 := by
    intro metric message outcome total
    rw [List.filterMap_cons_some total, List.filterMap_nil]
    refine ⟨le_refl 1, fun counted member => ?_⟩
    rw [List.mem_singleton.mp member]
    exact rfl
  cases books with
  | other _ posts other none => exact ⟨Nat.zero_le 1, nofun⟩
  | fresh message => exact ⟨Nat.zero_le 1, nofun⟩
  | counted message metric outcome counted => exact single metric message outcome counted
  | timed message template elapsed provision =>
      -- A duration counts no outcome.
      exact single (.provisionTotal template .success) message .success (by rw [provision]; rfl)
  | retried message metric counted => exact single metric message .retry counted

/-- The outcomes in the books of one thread. -/
theorem Books.outcomes (books : Books role metrics sent) (task : Task) :
    metrics.countP (counts task) =
      0 + if decide (role.runs task ∧ metrics ≠ []) = true then 1 else 0 := by
  cases books with
  | other _ posts other none => simp
  | fresh message => simp
  | counted message metric outcome counted =>
      simp [counts, counted, Role.runs, List.countP_cons]
  | timed message template elapsed provision =>
      simp [counts, Lineage.total, Role.runs, provision, List.countP_cons]
  | retried message metric counted =>
      simp [counts, counted, Role.runs, List.countP_cons]

/-- The successes and durations in the books of one thread. -/
theorem Books.durations (books : Books role metrics sent) (template : String) :
    metrics.count (.provisionTotal template .success) = metrics.countP (observes template) +
      if decide (metrics = [.provisionTotal template .success]) = true then 1 else 0 := by
  cases books with
  | other _ posts other none => simp
  | fresh message => simp
  | counted message metric outcome counted =>
      have total : observes template metric = false := by
        cases metric <;> first | rfl | cases counted
      simp [total, List.count_singleton]
  | timed message name elapsed provision =>
      simp [observes, List.count_cons]
  | retried message metric counted =>
      have total : observes template metric = false := by
        cases metric <;> first | rfl | cases counted
      simp [total, List.count_singleton]

/-- The retries in the books of one thread. -/
theorem Books.retries (books : Books role metrics sent) (task : Task) :
    metrics.countP (fun metric => Lineage.total metric = some (task, .retry)) =
      sent.countP (Ledger.retries task) +
        if decide (metrics.map Lineage.total = [some (task, .retry)] ∧ sent = []) = true
          then 1 else 0 := by
  cases books with
  | other _ posts other zero =>
      have none : sent.countP (Ledger.retries task) = 0 := by
        refine List.countP_eq_zero.mpr fun post member again => ?_
        exact (of_decide_eq_true again).2 (zero post member)
      simp [none]
  | fresh message => simp
  | counted message metric outcome counted => simp [List.countP_cons]
  | timed message name elapsed provision => simp [Lineage.total]
  | retried message metric counted =>
      simp [counted, Ledger.retries, List.countP_cons]

/-- What is counted in a log is counted thread by thread. -/
theorem countP_of_perm {β : Type} {log : List β} {account : Job → List β}
    (perm : log.Perm (config.threads.flatMap account)) (holds : β → Bool) :
    log.countP holds = (config.threads.map fun job => (account job).countP holds).sum := by
  rw [perm.countP_eq holds, List.countP_flatMap]
  rfl

/-- In every run the totals agree: each attempt is counted under one outcome at most, and what is
counted as a success or a retry is observed or sent, up to the attempts that are just between. -/
theorem balanced (run : System.Runs deployment refuses allowed config) : Balanced config := by
  have books := books_of_runs run
  have metrics := metrics_perm run
  refine ⟨fun job member => (books job member).once.1, fun job member => (books job member).once.2,
    fun task => ?_, fun template => ?_, fun task => ?_, fun job member template cut => ?_,
    fun job member task unsent => ?_⟩
  · rw [countP_of_perm metrics, sum_map_eq_add fun job member => (books job member).outcomes task]
    simp
  · rw [List.count, countP_of_perm metrics, countP_of_perm metrics]
    exact sum_map_eq_add fun job member => (books job member).durations template
  · have sent := countP_of_perm (sent_perm run) (retries task)
    rw [List.countP_map] at sent
    rw [countP_of_perm metrics, sum_map_eq_add fun job member => (books job member).retries task]
    exact congrArg (· + _) sent.symm
  · by_contra finished
    exact (settled_of_runs run job member finished).timed template cut
  · by_cases suspended : job.rest.Suspended
    · exact .inl suspended
    · refine .inr ((settled_of_runs run job member suspended).sent task ?_ unsent.2)
      have counted : (job.trace.filterMap Lineage.sampleOf).map Lineage.total =
        [some (task, .retry)] := unsent.1
      rw [counted]
      exact List.mem_singleton_self _

/-- A first attempt that fails and is sent again, and a second one. -/
def retried : List Occurrence :=
  Sample.create 0 1 ++ Sample.deliver ++ Sample.succeed 1 4 ++
    .advance 1 Sample.refused :: Sample.succeed 1 5 ++
    .ambient (.tick 10000000) :: Sample.deliver ++ Sample.succeed 2 5 ++ Sample.startRoles 2 ++
    Sample.succeed 2 2

theorem balanced_of_retried :
    ∃ config : System, Reachable (machine Compose.shipped) (System.initial true) config ∧
      config.state.metrics = [.provisionTotal "webapp-postgres" .retry,
        .provisionTotal "webapp-postgres" .success] ∧ Balanced config := by
  have shown : ((System.initial true).run (machine Compose.shipped) (fun _ _ => True)
      retried).map (fun config => config.state.metrics) =
      some [.provisionTotal "webapp-postgres" .retry,
        .provisionTotal "webapp-postgres" .success] := by
    decide +kernel
  obtain ⟨config, run, seen⟩ := Run.exists_run shown
  exact ⟨config, run, seen, balanced run⟩

end Ledger

end Provisioner
