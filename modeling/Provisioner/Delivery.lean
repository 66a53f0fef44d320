import Provisioner.Attempts
import Provisioner.Messages
import Provisioner.Publishing
import Provisioner.Resumption.Closing

/-!
# One provision at a time

A create publishes one provision of its environment, and an attempt that fails publishes the
next one as its last call. So unless the broker delivers a message again, the provision of an
environment is like a token: it is with the create, in the queue or with one attempt. The
attempts on an environment never overlap, they are numbered from zero in the order in which
they start, there are at most four of them, and each keeps the back-off after the one before.
-/

namespace Provisioner

open Resumption

/-- How long the retry of a message has to wait, in seconds. -/
def Message.countdown (message : Message) : Int :=
  match message.task with
  | .provision => 2 ^ message.retries * 10
  | .teardown => 5

/-- The retry of a message. -/
def Message.retry (message : Message) : Call :=
  .publish message.task message.envId (message.retries + 1) message.countdown

namespace Delivery

variable {deployment : Deployment} {refuses : Bool}
  {allowed : System → Occurrence → Prop} {config : System}
  {world next : World} {id : Uuid} {message : Message}

/-! ## The last call of an attempt -/

/-- The calls of a role before its last one. -/
def early : Role → Call → Prop
  | .task _, request => request.quiet = true
  | _, _ => True

/-- The last call of an attempt that failed. -/
def last : Role → Call → Prop
  | .task message, request => request = message.retry ∧ message.retries < message.task.maxRetries
  | _, _ => False

theorem selfRetry_closes (exc : Exn) :
    (Worker.selfRetry message message.countdown exc).Closes (early (.task message))
      (last (.task message)) := by
  unfold Worker.selfRetry
  split
  · trivial
  · rename_i left
    refine .inr ⟨⟨rfl, Nat.lt_of_not_le left⟩, fun reply => ?_⟩
    rcases reply with exc | task <;> exact not_false

/-- An attempt retries as its last call. -/
theorem program_closes (deployment : Deployment) (role : Role) :
    (program deployment role).Closes (early role) (last role) := by
  have others : (∀ request, early role request) →
      (program deployment role).Closes (early role) (last role) := fun all =>
    (program_makes_quiet (fun request _ => all request) fun _ _ _ _ _ => all _).closes
  cases role with
  | request request => exact others fun _ => trivial
  | sweep sweep => exact others fun _ => trivial
  | task message =>
      unfold program
      dsimp only
      split
      · rename_i provision
        have waits : message.countdown = 2 ^ message.retries * 10 := by
          unfold Message.countdown
          rw [provision]
        refine Program.closes_bind (DockerManager.perform_makes rfl) fun started => ?_
        refine Program.closes_tryCatch (Worker.provisionAttempt_makes _ _ _ Call.quiet_of_silent
          fun _ => rfl) fun failure => ?_
        refine Program.closes_bind ((Worker.markFailed_silent _ _ _).mono Call.quiet_of_silent)
          fun _ => ?_
        refine Program.closes_bind (DockerManager.perform_makes rfl) fun _ => ?_
        split
        · rw [← waits]
          exact selfRetry_closes failure.exc
        · trivial
      · rename_i teardown
        have waits : message.countdown = 5 := by
          unfold Message.countdown
          rw [teardown]
        refine Program.closes_tryCatch (Worker.teardownAttempt_makes _ Call.quiet_of_silent
          fun _ => rfl) fun failure => ?_
        refine Program.closes_bind (DockerManager.perform_makes rfl) fun _ => ?_
        split
        · exact Program.closes_bind
            ((Worker.markFailed_silent _ _ _).mono Call.quiet_of_silent) fun _ => trivial
        · rw [← waits]
          exact selfRetry_closes failure.exc

/-! ## The token -/

/-- The create has flushed the row and not published its provision yet. -/
def inserts (id : Uuid) : Stage → Bool
  | .inserted _ env => env.id = id
  | _ => false

/-- The job is an attempt to provision the environment, or the create that will publish the
first one. -/
def Holds (id : Uuid) (job : Job) : Prop :=
  job.Active ∧ (job.role.Is .provision id ∨ inserts id (Job.phase job).stage = true)

instance (job : Job) : Decidable job.Active :=
  inferInstanceAs (Decidable (_ ∧ job.rest.Suspended))

instance (id : Uuid) (job : Job) : Decidable (Holds id job) :=
  inferInstanceAs (Decidable (_ ∧ _))

/-- How many provisions of the environment are under way. -/
def tokens (id : Uuid) (config : System) : Nat :=
  config.state.queue.countP (fun message => message.Is .provision id) +
    config.threads.countP fun job => Holds id job

/-- The provisions of the environment that were published. -/
def provisions (id : Uuid) (world : World) : List Message :=
  world.sent.filter fun message => message.Is .provision id

/-- The provisions of the environment that were started. -/
def attempts (id : Uuid) (config : System) : List Message :=
  (config.threads.map Thread.role).filterMap fun role =>
    role.message.filter fun message => message.Is .provision id

/-- What holds of the token in every run. -/
structure Serial (id : Uuid) (config : System) : Prop where
  one : tokens id config ≤ 1
  /-- The provisions are numbered from zero in the order in which they are published. -/
  numbered : (provisions id config.state).map Message.retries =
    List.range (provisions id config.state).length
  /-- A queued provision is the last one, and no attempt has taken it yet. -/
  queued : ∀ message ∈ config.state.queue, message.Is .provision id →
    message.retries + 1 = (provisions id config.state).length ∧
      ∀ attempt ∈ attempts id config, attempt.retries < message.retries
  /-- An attempt at work has taken the last one. -/
  active : ∀ job ∈ config.threads, Thread.Active job → ∀ message ∈ job.role.message,
    message.Is .provision id → message.retries + 1 = (provisions id config.state).length
  /-- A create that has not published yet is the first to publish. -/
  inserting : ∀ job ∈ config.threads, Thread.Active job →
    inserts id (Job.phase job).stage = true → provisions id config.state = []
  /-- Attempts start in the order of their numbers. -/
  ordered : (attempts id config).Pairwise fun first second => first.retries < second.retries

theorem mem_attempts {attempt : Message} :
    attempt ∈ attempts id config ↔
      ∃ job ∈ config.threads, attempt ∈ job.role.message ∧ attempt.Is .provision id := by
  simp only [attempts, List.mem_filterMap, List.mem_map, Option.filter_eq_some_iff,
    decide_eq_true_eq, exists_exists_and_eq_and, Option.mem_def]

/-- A thread that keeps its role changes no attempt. -/
theorem attempts_put {index : Nat} {job job' : Job}
    (found : config.threads[index]? = some job) (role : job'.role = job.role) :
    attempts id (config.put world index job') = attempts id config := by
  have roles : (config.threads.set index job').map Thread.role =
      config.threads.map Thread.role := by
    rw [List.map_set, role]
    exact set_self (by rw [List.getElem?_map, found]; rfl)
  unfold attempts Config.put
  rw [roles]

theorem countP_put {holds : Job → Bool} {index : Nat} {job job' : Job}
    (found : config.threads[index]? = some job) :
    (config.put world index job').threads.countP holds + (if holds job then 1 else 0) =
      config.threads.countP holds + if holds job' then 1 else 0 := by
  obtain ⟨within, same⟩ := List.getElem?_eq_some_iff.mp found
  have counted : (if holds config.threads[index] then 1 else 0) ≤ config.threads.countP holds :=
    List.boole_getElem_le_countP within
  rw [Config.put, List.countP_set within]
  rw [same] at counted ⊢
  omega

theorem countP_eraseIdx {holds : Message → Bool} {messages : List Message} {index : Nat}
    {message : Message} (found : messages[index]? = some message) :
    (messages.eraseIdx index).countP holds + (if holds message then 1 else 0) =
      messages.countP holds := by
  obtain ⟨within, same⟩ := List.getElem?_eq_some_iff.mp found
  have split : messages = messages.take index ++ message :: messages.drop (index + 1) := by
    rw [← same, ← List.drop_eq_getElem_cons within, List.take_append_drop]
  rw [List.eraseIdx_eq_take_drop_succ]
  conv => rhs; rw [split]
  rw [List.countP_append, List.countP_append, List.countP_cons]
  omega

/-! ## Steps -/

/-- What a thread that moves on does to the count. -/
theorem tokens_put {index : Nat} {job job' : Job} (found : config.threads[index]? = some job) :
    tokens id (config.put world index job') + (if Holds id job then 1 else 0) =
      world.queue.countP (fun message => message.Is .provision id) +
        config.threads.countP (fun job => Holds id job) + if Holds id job' then 1 else 0 := by
  have counted : (config.put world index job').threads.countP (fun job => Holds id job) +
      (if decide (Holds id job) = true then 1 else 0) =
      config.threads.countP (fun job => Holds id job) +
        if decide (Holds id job') = true then 1 else 0 := countP_put found
  simp only [decide_eq_true_eq] at counted
  unfold tokens
  rw [Nat.add_assoc, counted, Config.put, Nat.add_assoc]

/-- A started thread is not creating a row. -/
theorem inserts_start (role : Role) : inserts id (Phase.start role).stage = false := by
  rcases Phase.start_stage role with same | same <;> rw [same] <;> rfl

/-- A create comes to its publish by the flush. -/
theorem inserts_after {role : Role} {stage : Stage} {request : Call} {reply : Reply request}
    (creates : inserts id (stage.after role request reply) = true) :
    inserts id stage = true ∨ ∃ env, Stage.Flushes request reply env ∧ env.id = id := by
  have advances : stage.Advances role request reply (stage.after role request reply) :=
    Stage.after_advances request reply
  generalize reached : stage.after role request reply = stage' at advances creates
  cases advances with
  | load wanted reply =>
      cases stage <;> rcases reply with exc | (row | row) <;> cases creates
  | commit changes reply =>
      have commits : stage.Commits role changes reply (stage.onCommit role changes reply) :=
        Stage.onCommit_commits changes reply
      generalize stage.onCommit role changes reply = stage' at commits creates
      cases commits <;> cases creates
  | flush name owner template ttlSeconds count env checked =>
      exact .inr ⟨env, .flush name owner template ttlSeconds env, of_decide_eq_true creates⟩
  | keep _ _ => exact .inl creates
  | bare _ _ _ bare => cases stage' <;> first | exact bare.elim | cases creates
  | _ => cases creates

/-- A thread that moves on without publishing or flushing keeps the token where it is. -/
theorem Serial.put {index : Nat} {job job' : Job}
    (serial : Serial id config)
    (found : config.threads[index]? = some job)
    (role : job'.role = job.role)
    (queue : world.queue.filter (fun message => message.Is .provision id) =
      config.state.queue.filter fun message => message.Is .provision id)
    (same : provisions id world = provisions id config.state)
    (active : job'.Active → job.Active)
    (inserting : job'.Active → inserts id (Job.phase job').stage = true →
      inserts id (Job.phase job).stage = true) : Serial id (config.put world index job') := by
  have member := List.mem_of_getElem? found
  refine ⟨?_, ?_, ?_, ?_, ?_, ?_⟩
  · have holds : Holds id job' → Holds id job := fun held =>
      ⟨active held.1, held.2.imp (role ▸ ·) (inserting held.1)⟩
    have counted : tokens id (config.put world index job') + (if Holds id job then 1 else 0) = _ :=
      tokens_put found
    have one := serial.one
    unfold tokens at one
    rw [List.countP_eq_length_filter, queue, ← List.countP_eq_length_filter] at counted
    by_cases held : Holds id job'
    · rw [if_pos held, if_pos (holds held)] at counted
      omega
    · rw [if_neg held] at counted
      omega
  · rw [Config.put, same]
    exact serial.numbered
  · intro message present own
    rw [attempts_put found role, Config.put, same]
    have queued : message ∈ world.queue.filter fun message => message.Is .provision id :=
      List.mem_filter.mpr ⟨present, decide_eq_true own⟩
    rw [queue] at queued
    exact serial.queued message (List.mem_of_mem_filter queued) own
  · rw [Config.put, same]
    refine forall_mem_set serial.active fun alive message mine own => ?_
    rw [role] at mine
    exact serial.active job member (active alive) message mine own
  · rw [Config.put, same]
    exact forall_mem_set serial.inserting fun alive creates =>
      serial.inserting job member (active alive) (inserting alive creates)
  · rw [attempts_put found role]
    exact serial.ordered

/-- A thread that starts for something else leaves the token where it is. -/
theorem Serial.append {jobs : List Job}
    (serial : Serial id config)
    (starts : ∀ job ∈ jobs, inserts id (Job.phase job).stage = false ∧
      ¬job.role.Is .provision id)
    (queue : ∀ message ∈ world.queue, message.Is .provision id → message ∈ config.state.queue)
    (fewer : world.queue.countP (fun message => message.Is .provision id) ≤
      config.state.queue.countP fun message => message.Is .provision id)
    (sent : world.sent = config.state.sent) : Serial id ⟨world, config.threads ++ jobs⟩ := by
  have same : provisions id world = provisions id config.state := by
    unfold provisions
    rw [sent]
  have none : jobs.countP (fun job => Holds id job) = 0 := by
    refine List.countP_eq_zero.mpr fun job member held => ?_
    obtain ⟨idle, other⟩ := starts job member
    rcases (of_decide_eq_true held).2 with own | creates
    · exact other own
    · rw [idle] at creates
      cases creates
  have kept : attempts id ⟨world, config.threads ++ jobs⟩ = attempts id config := by
    have others : (jobs.map Thread.role).filterMap (fun role =>
        role.message.filter fun message => message.Is .provision id) = [] := by
      refine List.filterMap_eq_nil_iff.mpr fun role member => ?_
      obtain ⟨job, present, rfl⟩ := List.mem_map.mp member
      refine Option.filter_eq_none_iff.mpr fun message mine own => ?_
      exact (starts job present).2 ⟨message, mine, of_decide_eq_true own⟩
    unfold attempts
    rw [List.map_append, List.filterMap_append, others, List.append_nil]
  refine ⟨?_, ?_, ?_, ?_, ?_, ?_⟩
  · have one := serial.one
    unfold tokens at one ⊢
    rw [List.countP_append, none]
    exact (Nat.add_le_add_right fewer _).trans one
  · rw [same]
    exact serial.numbered
  · intro message present own
    rw [kept, same]
    exact serial.queued message (queue message present own) own
  · rw [same]
    intro job member alive message mine own
    rcases List.mem_append.mp member with old | new
    · exact serial.active job old alive message mine own
    · exact ((starts job new).2 ⟨message, mine, own⟩).elim
  · rw [same]
    intro job member alive creates
    rcases List.mem_append.mp member with old | new
    · exact serial.inserting job old alive creates
    · rw [(starts job new).1] at creates
      cases creates
  · rw [kept]
    exact serial.ordered

/-- The token is taken from the queue. -/
theorem Serial.deliver {index : Nat}
    (serial : Serial id config)
    (found : config.state.queue[index]? = some message)
    (own : message.Is .provision id)
    (queue : world.queue = config.state.queue.eraseIdx index)
    (sent : world.sent = config.state.sent) :
    Serial id ⟨world, config.threads ++ [Thread.start (machine deployment) (.task message)]⟩ := by
  have same : provisions id world = provisions id config.state := by
    unfold provisions
    rw [sent]
  obtain ⟨final, later⟩ := serial.queued message (List.mem_of_getElem? found) own
  have counted : (config.state.queue.eraseIdx index).countP (fun message =>
      message.Is .provision id) + (if decide (message.Is .provision id) = true then 1 else 0) =
      config.state.queue.countP fun message => message.Is .provision id := countP_eraseIdx found
  rw [if_pos (decide_eq_true own)] at counted
  have one := serial.one
  unfold tokens at one
  have taken : ∀ other ∈ world.queue, ¬other.Is .provision id := by
    intro other present mine
    rw [queue] at present
    have some : 0 < (config.state.queue.eraseIdx index).countP fun message =>
        message.Is .provision id := List.countP_pos_iff.mpr ⟨other, present, decide_eq_true mine⟩
    omega
  have nobody : ∀ job ∈ config.threads, ¬Holds id job := by
    intro job member held
    have some : 0 < config.threads.countP fun job => Holds id job :=
      List.countP_pos_iff.mpr ⟨job, member, decide_eq_true held⟩
    omega
  have started : attempts id ⟨world,
      config.threads ++ [Thread.start (machine deployment) (.task message)]⟩ =
      attempts id config ++ [message] := by
    have new : [Role.task message].filterMap (fun role =>
        role.message.filter fun message => message.Is .provision id) = [message] :=
      List.filterMap_cons_some (Option.filter_eq_some_iff.mpr ⟨rfl, decide_eq_true own⟩)
    unfold attempts
    rw [List.map_append, List.filterMap_append, List.map_singleton, Thread.role_start, new]
  refine ⟨?_, ?_, fun other present mine => (taken other present mine).elim, ?_, ?_, ?_⟩
  · unfold tokens
    rw [queue, List.countP_append, List.countP_singleton]
    split <;> omega
  · rw [same]
    exact serial.numbered
  · rw [same]
    intro job member alive other mine is
    rcases List.mem_append.mp member with old | new
    · exact serial.active job old alive other mine is
    · cases List.mem_singleton.mp new
      cases mine
      exact final
  · intro job member alive creates
    rcases List.mem_append.mp member with old | new
    · exact (nobody job old ⟨alive, .inr creates⟩).elim
    · cases List.mem_singleton.mp new
      rw [Job.phase_start, inserts_start] at creates
      cases creates
  · rw [started, List.pairwise_append]
    refine ⟨serial.ordered, List.pairwise_singleton _ _, fun first present second last => ?_⟩
    cases List.mem_singleton.mp last
    exact later first present

/-- While the key of the environment is not generated, nothing is under way. -/
theorem unissued (run : System.Runs deployment refuses allowed config)
    (unused : id ∉ config.state.issued) :
    tokens id config = 0 ∧ provisions id config.state = [] ∧ attempts id config = [] := by
  obtain ⟨order, attends⟩ := Messages.of_runs run
  have never : ∀ message ∈ config.state.sent, ¬message.Is .provision id := by
    rintro message sent ⟨-, parsed⟩
    obtain ⟨id', issued, named, -⟩ := order.names message sent
    rw [named, Uuid.parse_str] at parsed
    cases parsed
    exact unused issued
  have others : ∀ job ∈ config.threads, ∀ message ∈ job.role.message,
      ¬message.Is .provision id := fun job member message mine =>
    never message ((attends job member).sent message
      ((Job.role_phase job).trans (Role.eq_task_of_message mine)))
  refine ⟨?_, List.filter_eq_nil_iff.mpr fun message sent own =>
    never message sent (of_decide_eq_true own), ?_⟩
  · unfold tokens
    rw [Nat.add_eq_zero_iff, List.countP_eq_zero, List.countP_eq_zero]
    refine ⟨fun message present own =>
      never message (order.queued message present) (of_decide_eq_true own),
      fun job member held => ?_⟩
    rcases (of_decide_eq_true held).2 with ⟨message, mine, own⟩ | creates
    · exact others job member message mine own
    · unfold inserts at creates
      split at creates
      · rename_i count env stage
        have new := (attends job member).integrity.fresh count env (by rw [stage]; rfl)
        exact unused (of_decide_eq_true creates ▸ new.issued)
      · cases creates
  · refine List.eq_nil_iff_forall_not_mem.mpr fun attempt present => ?_
    obtain ⟨job, member, mine, own⟩ := mem_attempts.mp present
    exact others job member attempt mine own

/-- A create flushes a row whose key is new. -/
theorem serial_flush {index : Nat} {job job' : Job}
    (run : System.Runs deployment refuses allowed config)
    (found : config.threads[index]? = some job)
    (role : job'.role = job.role)
    (queue : world.queue = config.state.queue)
    (sent : world.sent = config.state.sent)
    (unused : id ∉ config.state.issued) : Serial id (config.put world index job') := by
  obtain ⟨none, blank, nobody⟩ := unissued run unused
  have same : provisions id world = [] := by
    unfold provisions at blank ⊢
    rw [sent, blank]
  unfold tokens at none
  obtain ⟨unqueued, -⟩ := Nat.add_eq_zero_iff.mp none
  refine ⟨?_, ?_, fun message present own => ?_, ?_, fun _ _ _ _ => same, ?_⟩
  · have counted : tokens id (config.put world index job') + (if Holds id job then 1 else 0) = _ :=
      tokens_put found
    rw [queue] at counted
    split at counted <;> split at counted <;> omega
  · rw [Config.put, same]
    rfl
  · have some := List.countP_eq_zero.mp unqueued message (queue ▸ present)
    exact (some (decide_eq_true own)).elim
  · intro other member alive message mine own
    have started : message ∈ attempts id (config.put world index job') :=
      mem_attempts.mpr ⟨other, member, mine, own⟩
    rw [attempts_put found role, nobody] at started
    cases started
  · rw [attempts_put found role, nobody]
    exact .nil

/-- A started provision is numbered below the published ones. -/
theorem Serial.started (serial : Serial id config)
    (run : System.Runs deployment refuses allowed config)
    {attempt : Message} (present : attempt ∈ attempts id config) :
    attempt ∈ provisions id config.state ∧
      attempt.retries < (provisions id config.state).length := by
  obtain ⟨job, member, mine, own⟩ := mem_attempts.mp present
  have sent := ((Messages.of_runs run).2 job member).sent attempt
    ((Job.role_phase job).trans (Role.eq_task_of_message mine))
  have listed : attempt ∈ provisions id config.state :=
    List.mem_filter.mpr ⟨sent, decide_eq_true own⟩
  have number := List.mem_map_of_mem (f := Message.retries) listed
  rw [serial.numbered] at number
  exact ⟨listed, List.mem_range.mp number⟩

/-- The token goes from the job that publishes to the queue. -/
theorem Serial.publish {index : Nat} {job job' : Job}
    (run : System.Runs deployment refuses allowed config)
    (serial : Serial id config)
    (found : config.threads[index]? = some job)
    (role : job'.role = job.role)
    (holds : Holds id job) (passes : ¬Holds id job')
    (own : message.Is .provision id)
    (number : message.retries = (provisions id config.state).length)
    (queue : world.queue = config.state.queue ++ [message])
    (sent : world.sent = config.state.sent ++ [message]) :
    Serial id (config.put world index job') := by
  have published : provisions id world = provisions id config.state ++ [message] := by
    unfold provisions
    rw [sent, List.filter_append, List.filter_singleton, decide_eq_true own, cond_true]
  have counted : tokens id (config.put world index job') + (if Holds id job then 1 else 0) = _ :=
    tokens_put found
  rw [if_pos holds, if_neg passes, queue, List.countP_append, List.countP_singleton,
    if_pos (decide_eq_true own)] at counted
  have one := serial.one
  unfold tokens at one
  have some : 0 < config.threads.countP fun job => Holds id job :=
    List.countP_pos_iff.mpr ⟨job, List.mem_of_getElem? found, decide_eq_true holds⟩
  have nobody : ∀ other ∈ (config.put world index job').threads, ¬Holds id other := by
    intro other member held
    have other : 0 < (config.put world index job').threads.countP fun job => Holds id job :=
      List.countP_pos_iff.mpr ⟨other, member, decide_eq_true held⟩
    unfold tokens at counted
    rw [Config.put] at counted other
    dsimp only at counted other
    rw [queue, List.countP_append, List.countP_singleton, if_pos (decide_eq_true own)] at counted
    omega
  refine ⟨by omega, ?_, fun other present mine => ?_, fun other member alive last mine is =>
    (nobody other member ⟨alive, .inl ⟨last, mine, is⟩⟩).elim, fun other member alive creates =>
    (nobody other member ⟨alive, .inr creates⟩).elim, ?_⟩
  · rw [Config.put, published, List.map_append, serial.numbered, List.length_append,
      List.length_singleton, List.range_succ, List.map_singleton, number]
  · rw [attempts_put found role, Config.put, published, List.length_append, List.length_singleton]
    rw [Config.put, queue] at present
    rcases List.mem_append.mp present with old | new
    · have queued : 0 < config.state.queue.countP fun message => message.Is .provision id :=
        List.countP_pos_iff.mpr ⟨other, old, decide_eq_true mine⟩
      omega
    · cases List.mem_singleton.mp new
      rw [number]
      exact ⟨rfl, fun attempt present => (serial.started run present).2⟩
  · rw [attempts_put found role]
    exact serial.ordered

/-! ## Runs -/

/-- A message is delivered again. -/
def redelivers : Occurrence → Bool
  | .ambient (.redeliver _) => true
  | _ => false

/-- No message is delivered again. -/
def Once (_ : System) (event : Occurrence) : Prop :=
  redelivers event = false

instance (config : System) : DecidablePred (Once config) :=
  fun _ => inferInstanceAs (Decidable (_ = false))

/-- Whoever publishes a provision of the environment has the token and passes it on. -/
theorem passes_of_publish {index : Nat} {job : Job} {task : Task} {envId : String}
    {retries : Nat} {countdown : Int} {value : TaskId} {notBefore : Time}
    {resume : Reply (.publish task envId retries countdown) → Action Answer}
    (run : System.Runs deployment refuses allowed config)
    (serial : Serial id config)
    (found : config.threads[index]? = some job)
    (alive : job.live = true)
    (rest : job.rest = .call (.publish task envId retries countdown) resume)
    (permits : (Job.phase job).Publishes task envId retries)
    (own : (Message.mk task envId retries notBefore).Is .provision id) :
    Holds id job ∧
      ¬Holds id (job.answered (.publish task envId retries countdown) (.ok value)
        (resume (.ok value))) ∧
      retries = (provisions id config.state).length := by
  have member := List.mem_of_getElem? found
  have active : Thread.Active job := ⟨alive, by rw [rest]; trivial⟩
  obtain ⟨provision, parsed⟩ := own
  cases permits with
  | create principal payload count env role stage =>
      rw [Uuid.parse_str] at parsed
      cases parsed
      have creates : inserts env.id (Job.phase job).stage = true := by
        rw [stage]
        exact decide_eq_true rfl
      refine ⟨⟨active, .inr creates⟩, fun held => ?_, ?_⟩
      · rcases held.2 with ⟨message, mine, -⟩ | again
        · have task := Role.eq_task_of_message mine
          rw [Thread.role_answered, ← Job.role_phase, role] at task
          cases task
        · rw [Job.phase_answered, Phase.advance_stage, stage] at again
          cases again
      · rw [serial.inserting job member active creates]
        rfl
  | delete id principal env role stage => cases provision
  | reap rows env stage present => cases provision
  | retry message role retired budget =>
      have role : job.role = .task message := (Job.role_phase job).symm.trans role
      have mine : message ∈ job.role.message := by
        rw [role]
        rfl
      refine ⟨⟨active, .inl ⟨message, mine, provision, parsed⟩⟩, fun held => ?_,
        serial.active job member active message mine ⟨provision, parsed⟩⟩
      rcases run.closes_next rfl (program_closes deployment) member rest with loud | ⟨-, finished⟩
      · rw [role] at loud
        cases loud
      · exact finished (.ok value) held.1.2

/-- An answer that flushes no row of the environment and publishes nothing for it keeps the
token where it is. -/
theorem Serial.answered {index : Nat} {job : Job} {request : Call} {reply : Reply request}
    {rest : Action Answer}
    (serial : Serial id config)
    (found : config.threads[index]? = some job)
    (active : job.Active)
    (queue : world.queue.filter (fun message => message.Is .provision id) =
      config.state.queue.filter fun message => message.Is .provision id)
    (same : provisions id world = provisions id config.state)
    (other : ∀ env, Stage.Flushes request reply env → env.id ≠ id) :
    Serial id (config.put world index (job.answered request reply rest)) := by
  refine serial.put found rfl queue same (fun _ => active) fun _ creates => ?_
  rw [Job.phase_answered, Phase.advance_stage] at creates
  rcases inserts_after creates with before | ⟨env, flushes, own⟩
  · exact before
  · exact (other env flushes own).elim

theorem flushes_of_flushes {request : Call} {reply : Reply request} {env : Environment}
    (flushes : Stage.Flushes request reply env) : request.flushes = true := by
  cases flushes
  rfl

/-- Any answer keeps the token. -/
theorem Serial.call {index : Nat} {job : Job} {request : Call} {reply : Reply request}
    {resume : Reply request → Action Answer}
    (run : System.Runs deployment refuses allowed config)
    (serial : Serial id config)
    (found : config.threads[index]? = some job)
    (alive : job.live = true)
    (rest : job.rest = .call request resume)
    (permits : (Job.phase job).permits deployment request)
    (effect : config.state.Effect request reply next) :
    Serial id (config.put next index (job.answered request reply (resume reply))) := by
  have active : Thread.Active job := ⟨alive, by rw [rest]; trivial⟩
  cases effect with
  | published task envId retries countdown =>
      by_cases own : (Message.mk task envId retries
          (config.state.clock + seconds countdown)).Is .provision id
      · obtain ⟨holds, passes, number⟩ :=
          passes_of_publish run serial found alive rest permits own
        exact serial.publish run found rfl holds passes own number rfl rfl
      · have unlisted : ∀ messages : List Message,
            List.filter (fun message => message.Is .provision id) (messages ++
              [⟨task, envId, retries, config.state.clock + seconds countdown⟩]) =
            messages.filter fun message => message.Is .provision id := by
          intro messages
          rw [List.filter_append, List.filter_singleton, decide_eq_false own, cond_false,
            List.append_nil]
        exact serial.answered found active (unlisted _) (unlisted _) fun _ flushes =>
          (Bool.false_ne_true (flushes_of_flushes flushes)).elim
  | flushed key name owner template ttlSeconds unused fits =>
      by_cases same : key = id
      · exact serial_flush run found rfl rfl rfl (same ▸ unused)
      · refine serial.answered found active rfl rfl fun env flushes => ?_
        cases flushes
        exact same
  | read request result reads =>
      refine serial.answered found active rfl rfl fun env flushes => ?_
      cases flushes
      exact reads.elim
  | failed request exc raises =>
      refine serial.answered found active rfl rfl fun env flushes => ?_
      cases flushes
  | _ =>
      exact serial.answered found active rfl rfl fun _ flushes =>
        (Bool.false_ne_true (flushes_of_flushes flushes)).elim

/-- Unless a message is delivered again, every environment has one token. -/
theorem serial_of_runs (run : System.Runs deployment refuses Once config) (id : Uuid) :
    Serial id config := by
  refine run.invariant (Serial id) ?_ ?_ ?_ ?_
  · exact ⟨Nat.zero_le 1, rfl, nofun, nofun, nofun, .nil⟩
  · intro config action next spawned _ serial permitted surrounds
    have starts : ∀ role : Role, ¬role.Is .provision id →
        ∀ job ∈ [Thread.start (machine deployment) role],
          inserts id (Job.phase job).stage = false ∧ ¬job.role.Is .provision id := by
      intro role other job member
      cases List.mem_singleton.mp member
      exact ⟨inserts_start role, other⟩
    cases surrounds with
    | tick elapsed => exact serial.append nofun (fun _ present _ => present) le_rfl rfl
    | request request =>
        exact serial.append (starts _ fun own => (Role.is_iff.mp own).1.elim)
          (fun _ present _ => present) le_rfl rfl
    | beat sweep =>
        exact serial.append (starts _ fun own => (Role.is_iff.mp own).1.elim)
          (fun _ present _ => present) le_rfl rfl
    | deliver index message found due =>
        by_cases own : message.Is .provision id
        · exact serial.deliver found own rfl rfl
        · refine serial.append (starts _ ?_) (fun _ present _ => List.mem_of_mem_eraseIdx present)
            (List.eraseIdx_sublist _ _).countP_le rfl
          rintro ⟨other, same, is⟩
          cases same
          exact own is
    | redeliver index message found due => cases permitted
  · intro config index job _ serial _ found alive
    exact serial.put found rfl rfl rfl (fun active => (Bool.false_ne_true active.1).elim)
      fun active => (Bool.false_ne_true active.1).elim
  · intro config index job request resume choice reply next ran serial _ found alive rest
      permits effect
    exact serial.call ran found alive rest permits effect

/-- No message is retried more often than its task allows. -/
theorem retries_le (run : System.Runs deployment refuses allowed config) :
    ∀ message ∈ config.state.sent, message.retries ≤ message.task.maxRetries := by
  refine run.invariant (fun config => ∀ message ∈ config.state.sent,
    message.retries ≤ message.task.maxRetries) nofun ?_ ?_ ?_
  · intro config action next spawned _ budget _ surrounds message sent
    rw [surrounds.unchanged.2.2.1] at sent
    exact budget message sent
  · intro config index job _ budget _ _ _
    exact budget
  · intro config index job request resume choice reply next _ budget _ found alive rest
      permits effect message sent
    cases effect with
    | published task envId retries countdown =>
        rcases List.mem_append.mp sent with old | new
        · exact budget message old
        · cases List.mem_singleton.mp new
          have publishes : (Job.phase job).Publishes task envId retries := permits
          cases publishes with
          | retry message role retired left => exact left
          | _ => exact Nat.zero_le _
    | _ => exact budget message sent

/-- The attempts to provision an environment come one after another. Unless a message is
delivered again, at most one of them is queued or at work at any time, each started one is a
later retry than all that started before it, and no more than four are ever started. -/
theorem serial (run : System.Runs deployment refuses Once config) (id : Uuid) :
    tokens id config ≤ 1 ∧
      (attempts id config).Pairwise (fun first second => first.retries < second.retries) ∧
      (attempts id config).length ≤ Task.provision.maxRetries + 1 := by
  have serial := serial_of_runs run id
  refine ⟨serial.one, serial.ordered, ?_⟩
  have distinct : ((attempts id config).map Message.retries).Nodup :=
    List.pairwise_map.mpr (serial.ordered.imp Nat.ne_of_lt)
  have bounded : (attempts id config).map Message.retries ⊆
      List.range (Task.provision.maxRetries + 1) := by
    intro number listed
    obtain ⟨attempt, present, rfl⟩ := List.mem_map.mp listed
    obtain ⟨sent, own⟩ := List.mem_filter.mp (serial.started run present).1
    have budget := retries_le run attempt sent
    rw [(of_decide_eq_true own).1] at budget
    exact List.mem_range.mpr (Nat.lt_succ_of_le budget)
  have fewer := (List.subperm_of_subset distinct bounded).length_le
  rw [List.length_map, List.length_range] at fewer
  exact fewer

/-- A first attempt that the daemon refuses, and ten seconds later the first call of the
second one. -/
def secondTry : List Occurrence :=
  Sample.create 0 1 ++ Sample.deliver ++ Sample.succeed 1 5 ++
    .advance 1 Sample.refused :: Sample.succeed 1 5 ++
    .ambient (.tick 10000000) :: Sample.deliver ++ Sample.succeed 2 1

theorem serial_of_secondTry :
    ∃ config : System, System.Runs Compose.shipped true Once config ∧
      (attempts (Sample.envId 1) config).map Message.retries = [0, 1] ∧
      tokens (Sample.envId 1) config ≤ 1 ∧
      (attempts (Sample.envId 1) config).Pairwise
        (fun first second => first.retries < second.retries) ∧
      (attempts (Sample.envId 1) config).length ≤ 4 := by
  have shown : ((System.initial true).run (machine Compose.shipped) Once secondTry).map
      (fun config => (attempts (Sample.envId 1) config).map Message.retries) = some [0, 1] := by
    decide +kernel
  obtain ⟨config, run, seen⟩ := Run.exists_run shown
  exact ⟨config, run, seen, serial run (Sample.envId 1)⟩

/-! ## The back-off -/

/-- Only `now` takes a reading, and it is the current time. -/
theorem reading_of_effect {phase : Phase} {request : Call} {reply : Reply request} {instant : Time}
    (effect : world.Effect request reply next)
    (present : instant ∈ (phase.advance request reply).readings) :
    instant ∈ phase.readings ∨ instant = world.clock := by
  cases request with
  | now =>
      rcases reply with exc | reading
      · exact .inl present
      · rcases List.mem_cons.mp present with rfl | old
        · cases effect with
          | read _ _ reads => exact .inr reads
        · exact .inl old
  | _ => exact .inl present

/-- An attempt reads the clock when its message is due and later. -/
def Due (world : World) (phase : Phase) : Prop :=
  ∀ message ∈ phase.role.message, message.notBefore ≤ world.clock ∧
    ∀ instant ∈ phase.readings, message.notBefore ≤ instant

theorem due_rules (deployment : Deployment) (allowed : System → Occurrence → Prop) :
    Rules deployment allowed (fun _ => True) Due (fun world next => world.clock ≤ next.clock) where
  stable world next phase later due message mine :=
    ⟨(due message mine).1.trans later, (due message mine).2⟩
  ambient config action next spawned _ _ surrounds := by
    refine ⟨trivial, surrounds.unchanged.2.2.2.2, fun role started message mine => ?_⟩
    cases surrounds with
    | deliver index taken found due =>
        cases started
        cases mine
        exact ⟨due, nofun⟩
    | redeliver index taken found due =>
        cases started
        cases mine
        exact ⟨due, nofun⟩
    | request request => cases started; cases mine
    | beat sweep => cases started; cases mine
    | tick elapsed => cases started
  call config event job request reply next _ due _ _ permits effect := by
    have later := (Integrity.grows_of_effect permits effect).clock
    refine ⟨trivial, later, fun message mine => ⟨(due message mine).1.trans later, ?_⟩⟩
    intro instant present
    rcases reading_of_effect effect present with old | rfl
    · exact (due message mine).2 instant old
    · exact (due message mine).1

/-- How long a provision waits after the attempt that published it, in seconds. -/
def backOff (retries : Nat) : Int :=
  2 ^ (retries - 1) * 10

/-- A published provision waits for its back-off after all attempts before it. -/
def Spaced (id : Uuid) (config : System) : Prop :=
  ∀ job ∈ config.threads, ∀ attempt ∈ Role.message (Thread.role job), attempt.Is .provision id →
    ∀ message ∈ provisions id config.state, attempt.retries < message.retries →
      ∀ instant ∈ (Job.phase job).readings,
        instant + seconds (backOff message.retries) ≤ message.notBefore

/-- A retry is published with its back-off. -/
theorem countdown_of_publish {job : Job} {task : Task} {envId : String} {retries : Nat}
    {countdown : Int} {resume : Reply (.publish task envId retries countdown) → Action Answer}
    (run : System.Runs deployment refuses allowed config)
    (member : job ∈ config.threads)
    (rest : job.rest = .call (.publish task envId retries countdown) resume)
    (permits : (Job.phase job).Publishes task envId retries)
    (provision : task = .provision) : retries = 0 ∨ countdown = backOff retries := by
  cases permits with
  | retry message role retired budget =>
      have role : job.role = .task message := (Job.role_phase job).symm.trans role
      refine .inr ?_
      rcases run.closes_next rfl (program_closes deployment) member rest with loud | ⟨final, -⟩
      · rw [role] at loud
        cases loud
      · rw [role] at final
        obtain ⟨same, -⟩ := final
        have waits : countdown = message.countdown := (Call.publish.inj same).2.2.2
        rw [waits]
        unfold Message.countdown
        rw [provision]
        rfl
  | _ => exact .inl rfl

/-- Unless a message is delivered again, every provision waits for its back-off. -/
theorem spaced_of_runs (run : System.Runs deployment refuses Once config) (id : Uuid) :
    Spaced id config := by
  refine run.invariant (Spaced id) nofun ?_ ?_ ?_
  · intro config action next spawned _ spaced _ surrounds job member attempt mine own message
      published
    have same : provisions id next = provisions id config.state := by
      unfold provisions
      rw [surrounds.unchanged.2.2.1]
    rw [same] at published
    rcases List.mem_append.mp member with old | new
    · exact spaced job old attempt mine own message published
    · obtain ⟨role, -, rfl⟩ := Option.map_eq_some_iff.mp (Option.mem_toList.mp new)
      exact fun _ => nofun
  · intro config index job _ spaced _ found alive
    exact forall_mem_set spaced (spaced job (List.mem_of_getElem? found))
  · intro config index job request resume choice reply next ran spaced _ found alive rest
      permits effect
    have present := List.mem_of_getElem? found
    -- the caller is at work, so no published provision is later than its own
    have earlier : ∀ other ∈ (config.put next index
        (job.answered request reply (resume reply))).threads,
        ∀ attempt ∈ Role.message (Thread.role other), attempt.Is .provision id →
        ∀ message ∈ provisions id config.state, attempt.retries < message.retries →
        ∀ instant ∈ (Job.phase other).readings,
          instant + seconds (backOff message.retries) ≤ message.notBefore := by
      refine forall_mem_set spaced fun attempt mine own message published less => ?_
      have serial := serial_of_runs ran id
      have last := serial.active job present ⟨alive, by rw [rest]; trivial⟩ attempt mine own
      have number := List.mem_map_of_mem (f := Message.retries) published
      rw [serial.numbered] at number
      have below := List.mem_range.mp number
      omega
    cases effect with
    | published task envId retries countdown =>
        have past : ∀ other ∈ (config.put (config.state.publish task envId retries countdown) index
            (job.answered (.publish task envId retries countdown) (.ok config.state.nextTask)
              (resume (.ok config.state.nextTask)))).threads,
            ∀ instant ∈ (Job.phase other).readings, instant ≤ config.state.clock := by
          have readings := fun other member => ((Integrity.of_runs ran).2 other member).readings
          refine forall_mem_set readings ?_
          rw [Job.phase_answered]
          exact readings job present
        intro other member attempt mine own message published less instant reading
        obtain ⟨sent, is⟩ := List.mem_filter.mp published
        rcases List.mem_append.mp sent with old | new
        · exact earlier other member attempt mine own message (List.mem_filter.mpr ⟨old, is⟩) less
            instant reading
        · cases List.mem_singleton.mp new
          rcases countdown_of_publish ran present rest permits (of_decide_eq_true is).1 with
            first | waits
          · exact (Nat.not_lt_zero _ (first ▸ less)).elim
          · rw [waits]
            exact Int.add_le_add_right (past other member instant reading) _
    | _ => exact earlier

/-- Unless a message is delivered again, the attempts to provision an environment keep the
back-off: a retry reads the clock no earlier than ten seconds, doubled with each retry before
it, after every reading of the attempts before. -/
theorem backs_off (run : System.Runs deployment refuses Once config) (id : Uuid)
    {first second : Job} {attempt retry : Message} {instant later : Time}
    (present : first ∈ config.threads) (mine : attempt ∈ first.role.message)
    (present' : second ∈ config.threads) (mine' : retry ∈ second.role.message)
    (own : attempt.Is .provision id) (own' : retry.Is .provision id)
    (less : attempt.retries < retry.retries)
    (reading : instant ∈ (Job.phase first).readings)
    (reading' : later ∈ (Job.phase second).readings) :
    instant + seconds (backOff retry.retries) ≤ later := by
  have started : retry ∈ attempts id config := mem_attempts.mpr ⟨second, present', mine', own'⟩
  have published := ((serial_of_runs run id).started run started).1
  have waits := spaced_of_runs run id first present attempt mine own retry published less instant
    reading
  have due := (run.sound trivial (due_rules deployment Once)).2 second present' retry
    ((Job.role_phase second).symm ▸ mine')
  exact waits.trans (due.2 later reading')

/-- The number of an attempt on the environment, and its readings. -/
def timeline (id : Uuid) (job : Job) : Option (Nat × List Time) :=
  (job.role.message.filter fun message => message.Is .provision id).map fun message =>
    (message.retries, (Job.phase job).readings)

theorem timeline_eq_some {job : Job} {number : Nat} {readings : List Time}
    (shown : timeline id job = some (number, readings)) :
    ∃ message ∈ job.role.message, message.Is .provision id ∧ message.retries = number ∧
      (Job.phase job).readings = readings := by
  obtain ⟨message, kept, same⟩ := Option.map_eq_some_iff.mp shown
  obtain ⟨mine, own⟩ := Option.filter_eq_some_iff.mp kept
  obtain ⟨retries, times⟩ := Prod.mk.inj same
  exact ⟨message, mine, of_decide_eq_true own, retries, times⟩

theorem backs_off_of_secondTry :
    ∃ config : System, System.Runs Compose.shipped true Once config ∧
      ∃ first ∈ config.threads, ∃ second ∈ config.threads,
        0 ∈ (Job.phase first).readings ∧ 10000000 ∈ (Job.phase second).readings ∧
        0 + seconds (backOff 1) ≤ 10000000 := by
  have shown : ((System.initial true).run (machine Compose.shipped) Once secondTry).map
      (fun config => (config.threads.drop 1).map (timeline (Sample.envId 1))) =
      some [some (0, [0, 0, 0]), some (1, [10000000])] := by
    decide +kernel
  obtain ⟨config, run, seen⟩ := Run.exists_run shown
  obtain ⟨first, rest, jobs, shown, others⟩ := List.map_eq_cons_iff.mp seen
  obtain ⟨second, none, rfl, shown', -⟩ := List.map_eq_cons_iff.mp others
  obtain ⟨attempt, mine, own, number, readings⟩ := timeline_eq_some shown
  obtain ⟨retry, mine', own', number', readings'⟩ := timeline_eq_some shown'
  have present : ∀ job ∈ first :: second :: none, job ∈ config.threads :=
    fun job member => List.mem_of_mem_drop (jobs ▸ member)
  have reading : 0 ∈ (Job.phase first).readings := readings ▸ List.mem_cons_self
  have reading' : 10000000 ∈ (Job.phase second).readings := readings' ▸ List.mem_cons_self
  have member := present first List.mem_cons_self
  have member' := present second (List.mem_cons_of_mem _ List.mem_cons_self)
  have spaced := backs_off run (Sample.envId 1) member mine member' mine' own own' (by omega)
    reading reading'
  rw [number'] at spaced
  exact ⟨config, run, first, member, second, member', reading, reading', spaced⟩

end Delivery

end Provisioner
