import Provisioner.Publishing
import Provisioner.Resumption.Settling
import Provisioner.Runs
import Provisioner.Alone

/-!
# The service settles

Attempts publish retries, and requests and the reaper publish attempts, but every retry has
one attempt less left than the message that it repeats. So as long as nothing comes from
outside, no request, no sweep and no second delivery, the service has only finitely much to
do, whatever its services answer and however its threads are interleaved. And it never gets
stuck before it has done it.
-/

namespace Provisioner

open Resumption

namespace Settling

/-- The attempts that wait in the queue. -/
def waiting (world : World) : Multiset Role :=
  (world.queue.map Role.task : List Role)

/-- How many attempts may follow one another from a role on. -/
def level : Role → Nat
  | .task message => message.task.maxRetries - message.retries
  | _ => 4

/-- Something new comes from outside: a request, a sweep or a second delivery. -/
def Renews : Occurrence → Prop
  | .ambient (.request _) | .ambient (.beat _) | .ambient (.redeliver _) => True
  | _ => False

instance : DecidablePred Renews
  | .ambient (.request _) | .ambient (.beat _) | .ambient (.redeliver _) =>
      inferInstanceAs (Decidable True)
  | .ambient (.tick _) | .ambient (.deliver _) | .advance _ _ | .kill _ =>
      inferInstanceAs (Decidable False)

/-- Time passes, a message is delivered, or a call is answered without a failure of its service;
the daemon still refuses what its own state rules out (what is missing, a name or a network in
use). The flush of an insert, which needs a key that was not generated before, may fail. -/
def Obliges (config : System) : Occurrence → Prop
  | .ambient (.tick _) | .ambient (.deliver _) => True
  | .advance index choice => choice.succeeds = true ∨
      ∃ turn ∈ config.turn (.advance index choice : Occurrence), turn.2.flushes = true
  | _ => False

/-- Nothing is left to do: the queue is empty, and every live thread has ended. -/
structure Drained (config : System) : Prop where
  queue : config.state.queue = []
  ended : ∀ job ∈ config.threads, job.live = true → ¬job.rest.Suspended

variable {deployment : Deployment} {refuses : Bool}
  {allowed : System → Occurrence → Prop} {config : System} {world next : World}

/-- A role publishes attempts of a lower level only. -/
theorem level_lt_of_publishes {role : Role} {task : Task} {envId : String} {retries : Nat}
    {due : Time} (publishes : role.Publishes task envId retries) :
    level (.task ⟨task, envId, retries, due⟩) < level role := by
  have few : task.maxRetries ≤ 3 := by cases task <;> decide
  cases role with
  | request request =>
      have below : task.maxRetries - retries < 4 := by omega
      exact below
  | sweep sweep =>
      have below : task.maxRetries - retries < 4 := by omega
      exact below
  | task message =>
      obtain ⟨rfl, rfl, rfl, left⟩ := publishes
      have below : message.task.maxRetries - (message.retries + 1) <
          message.task.maxRetries - message.retries := by omega
      exact below

/-- A quiet call leaves the queue alone. -/
theorem queue_of_quiet {request : Call} {reply : Reply request}
    (quiet : request.quiet = true)
    (effect : world.Effect request reply next) : next.queue = world.queue := by
  cases effect with
  | published task envId retries countdown => cases quiet
  | _ => rfl

/-- The calls of a role let only attempts of a lower level wait. -/
theorem frugal (deployment : Deployment) :
    (machine deployment).Frugal waiting level := by
  intro role
  refine program_makes_quiet (fun request quiet => ?_)
    (fun task envId retries countdown publishes => ?_)
  · intro world choice reply next executed
    refine ⟨0, ?_, by simp⟩
    rw [add_zero]
    unfold waiting
    rw [queue_of_quiet quiet (World.exec_effect executed)]
  · intro world choice reply next executed
    have effect := World.exec_effect executed
    cases effect with
    | published _ _ _ _ =>
        refine ⟨{.task ⟨task, envId, retries, world.clock + seconds countdown⟩}, ?_, ?_⟩
        · unfold waiting World.publish
          rw [List.map_append, ← Multiset.coe_add]
          rfl
        · intro other member
          rw [Multiset.mem_singleton.mp member]
          exact level_lt_of_publishes publishes
    | failed _ _ _ => exact ⟨0, by rw [add_zero], by simp⟩
    | read _ _ reads => exact reads.elim

/-- Time and deliveries bring no new work. -/
theorem serves_of_not_renews {action : Ambient}
    (calm : ¬Renews (.ambient action)) : (machine deployment).Serves waiting action := by
  intro world next spawned acted
  cases surrounds_of_eq acted with
  | tick elapsed => simp [waiting]
  | request request => exact (calm trivial).elim
  | beat sweep => exact (calm trivial).elim
  | deliver index message found due =>
      obtain ⟨within, rfl⟩ := List.getElem?_eq_some_iff.mp found
      have taken : (world.queue[index] :: world.queue.eraseIdx index).Perm world.queue :=
        List.getElem_cons_eraseIdx_perm within
      unfold waiting
      rw [Option.toList_some, Multiset.coe_add]
      exact Multiset.coe_eq_coe.mpr (taken.map Role.task).symm
  | redeliver index message found due => exact (calm trivial).elim

/-- The threads of a run let only attempts of a lower level wait. -/
theorem frugal_of_runs (run : System.Runs deployment refuses allowed config) :
    config.Frugal waiting (machine deployment) level := by
  induction run with
  | refl => exact nofun
  | next _ _ stepped inductionHypothesis =>
      exact stepped.frugal (frugal deployment) inductionHypothesis

/-- A service that gets nothing new is at rest from some point on: only time passes. -/
theorem settles {configs : Nat → System} {events : Nat → Occurrence} {start : Nat}
    (run : Reachable (machine deployment) (System.initial refuses) (configs 0))
    (steps : ∀ n, Step (machine deployment) (configs n) (events n) (configs (n + 1)))
    (calm : ∀ n, start ≤ n → ¬Renews (events n)) :
    ∃ rest, ∀ n, rest ≤ n → ∃ elapsed, events n = .ambient (.tick elapsed) := by
  obtain ⟨rest, idle⟩ := Config.comesToRest (frugal deployment) (frugal_of_runs run) steps start
    fun n late action same => serves_of_not_renews (same ▸ calm n late)
  refine ⟨max start rest, fun n late => ?_⟩
  obtain ⟨⟨action, same⟩, threads⟩ := idle n ((le_max_right _ _).trans late)
  have none : ¬Renews (.ambient action) := same ▸ calm n ((le_max_left _ _).trans late)
  have stepped := steps n
  rw [same] at stepped
  generalize configs (n + 1) = after at stepped threads
  cases action with
  | tick elapsed => exact ⟨elapsed, same⟩
  | request request => exact (none trivial).elim
  | beat sweep => exact (none trivial).elim
  | redeliver index => exact (none trivial).elim
  | deliver index =>
      -- A delivery starts an attempt.
      cases stepped with
      | ambient _ state acted =>
          have surrounds : Surrounds (configs n).state (.deliver index) state Option.none :=
            surrounds_of_eq acted
          cases surrounds
      | spawn _ state role acted =>
          have longer := congrArg List.length threads
          simp [Config.spawn] at longer

/-- A create is the last request. The daemon refuses its first attempt, the retry provisions
the environment. -/
def lastRequest : List Occurrence :=
  Sample.create 0 1 ++ Sample.deliver ++ Sample.succeed 1 4 ++
    .advance 1 Sample.refused :: Sample.succeed 1 5 ++
    .ambient (.tick 10000000) :: Sample.deliver ++ Sample.succeed 2 5 ++ Sample.startRoles 2 ++
    Sample.succeed 2 4

/-- After the last attempt only time passes. -/
def calming (n : Nat) : Occurrence :=
  lastRequest[n]?.getD (.ambient (.tick 1))

theorem settles_of_lastRequest :
    ∃ configs : Nat → System, configs 0 = System.initial true ∧
      (∀ n, Step (machine Compose.shipped) (configs n) (calming n) (configs (n + 1))) ∧
      (configs lastRequest.length).state.metrics = [.provisionTotal "webapp-postgres" .retry,
        .provisionTotal "webapp-postgres" .success, .provisionDuration "webapp-postgres" 0] ∧
      ∃ rest, ∀ n, rest ≤ n → ∃ elapsed, calming n = .ambient (.tick elapsed) := by
  have shown : ((System.initial true).run (machine Compose.shipped) (fun _ _ => True)
      lastRequest).map (fun config => config.state.metrics) =
      some [.provisionTotal "webapp-postgres" .retry,
        .provisionTotal "webapp-postgres" .success, .provisionDuration "webapp-postgres" 0] := by
    decide +kernel
  have calm : ∀ n, 1 ≤ n → ¬Renews (calming n) := by
    have later : ∀ event ∈ lastRequest.tail, ¬Renews event := by decide
    intro n late
    obtain ⟨n, rfl⟩ := Nat.exists_eq_add_of_le' late
    unfold calming
    rw [← List.getElem?_tail]
    cases found : lastRequest.tail[n]? with
    | none => exact id
    | some event => exact later event (List.mem_of_getElem? found)
  obtain ⟨last, executed, counted⟩ := Option.map_eq_some_iff.mp shown
  have ticks : ∀ config, ∃ next, Step (machine Compose.shipped) config (.ambient (.tick 1)) next :=
    fun config => ⟨_, .ambient (Ambient.tick 1) _ rfl⟩
  obtain ⟨configs, begins, ends, steps⟩ := Run.exists_schedule executed ticks
  have run : Reachable (machine Compose.shipped) (System.initial true) (configs 0) := by
    rw [begins]
    exact .refl
  exact ⟨configs, begins, steps, by rw [ends]; exact counted, settles run steps calm⟩

/-! ## It does not get stuck -/

/-- Every call can be answered without a failure, or is the flush of an insert. -/
theorem exists_answer (world : World) (request : Call) :
    ∃ choice reply next, world.exec request choice = some (reply, next) ∧
      (choice.succeeds = true ∨ request.flushes = true) := by
  cases request with
  | flushInsert name owner template ttlSeconds =>
      exact ⟨.fail ⟨.databaseError, "server closed the connection"⟩, _, world, rfl, .inr rfl⟩
  | containerReload id =>
      by_cases found : (world.docker.containers.find id).isSome
      · exact ⟨.observed ⟨.running, false, some .healthy, []⟩, _, world, if_pos found, .inl rfl⟩
      · exact ⟨.ok, _, _, if_neg found, .inl rfl⟩
  | _ => exact ⟨.ok, _, _, rfl, .inl rfl⟩

/-- A live thread that has not ended can go on. -/
theorem exists_advance (deployment : Deployment) {index : Nat} {job : Job}
    (found : config.threads[index]? = some job)
    (alive : job.live = true)
    (suspended : job.rest.Suspended) :
    ∃ event next, Obliges config event ∧ ¬Renews event ∧
      (∀ action, event ≠ .ambient action) ∧ Step (machine deployment) config event next := by
  cases rest : job.rest with
  | pure answer =>
      rw [rest] at suspended
      exact suspended.elim
  | raise exc =>
      rw [rest] at suspended
      exact suspended.elim
  | call request resume =>
      obtain ⟨choice, reply, next, executed, obliges⟩ := exists_answer config.state request
      refine ⟨.advance index choice, _, ?_, id, nofun,
        .call index job request resume choice reply next found alive rest executed⟩
      rcases obliges with succeeds | insert
      · exact .inl succeeds
      · exact .inr ⟨(job, request), Config.turn_advance found rest, insert⟩

/-- A queued message is delivered when its time has come. -/
theorem exists_delivery {message : Message} {messages : List Message}
    (held : config.Frugal waiting (machine deployment) level)
    (queue : config.state.queue = message :: messages) :
    ∃ next, Run (machine deployment)
        (fun config event => Obliges config event ∧ ¬Renews event) config next ∧
      next.Frugal waiting (machine deployment) level ∧
      Relation.CutExpand (Work.Less (machine deployment) level) (next.work waiting)
        (config.work waiting) := by
  obtain ⟨elapsed, due⟩ :
      ∃ elapsed : Nat, message.notBefore ≤ config.state.clock + (elapsed : Int) :=
    ⟨_, Int.le_add_of_sub_left_le (Int.self_le_toNat _)⟩
  obtain ⟨waited, ticked, queued, arrived, same⟩ : ∃ waited : System,
      Step (machine deployment) config (.ambient (Ambient.tick elapsed)) waited ∧
        waited.state.queue[0]? = some message ∧ message.notBefore ≤ waited.state.clock ∧
        waited.work waiting = config.work waiting :=
    ⟨_, .ambient (Ambient.tick elapsed) _ rfl, by rw [queue]; rfl, due, rfl⟩
  have acted : surroundings waited.state (.deliver 0) =
      some ({ waited.state with queue := waited.state.queue.eraseIdx 0 },
        some (.task message)) :=
    congrArg (Option.map _) (due_eq_some_iff.mpr ⟨queued, arrived⟩)
  have delivered : Step (machine deployment) waited (.ambient (.deliver 0))
      (waited.spawn { waited.state with queue := waited.state.queue.eraseIdx 0 }
        (Thread.start (machine deployment) (.task message))) :=
    .spawn (Ambient.deliver 0) _ (Role.task message) acted
  have held' := ticked.frugal (frugal deployment) held
  refine ⟨_, .next (.next .refl (by exact ⟨trivial, id⟩) ticked) (by exact ⟨trivial, id⟩) delivered,
    delivered.frugal (frugal deployment) held', ?_⟩
  rw [← same]
  refine (delivered.idle_or_less held' fun action same =>
    serves_of_not_renews (by cases same; exact id)).resolve_left ?_
  rintro ⟨-, threads, -⟩
  have longer := congrArg List.length threads
  simp [Config.spawn] at longer

/-- A service that gets nothing new can always finish what it has begun: every queued
message is delivered, and every live thread ends. -/
theorem drains (run : System.Runs deployment refuses allowed config) :
    ∃ last, Run (machine deployment) (fun config event => Obliges config event ∧ ¬Renews event)
      config last ∧ Drained last := by
  refine Config.exists_done waiting level
    (fun config => config.Frugal waiting (machine deployment) level) Drained
    (fun config held busy => ?_) (frugal_of_runs run)
  by_cases ended : ∀ job ∈ config.threads, job.live = true → ¬job.rest.Suspended
  · -- Only queued messages are left.
    cases queue : config.state.queue with
    | nil => exact (busy ⟨queue, ended⟩).elim
    | cons message messages => exact exists_delivery held queue
  · simp only [not_forall, not_not] at ended
    obtain ⟨job, member, alive, suspended⟩ := ended
    obtain ⟨index, found⟩ := List.getElem?_of_mem member
    obtain ⟨event, next, obliges, calm, moves, stepped⟩ :=
      exists_advance deployment found alive suspended
    refine ⟨next, .next .refl ⟨obliges, calm⟩ stepped,
      stepped.frugal (frugal deployment) held, ?_⟩
    refine (stepped.idle_or_less held fun action same => (moves action same).elim).resolve_left ?_
    rintro ⟨⟨action, same⟩, -⟩
    exact moves action same

/-- A create has been answered, and its task is queued. -/
theorem drains_of_create :
    ∃ config last : System,
      Reachable (machine Compose.shipped) (System.initial true) config ∧
        config.state.queue.length = 1 ∧
        Run (machine Compose.shipped) (fun config event => Obliges config event ∧ ¬Renews event)
          config last ∧ Drained last := by
  have shown : ((System.initial true).run (machine Compose.shipped) (fun _ _ => True)
      (Sample.create 0 1)).map (fun config => config.state.queue.length) = some 1 := by
    decide +kernel
  obtain ⟨config, run, queued⟩ := Run.exists_run shown
  obtain ⟨last, later, drained⟩ := drains run
  exact ⟨config, last, run, queued, later, drained⟩

end Settling

end Provisioner
