import Provisioner.Messages
import Provisioner.Ownership
import Provisioner.Reading

/-!
# DELETE against a provision in flight

A provision attempt commits RUNNING from the copy of the row that it loaded, whatever
has happened to the row since. So a teardown that loads the row first sees no
resources, removes none and commits STOPPED, and RUNNING comes after it. This module
gives the condition under which DELETE wins: RUNNING is not committed while a teardown
holds the row or after it has finished, and the daemon carries out the removals of a
teardown that does not retry.
-/

namespace Provisioner

open Resumption

namespace Deletion

/-- A teardown attempt on this stage has the row: it acts on its copy, or it has
committed STOPPED. An attempt that was killed no longer acts. -/
def claims (live : Bool) : Stage → Bool
  | .loaded _ | .removing _ _ => live
  | .stopped _ => true
  | _ => false

/-- A teardown of the environment has the row. -/
def Claims (id : Uuid) (job : Job) : Prop :=
  job.role.Is .teardown id ∧ claims job.live job.phase.stage = true

instance (id : Uuid) (job : Job) : Decidable (Claims id job) :=
  inferInstanceAs (Decidable (_ ∧ _))

/-- A provision attempt commits RUNNING for the environment only while no teardown of it
has the row. -/
def heeds (id : Uuid) (config : System) (role : Role) : Call → Bool
  | .commitChanges changes => decide (role.runs .provision →
      ∀ change ∈ changes, change.seen.id = id → change.now.status = .running →
        ∀ job ∈ config.threads, ¬Claims id job)
  | _ => true

/-- Nothing is attached to a network that is to be removed. -/
def unhindered (world : World) : Call → Bool
  | .networkRemove network => !world.docker.attached network
  | _ => true

/-- How a call of a teardown attempt is answered: by the daemon as its state demands, by
the broker without a failure, and by the database without a failure in the last attempt. -/
def serves (world : World) (message : Message) (request : Call) (choice : Choice) : Bool :=
  match request.target with
  | .docker => choice = .ok && unhindered world request
  | .database => choice.succeeds || decide (message.retries < Task.teardown.maxRetries)
  | _ => choice.succeeds

/-- The calls of the teardown attempts on the environment are served. -/
def Served (id : Uuid) (world : World) (role : Role) (request : Call) (choice : Choice) :
    Prop :=
  ∀ message ∈ role.message, message.Is .teardown id → serves world message request choice = true

instance (id : Uuid) (world : World) (role : Role) (request : Call) (choice : Choice) :
    Decidable (Served id world role request choice) :=
  inferInstanceAs (Decidable (∀ message ∈ role.message, _))

/-- RUNNING gives way to teardowns, and teardowns are served. -/
def Orderly (id : Uuid) (config : System) : Occurrence → Prop
  | .advance index choice =>
      ∀ turn ∈ config.turn (.advance index choice : Occurrence),
        heeds id config turn.1.role turn.2 = true ∧
          Served id config.state turn.1.role turn.2 choice
  | _ => True

instance (id : Uuid) (config : System) (event : Occurrence) :
    Decidable (Orderly id config event) := by
  cases event with
  | advance index choice =>
      exact inferInstanceAs (Decidable (∀ turn ∈ config.turn _, _))
  | ambient action => exact .isTrue trivial
  | kill index => exact .isTrue trivial

/-- The answer is a 202. -/
def accepts : Action Answer → Bool
  | .pure (.accepted _ _ _) => true
  | _ => false

/-- A DELETE of the environment that found it PENDING or PROVISIONING was answered 202. -/
def Accepted (id : Uuid) (config : System) : Prop :=
  ∃ job ∈ config.threads, job.role.deletes id = true ∧ accepts job.rest = true ∧
    ∃ env ∈ Job.read job, env.status = .pending ∨ env.status = .provisioning

/-- Nothing is left to do. -/
def concludes : Action Answer → Bool
  | .call _ _ => false
  | _ => true

/-- The tasks of the environment and their retries have finished: no message is queued,
no attempt goes on, and each teardown has an attempt that came to its end. -/
structure Finished (id : Uuid) (config : System) : Prop where
  queue : ∀ message ∈ config.state.queue, Uuid.parse message.envId ≠ some id
  idle : ∀ job ∈ config.threads, ∀ message ∈ job.role.message,
    Uuid.parse message.envId = some id → job.live = true → concludes job.rest = true
  ended : ∀ message ∈ config.state.sent, message.Is .teardown id →
    ∃ job ∈ config.threads, job.role.message = some message ∧ concludes job.rest = true

/-- The row is not RUNNING, and nothing that it records exists. -/
def Gone (id : Uuid) (world : World) : Prop :=
  ∃ row, world.db.find id = some row ∧ row.status ≠ .running ∧
    ∀ resource ∈ row.recorded, ¬world.docker.has resource = true

variable {deployment : Deployment} {refuses : Bool} {config : System}
  {world next : World} {phase : Phase} {resource : Resource} {id : Uuid}

/-! ## What a step leaves alone -/

/-- The row of the environment records what it recorded and has not become RUNNING, and
nothing that is gone comes back. -/
structure Calm (id : Uuid) (world next : World) : Prop where
  row : ∀ row, world.db.find id = some row → ∃ row', next.db.find id = some row' ∧
    row'.recorded = row.recorded ∧ (row'.status = .running → row.status = .running)
  gone : ∀ resource : Resource, resource.Issued world.docker →
    ¬world.docker.has resource = true → ¬next.docker.has resource = true
  nextId : world.docker.nextId ≤ next.docker.nextId

/-- The call does not commit RUNNING for the environment. -/
def Yields (id : Uuid) (role : Role) (request : Call) : Prop :=
  ∀ changes, request = .commitChanges changes → role.runs .provision →
    ∀ change ∈ changes, change.seen.id = id → change.now.status ≠ .running

/-- A commit that does not write RUNNING leaves the resources of the row alone. -/
theorem leaves_of_yields {changes : List Change} {change : Change}
    (commits : phase.Commits changes)
    (yields : Yields id phase.role (.commitChanges changes))
    (present : change ∈ changes) (about : change.seen.id = id) :
    Ownership.Leaves change.seen change.now := by
  rcases Ownership.leaves_or_running commits present with leaves | running
  · exact leaves
  · obtain ⟨network, containers, port, now, changed, attempt, stage, made⟩ := running
    refine (yields changes rfl attempt change present about ?_).elim
    rw [made]
    rfl

/-- A step that does not commit RUNNING for the environment is calm. -/
theorem calm_of_effect {request : Call} {reply : Reply request}
    (permits : phase.permits deployment request)
    (yields : Yields id phase.role request)
    (effect : world.Effect request reply next) : Calm id world next where
  row := by
    intro row found
    rcases effect.db with same | ⟨env, absent, -, same⟩ | ⟨changes, rfl, same⟩
    · rw [same]
      exact ⟨row, found, rfl, fun running => running⟩
    · rw [same]
      refine ⟨row, ?_, rfl, fun running => running⟩
      rw [Keyed.Table.find_insert, if_neg, found]
      rintro rfl
      rw [found] at absent
      cases absent
    · have commits : phase.Commits changes := permits
      obtain ⟨row', written⟩ := Option.isSome_iff_exists.mp
        (effect.find_isSome (Option.isSome_iff_exists.mpr ⟨row, found⟩))
      rw [same] at written
      have containers : row'.containerIds = row.containerIds := by
        rcases Environments.column_writeAll Environment.containerIds (fun _ _ _ => rfl)
          found written with kept | ⟨change, member, about, differs, -⟩
        · exact kept
        · exact (differs (leaves_of_yields commits yields member about).containerIds).elim
      have network : row'.networkId = row.networkId := by
        rcases Environments.column_writeAll Environment.networkId (fun _ _ _ => rfl)
          found written with kept | ⟨change, member, about, differs, -⟩
        · exact kept
        · exact (differs (leaves_of_yields commits yields member about).networkId).elim
      refine ⟨row', same ▸ written, ?_, fun running => ?_⟩
      · unfold Environment.recorded
        rw [containers, network]
      · rcases Environments.status_writeAll found written with
          kept | ⟨change, member, about, differs, stored⟩
        · exact kept ▸ running
        · exact (differs ((leaves_of_yields commits yields member about).status
            (stored ▸ running))).elim
  gone := fun _ issued absent => (Teardown.gone_of_gone absent issued effect).1
  nextId := (Integrity.grows_of_effect permits effect).nextId

/-- What a teardown attempt on this stage can rely on. -/
def Torn (id : Uuid) (world : World) : Stage → Prop
  | .loaded env => ∃ row, world.db.find id = some row ∧ row.recorded = env.recorded ∧
      (row.status = .running → env.status = .running)
  | .removing env cleared =>
      (∃ row, world.db.find id = some row ∧ row.recorded = env.recorded ∧
        row.status ≠ .running) ∧
      ∀ resource ∈ cleared, resource.Issued world.docker ∧ ¬world.docker.has resource = true
  | .stopped _ => Gone id world
  | _ => True

/-- A calm step keeps what teardown attempts rely on. -/
theorem torn_mono {stage : Stage}
    (sound : Ownership.Sound world)
    (calm : Calm id world next)
    (torn : Torn id world stage) : Torn id next stage := by
  cases stage with
  | loaded env =>
      obtain ⟨row, found, recorded, status⟩ := torn
      obtain ⟨row', found', same, kept⟩ := calm.row row found
      exact ⟨row', found', same.trans recorded, fun running => status (kept running)⟩
  | removing env cleared =>
      obtain ⟨⟨row, found, recorded, status⟩, gone⟩ := torn
      obtain ⟨row', found', same, kept⟩ := calm.row row found
      refine ⟨⟨row', found', same.trans recorded, fun running => status (kept running)⟩,
        fun resource member => ?_⟩
      obtain ⟨issued, absent⟩ := gone resource member
      exact ⟨Nat.lt_of_lt_of_le issued calm.nextId, calm.gone resource issued absent⟩
  | stopped env =>
      obtain ⟨row, found, status, gone⟩ := torn
      obtain ⟨row', found', same, kept⟩ := calm.row row found
      refine ⟨row', found', fun running => status (kept running), fun resource member => ?_⟩
      rw [same] at member
      have owns := sound row (Keyed.Table.mem_of_find found) resource member
      exact calm.gone resource owns.issued (gone resource member)
  | _ => trivial

/-! ## What a teardown attempt does -/

/-- A teardown attempt that has loaded its row commits STOPPING. -/
theorem commits_of_loaded {changes : List Change} {env : Environment}
    (attempt : phase.role.runs .teardown)
    (stage : phase.stage = .loaded env)
    (commits : phase.Commits changes) :
    ∃ now, changes = [⟨env, env.setStatus .stopping now⟩] := by
  cases commits with
  | stopping held now runs loaded =>
      rw [stage] at loaded
      cases loaded
      exact ⟨now, rfl⟩
  | provisioning held now runs => cases phase.role.runs_inj attempt runs
  | running held network containers port now changed runs => cases phase.role.runs_inj attempt runs
  | stopped held cleared changed now runs other => rw [stage] at other; cases other
  | failed task held message now runs other => rw [stage] at other; cases other
  | accepted held task other => rw [stage] at other; cases other
  | reaping rows _ sweep other => rw [stage] at other; cases other
  | recovering rows _ sweep other => rw [stage] at other; cases other

/-- A teardown attempt that removes resources commits STOPPED once it has dealt with all
of them. -/
theorem commits_of_removing {changes : List Change} {env : Environment}
    {cleared : List Resource}
    (attempt : phase.role.runs .teardown)
    (stage : phase.stage = .removing env cleared)
    (commits : phase.Commits changes) :
    ∃ changed now, changes = [⟨env, Worker.asStopped env changed now⟩] ∧
      ∀ resource ∈ env.recorded,
        resource ∈ cleared ∨ ∃ call ∈ phase.failed, call.about resource := by
  cases commits with
  | stopped held done changed now runs removing dealt =>
      rw [stage] at removing
      cases removing
      exact ⟨changed, now, rfl, dealt⟩
  | stopping held now runs other => rw [stage] at other; cases other
  | provisioning held now runs => cases phase.role.runs_inj attempt runs
  | running held network containers port now changed runs => cases phase.role.runs_inj attempt runs
  | failed task held message now runs other => rw [stage] at other; cases other
  | accepted held task other => rw [stage] at other; cases other
  | reaping rows _ sweep other => rw [stage] at other; cases other
  | recovering rows _ sweep other => rw [stage] at other; cases other

/-- What the daemon says as its state demands: a resource is cleared when it is gone, and
nothing else fails. -/
theorem told_of_exec {request : Call} {reply : Reply request} (role : Role) (stage : Stage)
    (about : request.about resource)
    (free : unhindered world request = true)
    (executed : world.exec request .ok = some (reply, next)) :
    (stage.after role request reply = stage ∨
      (stage.after role request reply = stage.clear resource ∧
        ¬next.docker.has resource = true)) ∧
      ∀ exc, reply = .error exc → exc.isNotFound = true := by
  cases request with
  | containerGet wanted =>
      cases about
      simp only [World.exec, World.succeed, World.onContainer] at executed
      split at executed
      · cases executed
        exact ⟨.inl rfl, fun exc error => by cases error⟩
      · rename_i absent
        cases executed
        exact ⟨.inr ⟨rfl, absent⟩, fun exc error => by cases error; rfl⟩
  | containerStop wanted =>
      cases about
      simp only [World.exec, World.succeed, World.onContainer] at executed
      split at executed
      · cases executed
        exact ⟨.inl rfl, fun exc error => by cases error⟩
      · rename_i absent
        cases executed
        exact ⟨.inr ⟨rfl, absent⟩, fun exc error => by cases error; rfl⟩
  | containerRemove wanted =>
      cases about
      simp only [World.exec, World.succeed, World.containerRemove] at executed
      split at executed
      · cases executed
        exact ⟨.inr ⟨rfl, fun has => (has_removeContainer.mp has).2 rfl⟩,
          fun exc error => by cases error⟩
      · rename_i absent
        cases executed
        exact ⟨.inr ⟨rfl, absent⟩, fun exc error => by cases error; rfl⟩
  | networkGet wanted =>
      cases about
      simp only [World.exec, World.succeed, World.onNetwork] at executed
      split at executed
      · cases executed
        exact ⟨.inl rfl, fun exc error => by cases error⟩
      · rename_i absent
        cases executed
        exact ⟨.inr ⟨rfl, absent⟩, fun exc error => by cases error; rfl⟩
  | networkRemove wanted =>
      cases about
      simp only [unhindered, Bool.not_eq_true'] at free
      simp only [World.exec, World.succeed, World.networkRemove, free] at executed
      split at executed
      · cases executed
        exact ⟨.inr ⟨rfl, fun has => (has_removeNetwork.mp has).2 rfl⟩,
          fun exc error => by cases error⟩
      · rename_i absent
        cases executed
        exact ⟨.inr ⟨rfl, absent⟩, fun exc error => by cases error; rfl⟩
  | _ => exact about.elim

/-- A call about a resource is a request to the daemon. -/
theorem target_of_about {request : Call} (about : request.about resource) :
    request.target = .docker := by
  cases request <;> first | rfl | exact about.elim

/-- No request about a resource has failed. -/
def Unrefused (phase : Phase) : Prop :=
  ∀ call ∈ phase.failed, ∀ resource : Resource, ¬call.about resource

/-- The requests of the teardown about resources are answered as the daemon's state
demands. -/
def Told (world : World) (request : Call) (choice : Choice) : Prop :=
  ∀ resource, request.about resource → choice = .ok ∧ unhindered world request = true

/-- A request that is answered so is not refused. -/
theorem unrefused_advance {request : Call} {reply : Reply request} {choice : Choice}
    (unrefused : Unrefused phase)
    (told : Told world request choice)
    (executed : world.exec request choice = some (reply, next)) :
    Unrefused (phase.advance request reply) := by
  intro call member resource about
  have failed : call ∈ phase.failedAfter request reply := member
  unfold Phase.failedAfter at failed
  split at failed
  · exact unrefused call failed resource about
  · rename_i exc
    split at failed
    · exact unrefused call failed resource about
    · rename_i refused
      rcases List.mem_cons.mp failed with rfl | old
      · obtain ⟨rfl, free⟩ := told resource about
        exact refused ((told_of_exec phase.role phase.stage about free executed).2 exc rfl)
      · exact unrefused call old resource about

/-- A request about a resource clears the resource only when it is gone. -/
theorem torn_of_about {request : Call} {reply : Reply request} {choice : Choice}
    (session : Ownership.Session world phase)
    (told : Told world request choice)
    (permits : phase.permits deployment request)
    (calm : Calm id world next)
    (kept : Torn id next phase.stage)
    (executed : world.exec request choice = some (reply, next))
    (about : request.about resource) :
    Torn id next (phase.stage.after phase.role request reply) := by
  obtain ⟨rfl, free⟩ := told resource about
  obtain ⟨same | ⟨cleared, gone⟩, -⟩ :=
    told_of_exec phase.role phase.stage about free executed
  · rw [same]
    exact kept
  · rw [cleared]
    have removes : phase.stage.Removes resource := by
      cases request <;> first | exact about.elim | (cases about; exact permits)
    cases stage : phase.stage with
    | removing env done =>
        rw [stage] at kept removes
        refine ⟨kept.1, fun other member => ?_⟩
        rcases List.mem_append.mp member with old | new
        · exact kept.2 other old
        · rw [List.mem_singleton.mp new]
          have owns := session.held env (by rw [stage]; exact List.mem_singleton_self env)
            resource removes
          exact ⟨Nat.lt_of_lt_of_le owns.issued calm.nextId, gone⟩
    | loaded env => rw [stage] at removes; exact removes.elim
    | stopped env => rw [stage] at removes; exact removes.elim
    | _ => trivial

/-- A query takes the row as it is stored. -/
theorem torn_onLoad {wanted : Uuid} {reply : Reply (.loadEnvironment wanted)}
    (target : phase.role.target = some id)
    (loads : phase.Loads wanted)
    (effect : world.Effect (.loadEnvironment wanted) reply next) :
    Torn id next (phase.stage.onLoad wanted reply) := by
  cases stage : phase.stage with
  | starting =>
      unfold Phase.Loads at loads
      rw [stage, target] at loads
      cases loads
      rcases reply with exc | (row | env)
      · trivial
      · trivial
      · cases effect with
        | read _ _ reads => exact ⟨env, Eq.symm reads, rfl, fun running => running⟩
  | absent => rcases reply with exc | (row | env) <;> trivial
  | broken => rcases reply with exc | (row | env) <;> trivial
  | building env network containers => rcases reply with exc | (row | env) <;> trivial
  | removing env cleared => rcases reply with exc | (row | env) <;> trivial
  | listing containers networks verdict => rcases reply with exc | row <;> trivial
  | _ => trivial

/-- STOPPING is written over a row that is not RUNNING then. -/
theorem torn_of_stopping {env : Environment} {now : Time} {done : Unit}
    (own : env.id = id)
    (calm : Calm id world next)
    (torn : Torn id world (.loaded env))
    (effect : world.Effect (.commitChanges [⟨env, env.setStatus .stopping now⟩])
      (.ok done) next) :
    Torn id next (.removing (env.setStatus .stopping now) []) := by
  obtain ⟨row, found, recorded, status⟩ := torn
  obtain ⟨row', found', same, still⟩ := calm.row row found
  refine ⟨⟨row', found', same.trans recorded, fun running => ?_⟩,
    fun resource member => by cases member⟩
  have before := status (still running)
  cases effect with
  | read _ _ reads => cases reads
  | committed _ =>
      have written : (world.db.writeAll [⟨env, env.setStatus .stopping now⟩]).find id =
          some (row.flush env (env.setStatus .stopping now)) :=
        Environments.find_writeAll_single own found
      rw [found'] at written
      cases written
      rw [Environment.status_flush] at running
      · cases running
      · intro same
        rw [before] at same
        cases same

/-- The last commit is reached with all that the row records removed, unless a call
about one of them failed. -/
theorem torn_of_stopped {env changed : Environment} {cleared : List Resource}
    (unrefused : Unrefused phase)
    (dealt : ∀ resource ∈ env.recorded, resource ∈ cleared ∨
      ∃ call ∈ phase.failed, call.about resource)
    (torn : Torn id world (.removing env cleared)) :
    Torn id world (.stopped changed) := by
  obtain ⟨⟨row, found, recorded, status⟩, gone⟩ := torn
  refine ⟨row, found, status, fun resource member => ?_⟩
  rw [recorded] at member
  rcases dealt resource member with cleared | ⟨call, failed, about⟩
  · exact (gone resource cleared).2
  · exact (unrefused call failed resource about).elim

/-- A teardown attempt goes on relying on what it does itself. -/
theorem torn_advance {request : Call} {reply : Reply request} {choice : Choice}
    (attempt : phase.role.runs .teardown)
    (target : phase.role.target = some id)
    (sound : Ownership.Sound world)
    (session : Ownership.Session world phase)
    (unrefused : Unrefused phase)
    (told : Told world request choice)
    (permits : phase.permits deployment request)
    (calm : Calm id world next)
    (torn : Torn id world phase.stage)
    (executed : world.exec request choice = some (reply, next)) :
    Torn id next (phase.advance request reply).stage := by
  show Torn id next (phase.stage.after phase.role request reply)
  have kept := torn_mono sound calm torn
  have effect := World.exec_effect executed
  by_cases about : ∃ resource, request.about resource
  · obtain ⟨resource, about⟩ := about
    exact torn_of_about session told permits calm kept executed about
  · have works := Phase.works reply attempt permits
    generalize after : phase.stage.after phase.role request reply = stage' at works
    cases works with
    | load wanted reply => exact torn_onLoad target permits effect
    | commit changes reply =>
        cases stage : phase.stage with
        | loaded env =>
            obtain ⟨now, rfl⟩ := commits_of_loaded attempt stage permits
            rcases reply with exc | done
            · trivial
            have other : ¬phase.role.runs .provision := fun runs => by
              cases phase.role.runs_inj attempt runs
            unfold Stage.onCommit
            dsimp only
            rw [if_neg other]
            rw [stage] at torn
            refine torn_of_stopping ?_ calm torn effect
            have held := session.onTarget _ attempt env
              (by rw [stage]; exact List.mem_singleton_self env)
            rw [target] at held
            cases held
            rfl
        | removing env cleared =>
            obtain ⟨changed, now, rfl, dealt⟩ := commits_of_removing attempt stage permits
            rcases reply with exc | done
            · trivial
            rw [stage] at kept
            exact torn_of_stopped unrefused dealt kept
        | building env network containers =>
            rcases reply with exc | done
            · trivial
            · cases changes <;> trivial
        | deleting env task => rcases reply with exc | done <;> trivial
        | selected rows => rcases reply with exc | done <;> trivial
        | _ => trivial
    | network name label wanted env containers building => trivial
    | container request wanted env network containers building => trivial
    | clear _ _ resource about' => exact (about ⟨resource, about'⟩).elim
    | keep _ _ => exact kept

/-! ## What a finished teardown attempt has done -/

/-- The observer that remembers every answered call. -/
def history : Protocol (List (Entry Reply)) Call Reply where
  permits _ _ := True
  possible request reply := ∀ exc, reply = .error exc →
    request.target.raises exc.cls = true
  advance trace request reply := trace ++ [⟨request, reply⟩]

theorem history_describes : history.Describes (machine deployment) := by
  intro world request choice reply next executed exc raised
  exact (World.exec_effect executed).raises raised

/-- The history of a thread is its trace. -/
theorem phase_history (job : Job) : Thread.phase history (fun _ => []) job = job.trace := by
  have appends : ∀ trace before : List (Entry Reply),
      trace.foldl (fun reached entry => history.advance reached entry.request entry.reply)
        before = before ++ trace := by
    intro trace
    induction trace with
    | nil => exact fun before => (List.append_nil before).symm
    | cons entry trace inductionHypothesis =>
        intro before
        rw [List.foldl_cons, inductionHypothesis]
        exact List.append_assoc before [entry] trace
  exact appends job.trace []

theorem history_perform {request : Call} {trace : List (Entry Reply)}
    {post : List (Entry Reply) → Except Exn request.Result → Prop}
    (continues : ∀ reply : Reply request,
      (∀ exc, reply = .error exc → request.target.raises exc.cls = true) →
      post (trace ++ [⟨request, reply⟩]) reply) :
    history.Allows post trace (perform request) := by
  refine ⟨trivial, ?_⟩
  rintro reply next ⟨possible, rfl⟩
  cases reply with
  | ok value => exact continues (.ok value) possible
  | error exc => exact continues (.error exc) possible

/-- Whatever runs, the history only grows. -/
theorem history_grows {α ε : Type} (program : Program Call Reply ε α)
    (trace : List (Entry Reply)) :
    history.Allows (fun reached _ => trace ⊆ reached) trace program := by
  have grows : ∀ before, trace ⊆ before →
      history.Allows (fun reached _ => trace ⊆ reached) before program := by
    induction program with
    | pure value => exact fun _ grown => grown
    | raise error => exact fun _ grown => grown
    | call request resume inductionHypothesis =>
        intro before grown
        refine ⟨trivial, ?_⟩
        rintro reply next ⟨-, rfl⟩
        exact inductionHypothesis reply _ (List.subset_append_of_subset_left _ grown)
  exact grows trace fun _ present => present

/-- The commit of STOPPED. -/
def Stops (entry : Entry Reply) : Prop :=
  ∃ change : Change, entry = ⟨.commitChanges [change], .ok ()⟩ ∧
    change.now.status = .stopped ∧ change.now.status ≠ change.seen.status

/-- Why an attempt fails: its row does not exist, or a statement fails. -/
inductive Fails : Entry Reply → Prop
  | absent (id : Uuid) : Fails ⟨.loadEnvironment id, .ok none⟩
  | database (request : Call) (exc : Exn) :
      request.target = .database → Fails ⟨request, .error exc⟩

/-- Why a failed attempt is not followed by another one. -/
inductive Refuses (message : Message) : Entry Reply → Prop
  | absent (id : Uuid) : Refuses message ⟨.loadEnvironment id, .ok none⟩
  | exhausted (request : Call) (exc : Exn) :
      request.target = .database → Task.teardown.maxRetries ≤ message.retries →
      Refuses message ⟨request, .error exc⟩
  | unpublished (task : Task) (envId : String) (retries : Nat) (countdown : Int) (exc : Exn) :
      Refuses message ⟨.publish task envId retries countdown, .error exc⟩

/-- The attempt has published the next one. -/
def Retries (message : Message) (entry : Entry Reply) : Prop :=
  message.retries < Task.teardown.maxRetries ∧ ∃ countdown task,
    entry = ⟨.publish .teardown message.envId (message.retries + 1) countdown, .ok task⟩

/-- Removing resources never raises. -/
theorem teardown_history (containerIds : List DockerId) (networkId : Option DockerId)
    (trace : List (Entry Reply)) :
    history.Allows (fun _ result => result = .ok ()) trace
      (DockerManager.teardown containerIds networkId) := by
  have never : ∀ (body : Action Unit) (trace : List (Entry Reply)),
      history.Allows (fun _ result => result = .ok ()) trace
        (body.tryCatch fun _ => pure () : Action Unit) := by
    intro body trace
    refine Program.meets_tryCatch.mpr ((history_grows body trace).mono ?_)
    rintro reached (exc | done) _
    · rfl
    · rfl
  have each : ∀ (body : DockerId → Action Unit),
      (∀ id trace, history.Allows (fun _ result => result = .ok ()) trace (body id)) →
      ∀ (ids : List DockerId) (trace : List (Entry Reply)),
        history.Allows (fun _ result => result = .ok ()) trace (Program.forEach body ids) := by
    intro body calm ids trace
    refine Program.meets_forEach (fun _ _ => True) ?_ ?_ ids trace trivial
    · intro id rest state _
      refine (calm id state).mono ?_
      rintro reached result rfl
      trivial
    · exact fun _ _ => rfl
  unfold DockerManager.teardown DockerManager.removeResources
  refine Program.meets_bind.mpr
    ((each _ (fun id trace => never _ trace) containerIds trace).mono ?_)
  rintro reached result rfl
  exact each _ (fun id trace => never _ trace) networkId.toList reached

/-- The `try` block commits STOPPED or shows why it failed. -/
theorem teardownAttempt_history {envId : String} {id : Uuid}
    (parsed : Uuid.parse envId = some id) (trace : List (Entry Reply)) :
    history.Allows (fun reached result =>
        match result with
        | .ok _ => ∃ entry ∈ reached, Stops entry
        | .error _ => ∃ entry ∈ reached, Fails entry) trace
      (Worker.teardownAttempt envId) := by
  have last : ∀ (trace : List (Entry Reply)) (entry : Entry Reply), entry ∈ trace ++ [entry] :=
    fun trace entry => List.mem_append_right _ (List.mem_singleton_self entry)
  unfold Worker.teardownAttempt
  rw [Worker.loadEnv_of_parse parsed]
  refine Program.meets_bind.mpr (Worker.during_meets.mpr (history_perform fun reply _ => ?_))
  rcases reply with exc | (row | loaded)
  · exact ⟨_, last _ _, .database _ exc rfl⟩
  · exact ⟨_, last _ _, .absent id⟩
  refine Program.meets_bind.mpr (Worker.during_meets.mpr (history_perform fun reply raises => ?_))
  rcases reply with exc | now
  · cases raises exc rfl
  refine Program.meets_bind.mpr (Worker.during_meets.mpr (history_perform fun reply _ => ?_))
  rcases reply with exc | done
  · exact ⟨_, last _ _, .database _ exc rfl⟩
  refine Program.meets_bind.mpr (Worker.during_meets.mpr ((teardown_history _ _ _).mono ?_))
  rintro afterRemoval result rfl
  refine Program.meets_bind.mpr (Worker.during_meets.mpr (history_perform fun reply raises => ?_))
  rcases reply with exc | changed
  · cases raises exc rfl
  refine Program.meets_bind.mpr (Worker.during_meets.mpr (history_perform fun reply raises => ?_))
  rcases reply with exc | now
  · cases raises exc rfl
  refine Program.meets_bind.mpr (Worker.during_meets.mpr (history_perform fun reply _ => ?_))
  rcases reply with exc | done
  · exact ⟨_, last _ _, .database _ exc rfl⟩
  refine Program.meets_bind.mpr (Worker.during_meets.mpr (history_perform fun reply raises => ?_))
  rcases reply with exc | done
  · cases raises exc rfl
  refine ⟨_, List.mem_append_left _ (last _ _), _, rfl, rfl, fun same => ?_⟩
  cases (same : EnvironmentStatus.stopped = .stopping)

/-- An attempt of a teardown that is over has committed STOPPED, or has published the next
attempt, or shows why it is the last one. -/
theorem teardownEnvironment_history {message : Message} {id : Uuid}
    (parsed : Uuid.parse message.envId = some id)
    (task : message.task = .teardown) :
    history.Allows (fun reached _ =>
        (∃ entry ∈ reached, Stops entry) ∨ (∃ entry ∈ reached, Retries message entry) ∨
          ∃ entry ∈ reached, Refuses message entry) []
      (Worker.teardownEnvironment message) := by
  unfold Worker.teardownEnvironment
  refine Program.meets_tryCatch.mpr ((teardownAttempt_history parsed []).mono ?_)
  rintro afterAttempt (failure | answer) outcome
  · obtain ⟨entry, present, fails⟩ := outcome
    refine Program.meets_bind.mpr (history_perform fun reply raises => ?_)
    rcases reply with exc | recorded
    · cases raises exc rfl
    cases exhausted : decide (Task.teardown.maxRetries ≤ message.retries) with
    | true =>
        have refuses : Refuses message entry := by
          cases fails with
          | absent id => exact .absent id
          | database request exc target =>
              exact .exhausted request exc target (of_decide_eq_true exhausted)
        refine Program.meets_bind.mpr ((history_grows _ _).mono ?_)
        rintro reached result grown
        have kept := grown (List.mem_append_left _ present)
        rcases result with exc | done
        · exact .inr (.inr ⟨entry, kept, refuses⟩)
        · exact .inr (.inr ⟨entry, kept, refuses⟩)
    | false =>
        show history.Allows _ _ (Worker.selfRetry message 5 failure.exc)
        unfold Worker.selfRetry
        rw [task, if_neg (of_decide_eq_false exhausted)]
        refine Program.meets_bind.mpr (history_perform fun reply _ => ?_)
        rcases reply with exc | published
        · exact .inr (.inr ⟨_, List.mem_append_right _ (List.mem_singleton_self _),
            .unpublished _ _ _ _ exc⟩)
        · exact .inr (.inl ⟨_, List.mem_append_right _ (List.mem_singleton_self _),
          Nat.not_le.mp (of_decide_eq_false exhausted), _, _, rfl⟩)
  · exact .inl outcome

/-! ## Runs -/

/-- What the condition says about the next call. -/
theorem orderly_call {index : Nat} {job : Job} {request : Call}
    {resume : Reply request → Action Answer} {choice : Choice}
    (orderly : Orderly id config (.advance index choice))
    (found : config.threads[index]? = some job)
    (rest : job.rest = .call request resume) :
    (Yields id job.role request ∨ ∀ other ∈ config.threads, ¬Claims id other) ∧
      Served id config.state job.role request choice := by
  obtain ⟨heeded, served⟩ := orderly _ (Config.turn_advance found rest)
  refine ⟨?_, served⟩
  by_cases yields : Yields id job.role request
  · exact .inl yields
  · unfold Yields at yields
    push Not at yields
    obtain ⟨changes, rfl, runs, change, member, about, running⟩ := yields
    exact .inr (of_decide_eq_true heeded runs change member about running)

/-- A teardown attempt is told what the daemon's state demands. -/
theorem told_of_served {role : Role} {request : Call} {choice : Choice}
    (own : role.Is .teardown id)
    (served : Served id world role request choice) : Told world request choice := by
  obtain ⟨message, same, is⟩ := own
  intro resource about
  have answered := served message same is
  unfold serves at answered
  rw [target_of_about about] at answered
  simpa using answered

/-- What holds of the teardown attempts in a run under the condition. -/
theorem torn_of_runs (run : System.Runs deployment refuses (Orderly id) config) :
    ∀ job ∈ config.threads, job.role.Is .teardown id → Unrefused (Job.phase job) ∧
      (claims job.live (Job.phase job).stage = true →
        Torn id config.state (Job.phase job).stage) := by
  refine run.invariant_of_exec (fun config => ∀ job ∈ config.threads,
    job.role.Is .teardown id → Unrefused (Job.phase job) ∧
      (claims job.live (Job.phase job).stage = true →
        Torn id config.state (Job.phase job).stage)) ?_ ?_ ?_ ?_
  · intro job present
    cases present
  · intro config action next spawned ran held _ surrounds job present own
    obtain ⟨db, docker, -⟩ := surrounds.unchanged
    have calm : Calm id config.state next := by
      refine ⟨fun row found => ⟨row, db ▸ found, rfl, fun running => running⟩, ?_, ?_⟩
      · rw [docker]
        exact fun _ _ absent => absent
      · rw [docker]
    rcases List.mem_append.mp present with old | new
    · obtain ⟨unrefused, torn⟩ := held job old own
      exact ⟨unrefused, fun claimed => torn_mono (Ownership.of_runs ran).1 calm (torn claimed)⟩
    · cases spawned with
      | none => cases new
      | some role =>
          cases List.mem_singleton.mp new
          have own : role.Is .teardown id := own
          have fresh : Unrefused (Phase.start role) := by
            intro call member
            cases member
          refine ⟨fresh, fun claimed => ?_⟩
          rw [Job.phase_start, Phase.start_of_runs (Role.is_iff.mp own).1] at claimed
          cases claimed
  · intro config index job ran held _ found alive
    refine forall_mem_set held fun own => ?_
    obtain ⟨unrefused, torn⟩ := held job (List.mem_of_getElem? found) own
    refine ⟨unrefused, fun claimed => torn ?_⟩
    have stopped : claims false (Job.phase job).stage = true := claimed
    generalize (Job.phase job).stage = stage at stopped
    cases stage <;> first | rfl | cases stopped
  · intro config index job request resume choice reply next ran held orderly found alive
      rest permits executed
    obtain ⟨sound, sessions⟩ := Ownership.of_runs ran
    have present := List.mem_of_getElem? found
    obtain ⟨heeded, served⟩ := orderly_call orderly found rest
    have effect := World.exec_effect executed
    refine forall_mem_set (fun other member own => ?_) fun own => ?_
    · obtain ⟨unrefused, torn⟩ := held other member own
      refine ⟨unrefused, fun claimed => ?_⟩
      rcases heeded with yields | free
      · exact torn_mono sound (calm_of_effect permits (Job.role_phase job ▸ yields) effect)
          (torn claimed)
      · exact (free other member ⟨own, claimed⟩).elim
    · obtain ⟨unrefused, torn⟩ := held job present own
      have own : job.role.Is .teardown id := own
      obtain ⟨attempt, target⟩ := Role.is_iff.mp own
      have told := told_of_served own served
      have yields : Yields id (Job.phase job).role request := by
        intro changes _ runs
        rw [Job.role_phase] at runs
        cases job.role.runs_inj attempt runs
      have before : Torn id config.state (Job.phase job).stage := by
        have claimed : claims true (Job.phase job).stage = true →
            Torn id config.state (Job.phase job).stage := alive ▸ torn
        generalize (Job.phase job).stage = stage at claimed
        cases stage <;> first | exact claimed rfl | trivial
      rw [Job.phase_answered]
      rw [← Job.role_phase job] at attempt target
      exact ⟨unrefused_advance unrefused told executed, fun _ =>
        torn_advance attempt target sound (sessions job present) unrefused told permits
          (calm_of_effect permits yields effect) before executed⟩

/-- A message that a thread has published was sent. -/
theorem sent_of_published {allowed : System → Occurrence → Prop}
    (run : System.Runs deployment refuses allowed config)
    {job : Job} (present : job ∈ config.threads)
    {task : Task} {envId : String} {retries : Nat} {countdown : Int} {number : TaskId}
    (published : (⟨.publish task envId retries countdown, .ok number⟩ : Entry Reply) ∈
      job.trace) :
    ∃ message ∈ config.state.sent,
      message.task = task ∧ message.envId = envId ∧ message.retries = retries := by
  have all : ∀ job ∈ config.threads,
      (⟨.publish task envId retries countdown, .ok number⟩ : Entry Reply) ∈ job.trace →
      ∃ message ∈ config.state.sent,
        message.task = task ∧ message.envId = envId ∧ message.retries = retries := by
    refine run.invariant (fun config => ∀ job ∈ config.threads,
      (⟨.publish task envId retries countdown, .ok number⟩ : Entry Reply) ∈ job.trace →
      ∃ message ∈ config.state.sent,
        message.task = task ∧ message.envId = envId ∧ message.retries = retries) ?_ ?_ ?_ ?_
    · intro job present
      cases present
    · intro config action next spawned _ sent _ surrounds job present recorded
      show ∃ message ∈ next.sent, _
      rw [surrounds.unchanged.2.2.1]
      rcases List.mem_append.mp present with old | new
      · exact sent job old recorded
      · cases spawned with
        | none => cases new
        | some role =>
            cases List.mem_singleton.mp new
            cases recorded
    · intro config index job _ sent _ found alive
      exact forall_mem_set sent (sent job (List.mem_of_getElem? found))
    · intro config index job request resume choice reply next ran sent _ found alive rest
        permits effect
      have grows := (Integrity.grows_of_effect permits effect).sent
      have later : (∃ message ∈ config.state.sent, message.task = task ∧
          message.envId = envId ∧ message.retries = retries) →
          ∃ message ∈ next.sent, message.task = task ∧ message.envId = envId ∧
            message.retries = retries := by
        rintro ⟨message, member, same⟩
        exact ⟨message, grows message member, same⟩
      refine forall_mem_set (fun other member recorded => later (sent other member recorded))
        fun recorded => ?_
      rcases List.mem_append.mp recorded with old | new
      · exact later (sent job (List.mem_of_getElem? found) old)
      · cases List.mem_singleton.mp new
        cases effect with
        | read _ _ reads => cases reads
        | published _ _ _ _ =>
            exact ⟨_, List.mem_append_right _ (List.mem_singleton_self _), rfl, rfl, rfl⟩
  exact all job present published

/-- A teardown attempt that has committed STOPPED does nothing on its row any more. -/
theorem stopped_of_stops {allowed : System → Occurrence → Prop}
    (run : System.Runs deployment refuses allowed config) :
    ∀ job ∈ config.threads, job.role.runs .teardown →
      (∃ entry ∈ job.trace, Stops entry) → ∃ env, (Job.phase job).stage = .stopped env := by
  refine run.invariant (fun config => ∀ job ∈ config.threads, job.role.runs .teardown →
    (∃ entry ∈ job.trace, Stops entry) → ∃ env, (Job.phase job).stage = .stopped env)
    ?_ ?_ ?_ ?_
  · intro job present
    cases present
  · intro config action next spawned _ stopped _ _ job present attempt stops
    rcases List.mem_append.mp present with old | new
    · exact stopped job old attempt stops
    · cases spawned with
      | none => cases new
      | some role =>
          cases List.mem_singleton.mp new
          obtain ⟨entry, recorded, -⟩ := stops
          cases recorded
  · intro config index job _ stopped _ found alive
    exact forall_mem_set stopped (stopped job (List.mem_of_getElem? found))
  · intro config index job request resume choice reply next ran stopped _ found alive rest
      permits effect
    refine forall_mem_set stopped fun attempt stops => ?_
    have attempt : job.role.runs .teardown := attempt
    have attempts : (Job.phase job).role.runs .teardown := (Job.role_phase job).symm ▸ attempt
    rw [Job.phase_answered]
    show ∃ env, (Job.phase job).stage.after (Job.phase job).role request reply = .stopped env
    obtain ⟨entry, recorded, stop⟩ := stops
    rcases List.mem_append.mp recorded with old | new
    · obtain ⟨env, stage⟩ := stopped job (List.mem_of_getElem? found) attempt ⟨entry, old, stop⟩
      have works := Phase.works reply attempts permits
      generalize (Job.phase job).stage.after _ request reply = stage' at works
      cases works with
      | load wanted _ =>
          have loads : Phase.Loads (Job.phase job) wanted := permits
          unfold Phase.Loads at loads
          rw [stage] at loads
          exact loads.elim
      | commit changes _ =>
          have commits : Phase.Commits (Job.phase job) changes := permits
          cases commits with
          | reaping rows _ sweep other => rw [stage] at other; cases other
          | recovering rows _ sweep other => rw [stage] at other; cases other
          | accepted held task other => rw [stage] at other; cases other
          | provisioning held now runs other => rw [stage] at other; cases other
          | running held network containers port now changed runs other =>
              rw [stage] at other
              cases other
          | stopping held now runs other => rw [stage] at other; cases other
          | stopped held cleared changed now runs other => rw [stage] at other; cases other
          | failed task held message now runs other => rw [stage] at other; cases other
      | network name label wanted held containers other => rw [stage] at other; cases other
      | container request wanted held network containers other =>
          rw [stage] at other
          cases other
      | clear _ _ resource about => rw [stage]; exact ⟨env, rfl⟩
      | keep _ _ => exact ⟨env, stage⟩
    · obtain ⟨change, same, written, differs⟩ := stop
      rw [List.mem_singleton.mp new] at same
      cases same
      have commits : Phase.Commits (Job.phase job) [change] := permits
      cases commits with
      | stopped env cleared changed now runs stage =>
          rw [stage]
          exact ⟨_, rfl⟩
      | accepted env task stage => exact (differs rfl).elim
      | reaping rows _ sweep => rw [sweep] at attempts; exact attempts.elim
      | recovering rows _ sweep => rw [sweep] at attempts; exact attempts.elim
      | _ => cases written

/-- A call to the database that a task makes succeeds unless the database fails. -/
theorem ok_of_database {request : Call} {reply : Reply request} {choice : Choice} {task : Task}
    (attempt : phase.role.runs task)
    (permits : phase.permits deployment request)
    (target : request.target = .database)
    (succeeds : choice.succeeds = true)
    (executed : world.exec request choice = some (reply, next)) :
    ∃ value, reply = .ok value :=
  Alone.ok_of_plain (Alone.plain_of_attempt attempt permits target) succeeds executed

/-- In a run under the condition no teardown attempt meets a reason to give up. -/
theorem not_refused_of_runs (run : System.Runs deployment refuses (Orderly id) config) :
    ∀ job ∈ config.threads, ∀ message, job.role.message = some message →
      message.Is .teardown id → ∀ entry ∈ job.trace, ¬Refuses message entry := by
  refine run.invariant_of_exec (fun config => ∀ job ∈ config.threads, ∀ message,
    job.role.message = some message → message.Is .teardown id →
      ∀ entry ∈ job.trace, ¬Refuses message entry) ?_ ?_ ?_ ?_
  · intro job present
    cases present
  · intro config action next spawned _ fair _ _ job present message same own entry recorded
    rcases List.mem_append.mp present with old | new
    · exact fair job old message same own entry recorded
    · cases spawned with
      | none => cases new
      | some role =>
          cases List.mem_singleton.mp new
          cases recorded
  · intro config index job _ fair _ found alive
    exact forall_mem_set fair (fair job (List.mem_of_getElem? found))
  · intro config index job request resume choice reply next ran fair orderly found alive rest
      permits executed
    have present := List.mem_of_getElem? found
    refine forall_mem_set fair fun message same own entry recorded => ?_
    have same : job.role.message = some message := same
    rcases List.mem_append.mp recorded with old | new
    · exact fair job present message same own entry old
    · rw [List.mem_singleton.mp new]
      have served := (orderly_call orderly found rest).2 message same own
      obtain ⟨attempt, target⟩ := Role.is_iff.mp ⟨message, same, own⟩
      rw [← Job.role_phase job] at attempt target
      have effect := World.exec_effect executed
      intro refused
      unfold serves at served
      cases refused with
      | absent wanted =>
          cases effect with
          | read _ _ reads =>
              have loads : Phase.Loads (Job.phase job) wanted := permits
              have named := Attempts.target_of_loads attempt loads
              obtain ⟨ordered, attends⟩ := Messages.of_runs ran
              have role : (Job.phase job).role = .task message :=
                (Job.role_phase job).trans (Role.eq_task_of_message same)
              obtain ⟨key, -, text, exists'⟩ :=
                ordered.names message ((attends job present).sent message role)
              rw [role] at named
              have parsed : Uuid.parse message.envId = some wanted := named
              rw [text, Uuid.parse_str] at parsed
              cases parsed
              have found : none = config.state.db.find wanted := reads
              rw [← found] at exists'
              cases exists' own.1
      | exhausted request exc database exhausted =>
          rw [database] at served
          have succeeds : choice.succeeds = true := by
            simpa [Nat.not_lt.mpr exhausted] using served
          obtain ⟨value, equal⟩ := ok_of_database attempt permits database succeeds executed
          cases equal
      | unpublished task envId retries countdown exc =>
          obtain ⟨value, equal⟩ := Alone.ok_of_plain rfl served executed
          cases equal

/-- A DELETE on this stage has published the teardown. -/
def announced : Stage → Bool
  | .deleting _ _ | .deleted _ => true
  | _ => false

theorem announced_onCommit {role : Role} {stage : Stage} {changes : List Change}
    {reply : Except Exn Unit}
    (done : announced (stage.onCommit role changes reply) = true) : announced stage = true := by
  have commits : stage.Commits role changes reply (stage.onCommit role changes reply) :=
    Stage.onCommit_commits changes reply
  generalize stage.onCommit role changes reply = stage' at commits done
  cases commits with
  | deleted env task deleting =>
      rw [deleting]
      rfl
  | _ => cases done

/-- A DELETE that has enqueued the teardown has sent its message. -/
theorem sent_of_announced {allowed : System → Occurrence → Prop}
    (run : System.Runs deployment refuses allowed config) :
    ∀ job ∈ config.threads, job.role.deletes id = true →
      announced (Job.phase job).stage = true →
      ∃ message ∈ config.state.sent, message.Is .teardown id := by
  refine run.invariant (fun config => ∀ job ∈ config.threads, job.role.deletes id = true →
    announced (Job.phase job).stage = true →
    ∃ message ∈ config.state.sent, message.Is .teardown id) ?_ ?_ ?_ ?_
  · intro job present
    cases present
  · intro config action next spawned _ sent _ surrounds job present deletes done
    show ∃ message ∈ next.sent, _
    rw [surrounds.unchanged.2.2.1]
    rcases List.mem_append.mp present with old | new
    · exact sent job old deletes done
    · cases spawned with
      | none => cases new
      | some role =>
          cases List.mem_singleton.mp new
          rw [Job.phase_start] at done
          rcases Phase.start_stage role with same | same <;> rw [same] at done <;> cases done
  · intro config index job _ sent _ found alive
    exact forall_mem_set sent (sent job (List.mem_of_getElem? found))
  · intro config index job request resume choice reply next ran sent _ found alive rest permits
      effect
    have grows := (Integrity.grows_of_effect permits effect).sent
    have later : (∃ message ∈ config.state.sent, message.Is .teardown id) →
        ∃ message ∈ next.sent, message.Is .teardown id := by
      rintro ⟨message, member, own⟩
      exact ⟨message, grows message member, own⟩
    refine forall_mem_set (fun other member deletes done => later (sent other member deletes done))
      fun asked announces => ?_
    have present := List.mem_of_getElem? found
    have deletes : job.role.deletes id = true := asked
    rw [Job.phase_answered] at announces
    have done : announced ((Job.phase job).stage.after (Job.phase job).role request reply) = true :=
      announces
    have advances : (Job.phase job).stage.Advances (Job.phase job).role request reply
        ((Job.phase job).stage.after (Job.phase job).role request reply) :=
      Stage.after_advances request reply
    generalize (Job.phase job).stage.after (Job.phase job).role request reply = stage'
      at advances done
    cases advances with
    | load wanted reply =>
        generalize (Job.phase job).stage = stage at done
        cases stage <;> rcases reply with exc | (row | row) <;> cases done
    | commit changes reply => exact later (sent job present deletes (announced_onCommit done))
    | accept task envId retries countdown number env stage =>
        have publishes : (Job.phase job).Publishes task envId retries := permits
        have role := Job.role_phase job
        cases publishes with
        | create principal payload count held own other => rw [stage] at other; cases other
        | reap rows held other member => rw [stage] at other; cases other
        | retry message own =>
            rw [← role, own] at deletes
            cases deletes
        | delete wanted principal held own loaded =>
            rw [stage] at loaded
            cases loaded
            rw [← role, own] at deletes
            have same : wanted = id := of_decide_eq_true deletes
            subst same
            have key := ((Ownership.of_runs ran).2 job present).request wanted principal own env
              (by rw [stage]; exact List.mem_singleton_self env)
            cases effect with
            | read _ _ reads => cases reads
            | published _ _ _ _ =>
                refine ⟨_, List.mem_append_right _ (List.mem_singleton_self _), rfl, ?_⟩
                rw [key]
                exact Uuid.parse_str wanted
    | keep _ _ => exact later (sent job present deletes done)
    | bare _ _ _ bare => cases stage' <;> first | exact False.elim bare | cases done
    | _ => cases done

/-- Every program leaves a history that shows how a teardown attempt ended. -/
theorem history_programs (role : Role) :
    history.Allows (fun reached _ => ∀ message id, role = .task message →
        message.Is .teardown id →
        (∃ entry ∈ reached, Stops entry) ∨ (∃ entry ∈ reached, Retries message entry) ∨
          ∃ entry ∈ reached, Refuses message entry) []
      (program deployment role) := by
  by_cases own : ∃ message id, role = .task message ∧ message.Is .teardown id
  · obtain ⟨message, id, rfl, task, parsed⟩ := own
    unfold program
    dsimp only
    rw [task]
    refine (teardownEnvironment_history parsed task).mono ?_
    rintro reached result outcome other key same -
    cases same
    exact outcome
  · refine (history_grows _ []).mono ?_
    intro reached result _ message id same is
    exact (own ⟨message, id, same, is⟩).elim

/-- In a run under the condition, what every teardown of the environment leaves behind. -/
theorem gone_of_sent (run : System.Runs deployment refuses (Orderly id) config)
    (finished : Finished id config) :
    ∀ message ∈ config.state.sent, message.Is .teardown id → Gone id config.state := by
  have chain : ∀ left, ∀ message ∈ config.state.sent, message.Is .teardown id →
      Task.teardown.maxRetries + 1 - message.retries = left → Gone id config.state := by
    intro left
    induction left using Nat.strong_induction_on with
    | _ left inductionHypothesis =>
        intro message sent own remaining
        obtain ⟨job, present, same, ended⟩ := finished.ended message sent own
        have role := Role.eq_task_of_message same
        have fair := not_refused_of_runs run job present message same own
        have outcome : (∃ entry ∈ job.trace, Stops entry) ∨
            (∃ entry ∈ job.trace, Retries message entry) ∨
            ∃ entry ∈ job.trace, Refuses message entry := by
          have met := Run.meets run rfl history_describes history_programs job present
          rw [phase_history] at met
          cases rest : job.rest with
          | call request resume =>
              rw [rest] at ended
              cases ended
          | pure answer =>
              rw [rest] at met
              exact met message id role own
          | raise exc =>
              rw [rest] at met
              exact met message id role own
        rcases outcome with stops | ⟨entry, recorded, more, countdown, number, rfl⟩ |
          ⟨entry, recorded, refuses⟩
        · obtain ⟨env, stage⟩ := stopped_of_stops run job present (role ▸ own.1) stops
          have torn := (torn_of_runs run job present ⟨message, same, own⟩).2 (by rw [stage]; rfl)
          rw [stage] at torn
          exact torn
        · obtain ⟨next, published, task, envId, retries⟩ := sent_of_published run present recorded
          refine inductionHypothesis _ ?_ next published ⟨task, envId ▸ own.2⟩ rfl
          omega
        · exact (fair entry recorded refuses).elim
  exact fun message sent own => chain _ message sent own rfl

/-- In a run in which RUNNING is committed for the environment only while no teardown of it
has the row, and in which its teardowns are served, DELETE wins: once the tasks have
finished, the row is not RUNNING and nothing that it records exists. -/
theorem delete_wins (run : System.Runs deployment refuses (Orderly id) config)
    (accepted : Accepted id config)
    (finished : Finished id config) :
    ∃ row, config.state.db.find id = some row ∧ row.status ≠ .running ∧
      ∀ resource ∈ row.recorded, ¬config.state.docker.has resource = true := by
  obtain ⟨job, present, deletes, accepts, -⟩ := accepted
  obtain ⟨principal, role⟩ : ∃ principal, job.role = .request (.delete id principal) := by
    cases role : job.role with
    | request request =>
        rw [role] at deletes
        cases request with
        | delete wanted principal =>
            have same : wanted = id := of_decide_eq_true deletes
            rw [same]
            exact ⟨principal, rfl⟩
        | _ => cases deletes
    | _ => rw [role] at deletes; cases deletes
  obtain ⟨answer, rest⟩ : ∃ answer, job.rest = .pure answer := by
    cases rest : job.rest with
    | pure answer => exact ⟨answer, rfl⟩
    | _ => rw [rest] at accepts; cases accepts
  have ended : (Job.phase job).Ended job.role (.ok answer) := run.ended present rest
  rw [role] at ended
  obtain ⟨env, task, text, stage, -⟩ := ended answer rfl
  obtain ⟨message, sent, own⟩ := sent_of_announced run job present deletes (by rw [stage]; rfl)
  exact gone_of_sent run finished message sent own

/-! ## Two orders -/

instance (config : System) : Decidable (Accepted id config) :=
  inferInstanceAs (Decidable (∃ job ∈ config.threads, _))

/-- The three parts of having finished. -/
theorem finished_iff : Finished id config ↔
    (∀ message ∈ config.state.queue, Uuid.parse message.envId ≠ some id) ∧
    (∀ job ∈ config.threads, ∀ message ∈ job.role.message,
      Uuid.parse message.envId = some id → job.live = true → concludes job.rest = true) ∧
    ∀ message ∈ config.state.sent, message.Is .teardown id →
      ∃ job ∈ config.threads, job.role.message = some message ∧ concludes job.rest = true :=
  ⟨fun finished => ⟨finished.queue, finished.idle, finished.ended⟩,
    fun parts => ⟨parts.1, parts.2.1, parts.2.2⟩⟩

instance (config : System) : Decidable (Finished id config) :=
  decidable_of_iff' _ finished_iff

/-- `thread` answers a DELETE of the sample row with 202. -/
def delete (thread : Nat) : List Occurrence :=
  .ambient (.request (.delete (Sample.envId 1) "alice")) :: Sample.succeed thread 3

/-- A DELETE of the PENDING row; the provision runs first, and the teardown after it. -/
def provisionFirst : List Occurrence :=
  Sample.create 0 1 ++ delete 1 ++ Sample.deliver ++ Sample.succeed 2 5 ++
    Sample.startRoles 2 ++ Sample.succeed 2 4 ++ Sample.deliver ++ Sample.succeed 3 15

/-- DELETE wins over a provision that comes before the teardown. -/
theorem delete_wins_of_provisionFirst :
    ∃ config row, System.Runs Compose.shipped true (Orderly (Sample.envId 1)) config ∧
      config.state.db.find (Sample.envId 1) = some row ∧ row.recorded.length = 3 ∧
      row.status ≠ .running ∧
      ∀ resource ∈ row.recorded, ¬config.state.docker.has resource = true := by
  have shown : ((System.initial true).run (machine Compose.shipped)
      (Orderly (Sample.envId 1)) provisionFirst).map (fun config =>
        (decide (Accepted (Sample.envId 1) config), decide (Finished (Sample.envId 1) config),
          (config.state.db.find (Sample.envId 1)).map fun row => row.recorded.length)) =
      some (true, true, some 3) := by decide +kernel
  obtain ⟨config, run, seen⟩ := Run.exists_run shown
  obtain ⟨accepted, seen⟩ := Prod.mk.inj seen
  obtain ⟨finished, length⟩ := Prod.mk.inj seen
  obtain ⟨row, found, status, gone⟩ :=
    delete_wins run (of_decide_eq_true accepted) (of_decide_eq_true finished)
  rw [found] at length
  exact ⟨config, row, run, found, Option.some.inj length, status, gone⟩

/-- A DELETE of the PROVISIONING row; the teardown runs while the provision starts
containers. -/
def teardownFirst : List Occurrence :=
  Sample.create 0 1 ++ Sample.deliver ++ Sample.succeed 1 5 ++ delete 2 ++ Sample.deliver ++
    Sample.succeed 3 7 ++ Sample.startRoles 1 ++ Sample.succeed 1 4

/-- DELETE loses against a provision in flight: the tasks have finished, the row is
RUNNING, and everything that it records exists. -/
theorem provision_wins :
    ∃ config row, Reachable (machine Compose.shipped) (System.initial true) config ∧
      Accepted (Sample.envId 1) config ∧ Finished (Sample.envId 1) config ∧
      config.state.db.find (Sample.envId 1) = some row ∧ row.status = .running ∧
      row.recorded.length = 3 ∧
      ∀ resource ∈ row.recorded, config.state.docker.has resource = true := by
  have shown : ((System.initial true).run (machine Compose.shipped)
      (fun _ _ => True) teardownFirst).map (fun config =>
        (decide (Accepted (Sample.envId 1) config), decide (Finished (Sample.envId 1) config),
          (config.state.db.find (Sample.envId 1)).map fun row =>
            (row.status, row.recorded.length, row.recorded.all config.state.docker.has))) =
      some (true, true, some (.running, 3, true)) := by decide +kernel
  obtain ⟨config, run, seen⟩ := Run.exists_run shown
  obtain ⟨accepted, seen⟩ := Prod.mk.inj seen
  obtain ⟨finished, seen⟩ := Prod.mk.inj seen
  obtain ⟨row, found, seen⟩ := Option.map_eq_some_iff.mp seen
  obtain ⟨status, seen⟩ := Prod.mk.inj seen
  obtain ⟨length, alive⟩ := Prod.mk.inj seen
  exact ⟨config, row, run, of_decide_eq_true accepted, of_decide_eq_true finished, found,
    status, length, List.all_eq_true.mp alive⟩

end Deletion

end Provisioner
