import Provisioner.Attempts
import Provisioner.Creation
import Provisioner.Reaping
import Provisioner.Settling

/-!
# Nothing is left hanging

A row in PROVISIONING or STOPPING is on its way, and while the processes live and the
database and the broker answer there is always somebody to move it on: an attempt that will
write its outcome over the row, a message that will start such an attempt, or a run of the
reaper that has yet to publish it. So when the service is at rest, whatever Docker has
answered in the meantime, no row is left on its way. The one exception is a row whose
provision attempt was faster than the commit of its insert.
-/

namespace Provisioner

open Resumption

/-- The status of a row while a task works on it. -/
def Task.transient : Task → EnvironmentStatus
  | provision => .provisioning
  | teardown => .stopping

/-- The copy over which an attempt is going to write its outcome. -/
def Stage.copy : Stage → Option Environment
  | building env _ _ | removing env _ | marking env => some env
  | _ => none

/-- Nothing has been written yet. -/
def Stage.Early : Stage → Prop
  | starting | loaded _ => True
  | _ => False

namespace Quiescence

/-- A call to the database or to the broker. -/
def critical (request : Call) : Bool :=
  request.target = .database || request.target = .broker

/-- No thread is killed, and neither the database nor the broker fails. -/
def Steady (config : System) : Occurrence → Prop
  | .ambient _ => True
  | .kill _ => False
  | .advance index choice => ∀ turn ∈ config.turn (.advance index choice : Occurrence),
      critical turn.2 = true → choice.succeeds = true

instance (config : System) : DecidablePred (Steady config)
  | .ambient _ => .isTrue trivial
  | .kill _ => .isFalse id
  | .advance index choice => inferInstanceAs (Decidable
      (∀ turn ∈ config.turn (.advance index choice : Occurrence), _))

/-- An attempt in this phase moves the row on from this status. -/
inductive Tends (phase : Phase) (id : Uuid) : EnvironmentStatus → Prop
  /-- It has still to claim the row for the teardown. -/
  | early : phase.role.Is .teardown id → phase.stage.Early → Tends phase id .stopping
  /-- It has still to write its outcome. -/
  | copy (task : Task) (env : Environment) :
      phase.role.runs task → phase.stage.copy = some env → env.id = id →
      env.status = task.transient → Tends phase id task.transient

/-- Somebody moves the row on from this status. -/
inductive Handled (config : System) (id : Uuid) (status : EnvironmentStatus) : Prop
  | attempt (job : Job) :
      job ∈ config.threads → Tends (Job.phase job) id status → Handled config id status
  | queued (message : Message) :
      message ∈ config.state.queue → message.Is .teardown id → status = .stopping →
      Handled config id status
  /-- A run of the reaper has claimed the row and has still to publish its teardown. -/
  | owed (job : Job) (rows rest : List Environment) :
      job ∈ config.threads → Reaping.progressOf job = .owing rows rest →
      id ∈ rest.map Environment.id → status = .stopping → Handled config id status

/-- Every row that is on its way is handled. -/
def Tended (config : System) : Prop :=
  ∀ id row, config.state.db.find id = some row →
    row.status = .provisioning ∨ row.status = .stopping → Handled config id row.status

variable {deployment : Deployment} {refuses : Bool} {config : System}
  {world next : World} {phase : Phase} {id : Uuid} {status : EnvironmentStatus}

/-- Neither the database nor the broker raises by itself. -/
theorem ok_of_steady {index : Nat} {job : Job} {choice : Choice} {request : Call}
    {reply : Reply request} {resume : Reply request → Action Answer}
    (steady : Steady config (.advance index choice))
    (found : config.threads[index]? = some job)
    (rest : job.rest = .call request resume)
    (executed : config.state.exec request choice = some (reply, next))
    (matters : critical request = true)
    (plain : request.plain = true) : ∃ value, reply = .ok value :=
  Alone.ok_of_plain plain (steady (job, request) (Config.turn_advance found rest) matters)
    executed

/-! ## One step -/

/-- A commit of one change that writes a status writes it to the row. -/
theorem status_of_write {db : Environments} {seen now row' : Environment}
    (found : (db.writeAll [⟨seen, now⟩]).find seen.id = some row')
    (differs : now.status ≠ seen.status) : row'.status = now.status := by
  have before := found
  rw [Environments.find_writeAll] at before
  obtain ⟨row, present, -⟩ := Option.map_eq_some_iff.mp before
  rw [Environments.find_writeAll_single rfl present] at found
  cases found
  exact Environment.status_flush differs

/-- What a commit over the copy of an attempt writes: an outcome. -/
theorem outcome_of_commits {changes : List Change} {task : Task} {env row' : Environment}
    {db : Environments}
    (commits : phase.Commits changes)
    (attempt : phase.role.runs task)
    (copy : phase.stage.copy = some env)
    (status : env.status = task.transient)
    (found : (db.writeAll changes).find env.id = some row') :
    row'.status ≠ task.transient := by
  have written : ∀ {now : Environment}, changes = [⟨env, now⟩] →
      now.status ≠ task.transient → row'.status ≠ task.transient := by
    rintro now rfl outcome
    rw [status_of_write found (by rw [status]; exact outcome)]
    exact outcome
  cases commits with
  | running seen network containers port now changed runs stage nonempty first second =>
      rw [stage] at copy
      cases copy
      refine written rfl ?_
      cases task <;> exact nofun
  | stopped seen cleared changed now runs stage dealt reading =>
      rw [stage] at copy
      cases copy
      refine written rfl ?_
      cases task <;> exact nofun
  | failed other seen message now runs stage reading =>
      rw [stage] at copy
      cases copy
      refine written rfl ?_
      cases task <;> exact nofun
  | provisioning seen now runs stage reading => rw [stage] at copy; cases copy
  | stopping seen now runs stage reading => rw [stage] at copy; cases copy
  | accepted seen made stage => rw [stage] at copy; cases copy
  | reaping rows _ sweep stage _ => rw [sweep] at attempt; exact attempt.elim
  | recovering rows _ sweep stage _ => rw [sweep] at attempt; exact attempt.elim

/-- An attempt that has still to claim its row goes on. -/
theorem tends_of_early {request : Call} {reply : Reply request} {row : Environment}
    (own : phase.role.Is .teardown id)
    (early : phase.stage.Early)
    (onTarget : phase.OnTarget)
    (permits : phase.permits deployment request)
    (effect : world.Effect request reply next)
    (answered : critical request = true → request.plain = true → ∃ value, reply = .ok value)
    (found : world.db.find id = some row) :
    Tends (phase.advance request reply) id .stopping := by
  obtain ⟨attempt, target⟩ := Role.is_iff.mp own
  have works := phase.works reply attempt permits
  generalize reached : phase.stage.after phase.role request reply = later at works
  have stage : (phase.advance request reply).stage = later := reached
  cases works with
  | load wanted _ =>
      have loads := Attempts.target_of_loads attempt permits
      rw [target] at loads
      cases loads
      obtain ⟨value, rfl⟩ := answered rfl rfl
      cases effect with
      | read _ _ reads =>
          have answer : value = world.db.find id := reads
          rw [found] at answer
          subst answer
          refine .early own ?_
          rw [stage]
          cases starting : phase.stage with
          | starting => trivial
          | loaded env =>
              have permitted : phase.Loads id := permits
              simp only [Phase.Loads, starting] at permitted
          | _ => rw [starting] at early; exact early.elim
  | commit changes _ =>
      have commits : phase.Commits changes := permits
      obtain ⟨value, rfl⟩ := answered rfl rfl
      cases commits with
      | stopping env now runs loaded reading =>
          have held : env ∈ phase.stage.held := by
            rw [loaded]
            exact List.mem_singleton_self env
          have same := onTarget .teardown attempt env held
          rw [target] at same
          cases same
          refine .copy .teardown (env.setStatus .stopping now) attempt ?_ rfl rfl
          rw [stage, loaded]
          have other : ¬phase.role.runs .provision := by
            intro runs
            cases Role.runs_inj _ attempt runs
          unfold Stage.onCommit
          dsimp only
          rw [if_neg other]
          rfl
      | provisioning env now runs loaded reading => cases Role.runs_inj _ attempt runs
      | running env network containers port now changed runs building =>
          rw [building] at early
          exact early.elim
      | stopped env cleared changed now runs removing =>
          rw [removing] at early
          exact early.elim
      | failed task env message now runs marking =>
          rw [marking] at early
          exact early.elim
      | accepted env task deleting =>
          rw [deleting] at early
          exact early.elim
      | reaping rows _ sweep => rw [sweep] at attempt; exact attempt.elim
      | recovering rows _ sweep => rw [sweep] at attempt; exact attempt.elim
  | network name label created env containers building =>
      rw [building] at early
      exact early.elim
  | container run created env network containers building =>
      rw [building] at early
      exact early.elim
  | clear _ _ resource about =>
      refine .early own ?_
      rw [stage]
      cases starting : phase.stage with
      | starting => trivial
      | loaded env => trivial
      | _ => rw [starting] at early; exact early.elim
  | keep _ _ => exact .early own (by rw [stage]; exact early)

/-- An attempt that has still to write its outcome goes on. -/
theorem tends_of_copy {request : Call} {reply : Reply request} {task : Task}
    {env row row' : Environment}
    (attempt : phase.role.runs task)
    (copy : phase.stage.copy = some env)
    (status : env.status = task.transient)
    (target : phase.role.target = some env.id)
    (permits : phase.permits deployment request)
    (effect : world.Effect request reply next)
    (answered : critical request = true → request.plain = true → ∃ value, reply = .ok value)
    (found : world.db.find env.id = some row)
    (found' : next.db.find env.id = some row')
    (kept : row'.status = task.transient) :
    Tends (phase.advance request reply) env.id task.transient := by
  have works := phase.works reply attempt permits
  generalize reached : phase.stage.after phase.role request reply = later at works
  have stage : (phase.advance request reply).stage = later := reached
  have goes : later.copy = some env → Tends (phase.advance request reply) env.id task.transient :=
    fun still => .copy task env attempt (by rw [stage]; exact still) rfl status
  cases works with
  | load wanted _ =>
      have loads := Attempts.target_of_loads attempt permits
      rw [target] at loads
      cases loads
      obtain ⟨value, rfl⟩ := answered rfl rfl
      cases effect with
      | read _ _ reads =>
          have answer : value = world.db.find env.id := reads
          rw [found] at answer
          subst answer
          refine goes ?_
          cases held : phase.stage with
          | building seen network containers => rw [held] at copy; exact copy
          | removing seen cleared => rw [held] at copy; exact copy
          | marking seen =>
              have permitted : phase.Loads env.id := permits
              simp only [Phase.Loads, held] at permitted
          | _ => rw [held] at copy; cases copy
  | commit changes _ =>
      obtain ⟨value, rfl⟩ := answered rfl rfl
      cases effect with
      | read _ _ reads => cases reads
      | committed _ =>
          exact (outcome_of_commits permits attempt copy status found' kept).elim
  | network name label created seen containers building =>
      rw [building] at copy
      exact goes copy
  | container run created seen network containers building =>
      rw [building] at copy
      exact goes copy
  | clear _ _ resource about =>
      refine goes ?_
      cases held : phase.stage with
      | removing seen cleared => rw [held] at copy; exact copy
      | building seen network containers => rw [held] at copy; exact copy
      | marking seen => rw [held] at copy; exact copy
      | _ => rw [held] at copy; cases copy
  | keep _ _ => exact goes copy

/-- An attempt that tends a row goes on tending it, unless it moves the row on. -/
theorem Tends.advance {request : Call} {reply : Reply request} {row row' : Environment}
    (tends : Tends phase id status)
    (onTarget : phase.OnTarget)
    (permits : phase.permits deployment request)
    (effect : world.Effect request reply next)
    (answered : critical request = true → request.plain = true → ∃ value, reply = .ok value)
    (found : world.db.find id = some row)
    (found' : next.db.find id = some row')
    (kept : row'.status = status) : Tends (phase.advance request reply) id status := by
  cases tends with
  | early own early => exact tends_of_early own early onTarget permits effect answered found
  | copy task env attempt copy own status =>
      subst own
      have held : env ∈ phase.stage.held := by
        cases stage : phase.stage <;> rw [stage] at copy <;> cases copy
        all_goals exact List.mem_singleton_self env
      exact tends_of_copy attempt copy status (onTarget task attempt env held) permits effect
        answered found found' kept

/-- A commit that puts a row on its way leaves somebody to move it on. -/
theorem handled_of_commit {changes : List Change} {change : Change} {job : Job}
    (commits : (Job.phase job).Commits changes)
    (reaps : Reaping.permits (Reaping.progressOf job) (.commitChanges changes))
    (present : change ∈ changes)
    (differs : change.now.status ≠ change.seen.status)
    (way : change.now.status = .provisioning ∨ change.now.status = .stopping) :
    Tends ((Job.phase job).advance (.commitChanges changes) (.ok ())) change.seen.id
        change.now.status ∨
      change.now.status = .stopping ∧ ∃ rows rest,
        Reaping.advance (Reaping.progressOf job) (.commitChanges changes) (.ok ()) =
          .owing rows rest ∧ change.seen.id ∈ rest.map Environment.id := by
  cases commits with
  | provisioning env now attempt stage reading =>
      cases List.mem_singleton.mp present
      refine .inl (.copy .provision (env.setStatus .provisioning now) attempt ?_ rfl rfl)
      rw [Phase.advance_stage, stage]
      unfold Stage.after Stage.onCommit
      dsimp only
      rw [if_pos attempt]
      rfl
  | stopping env now attempt stage reading =>
      cases List.mem_singleton.mp present
      refine .inl (.copy .teardown (env.setStatus .stopping now) attempt ?_ rfl rfl)
      have other : ¬(Job.phase job).role.runs .provision := fun runs =>
        nomatch Role.runs_inj _ attempt runs
      rw [Phase.advance_stage, stage]
      unfold Stage.after Stage.onCommit
      dsimp only
      rw [if_neg other]
      rfl
  | reaping rows _ sweep stage written =>
      obtain ⟨seen, now, -, made⟩ := written change present
      have known : Reaping.progressOf job ≠ .other :=
        Reaping.progressOf_ne_other (by rw [← Job.role_phase]; exact sweep)
      obtain ⟨chosen, progress, claim⟩ := Reaping.claim_of_permits known reaps
      refine .inr ⟨by rw [made]; rfl, chosen, chosen, by rw [progress]; rfl, ?_⟩
      rw [← claim.1, List.map_map]
      exact List.mem_map_of_mem (f := Environment.id ∘ Change.seen) present
  | accepted env task stage =>
      cases List.mem_singleton.mp present
      exact (differs rfl).elim
  | running env network containers port now changed attempt stage =>
      cases List.mem_singleton.mp present
      rcases way with way | way <;> cases way
  | stopped env cleared changed now attempt stage =>
      cases List.mem_singleton.mp present
      rcases way with way | way <;> cases way
  | failed task env message now attempt stage =>
      cases List.mem_singleton.mp present
      rcases way with way | way <;> cases way
  | recovering rows _ sweep stage written =>
      obtain ⟨seen, now, -, message, made⟩ := written change present
      rw [made] at way
      rcases way with way | way <;> cases way

/-- The threads other than the one that moves stay. -/
theorem mem_put_of_mem {index : Nat} {job job' other : Job}
    (found : config.threads[index]? = some job)
    (member : other ∈ config.threads) :
    other = job ∨ other ∈ (config.put world index job').threads := by
  obtain ⟨position, located⟩ := List.getElem?_of_mem member
  by_cases here : position = index
  · subst here
    rw [found] at located
    exact .inl (Option.some.inj located).symm
  · refine .inr (List.mem_of_getElem? (i := position) ?_)
    rw [Config.put, List.getElem?_set_ne (Ne.symm here)]
    exact located

/-- What has been published stays queued while threads make calls. -/
theorem queued_of_effect {request : Call} {reply : Reply request} {message : Message}
    (effect : world.Effect request reply next)
    (queued : message ∈ world.queue) : message ∈ next.queue := by
  cases effect with
  | published task envId retries countdown => exact List.mem_append_left _ queued
  | _ => exact queued

/-- A run of the reaper publishes the teardowns that it owes. -/
theorem handled_of_owing {index : Nat} {job : Job} {request : Call} {reply : Reply request}
    {rows rest : List Environment} (later : Action Answer)
    (found : config.threads[index]? = some job)
    (progress : Reaping.progressOf job = .owing rows rest)
    (owed : id ∈ rest.map Environment.id)
    (reaps : Reaping.permits (Reaping.progressOf job) request)
    (effect : config.state.Effect request reply next)
    (answered : critical request = true → request.plain = true → ∃ value, reply = .ok value) :
    Handled (config.put next index (job.answered request reply later)) id .stopping := by
  rw [progress] at reaps
  obtain ⟨env, others, rfl, rfl⟩ := reaps
  obtain ⟨task, rfl⟩ := answered rfl rfl
  cases effect with
  | read _ _ reads => cases reads
  | published _ _ _ _ =>
      rcases List.mem_cons.mp owed with own | other
      · refine .queued ⟨.teardown, env.id.str, 0, _⟩
          (List.mem_append_right _ (List.mem_singleton_self _)) ⟨rfl, ?_⟩ rfl
        rw [own]
        exact Uuid.parse_str env.id
      · refine .owed (job.answered (.publish .teardown env.id.str 0 0)
          (.ok config.state.nextTask) later) rows others ?_ ?_ other rfl
        · exact List.mem_of_getElem? (List.getElem?_set_self (List.getElem?_eq_some_iff.mp found).1)
        · rw [Reaping.progressOf_answered, progress]
          rfl

/-- Every thread keeps to the protocol of the reaper. -/
theorem reaps_of_runs {allowed : System → Occurrence → Prop} {job : Job} {request : Call}
    {resume : Reply request → Action Answer}
    (run : System.Runs deployment refuses allowed config)
    (member : job ∈ config.threads)
    (rest : job.rest = .call request resume) :
    Reaping.permits (Reaping.progressOf job) request := by
  have meets : config.Meets Reaping.reaper Reaping.start Reaping.Ended :=
    Run.meets run rfl Reaping.reaper_describes Reaping.program_allows
  have met := meets job member
  rw [rest] at met
  exact met.1

/-- Who handled a row goes on handling it, unless the call moves the row on. -/
theorem Handled.call {index : Nat} {job : Job} {request : Call} {reply : Reply request}
    {resume : Reply request → Action Answer} {row row' : Environment}
    (handled : Handled config id status)
    (run : System.Runs deployment refuses Steady config)
    (found : config.threads[index]? = some job)
    (rest : job.rest = .call request resume)
    (permits : job.phase.permits deployment request)
    (effect : config.state.Effect request reply next)
    (answered : critical request = true → request.plain = true → ∃ value, reply = .ok value)
    (before : config.state.db.find id = some row)
    (after : next.db.find id = some row')
    (kept : row'.status = status) :
    Handled (config.put next index (job.answered request reply (resume reply))) id status := by
  have member := List.mem_of_getElem? found
  have moved : job.answered request reply (resume reply) ∈
      (config.put next index (job.answered request reply (resume reply))).threads :=
    List.mem_of_getElem? (List.getElem?_set_self (List.getElem?_eq_some_iff.mp found).1)
  cases handled with
  | attempt other present tends =>
      rcases mem_put_of_mem found present with rfl | stays
      · refine .attempt _ moved ?_
        rw [Job.phase_answered]
        exact tends.advance (Attempts.onTarget_of_runs run other member) permits effect answered
          before after kept
      · exact .attempt other stays tends
  | queued message queued own same =>
      exact .queued message (queued_of_effect effect queued) own same
  | owed other rows owing present progress owed same =>
      rcases mem_put_of_mem found present with rfl | stays
      · subst same
        exact handled_of_owing (resume reply) found progress owed
          (reaps_of_runs run member rest) effect answered
      · exact .owed other rows owing stays progress owed same

/-- In a steady run every row that is on its way is handled. -/
theorem tended_of_runs (run : System.Runs deployment refuses Steady config) : Tended config := by
  refine run.invariant_of_exec Tended ?_ ?_ ?_ ?_
  · intro id row found
    cases found
  · intro config action next spawned ran tended _ surrounds id row found way
    rw [surrounds.unchanged.1] at found
    have handled := tended id row found way
    generalize row.status = status at handled
    cases handled with
    | attempt job member tends => exact .attempt job (List.mem_append_left _ member) tends
    | owed job rows rest member progress owed same =>
        exact .owed job rows rest (List.mem_append_left _ member) progress owed same
    | queued message queued own same =>
        cases surrounds with
        | deliver index taken located due =>
            obtain ⟨position, there⟩ := List.getElem?_of_mem queued
            by_cases here : position = index
            · subst here
              rw [located] at there
              cases there
              subst same
              exact .attempt _ (List.mem_append_right _ (List.mem_singleton_self _))
                (.early ⟨message, rfl, own⟩ trivial)
            · exact .queued message
                (List.mem_eraseIdx_iff_getElem?.mpr ⟨position, here, there⟩) own same
        | _ => exact .queued message queued own same
  · intro config index job _ _ steady
    exact steady.elim
  · intro config index job request resume choice reply next ran tended steady found alive rest
      permits executed id row' found' way
    have effect := World.exec_effect executed
    have answered := ok_of_steady steady found rest executed
    have member := List.mem_of_getElem? found
    have keeps : ∀ row, config.state.db.find id = some row → row'.status = row.status →
        Handled (config.put next index (job.answered request reply (resume reply))) id
          row'.status := by
      intro row before same
      rw [same] at way ⊢
      exact (tended id row before way).call ran found rest permits effect answered before found'
        same
    rcases effect.db with same | ⟨env, absent, rfl, same⟩ | ⟨changes, rfl, same⟩
    · rw [Config.put, same] at found'
      exact keeps row' found' rfl
    · rw [Config.put, same, Keyed.Table.find_insert] at found'
      split at found'
      · -- The new row is PENDING.
        cases found'
        obtain ⟨owner, payload, count, role, stage⟩ := permits
        have new := ((Integrity.of_runs ran).2 job member).fresh count _ (by rw [stage]; rfl)
        rw [new.pending] at way
        rcases way with way | way <;> cases way
      · exact keeps row' found' rfl
    · rw [Config.put, same] at found'
      have before := found'
      rw [Environments.find_writeAll] at before
      obtain ⟨row, before, -⟩ := Option.map_eq_some_iff.mp before
      rcases Environments.status_writeAll before found' with kept | written
      · exact keeps row before kept
      · obtain ⟨change, present, rfl, differs, stored⟩ := written
        obtain ⟨value, rfl⟩ := answered rfl rfl
        rw [stored] at way ⊢
        have moved := List.mem_of_getElem? (List.getElem?_set_self (l := config.threads)
          (a := job.answered (.commitChanges changes) (.ok value) (resume (.ok value)))
          (List.getElem?_eq_some_iff.mp found).1)
        rcases handled_of_commit permits (reaps_of_runs ran member rest) present differs way with
          tends | ⟨stopping, rows, owing, progress, owed⟩
        · exact .attempt _ moved (by rw [Job.phase_answered]; exact tends)
        · exact .owed _ rows owing moved (by rw [Reaping.progressOf_answered]; exact progress)
            owed stopping

/-! ## Rows that are still PENDING -/

/-- The provision task of a row has been sent. -/
def Commissioned (world : World) (id : Uuid) : Prop :=
  ∃ message ∈ world.sent, message.task = .provision ∧ message.envId = id.str

/-- The provision task of every row has been sent. -/
theorem commissioned_of_runs {allowed : System → Occurrence → Prop}
    (run : System.Runs deployment refuses allowed config) :
    ∀ id, (config.state.db.find id).isSome → Commissioned config.state id := by
  refine run.invariant (fun config => ∀ id, (config.state.db.find id).isSome →
    Commissioned config.state id) ?_ ?_ ?_ ?_
  · exact fun id present => nomatch present
  · intro config action next spawned _ sent _ surrounds id present
    obtain ⟨message, member, named⟩ := sent id (surrounds.unchanged.1 ▸ present)
    exact ⟨message, surrounds.unchanged.2.2.1.symm ▸ member, named⟩
  · exact fun _ _ _ _ sent _ _ _ => sent
  · intro config index job request resume choice reply next ran sent _ found alive rest permits
      effect id present
    have kept : Commissioned config.state id → Commissioned next id :=
      fun ⟨message, member, named⟩ =>
        ⟨message, (Integrity.grows_of_effect permits effect).sent message member, named⟩
    rcases effect.db with same | ⟨env, absent, rfl, same⟩ | ⟨changes, rfl, same⟩
    · rw [Config.put, same] at present
      exact kept (sent id present)
    · rw [Config.put, same, Keyed.Table.find_insert] at present
      split at present
      · rename_i own
        subst own
        obtain ⟨owner, payload, count, role, stage⟩ := permits
        exact kept (Creation.announced_of_runs ran job (List.mem_of_getElem? found) env
          (by rw [stage]; rfl))
      · exact kept (sent id present)
    · rw [Config.put, same, Environments.find_writeAll, Option.isSome_map] at present
      exact kept (sent id present)

/-- A provision attempt looked for the row and did not find it. -/
def Missed (job : Job) (id : Uuid) : Prop :=
  (⟨.loadEnvironment id, .ok none⟩ : Entry Reply) ∈ job.trace

/-- A provision attempt on a row missed it or stands. -/
theorem stands_of_runs {allowed : System → Occurrence → Prop}
    (run : System.Runs deployment refuses allowed config) :
    ∀ job ∈ config.threads, ∀ id, Creation.Attempt job id →
      Missed job id ∨ Creation.Stands config.state (Job.phase job) id := by
  refine run.invariant (fun config => ∀ job ∈ config.threads, ∀ id, Creation.Attempt job id →
    Missed job id ∨ Creation.Stands config.state (Job.phase job) id) nofun ?_ ?_ ?_
  · intro config action next spawned _ stands _ surrounds job member id attempt
    rcases List.mem_append.mp member with old | new
    · unfold Creation.Stands Creation.Moved
      rw [surrounds.unchanged.1]
      exact stands job old id attempt
    · cases spawned with
      | none => cases new
      | some role =>
          rw [List.mem_singleton.mp new] at attempt ⊢
          exact .inr (.inr (.inr (.inl (Phase.start_of_runs attempt.1))))
  · intro config index job _ stands _ found alive
    exact forall_mem_set stands (stands job (List.mem_of_getElem? found))
  · intro config index job request resume choice reply next ran stands _ found alive rest
      permits effect
    have member := List.mem_of_getElem? found
    refine forall_mem_set (fun other present id attempt => ?_) fun id attempt => ?_
    · refine (stands other present id attempt).imp_right ?_
      rintro (failed | moved | stage)
      · exact .inl failed
      · exact .inr (.inl (moved.step permits effect))
      · exact .inr (.inr stage)
    · rcases stands job member id attempt with missed | stands
      · exact .inl (List.mem_append_left _ missed)
      · have role := Job.role_phase job
        have held := ((Integrity.of_runs ran).2 job member).held
        rcases Creation.stands_advance (role ▸ attempt.1) (role ▸ attempt.2) held stands permits
          effect with kept | ⟨entry, -⟩
        · rw [Job.phase_answered]
          exact .inr kept
        · exact .inl (List.mem_append_right _ (List.mem_singleton.mpr entry.symm))

/-- A failed call is the last one or an earlier one. -/
theorem mem_failedAfter {request call : Call} {reply : Reply request}
    (failed : call ∈ (phase.advance request reply).failed) :
    call ∈ phase.failed ∨ call = request ∧ ∃ exc, reply = .error exc := by
  cases reply with
  | ok value => exact .inl failed
  | error exc =>
      unfold Phase.advance Phase.failedAfter at failed
      dsimp only at failed
      split at failed
      · exact .inl failed
      · rcases List.mem_cons.mp failed with own | old
        · exact .inr ⟨own, exc, rfl⟩
        · exact .inl old

/-- In a steady run no attempt loses the database. -/
theorem connected_of_runs (run : System.Runs deployment refuses Steady config) :
    ∀ job ∈ config.threads, ∀ task, job.role.runs task →
      ¬Creation.Disconnected (Job.phase job) := by
  refine run.invariant_of_exec (fun config => ∀ job ∈ config.threads, ∀ task,
    job.role.runs task → ¬Creation.Disconnected (Job.phase job)) nofun ?_ ?_ ?_
  · intro config action next spawned _ connected _ surrounds job member task attempt
    rcases List.mem_append.mp member with old | new
    · exact connected job old task attempt
    · cases spawned with
      | none => cases new
      | some role =>
          rw [List.mem_singleton.mp new]
          rintro ⟨call, failed, -⟩
          cases failed
  · intro config index job _ _ steady
    exact steady.elim
  · intro config index job request resume choice reply next ran connected steady found alive
      rest permits executed
    refine forall_mem_set connected fun task attempt => ?_
    rw [Job.phase_answered]
    rintro ⟨call, failed, database⟩
    have before := connected job (List.mem_of_getElem? found) task attempt
    rcases mem_failedAfter failed with old | ⟨rfl, exc, rfl⟩
    · exact before ⟨call, old, database⟩
    · have attempts : job.phase.role.runs task := by rw [Job.role_phase]; exact attempt
      obtain ⟨value, same⟩ := ok_of_steady steady found rest executed
        (by simp [critical, database]) (Alone.plain_of_attempt attempts permits database)
      cases same

/-! ## At rest -/

/-- A steady run kills nobody. -/
theorem live_of_runs (run : System.Runs deployment refuses Steady config) :
    ∀ job ∈ config.threads, job.live = true := by
  refine run.invariant (fun config => ∀ job ∈ config.threads, job.live = true) nofun ?_ ?_ ?_
  · intro config action next spawned _ live _ _ job member
    rcases List.mem_append.mp member with old | new
    · exact live job old
    · cases spawned with
      | none => cases new
      | some role =>
          rw [List.mem_singleton.mp new]
          rfl
  · intro config index job _ _ steady
    exact steady.elim
  · intro config index job request resume choice reply next _ live _ found alive rest _ _
    exact forall_mem_set live alive

/-- At rest every thread has ended as its role demands. -/
theorem ended_of_drained {job : Job}
    (run : System.Runs deployment refuses Steady config)
    (drained : Settling.Drained config)
    (member : job ∈ config.threads) :
    ∃ result, job.rest = .ofExcept result := by
  have resting := drained.ended job member (live_of_runs run job member)
  cases rest : job.rest with
  | pure answer => exact ⟨.ok answer, rfl⟩
  | raise exc => exact ⟨.error exc, rfl⟩
  | call request resume =>
      rw [rest] at resting
      exact (resting trivial).elim

/-- An attempt that has ended tends nothing. -/
theorem not_tends_of_ended {job : Job} {result : Except Exn Answer}
    (run : System.Runs deployment refuses Steady config)
    (member : job ∈ config.threads)
    (rest : job.rest = .ofExcept result) : ¬Tends (Job.phase job) id status := by
  intro tends
  have ended : (Job.phase job).Ended job.role result := run.ended member rest
  cases tends with
  | early own early =>
      obtain ⟨message, same, own⟩ := own
      rw [Job.role_phase] at same
      rw [Role.eq_task_of_message same] at ended
      unfold Phase.Ended at ended
      cases stage : (Job.phase job).stage with
      | starting =>
          rw [stage] at ended
          have unparsed : Uuid.parse message.envId = none := ended
          cases own.2.symm.trans unparsed
      | loaded env => rw [stage] at ended; exact ended
      | _ => rw [stage] at early; exact early
  | copy task env attempt copy own status =>
      rw [Job.role_phase] at attempt
      cases role : job.role with
      | task message =>
          rw [role] at ended
          unfold Phase.Ended at ended
          cases stage : (Job.phase job).stage with
          | building seen network containers => rw [stage] at ended; exact ended
          | removing seen cleared => rw [stage] at ended; exact ended
          | marking seen => rw [stage] at ended; exact ended
          | _ => rw [stage] at copy; cases copy
      | request request => rw [role] at attempt; exact attempt
      | sweep sweep => rw [role] at attempt; exact attempt

/-- A program that returns if none of its calls raises. -/
def Returns {α : Type} : Action α → Prop
  | .pure _ => True
  | .raise _ => False
  | .call request resume => ∀ value : request.Result, Returns (resume (.ok value))

theorem returns_bind {α β : Type} {program : Action α} {rest : α → Action β}
    (first : Returns program) (second : ∀ value, Returns (rest value)) :
    Returns (program >>= rest) := by
  induction program with
  | pure value => exact second value
  | raise exc => exact first.elim
  | call request resume inductionHypothesis =>
      exact fun value => inductionHypothesis (.ok value) (first value)

theorem returns_perform (request : Call) : Returns (perform request) :=
  fun _ => trivial

theorem returns_changeAll (change : Environment → Time → Environment)
    (rows : List Environment) : Returns (Worker.changeAll change rows) := by
  induction rows with
  | nil => trivial
  | cons env rows inductionHypothesis =>
      exact returns_bind (returns_perform _) fun _ =>
        returns_bind inductionHypothesis fun _ => trivial

theorem returns_forEach {γ : Type} {body : γ → Action Unit}
    (each : ∀ item, Returns (body item)) (items : List γ) :
    Returns (Program.forEach body items) := by
  induction items with
  | nil => trivial
  | cons item items inductionHypothesis =>
      exact returns_bind (each item) fun _ => inductionHypothesis

/-- The reaper raises only what its calls raise. -/
theorem returns_reap : Returns Worker.reapExpiredEnvironments := by
  have publishes : ∀ env : Environment, Returns (do
      let _ ← perform (.publish .teardown env.id.str 0 0)
      pure () : Action Unit) :=
    fun env => returns_bind (returns_perform _) fun _ => trivial
  refine returns_bind (returns_perform _) fun now => ?_
  refine returns_bind (returns_perform _) fun expired => ?_
  split
  · trivial
  · refine returns_bind (returns_changeAll _ _) fun changes => ?_
    refine returns_bind (returns_perform _) fun _ => ?_
    exact returns_bind (returns_forEach publishes _) fun _ => trivial

/-- The calls of the reaper succeed in a steady run. -/
theorem ok_of_reaping {progress : Reaping.Progress} {request : Call} {reply : Reply request}
    (known : progress ≠ .other)
    (reaps : Reaping.permits progress request)
    (effect : world.Effect request reply next)
    (answered : critical request = true → request.plain = true → ∃ value, reply = .ok value) :
    ∃ value, reply = .ok value := by
  have clock : request = .now → ∃ value, reply = .ok value := by
    rintro rfl
    cases reply with
    | ok value => exact ⟨value, rfl⟩
    | error exc => cases effect.raises rfl
  cases progress with
  | other => exact (known rfl).elim
  | idle => exact clock reaps
  | asked now =>
      cases reaps
      exact answered rfl rfl
  | chosen rows =>
      rcases reaps with same | ⟨changes, rfl, -⟩
      · exact clock same
      · exact answered rfl rfl
  | owing rows rest =>
      obtain ⟨env, later, -, rfl⟩ := reaps
      exact answered rfl rfl

/-- In a steady run the reaper returns. -/
theorem returns_of_runs (run : System.Runs deployment refuses Steady config) :
    ∀ job ∈ config.threads, job.role = .sweep .reapExpired → Returns job.rest := by
  refine run.invariant_of_exec (fun config => ∀ job ∈ config.threads,
    job.role = .sweep .reapExpired → Returns job.rest) nofun ?_ ?_ ?_
  · intro config action next spawned _ returns _ _ job member sweep
    rcases List.mem_append.mp member with old | new
    · exact returns job old sweep
    · cases spawned with
      | none => cases new
      | some role =>
          rw [List.mem_singleton.mp new] at sweep ⊢
          cases sweep
          exact returns_reap
  · intro config index job _ _ steady
    exact steady.elim
  · intro config index job request resume choice reply next ran returns steady found alive rest
      permits executed
    have member := List.mem_of_getElem? found
    refine forall_mem_set returns fun sweep => ?_
    have sweep : job.role = .sweep .reapExpired := sweep
    have before := returns job member sweep
    rw [rest] at before
    obtain ⟨value, rfl⟩ := ok_of_reaping (Reaping.progressOf_ne_other sweep)
      (reaps_of_runs ran member rest) (World.exec_effect executed)
      (ok_of_steady steady found rest executed)
    exact before value

/-- Only the reaper makes progress. -/
theorem reaps_of_progress {job : Job} (known : Reaping.progressOf job ≠ .other) :
    job.role = .sweep .reapExpired := by
  have stays : ∀ trace : List (Entry Reply), trace.foldl (fun reached entry =>
      Reaping.advance reached entry.request entry.reply) .other = .other := by
    intro trace
    induction trace with
    | nil => rfl
    | cons entry trace inductionHypothesis => exact inductionHypothesis
  have other : Reaping.start job.role = .other → Reaping.progressOf job = .other := by
    intro same
    unfold Reaping.progressOf Thread.phase
    rw [same]
    exact stays job.trace
  unfold Reaping.start at other
  split at other
  · assumption
  · exact (known (other rfl)).elim

/-- A run of the reaper that has ended owes nothing. -/
theorem owes_of_ended {job : Job} {result : Except Exn Answer} {rows rest : List Environment}
    (run : System.Runs deployment refuses Steady config)
    (member : job ∈ config.threads)
    (ended : job.rest = .ofExcept result)
    (progress : Reaping.progressOf job = .owing rows rest) : rest = [] := by
  have reaps := reaps_of_progress (by rw [progress]; exact nofun)
  have returns := returns_of_runs run job member reaps
  rw [ended] at returns
  cases result with
  | error exc => exact returns.elim
  | ok answer =>
      have meets : config.Meets Reaping.reaper Reaping.start Reaping.Ended :=
        Run.meets run rfl Reaping.reaper_describes Reaping.program_allows
      have met := meets job member
      rw [ended] at met
      have finished : Reaping.Ended job.role (Reaping.progressOf job) (.ok answer) := met
      rw [reaps, progress] at finished
      rcases finished answer rfl with chosen | ⟨all, done⟩
      · cases chosen
      · cases done
        rfl

/-- A row that is PENDING at rest was missed. -/
theorem missed_of_pending {row : Environment}
    (run : System.Runs deployment refuses Steady config)
    (drained : Settling.Drained config)
    (found : config.state.db.find id = some row)
    (pending : row.status = .pending) :
    ∃ job ∈ config.threads, Creation.Attempt job id ∧ Missed job id := by
  obtain ⟨message, sent, provision, named⟩ :=
    commissioned_of_runs run id (by rw [found]; rfl)
  rcases Messages.arrives_of_sent run message sent with queued | ⟨job, member, role⟩
  · rw [drained.queue] at queued
    cases queued
  · have parsed : Uuid.parse message.envId = some id := by rw [named, Uuid.parse_str]
    have attempt : Creation.Attempt job id := by
      rw [Creation.Attempt, role]
      exact ⟨provision, parsed⟩
    refine ⟨job, member, attempt, ?_⟩
    obtain ⟨result, finished⟩ := ended_of_drained run drained member
    have ended : (Job.phase job).Ended job.role result := run.ended member finished
    rw [role] at ended
    rcases stands_of_runs run job member id attempt with missed | lost | moved | starting | early
    · exact missed
    · exact (connected_of_runs run job member .provision attempt.1 lost).elim
    · obtain ⟨row', found', past⟩ := moved
      rw [found] at found'
      cases found'
      exact (past pending).elim
    · simp only [Phase.Ended, starting, parsed] at ended
      cases ended
    · obtain ⟨env, loaded, -⟩ := early
      simp only [Phase.Ended, loaded] at ended

/-- When a steady run is at rest, no row is left on its way: every row is RUNNING, STOPPED
or FAILED, unless it is PENDING and a provision attempt looked for it before its insert was
committed. -/
theorem settled_of_drained (run : System.Runs deployment refuses Steady config)
    (drained : Settling.Drained config) :
    ∀ row ∈ config.state.db.rows,
      row.status = .running ∨ row.status = .stopped ∨ row.status = .failed ∨
        (row.status = .pending ∧ ∃ job ∈ config.threads, Creation.Attempt job row.id ∧
          (⟨.loadEnvironment row.id, .ok none⟩ : Entry Reply) ∈ job.trace) := by
  intro row member
  have found := config.state.db.find_of_mem member
  have handled : ¬Handled config row.id row.status := by
    intro handled
    cases handled with
    | attempt job present tends =>
        obtain ⟨result, ended⟩ := ended_of_drained run drained present
        exact not_tends_of_ended run present ended tends
    | queued message queued =>
        rw [drained.queue] at queued
        cases queued
    | owed job rows rest present progress owed =>
        obtain ⟨result, ended⟩ := ended_of_drained run drained present
        rw [owes_of_ended run present ended progress] at owed
        cases owed
  cases status : row.status with
  | running => exact .inl rfl
  | stopped => exact .inr (.inl rfl)
  | failed => exact .inr (.inr (.inl rfl))
  | provisioning => exact (handled (tended_of_runs run row.id row found (.inl status))).elim
  | stopping => exact (handled (tended_of_runs run row.id row found (.inr status))).elim
  | pending => exact .inr (.inr (.inr ⟨rfl, missed_of_pending run drained found status⟩))

/-- The queue is empty and no thread has a call to make. -/
def atRest (config : System) : Bool :=
  config.state.queue.isEmpty && config.threads.all Creation.idle

theorem drained_of_atRest (resting : atRest config = true) : Settling.Drained config := by
  simp only [atRest, Bool.and_eq_true] at resting
  refine ⟨List.isEmpty_iff.mp resting.1, fun job member _ suspended => ?_⟩
  have idle := List.all_eq_true.mp resting.2 job member
  unfold Creation.idle at idle
  cases rest : job.rest with
  | pure answer => rw [rest] at suspended; exact suspended
  | raise exc => rw [rest] at suspended; exact suspended
  | call request resume => rw [rest] at idle; cases idle

/-- A create and a first attempt that succeeds, to their ends. -/
theorem settled_of_firstAttempt :
    ∃ config : System, System.Runs Compose.shipped true Steady config ∧
      config.state.db.rows.length = 1 ∧
      ∀ row ∈ config.state.db.rows,
        row.status = .running ∨ row.status = .stopped ∨ row.status = .failed ∨
          (row.status = .pending ∧ ∃ job ∈ config.threads, Creation.Attempt job row.id ∧
            (⟨.loadEnvironment row.id, .ok none⟩ : Entry Reply) ∈ job.trace) := by
  have shown : ((System.initial true).run (machine Compose.shipped) Steady
      (Sample.firstAttempt ++ Sample.succeed 1 4)).map
        (fun config => (atRest config, config.state.db.rows.length)) = some (true, 1) := by
    decide +kernel
  obtain ⟨config, run, seen⟩ := Run.exists_run shown
  obtain ⟨resting, one⟩ := Prod.mk.inj seen
  exact ⟨config, run, one, settled_of_drained run (drained_of_atRest resting)⟩

end Quiescence

end Provisioner
