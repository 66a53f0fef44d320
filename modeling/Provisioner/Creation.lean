import Provisioner.Messages

/-!
# Accepted creates

`create_environment` publishes the provision task before it commits the row. A
worker that starts the task in between does not find the row, and an attempt
that does not find its row is never retried. When no attempt is that fast, an
accepted create is not lost: its row is PENDING only while its task is queued or
an attempt is under way, unless an attempt was killed or lost the database.
-/

namespace Provisioner

open Resumption

namespace Creation

variable {deployment : Deployment} {refuses : Bool} {config : System}
  {world next : World}

/-- A job is about to commit an insert under this key. -/
def inserts (job : Job) (id : Uuid) : Bool :=
  job.live &&
    match (Job.phase job).stage.fresh with
    | some (_, env) => env.id = id
    | none => false

theorem inserts_eq_true_iff {job : Job} {id : Uuid} :
    inserts job id = true ↔ job.live = true ∧
      ∃ count env, (Job.phase job).stage.fresh = some (count, env) ∧ env.id = id := by
  unfold inserts
  rw [Bool.and_eq_true]
  refine and_congr_right fun _ => ?_
  cases (Job.phase job).stage.fresh with
  | none => simp
  | some pair =>
      obtain ⟨count, env⟩ := pair
      simp

/-- A provision attempt looks for the row of a request that has not committed its
insert yet. -/
def hurries (config : System) (job : Job) : Call → Bool
  | .loadEnvironment id =>
      decide (job.role.runs .provision) && config.threads.any fun other => inserts other id
  | _ => false

/-- No provision attempt is faster than the request that published it. -/
def Unhurried (config : System) (event : Occurrence) : Prop :=
  ∀ turn ∈ config.turn event, hurries config turn.1 turn.2 = false

instance (config : System) (event : Occurrence) : Decidable (Unhurried config event) :=
  inferInstanceAs (Decidable (∀ turn ∈ config.turn event, _))

/-- The row under this key will never exist. -/
structure Lost (config : System) (id : Uuid) : Prop where
  absent : config.state.db.find id = none
  issued : id ∈ config.state.issued
  uncommitted : ∀ job ∈ config.threads, inserts job id = false

/-- The row under this key exists and is past PENDING. -/
def Moved (world : World) (id : Uuid) : Prop :=
  ∃ row, world.db.find id = some row ∧ row.status ≠ .pending

/-- A provision attempt on the row under this key. -/
def Attempt (job : Job) (id : Uuid) : Prop :=
  job.role.runs .provision ∧ job.role.target = some id

/-- A database call of a thread failed. -/
def Disconnected (phase : Phase) : Prop :=
  ∃ call ∈ phase.failed, call.target = .database

/-- How a provision attempt and its row stand, unless the row is lost: the attempt
lost the database, or it moved the row on, or it has not committed yet. -/
def Stands (world : World) (phase : Phase) (id : Uuid) : Prop :=
  Disconnected phase ∨ Moved world id ∨ phase.stage = .starting ∨
    ∃ env, phase.stage = .loaded env ∧ env.id = id ∧ env.status = .pending

/-- A commit never writes PENDING. -/
theorem ne_pending_of_commits {phase : Phase} {changes : List Change} {change : Change}
    (commits : phase.Commits changes)
    (present : change ∈ changes)
    (differs : change.now.status ≠ change.seen.status) :
    change.now.status ≠ .pending := by
  cases commits with
  | accepted env task stage =>
      cases List.mem_singleton.mp present
      exact (differs rfl).elim
  | reaping rows _ sweep stage written =>
      obtain ⟨-, now, -, made⟩ := written change present
      rw [made]
      exact nofun
  | recovering rows _ sweep stage written =>
      obtain ⟨-, now, -, message, made⟩ := written change present
      rw [made]
      exact nofun
  | _ =>
      cases List.mem_singleton.mp present
      exact nofun

/-- A row past PENDING stays past PENDING. -/
theorem Moved.step {request : Call} {reply : Reply request} {phase : Phase} {id : Uuid}
    (moved : Moved world id)
    (permits : phase.permits deployment request)
    (effect : world.Effect request reply next) : Moved next id := by
  obtain ⟨row, found, past⟩ := moved
  rcases effect.db with same | ⟨env, absent, rfl, same⟩ | ⟨changes, rfl, same⟩
  · exact ⟨row, same ▸ found, past⟩
  · refine ⟨row, ?_, past⟩
    rw [same, Keyed.Table.find_insert, if_neg]
    · exact found
    · intro own
      rw [own, found] at absent
      cases absent
  · have commits : phase.Commits changes := permits
    obtain ⟨row', found', -⟩ := Environments.grows_writeAll
      (fun change present => commits.persists present) id row found
    refine ⟨row', same ▸ found', ?_⟩
    rcases Environments.status_writeAll found found' with unchanged | changed
    · rw [unchanged]
      exact past
    · obtain ⟨change, member, -, differs, stored⟩ := changed
      rw [stored]
      exact ne_pending_of_commits commits member differs

/-- A lost key stays lost. -/
theorem Lost.call {index : Nat} {job : Job} {request : Call} {reply : Reply request}
    {resume : Reply request → Action Answer} {id : Uuid}
    (lost : Lost config id)
    (found : config.threads[index]? = some job)
    (alive : job.live = true)
    (permits : job.phase.permits deployment request)
    (effect : config.state.Effect request reply next) :
    Lost (config.put next index (job.answered request reply (resume reply))) id where
  absent := by
    have free := lost.uncommitted job (List.mem_of_getElem? found)
    rcases effect.db with same | ⟨env, absent, rfl, same⟩ | ⟨changes, rfl, same⟩
    · rw [Config.put, same]
      exact lost.absent
    · obtain ⟨owner, payload, count, role, stage⟩ := permits
      rw [Config.put, same, Keyed.Table.find_insert, if_neg]
      · exact lost.absent
      · intro own
        have ready : inserts job id = true :=
          inserts_eq_true_iff.mpr ⟨alive, count, env, by rw [stage]; rfl, own⟩
        rw [ready] at free
        cases free
    · rw [Config.put, same, Environments.find_writeAll, lost.absent]
      rfl
  issued := (Integrity.grows_of_effect permits effect).issued id lost.issued
  uncommitted := by
    have free := lost.uncommitted job (List.mem_of_getElem? found)
    refine forall_mem_set lost.uncommitted (Bool.eq_false_iff.mpr fun ready => ?_)
    obtain ⟨-, count, env, fresh, own⟩ := inserts_eq_true_iff.mp ready
    rw [Job.phase_answered, Phase.advance_stage] at fresh
    rcases Stage.fresh_after fresh with ⟨old, before, task, rfl⟩ | ⟨-, flushes⟩
    · have still : inserts job id = true :=
        inserts_eq_true_iff.mpr ⟨alive, count, old, before, own⟩
      rw [still] at free
      cases free
    · cases flushes with
      | flush name owner template ttlSeconds _ =>
          cases effect with
          | read _ _ reads => cases reads
          | flushed key _ _ _ _ unused fits =>
              have own' : key = id := own
              exact unused (own' ▸ lost.issued)

/-- A commit over PENDING moves the row on. -/
theorem moved_of_write {seen now : Environment} {id : Uuid}
    (held : world.db.Held seen)
    (own : seen.id = id)
    (differs : now.status ≠ seen.status)
    (past : now.status ≠ .pending) :
    Moved { world with db := world.db.writeAll [⟨seen, now⟩] } id := by
  obtain ⟨row, found, -⟩ := held
  refine ⟨row.flush seen now, Environments.find_writeAll_single own (own ▸ found), ?_⟩
  rw [Environment.status_flush differs]
  exact past

/-- A failed database call is remembered. -/
theorem disconnected_of_error {phase : Phase} {request : Call} {exc : Exn}
    (database : request.target = .database)
    (raises : request.target.raises exc.cls = true) :
    Disconnected (phase.advance request (.error exc)) := by
  refine ⟨request, ?_, database⟩
  have other : exc.isNotFound = false := by
    rw [database] at raises
    have cls : exc.cls = .databaseError := by simpa [Call.Target.raises] using raises
    simp [Exn.isNotFound, cls]
  simp [Phase.advance, Phase.failedAfter, other]

/-- An answered call of a provision attempt leaves the attempt standing, or finds
that the row does not exist. -/
theorem stands_advance {phase : Phase} {request : Call} {reply : Reply request} {id : Uuid}
    (attempt : phase.role.runs .provision)
    (target : phase.role.target = some id)
    (held : ∀ env ∈ phase.stage.held, world.db.Held env)
    (stands : Stands world phase id)
    (permits : phase.permits deployment request)
    (effect : world.Effect request reply next) :
    Stands next (phase.advance request reply) id ∨
      ((⟨request, reply⟩ : Entry Reply) = ⟨.loadEnvironment id, .ok none⟩ ∧
        world.db.find id = none) := by
  have works := phase.works reply attempt permits
  generalize reached : phase.stage.after phase.role request reply = later at works
  have stage : (phase.advance request reply).stage = later := reached
  rcases stands with failed | moved | starting | ⟨env, loaded, own, pending⟩
  · obtain ⟨call, present, database⟩ := failed
    exact .inl (.inl ⟨call, Phase.mem_failed_advance present, database⟩)
  · exact .inl (.inr (.inl (moved.step permits effect)))
  · cases works with
    | load wanted _ =>
        have loads : phase.role.target = some wanted := by
          have permitted : phase.Loads wanted := permits
          simpa only [Phase.Loads, starting] using permitted
        rw [target] at loads
        cases loads
        cases effect with
        | failed _ exc raises => exact .inl (.inl (disconnected_of_error rfl raises))
        | read _ row reads =>
            have found : row = world.db.find id := reads
            cases row with
            | none => exact .inr ⟨rfl, found.symm⟩
            | some env =>
                by_cases pending : env.status = .pending
                · refine .inl (.inr (.inr (.inr ⟨env, ?_, ?_, pending⟩)))
                  · rw [stage, starting]
                    rfl
                  · exact Keyed.Table.key_of_find found.symm
                · exact .inl (.inr (.inl ⟨env, found.symm, pending⟩))
    | commit changes _ =>
        have commits : phase.Commits changes := permits
        cases commits <;> simp_all
    | network name label fresh env containers building =>
        rw [starting] at building
        cases building
    | container run fresh env network containers building =>
        rw [starting] at building
        cases building
    | clear _ _ resource about =>
        refine .inl (.inr (.inr (.inl ?_)))
        rw [stage, starting]
        rfl
    | keep _ _ => exact .inl (.inr (.inr (.inl (stage.trans starting))))
  · cases works with
    | load wanted _ =>
        have permitted : phase.Loads wanted := permits
        simp only [Phase.Loads, loaded] at permitted
    | commit changes _ =>
        cases effect with
        | failed _ exc raises => exact .inl (.inl (disconnected_of_error rfl raises))
        | read _ _ reads => cases reads
        | committed _ =>
            have commits : phase.Commits changes := permits
            cases commits with
            | provisioning copy now _ copied reading =>
                rw [loaded] at copied
                cases copied
                have moves : (env.setStatus .provisioning now).status ≠ .pending :=
                  of_decide_eq_false rfl
                refine .inl (.inr (.inl (moved_of_write ?_ own ?_ moves)))
                · exact held env (by rw [loaded]; exact List.mem_singleton.mpr rfl)
                · rw [pending]
                  exact moves
            | stopping copy now teardown =>
                have same := Role.runs_inj _ attempt teardown
                cases same
            | _ => simp_all
    | network name label fresh other containers building =>
        rw [loaded] at building
        cases building
    | container run fresh other network containers building =>
        rw [loaded] at building
        cases building
    | clear _ _ resource about =>
        refine .inl (.inr (.inr (.inr ⟨env, ?_, own, pending⟩)))
        rw [stage, loaded]
        rfl
    | keep _ _ =>
        exact .inl (.inr (.inr (.inr ⟨env, stage.trans loaded, own, pending⟩)))

/-- Where every provision attempt stands; one that missed its row lost it. -/
structure Tracked (config : System) : Prop where
  stands : ∀ job ∈ config.threads, ∀ id, Attempt job id →
    Lost config id ∨ Stands config.state (Job.phase job) id
  missed : ∀ job ∈ config.threads, ∀ id, Attempt job id →
    ⟨.loadEnvironment id, .ok none⟩ ∈ job.trace → Lost config id

/-- What the surroundings do leaves a lost key lost. -/
theorem Lost.ambient {action : Ambient} {spawned : Option Role} {id : Uuid}
    (lost : Lost config id)
    (surrounds : Surrounds config.state action next spawned) :
    Lost ⟨next, config.threads ++
      (spawned.map (Thread.start (machine deployment))).toList⟩ id := by
  obtain ⟨db, docker, sent, issued, clock⟩ := surrounds.unchanged
  refine ⟨?_, ?_, ?_⟩
  · rw [db]
    exact lost.absent
  · rw [issued]
    exact lost.issued
  · intro job present
    rcases List.mem_append.mp present with old | new
    · exact lost.uncommitted job old
    · cases spawned with
      | none => cases new
      | some role =>
          rw [List.mem_singleton.mp new]
          refine Bool.eq_false_iff.mpr fun ready => ?_
          obtain ⟨-, count, env, fresh, -⟩ := inserts_eq_true_iff.mp ready
          rw [Job.phase_start] at fresh
          rcases Phase.start_stage role with same | same <;> rw [same] at fresh <;> cases fresh

theorem Lost.kill {index : Nat} {job : Job} {id : Uuid} (lost : Lost config id) :
    Lost (config.put config.state index job.killed) id where
  absent := lost.absent
  issued := lost.issued
  uncommitted := forall_mem_set lost.uncommitted (Bool.false_and _)

/-- A provision attempt that finds no row will never have one. -/
theorem lost_of_missed {index : Nat} {job : Job} {choice : Choice} {id : Uuid}
    {request : Call} {reply : Reply request} {resume : Reply request → Action Answer}
    (unhurried : Unhurried config (.advance index choice))
    (issued : id ∈ config.state.issued)
    (attempt : Attempt job id)
    (found : config.threads[index]? = some job)
    (rest : job.rest = .call request resume)
    (effect : config.state.Effect request reply next)
    (entry : (⟨request, reply⟩ : Entry Reply) = ⟨.loadEnvironment id, .ok none⟩)
    (absent : config.state.db.find id = none) :
    Lost (config.put next index (job.answered request reply (resume reply))) id := by
  cases entry
  have quiet := unhurried _ (Config.turn_advance found rest)
  have idle : ∀ other ∈ config.threads, inserts other id = false := by
    simpa [hurries, attempt.1] using quiet
  cases effect with
  | read _ _ reads =>
      refine ⟨absent, issued, forall_mem_set idle (Bool.eq_false_iff.mpr fun ready => ?_)⟩
      obtain ⟨alive, count, env, fresh, own⟩ := inserts_eq_true_iff.mp ready
      rw [Job.phase_answered, Phase.advance_stage] at fresh
      rcases Stage.fresh_after fresh with ⟨old, before, task, rfl⟩ | ⟨-, flushes⟩
      · have still : inserts job id = true :=
          inserts_eq_true_iff.mpr ⟨alive, count, old, before, own⟩
        rw [idle job (List.mem_of_getElem? found)] at still
        cases still
      · cases flushes

/-- A provision attempt works on a generated key. -/
theorem issued_of_attempt {allowed : System → Occurrence → Prop} {job : Job} {id : Uuid}
    (run : System.Runs deployment refuses allowed config)
    (present : job ∈ config.threads)
    (attempt : Attempt job id) : id ∈ config.state.issued := by
  obtain ⟨runs, target⟩ := attempt
  obtain ⟨ordered, attends⟩ := Messages.of_runs run
  cases role : job.role with
  | task message =>
      have sent := (attends job present).sent message (by rw [Job.role_phase, role])
      obtain ⟨named, issued, same, -⟩ := ordered.names message sent
      rw [role] at target
      have parsed : Uuid.parse message.envId = some id := target
      rw [same, Uuid.parse_str] at parsed
      cases parsed
      exact issued
  | request request =>
      rw [role] at runs
      exact runs.elim
  | sweep sweep =>
      rw [role] at runs
      exact runs.elim

/-- Every configuration of a run without hurry tracks its provision attempts. -/
theorem tracked_of_runs (run : System.Runs deployment refuses Unhurried config) :
    Tracked config := by
  refine run.invariant Tracked ⟨nofun, nofun⟩ ?_ ?_ ?_
  · intro config action next spawned ran tracked _ surrounds
    refine ⟨fun job present id attempt => ?_, fun job present id attempt entry => ?_⟩
    · rcases List.mem_append.mp present with old | new
      · rcases tracked.stands job old id attempt with lost | stands
        · exact .inl (lost.ambient surrounds)
        · refine .inr ?_
          unfold Stands Moved
          rw [surrounds.unchanged.1]
          exact stands
      · cases spawned with
        | none => cases new
        | some role =>
            rw [List.mem_singleton.mp new] at attempt ⊢
            exact .inr (.inr (.inr (.inl (Phase.start_of_runs attempt.1))))
    · rcases List.mem_append.mp present with old | new
      · exact (tracked.missed job old id attempt entry).ambient surrounds
      · cases spawned with
        | none => cases new
        | some role =>
            rw [List.mem_singleton.mp new] at entry
            cases entry
  · intro config index job ran tracked _ found alive
    have member := List.mem_of_getElem? found
    refine ⟨forall_mem_set (fun other present id attempt => ?_) fun id attempt => ?_,
      forall_mem_set (fun other present id attempt entry => ?_) fun id attempt entry => ?_⟩
    · exact (tracked.stands other present id attempt).imp_left Lost.kill
    · exact (tracked.stands job member id attempt).imp_left Lost.kill
    · exact (tracked.missed other present id attempt entry).kill
    · exact (tracked.missed job member id attempt entry).kill
  · intro config index job request resume choice reply next ran tracked unhurried found alive
      rest permits effect
    have member := List.mem_of_getElem? found
    have moves : ∀ id, Attempt job id → Lost config id ∨ Stands config.state job.phase id →
        Lost (config.put next index (job.answered request reply (resume reply))) id ∨
          Stands next (job.phase.advance request reply) id := by
      rintro id attempt (lost | stands)
      · exact .inl (lost.call found alive permits effect)
      · have role := Job.role_phase job
        have held := ((Integrity.of_runs ran).2 job member).held
        rcases stands_advance (role ▸ attempt.1) (role ▸ attempt.2) held stands permits effect
          with kept | ⟨entry, absent⟩
        · exact .inr kept
        · exact .inl (lost_of_missed unhurried (issued_of_attempt ran member attempt)
            attempt found rest effect entry absent)
    refine ⟨forall_mem_set (fun other present id attempt => ?_) fun id attempt => ?_,
      forall_mem_set (fun other present id attempt entry => ?_) fun id attempt entry => ?_⟩
    · rcases tracked.stands other present id attempt with lost | failed | moved | stage
      · exact .inl (lost.call found alive permits effect)
      · exact .inr (.inl failed)
      · exact .inr (.inr (.inl (moved.step permits effect)))
      · exact .inr (.inr (.inr stage))
    · rw [Job.phase_answered]
      exact moves id attempt (tracked.stands job member id attempt)
    · exact (tracked.missed other present id attempt entry).call found alive permits effect
    · rcases List.mem_append.mp entry with old | new
      · exact (tracked.missed job member id attempt old).call found alive permits effect
      · have answer := List.mem_singleton.mp new
        cases answer
        have absent : config.state.db.find id = none := by
          cases effect with
          | read _ _ reads =>
              have answered : none = config.state.db.find id := reads
              exact answered.symm
        exact lost_of_missed unhurried (issued_of_attempt ran member attempt) attempt found
          rest effect rfl absent

end Creation

namespace Stage

/-- The row whose provision task a request has published. -/
def announcing : Stage → Option Environment
  | .published _ env | .created env => some env
  | _ => none

variable {stage : Stage} {role : Role}

theorem announcing_onLoad {id : Uuid} {reply : Except Exn (Option Environment)} :
    (stage.onLoad id reply).announcing = none := by
  rcases reply with exc | row
  · cases stage <;> rfl
  · cases row <;> cases stage <;> rfl

theorem announcing_onCommit {changes : List Change} {reply : Except Exn Unit} :
    (stage.onCommit role changes reply).announcing = none := by
  rcases reply with exc | done
  · cases stage <;> rfl
  · cases changes with
    | nil => cases stage <;> rfl
    | cons change changes =>
        cases stage with
        | loaded env =>
            unfold onCommit
            dsimp only
            split <;> rfl
        | _ => rfl

end Stage

namespace Creation

/-- The provision task of a row was published before its insert was committed. -/
def Announced (world : World) (phase : Phase) : Prop :=
  ∀ env, phase.stage.announcing = some env →
    ∃ message ∈ world.sent, message.task = .provision ∧ message.envId = env.id.str

/-- An answered call keeps the announcement. -/
theorem announced_advance {phase : Phase} {request : Call} {reply : Reply request}
    (announced : Announced world phase)
    (permits : phase.permits deployment request)
    (effect : world.Effect request reply next) :
    Announced next (phase.advance request reply) := by
  have grows := Integrity.grows_of_effect permits effect
  have kept : ∀ env, phase.stage.announcing = some env →
      ∃ message ∈ next.sent, message.task = .provision ∧ message.envId = env.id.str := by
    intro env announcing
    obtain ⟨message, sent, named⟩ := announced env announcing
    exact ⟨message, grows.sent message sent, named⟩
  have advances : Stage.Advances phase.role phase.stage request reply
      (phase.stage.after phase.role request reply) := Stage.after_advances request reply
  intro env reached
  rw [Phase.advance_stage] at reached
  generalize phase.stage.after phase.role request reply = later at advances reached
  cases advances with
  | load id _ =>
      rw [Stage.announcing_onLoad] at reached
      cases reached
  | commit changes _ =>
      rw [Stage.announcing_onCommit] at reached
      cases reached
  | publish task envId retries countdown id count old inserted =>
      cases reached
      have publishes : phase.Publishes task envId retries := permits
      cases publishes with
      | create principal payload count own role stage =>
          rw [inserted] at stage
          cases stage
          cases effect with
          | read _ _ reads => cases reads
          | published _ _ _ _ =>
              exact ⟨_, List.mem_append_right _ (List.mem_singleton.mpr rfl), rfl, rfl⟩
      | delete id principal env role stage => simp [inserted] at stage
      | reap rows env stage member => simp [inserted] at stage
      | retry message role retired budget => simp [inserted, Stage.Retired] at retired
  | insert created =>
      cases reached
      obtain ⟨owner, payload, count, role, stage⟩ := permits
      exact kept env (by rw [stage]; rfl)
  | keep _ _ => exact kept env reached
  | bare _ _ _ bare => cases later <;> first | exact bare.elim | cases reached
  | _ => cases reached

/-- A run announces what it creates. -/
theorem announced_of_runs {allowed : System → Occurrence → Prop}
    (run : System.Runs deployment refuses allowed config) :
    ∀ job ∈ config.threads, Announced config.state (Job.phase job) := by
  have rules : Rules deployment allowed (fun _ => True) Announced World.Grows := by
    refine ⟨?_, ?_, ?_⟩
    · intro world next phase grows announced env stage
      obtain ⟨message, sent, named⟩ := announced env stage
      exact ⟨message, grows.sent message sent, named⟩
    · intro config action next spawned _ _ surrounds
      refine ⟨trivial, Integrity.grows_of_surrounds surrounds, fun role _ env stage => ?_⟩
      rcases Phase.start_stage role with same | same <;> rw [same] at stage <;> cases stage
    · intro config event job request reply next _ announced _ _ permits effect
      exact ⟨trivial, Integrity.grows_of_effect permits effect,
        announced_advance announced permits effect⟩
  exact (run.sound trivial rules).2

/-- In a run without hurry an accepted create is not lost: its row exists, no
provision attempt missed it, and while it is PENDING its task is queued or an
attempt is under way, unless one was killed or lost the database. -/
theorem accepted_not_lost {job : Job} {principal : String} {payload : EnvironmentCreate}
    {id : Uuid} {task : TaskId} {text : String}
    (run : System.Runs deployment refuses Unhurried config)
    (present : job ∈ config.threads)
    (request : job.role = .request (.create principal payload))
    (answered : job.rest = .pure (.accepted id task text)) :
    ∃ row, config.state.db.find id = some row ∧
      (∀ attempt ∈ config.threads, Attempt attempt id →
        ⟨.loadEnvironment id, .ok none⟩ ∉ attempt.trace) ∧
      (row.status = .pending →
        (∃ message ∈ config.state.queue,
          message.task = .provision ∧ message.envId = id.str) ∨
        ∃ attempt ∈ config.threads, Attempt attempt id ∧
          (attempt.Active ∨ attempt.live = false ∨ Disconnected (Job.phase attempt))) := by
  have ended : (Job.phase job).Ended job.role (.ok (.accepted id task text)) :=
    System.Runs.ended run present answered
  rw [request] at ended
  obtain ⟨env, created, text', stage, same⟩ := ended (.accepted id task text) rfl
  cases same
  have announced := announced_of_runs run job present env (by rw [stage]; rfl)
  have held := ((Integrity.of_runs run).2 job present).held env
    (by rw [stage]; exact List.mem_singleton.mpr rfl)
  obtain ⟨row, found, -⟩ := held
  have tracked := tracked_of_runs run
  have exists_row : ¬Lost config env.id := by
    intro lost
    rw [lost.absent] at found
    cases found
  refine ⟨row, found, fun attempt member own missed => ?_, fun pending => ?_⟩
  · exact exists_row (tracked.missed attempt member env.id own missed)
  · obtain ⟨message, sent, provision, named⟩ := announced
    rcases Messages.arrives_of_sent run message sent with queued | ⟨attempt, member, role⟩
    · exact .inl ⟨message, queued, provision, named⟩
    · have own : Attempt attempt env.id := by
        rw [Attempt, role]
        refine ⟨provision, ?_⟩
        show Uuid.parse message.envId = some env.id
        rw [named, Uuid.parse_str]
      refine .inr ⟨attempt, member, own, ?_⟩
      rcases (tracked.stands attempt member env.id own).resolve_left exists_row with
        failed | moved | early
      · exact .inr (.inr failed)
      · obtain ⟨row', found', past⟩ := moved
        rw [found] at found'
        cases found'
        exact (past pending).elim
      · by_cases active : attempt.Active
        · exact .inl active
        · rcases Job.killed_or_over active with killed | ⟨result, finished⟩
          · exact .inr (.inl killed)
          · have ended : (Job.phase attempt).Ended attempt.role result :=
              System.Runs.ended run member finished
            rw [role] at ended
            rcases early with starting | ⟨env', loaded, -⟩
            · simp only [Phase.Ended, starting, named, Uuid.parse_str] at ended
              cases ended
            · simp only [Phase.Ended, loaded] at ended

/-- The key that a create request has answered 202 with. -/
def accepts (job : Job) : Option Uuid :=
  match job.role, job.rest with
  | .request (.create _ _), .pure (.accepted id _ _) => some id
  | _, _ => none

theorem answered_of_accepts {job : Job} {id : Uuid} (accepted : accepts job = some id) :
    ∃ principal payload task text, job.role = .request (.create principal payload) ∧
      job.rest = .pure (.accepted id task text) := by
  unfold accepts at accepted
  split at accepted
  · rename_i principal payload key task text role rest
    cases accepted
    exact ⟨principal, payload, task, text, role, rest⟩
  · cases accepted

/-- The status of the sample row, once its request has answered 202. -/
def observe (config : System) : Option (Option EnvironmentStatus) :=
  if config.threads.any fun job => accepts job = some (Sample.envId 1) then
    some ((config.state.db.find (Sample.envId 1)).map Environment.status)
  else none

/-- The rule on a create whose task is still queued. -/
theorem accepted_not_lost_of_create :
    ∃ config row, System.Runs Compose.shipped true Unhurried config ∧
      config.state.db.find (Sample.envId 1) = some row ∧ row.status = .pending ∧
      ((∃ message ∈ config.state.queue,
          message.task = .provision ∧ message.envId = (Sample.envId 1).str) ∨
        ∃ attempt ∈ config.threads, Attempt attempt (Sample.envId 1) ∧
          (attempt.Active ∨ attempt.live = false ∨ Disconnected (Job.phase attempt))) := by
  have shown : ((System.initial true).run (machine Compose.shipped) Unhurried
      (Sample.create 0 1)).map observe = some (some (some .pending)) := by decide +kernel
  obtain ⟨config, run, seen⟩ := Run.exists_run shown
  unfold observe at seen
  split at seen
  · rename_i accepted
    obtain ⟨job, present, accepts⟩ := List.any_eq_true.mp accepted
    obtain ⟨principal, payload, task, text, role, rest⟩ :=
      answered_of_accepts (of_decide_eq_true accepts)
    obtain ⟨row, found, pending⟩ := Option.map_eq_some_iff.mp (Option.some.inj seen)
    obtain ⟨row', found', -, kept⟩ := accepted_not_lost run present role rest
    rw [found] at found'
    cases found'
    exact ⟨config, row, run, found, pending, kept pending⟩
  · cases seen

/-- The worker takes the task between the publish and the commit of its request,
fails, and the request answers 202. -/
def hurried : List Occurrence :=
  (Sample.create 0 1).dropLast ++ Sample.deliver ++ Sample.succeed 1 4 ++ Sample.succeed 0 1

/-- A provision attempt missed the sample row and ended without a retry. -/
def misses (job : Job) : Bool :=
  decide (job.role.runs .provision) && job.role.target = some (Sample.envId 1) &&
    (job.trace.any fun entry =>
      match entry with
      | ⟨.loadEnvironment id, .ok none⟩ => id = Sample.envId 1
      | _ => false) &&
    match job.rest with
    | .raise exc => exc = Worker.notFound (Sample.envId 1).str
    | _ => false

/-- A job has nothing left to do. -/
def idle (job : Job) : Bool :=
  match job.rest with
  | .call _ _ => false
  | _ => true

theorem missed_of_misses {job : Job} (missed : misses job = true) :
    Attempt job (Sample.envId 1) ∧
      ⟨.loadEnvironment (Sample.envId 1), .ok none⟩ ∈ job.trace ∧
      job.rest = .raise (Worker.notFound (Sample.envId 1).str) := by
  simp only [misses, Bool.and_eq_true, decide_eq_true_eq] at missed
  obtain ⟨⟨own, loaded⟩, raised⟩ := missed
  refine ⟨own, ?_, ?_⟩
  · obtain ⟨entry, present, same⟩ := List.any_eq_true.mp loaded
    split at same
    · rename_i id
      rw [← of_decide_eq_true same]
      exact present
    · cases same
  · split at raised
    · rename_i exc rest
      rw [rest, of_decide_eq_true raised]
    · cases raised

/-- A worker that is faster than the commit loses an accepted create: its attempt
ends in the error for a missing row, and the row stays PENDING with no message
queued and no job left. -/
theorem lost_by_hurry :
    ∃ config job attempt row principal payload task text,
      Reachable (machine Compose.shipped) (System.initial true) config ∧
      job ∈ config.threads ∧ job.role = .request (.create principal payload) ∧
      job.rest = .pure (.accepted (Sample.envId 1) task text) ∧
      attempt ∈ config.threads ∧ Attempt attempt (Sample.envId 1) ∧
      ⟨.loadEnvironment (Sample.envId 1), .ok none⟩ ∈ attempt.trace ∧
      attempt.rest = .raise (Worker.notFound (Sample.envId 1).str) ∧
      config.state.db.find (Sample.envId 1) = some row ∧ row.status = .pending ∧
      config.state.queue = [] ∧ ∀ other ∈ config.threads, ¬other.Active := by
  have shown : ((System.initial true).run (machine Compose.shipped) (fun _ _ => True)
      hurried).map (fun config => (observe config, config.threads.any misses,
        config.threads.all idle, config.state.queue)) =
      some (some (some .pending), true, true, []) := by decide +kernel
  obtain ⟨config, run, seen⟩ := Run.exists_run shown
  simp only [Prod.mk.injEq] at seen
  obtain ⟨observed, missed, finished, queue⟩ := seen
  unfold observe at observed
  split at observed
  · rename_i accepted
    obtain ⟨job, present, accepts⟩ := List.any_eq_true.mp accepted
    obtain ⟨principal, payload, task, text, role, rest⟩ :=
      answered_of_accepts (of_decide_eq_true accepts)
    obtain ⟨row, found, pending⟩ := Option.map_eq_some_iff.mp (Option.some.inj observed)
    obtain ⟨attempt, member, missed⟩ := List.any_eq_true.mp missed
    obtain ⟨own, loaded, raised⟩ := missed_of_misses missed
    refine ⟨config, job, attempt, row, principal, payload, task, text, run, present, role,
      rest, member, own, loaded, raised, found, pending, queue, fun other inside active => ?_⟩
    have done := List.all_eq_true.mp finished other inside
    obtain ⟨-, suspended⟩ := active
    unfold idle at done
    split at done
    · cases done
    · rename_i resting
      cases rest : other.rest with
      | pure answer => rw [rest] at suspended; exact suspended
      | raise exc => rw [rest] at suspended; exact suspended
      | call request resume => exact resting request resume rest
  · cases observed

end Creation

end Provisioner
