import Provisioner.Evidence
import Provisioner.Messages
import Provisioner.Publishing
import Provisioner.Attempts

/-!
# Who may end an environment, and where it comes from

The worker does what its messages say and asks nobody. So what protects an environment is
who publishes: a DELETE that found the row, and found its own principal on it, or a run of
the reaper that read the row RUNNING and past its expiry; an attempt only repeats its own
message. Threads keep what they were answered, so in every reachable configuration every
teardown can be traced to one of the two, and every row to the request that made it.
-/

namespace Provisioner

open Resumption

namespace Authority

/-- A DELETE found the row of its principal, neither stopped nor stopping. -/
structure Deletes (role : Role) (trace : List (Entry Reply)) (id : Uuid) (owner : String)
    (seen : Environment) : Prop where
  role : role = .request (.delete id owner)
  loaded : (⟨.loadEnvironment id, .ok (some seen)⟩ : Entry Reply) ∈ trace
  owner : seen.owner = owner
  stoppable : seen.status ≠ .stopped ∧ seen.status ≠ .stopping

/-- A run of the reaper read the instant, and selected the row with it. -/
structure Reaps (role : Role) (trace : List (Entry Reply)) (instant : Time)
    (seen : Environment) : Prop where
  role : role = .sweep .reapExpired
  read : (⟨.now, .ok instant⟩ : Entry Reply) ∈ trace
  selected : ∃ rows, (⟨.selectExpired instant, .ok rows⟩ : Entry Reply) ∈ trace ∧ seen ∈ rows

/-- A create flushed the insert of its payload. -/
structure Creates (role : Role) (trace : List (Entry Reply)) (principal : String)
    (payload : EnvironmentCreate) (env : Environment) : Prop where
  role : role = .request (.create principal payload)
  flushed : (⟨.flushInsert payload.name principal payload.template payload.ttlSeconds,
    .ok env⟩ : Entry Reply) ∈ trace

/-- Why a role may publish a message. -/
inductive Orders (role : Role) (trace : List (Entry Reply)) : Task → String → Prop
  | create (principal : String) (payload : EnvironmentCreate) (env : Environment) :
      Creates role trace principal payload env → Orders role trace .provision env.id.str
  | delete (id : Uuid) (owner : String) (seen : Environment) :
      Deletes role trace id owner seen → Orders role trace .teardown seen.id.str
  | reap (instant : Time) (seen : Environment) :
      Reaps role trace instant seen → Orders role trace .teardown seen.id.str
  | retry (message : Message) :
      role = .task message → Orders role trace message.task message.envId

/-- What entitles a role to a call: a message is ordered, the reaper claims what it selected,
a DELETE writes to what it found, and a create inserts one row, the one that it flushed. -/
def Justified (role : Role) (trace : List (Entry Reply)) : Call → Prop
  | .publish task envId _ _ => Orders role trace task envId
  | .commitChanges changes => ∀ change ∈ changes,
      (role = .sweep .reapExpired → ∃ instant, Reaps role trace instant change.seen) ∧
      ∀ id owner, role = .request (.delete id owner) → Deletes role trace id owner change.seen
  | .flushInsert _ _ _ _ => ∀ principal payload, role = .request (.create principal payload) →
      ∀ entry ∈ trace, entry.request.flushes = false
  | .commitInsert env => ∀ principal payload, role = .request (.create principal payload) →
      ∃ inserted task, Creates role trace principal payload inserted ∧
        env = { inserted with celeryTaskId := some task }
  | _ => True

variable {deployment : Deployment} {refuses : Bool}
  {allowed : System → Occurrence → Prop} {config : System}
  {world next : World} {role : Role} {trace later : List (Entry Reply)}

theorem Orders.mono {task : Task} {envId : String} (orders : Orders role trace task envId)
    (longer : trace ⊆ later) : Orders role later task envId := by
  cases orders with
  | create principal payload env creates =>
      exact .create principal payload env ⟨creates.role, longer creates.flushed⟩
  | delete id owner seen deletes =>
      exact .delete id owner seen
        ⟨deletes.role, longer deletes.loaded, deletes.owner, deletes.stoppable⟩
  | reap instant seen reaps =>
      obtain ⟨rows, selected, member⟩ := reaps.selected
      exact .reap instant seen ⟨reaps.role, longer reaps.read, rows, longer selected, member⟩
  | retry message same => exact .retry message same

/-! ## The programs -/

/-- What a create does after its flush. -/
theorem created_evidence {principal : String} {payload : EnvironmentCreate} {env : Environment}
    (creates : Creates role trace principal payload env) :
    (evidence Evidence.Possible Justified).Allows (fun _ _ => True) (role, trace) (do
      let task ← perform (.publish .provision env.id.str 0 0)
      perform (.commitInsert { env with celeryTaskId := some task })
      pure (.accepted env.id task "Provisioning started. Poll /environments/{id} for status.") :
        Action Answer) := by
  refine Program.meets_bind.mpr (Evidence.allows_perform
    (.create principal payload env creates) fun reply => ?_)
  rcases reply with exc | task
  · trivial
  refine Program.meets_bind.mpr (Evidence.allows_perform ?_ fun reply => ?_)
  · intro principal' payload' same
    rw [creates.role] at same
    cases same
    exact ⟨env, task, ⟨creates.role, List.mem_append_left _ creates.flushed⟩, rfl⟩
  · rcases reply with exc | done <;> trivial

/-- A create publishes and inserts what it flushed, and it flushes once. -/
theorem create_evidence (deployment : Deployment) (principal : String)
    (payload : EnvironmentCreate) :
    (evidence Evidence.Possible Justified).Allows (fun _ _ => True)
      (.request (.create principal payload), [])
      (Router.createEnvironment deployment principal payload) := by
  refine Program.meets_bind.mpr (Evidence.allows_perform trivial fun reply => ?_)
  rcases reply with exc | count
  · trivial
  dsimp only
  split
  · trivial
  refine Program.meets_bind.mpr (Evidence.allows_perform trivial fun reply => ?_)
  rcases reply with exc | rows
  · trivial
  refine Program.meets_bind.mpr ?_
  cases Router.scalarOneOrNone rows with
  | error exc => trivial
  | ok existing =>
  refine Program.meets_pure.mpr ?_
  dsimp only
  split
  · trivial
  refine Program.meets_bind.mpr (Evidence.allows_perform ?_ fun reply => ?_)
  · intro _ _ _ entry member
    simp only [List.nil_append, List.cons_append, List.mem_cons, List.not_mem_nil, or_false]
      at member
    rcases member with rfl | rfl <;> rfl
  · rcases reply with exc | env
    · trivial
    · exact created_evidence ⟨rfl, Evidence.mem_concat _ _⟩

/-- A DELETE publishes a teardown of what it found. -/
theorem delete_evidence (id : Uuid) (principal : String) :
    (evidence Evidence.Possible Justified).Allows (fun _ _ => True)
      (.request (.delete id principal), []) (Router.deleteEnvironment id principal) := by
  refine Program.meets_bind.mpr (Program.meets_bind.mpr
    (Evidence.allows_perform trivial fun reply => ?_))
  rcases reply with exc | row
  · trivial
  cases row with
  | none => trivial
  | some seen =>
      dsimp only
      split
      · rename_i own
        refine Program.meets_pure.mpr ?_
        dsimp only
        split
        · trivial
        · rename_i stoppable
          rw [not_or] at stoppable
          refine Program.meets_bind.mpr (Evidence.allows_perform
            (.delete id principal seen ⟨rfl, Evidence.mem_concat _ _, own, stoppable⟩)
            fun reply => ?_)
          rcases reply with exc | task
          · trivial
          refine Program.meets_bind.mpr (Evidence.allows_perform (fun change member => ?_)
            fun reply => ?_)
          · cases List.mem_singleton.mp member
            refine ⟨nofun, fun id' owner same => ?_⟩
            cases same
            exact ⟨rfl, List.mem_append_left _ (Evidence.mem_concat _ _), own, stoppable⟩
          · rcases reply with exc | done <;> trivial
      · trivial

/-- The changes of the reaper are changes of what it selected. -/
theorem changeAll_evidence (rows : List Environment) :
    (evidence Evidence.Possible Justified).Allows (fun known result =>
        known.1 = role ∧ trace ⊆ known.2 ∧
          ∀ changes, result = .ok changes → ∀ change ∈ changes, change.seen ∈ rows)
      (role, trace) (Worker.changeAll (fun env now => env.setStatus .stopping now) rows) := by
  induction rows generalizing trace with
  | nil =>
      refine Program.meets_pure.mpr
        ⟨rfl, fun _ present => present, fun changes same change member => ?_⟩
      cases same
      cases member
  | cons row rows inductionHypothesis =>
      refine Program.meets_bind.mpr (Evidence.allows_perform trivial fun reply => ?_)
      rcases reply with exc | now
      · exact ⟨rfl, List.subset_append_left _ _, fun changes same => by cases same⟩
      refine Program.meets_bind.mpr (inductionHypothesis.mono ?_)
      rintro ⟨other, reached⟩ (exc | changes) ⟨same, longer, made⟩
      · exact ⟨same, fun _ present => longer (List.subset_append_left _ _ present),
          fun changes same => by cases same⟩
      · refine ⟨same, fun _ present => longer (List.subset_append_left _ _ present),
          fun all built => ?_⟩
        cases built
        rw [List.forall_mem_cons]
        exact ⟨List.mem_cons_self, fun change member =>
          List.mem_cons_of_mem _ (made changes rfl change member)⟩

/-- The reaper claims and publishes what it selected. -/
theorem reap_evidence :
    (evidence Evidence.Possible Justified).Allows (fun _ _ => True)
      (.sweep .reapExpired, []) Worker.reapExpiredEnvironments := by
  refine Program.meets_bind.mpr (Evidence.allows_perform trivial fun reply => ?_)
  rcases reply with exc | instant
  · trivial
  refine Program.meets_bind.mpr (Evidence.allows_perform trivial fun reply => ?_)
  rcases reply with exc | rows
  · trivial
  dsimp only
  split
  · trivial
  have reaps : ∀ later, [] ++ [⟨.now, .ok instant⟩] ++ [⟨.selectExpired instant, .ok rows⟩] ⊆
      later → ∀ seen ∈ rows, Reaps (.sweep .reapExpired) later instant seen :=
    fun later longer seen member => ⟨rfl, longer (by simp), rows, longer (by simp), member⟩
  generalize [] ++ [(⟨.now, .ok instant⟩ : Entry Reply)] ++
    [⟨.selectExpired instant, .ok rows⟩] = trace at reaps ⊢
  refine Program.meets_bind.mpr ((changeAll_evidence rows).mono ?_)
  rintro ⟨role, reached⟩ (exc | changes) ⟨rfl, longer, made⟩
  · trivial
  refine Program.meets_bind.mpr (Evidence.allows_perform
    (fun change member =>
      ⟨fun _ => ⟨instant, reaps _ longer _ (made changes rfl change member)⟩, nofun⟩)
    fun reply => ?_)
  rcases reply with exc | done
  · trivial
  have publishes : (Program.forEach (fun env : Environment => do
      let _ ← perform (.publish .teardown env.id.str 0 0)
      pure () : Environment → Action Unit) rows).Makes fun request =>
        ∃ env ∈ rows, request = .publish .teardown env.id.str 0 0 :=
    Program.makes_forEach fun env member =>
      Program.makes_bind (DockerManager.perform_makes ⟨env, member, rfl⟩) fun _ => trivial
  refine Program.meets_bind.mpr (Program.Meets.mono
    (evidence_of_makes publishes fun later request further fits => ?_) fun _ result _ => ?_)
  · obtain ⟨env, member, rfl⟩ := fits
    exact .reap instant env (reaps _ (fun _ present =>
      further (List.subset_append_left _ _ (longer present))) env member)
  · rcases result with exc | done <;> trivial

/-- Every program of the service is entitled to its calls. -/
theorem program_evidence (deployment : Deployment) (role : Role) :
    (evidence Evidence.Possible Justified).Allows (fun _ _ => True) (role, [])
      (program deployment role) := by
  have others : role ≠ .sweep .reapExpired →
      (∀ principal payload, role ≠ .request (.create principal payload)) →
      (∀ id owner, role ≠ .request (.delete id owner)) →
      (∀ task envId retries, role.Publishes task envId retries → Orders role [] task envId) →
      (evidence Evidence.Possible Justified).Allows (fun _ _ => True) (role, [])
        (program deployment role) := by
    intro reaper create delete orders
    have makes : (program deployment role).Makes fun request =>
        ∀ later, Justified role later request := by
      refine program_makes_quiet (fun request quiet later => ?_)
        fun task envId retries countdown publishes later => ?_
      · cases request with
        | commitChanges changes =>
            exact fun change _ => ⟨fun same => (reaper same).elim,
              fun id owner same => (delete id owner same).elim⟩
        | flushInsert name owner template ttlSeconds =>
            exact fun principal payload same => (create principal payload same).elim
        | commitInsert env =>
            exact fun principal payload same => (create principal payload same).elim
        | publish task envId retries countdown => cases quiet
        | _ => trivial
      · exact (orders task envId retries publishes).mono (List.nil_subset _)
    exact (evidence_of_makes makes fun later request _ fits => fits later).mono fun _ _ _ => trivial
  cases role with
  | request request =>
      cases request with
      | create principal payload => exact create_evidence deployment principal payload
      | delete id principal => exact delete_evidence id principal
      | list principal status limit offset =>
          exact others nofun nofun nofun fun _ _ _ publishes => publishes.elim
      | get id principal => exact others nofun nofun nofun fun _ _ _ publishes => publishes.elim
  | task message =>
      refine others nofun nofun nofun fun task envId retries publishes => ?_
      obtain ⟨rfl, rfl, -⟩ := publishes
      exact .retry message rfl
  | sweep sweep =>
      cases sweep with
      | reapExpired => exact reap_evidence
      | reconcileOrphans => exact others nofun nofun nofun fun _ _ _ publishes => publishes.elim
      | recoverStale => exact others nofun nofun nofun fun _ _ _ publishes => publishes.elim

/-- The call that a thread is about to make is justified. -/
theorem justified_of_runs {job : Job} {request : Call} {resume : Reply request → Action Answer}
    (run : System.Runs deployment refuses allowed config)
    (member : job ∈ config.threads)
    (rest : job.rest = .call request resume) : Justified job.role job.trace request :=
  run.evidenced_next rfl (Evidence.describes deployment _) (program_evidence deployment) member rest

/-! ## Who ended it -/

/-- Every thread of the first configuration is in the second, with at least its trace. -/
def Extends (config after : System) : Prop :=
  ∀ (index : Nat) (job : Job), config.threads[index]? = some job →
    ∃ job' : Job, after.threads[index]? = some job' ∧ job'.role = job.role ∧
      job.trace ⊆ job'.trace

theorem extends_append (config : System) (world : World) (jobs : List Job) :
    Extends config ⟨world, config.threads ++ jobs⟩ := by
  intro index job found
  refine ⟨job, ?_, rfl, fun _ present => present⟩
  rw [List.getElem?_append_left (List.getElem?_eq_some_iff.mp found).1]
  exact found

theorem extends_put {index : Nat} {job job' : Job}
    (found : config.threads[index]? = some job)
    (role : job'.role = job.role) (trace : job.trace ⊆ job'.trace) :
    Extends config (config.put world index job') := by
  intro position other located
  by_cases here : position = index
  · subst here
    rw [found] at located
    cases located
    exact ⟨job', List.getElem?_set_self (List.getElem?_eq_some_iff.mp found).1, role, trace⟩
  · refine ⟨other, ?_, rfl, fun _ present => present⟩
    rw [Config.put, List.getElem?_set_ne (Ne.symm here)]
    exact located

theorem Extends.trans {middle after : System} (first : Extends config middle)
    (second : Extends middle after) : Extends config after := by
  intro index job found
  obtain ⟨job', found', role, longer⟩ := first index job found
  obtain ⟨job'', found'', role', longer'⟩ := second index job' found'
  exact ⟨job'', found'', role'.trans role, fun _ present => longer' (longer present)⟩

/-- Threads keep what they were answered. -/
theorem extends_of_run {after : System}
    (later : Run (machine deployment) allowed config after) : Extends config after := by
  refine later.invariant (Extends config)
    (fun _ job found => ⟨job, found, rfl, fun _ present => present⟩) ?_
  intro middle event after before _ stepped
  refine before.trans ?_
  cases stepped with
  | ambient action state acted =>
      exact fun _ job found => ⟨job, found, rfl, fun _ present => present⟩
  | spawn action state role acted => exact extends_append middle state [_]
  | kill index job found alive => exact extends_put found rfl fun _ present => present
  | call index job request resume choice reply state found alive rest executed =>
      exact extends_put found rfl (List.subset_append_left _ _)

/-- A thread that was entitled to end the environment gave the order: a DELETE of the owner,
or a run of the reaper that saw the row RUNNING and expired at the instant that it had
read. -/
def Authorized (config : System) (id : Uuid) : Prop :=
  ∃ row, config.state.db.find id = some row ∧ ∃ job ∈ config.threads, ∃ seen,
    Deletes job.role job.trace id row.owner seen ∨
      ∃ instant ≤ config.state.clock, Reaps job.role job.trace instant seen ∧ seen.id = id ∧
        seen.status = .running ∧ ∃ due ∈ seen.expiresAt, due ≤ instant

/-- An authority lasts. -/
theorem Authorized.mono {after : System} {id : Uuid} (authorized : Authorized config id)
    (extends' : Extends config after)
    (db : config.state.db.Grows after.state.db)
    (clock : config.state.clock ≤ after.state.clock) : Authorized after id := by
  obtain ⟨row, found, job, member, seen, ordered⟩ := authorized
  obtain ⟨row', found', kept⟩ := db id row found
  obtain ⟨index, located⟩ := List.getElem?_of_mem member
  obtain ⟨job', located', role, longer⟩ := extends' index job located
  refine ⟨row', found', job', List.mem_of_getElem? located', seen, ?_⟩
  rw [role]
  rcases ordered with deletes | ⟨instant, before, reaps, own, running, due, present, past⟩
  · refine .inl ⟨?_, longer deletes.loaded, ?_, deletes.stoppable⟩
    · rw [kept.owner]
      exact deletes.role
    · rw [kept.owner]
      exact deletes.owner
  · obtain ⟨sweep, read, rows, selected, chosen⟩ := reaps
    exact .inr ⟨instant, le_trans before clock,
      ⟨sweep, longer read, rows, longer selected, chosen⟩, own, running, due, present, past⟩

/-- What the reaper selected was RUNNING and expired. -/
theorem authorized_of_reaps {job : Job} {instant : Time} {seen : Environment}
    (run : System.Runs deployment refuses allowed config)
    (member : job ∈ config.threads)
    (reaps : Reaps job.role job.trace instant seen) : Authorized config seen.id := by
  obtain ⟨rows, selected, chosen⟩ := reaps.selected
  have told := Evidence.told_of_runs run job member
  obtain ⟨⟨row, found, -⟩, running, due, present, expired⟩ := told _ selected seen chosen
  have read : instant ≤ config.state.clock := told _ reaps.read
  exact ⟨row, found, job, member, seen,
    .inr ⟨instant, read, reaps, rfl, running, due, present, expired⟩⟩

/-- What a DELETE found has the owner that it found. -/
theorem authorized_of_deletes {job : Job} {id : Uuid} {owner : String} {seen : Environment}
    (run : System.Runs deployment refuses allowed config)
    (member : job ∈ config.threads)
    (deletes : Deletes job.role job.trace id owner seen) :
    seen.id = id ∧ Authorized config id := by
  obtain ⟨own, row, found, kept⟩ := Evidence.told_of_runs run job member _ deletes.loaded
  refine ⟨own, row, own ▸ found, job, member, seen, .inl ?_⟩
  rw [kept.owner, deletes.owner]
  exact deletes

/-- Every teardown message and every row that is STOPPING or STOPPED is authorized. -/
structure Traced (config : System) : Prop where
  messages : ∀ message ∈ config.state.sent, message.task = .teardown →
    ∃ id, message.envId = id.str ∧ Authorized config id
  rows : ∀ id row, config.state.db.find id = some row →
    row.status = .stopping ∨ row.status = .stopped → Authorized config id

/-- A message that is about to be published is authorized. -/
theorem authorized_of_publish {job : Job} {envId : String} {retries : Nat} {countdown : Int}
    {resume : Reply (.publish .teardown envId retries countdown) → Action Answer}
    (run : System.Runs deployment refuses allowed config)
    (traced : Traced config)
    (member : job ∈ config.threads)
    (rest : job.rest = .call (.publish .teardown envId retries countdown) resume) :
    ∃ id, envId = id.str ∧ Authorized config id := by
  have orders : Orders job.role job.trace .teardown envId := justified_of_runs run member rest
  generalize ordered : Task.teardown = task at orders
  cases orders with
  | create principal payload env creates => cases ordered
  | delete id owner seen deletes =>
      obtain ⟨own, authorized⟩ := authorized_of_deletes run member deletes
      exact ⟨id, by rw [own], authorized⟩
  | reap instant seen reaps => exact ⟨seen.id, rfl, authorized_of_reaps run member reaps⟩
  | retry message same =>
      have sent := ((Messages.of_runs run).2 job member).sent message (by rw [Job.role_phase, same])
      exact traced.messages message sent ordered.symm

/-- An attempt of a teardown is authorized. -/
theorem authorized_of_attempt {job : Job} {id : Uuid}
    (run : System.Runs deployment refuses allowed config)
    (traced : Traced config)
    (member : job ∈ config.threads)
    (own : job.role.Is .teardown id) : Authorized config id := by
  obtain ⟨message, same, teardown, parsed⟩ := own
  have role := Role.eq_task_of_message same
  have sent := ((Messages.of_runs run).2 job member).sent message (by rw [Job.role_phase, role])
  obtain ⟨id', named, authorized⟩ := traced.messages message sent teardown
  rw [named, Uuid.parse_str] at parsed
  cases parsed
  exact authorized

/-- A commit that writes STOPPING or STOPPED is authorized. -/
theorem authorized_of_commit {job : Job} {changes : List Change} {change : Change}
    {resume : Reply (.commitChanges changes) → Action Answer}
    (run : System.Runs deployment refuses allowed config)
    (traced : Traced config)
    (member : job ∈ config.threads)
    (rest : job.rest = .call (.commitChanges changes) resume)
    (commits : (Job.phase job).Commits changes)
    (present : change ∈ changes)
    (differs : change.now.status ≠ change.seen.status)
    (ends : change.now.status = .stopping ∨ change.now.status = .stopped) :
    Authorized config change.seen.id := by
  have onTarget := Attempts.onTarget_of_runs run job member
  have attempts : (Job.phase job).role.runs .teardown →
      change.seen ∈ (Job.phase job).stage.held → Authorized config change.seen.id := by
    intro attempt held
    have target := onTarget .teardown attempt change.seen held
    rw [Job.role_phase] at attempt target
    exact authorized_of_attempt run traced member (Role.is_iff.mpr ⟨attempt, target⟩)
  have held := commits.seen_mem present
  cases commits with
  | stopping env now attempt => exact attempts attempt held
  | stopped env cleared changed now attempt => exact attempts attempt held
  | reaping rows _ sweep stage written =>
      have justified := justified_of_runs run member rest
      rw [Job.role_phase] at sweep
      obtain ⟨instant, reaps⟩ := (justified change present).1 sweep
      exact authorized_of_reaps run member reaps
  | accepted env task stage =>
      cases List.mem_singleton.mp present
      exact (differs rfl).elim
  | recovering rows _ sweep stage written =>
      obtain ⟨seen, now, -, message, made⟩ := written change present
      rw [made] at ends
      rcases ends with ends | ends <;> cases ends
  | _ =>
      cases List.mem_singleton.mp present
      rcases ends with ends | ends <;> cases ends

/-- Every run is traced. -/
theorem traced_of_runs (run : System.Runs deployment refuses allowed config) :
    Traced config := by
  refine run.invariant Traced ⟨nofun, fun _ _ found => nomatch found⟩ ?_ ?_ ?_
  · intro config action next spawned ran traced _ surrounds
    have grows := Integrity.grows_of_surrounds surrounds
    have kept : ∀ {id}, Authorized config id → Authorized ⟨next, config.threads ++
        (spawned.map (Thread.start (machine deployment))).toList⟩ id :=
      fun authorized => authorized.mono (extends_append config next _) grows.db grows.clock
    refine ⟨fun message sent teardown => ?_, fun id row found ends => ?_⟩
    · obtain ⟨id, named, authorized⟩ :=
        traced.messages message (surrounds.unchanged.2.2.1 ▸ sent) teardown
      exact ⟨id, named, kept authorized⟩
    · exact kept (traced.rows id row (surrounds.unchanged.1 ▸ found) ends)
  · intro config index job ran traced _ found alive
    have kept : ∀ {id}, Authorized config id →
        Authorized (config.put config.state index job.killed) id :=
      fun authorized => authorized.mono (extends_put found rfl fun _ present => present)
        (.refl _) (le_refl _)
    refine ⟨fun message sent teardown => ?_, fun id row stored ends => ?_⟩
    · obtain ⟨id, named, authorized⟩ := traced.messages message sent teardown
      exact ⟨id, named, kept authorized⟩
    · exact kept (traced.rows id row stored ends)
  · intro config index job request resume choice reply next ran traced _ found alive rest
      permits effect
    have member := List.mem_of_getElem? found
    have grows := Integrity.grows_of_effect permits effect
    have kept : ∀ {id}, Authorized config id →
        Authorized (config.put next index (job.answered request reply (resume reply))) id :=
      fun authorized => authorized.mono (extends_put found rfl (List.subset_append_left _ _))
        grows.db grows.clock
    refine ⟨fun message sent teardown => ?_, fun id row stored ends => ?_⟩
    · have old : message ∈ config.state.sent → ∃ id, message.envId = id.str ∧ Authorized
          (config.put next index (job.answered request reply (resume reply))) id := by
        intro sent
        obtain ⟨id, named, authorized⟩ := traced.messages message sent teardown
        exact ⟨id, named, kept authorized⟩
      cases effect with
      | published task envId retries countdown =>
          rcases List.mem_append.mp sent with before | new
          · exact old before
          · cases List.mem_singleton.mp new
            cases teardown
            obtain ⟨id, named, authorized⟩ := authorized_of_publish ran traced member rest
            exact ⟨id, named, kept authorized⟩
      | _ => exact old sent
    · rcases effect.db with same | ⟨env, absent, rfl, same⟩ | ⟨changes, rfl, same⟩
      · rw [Config.put, same] at stored
        exact kept (traced.rows id row stored ends)
      · rw [Config.put, same, Keyed.Table.find_insert] at stored
        split at stored
        · -- The new row is PENDING.
          cases stored
          obtain ⟨owner, payload, count, role, stage⟩ := permits
          have new := ((Integrity.of_runs ran).2 job member).fresh count _ (by rw [stage]; rfl)
          rw [new.pending] at ends
          rcases ends with ends | ends <;> cases ends
        · exact kept (traced.rows id row stored ends)
      · rw [Config.put, same] at stored
        have before := stored
        rw [Environments.find_writeAll] at before
        obtain ⟨row', before, -⟩ := Option.map_eq_some_iff.mp before
        rcases Environments.status_writeAll before stored with unchanged | written
        · exact kept (traced.rows id row' before (by rw [← unchanged]; exact ends))
        · obtain ⟨change, present, rfl, differs, written⟩ := written
          rw [written] at ends
          exact kept (authorized_of_commit ran traced member rest permits present differs ends)

/-- In every run, every teardown that was ever published and every row that is STOPPING or
STOPPED goes back to a DELETE by the owner of the row or to a run of the reaper that saw the
row RUNNING, with an expiry not after the instant that it had read. -/
theorem teardown_authorized (run : System.Runs deployment refuses allowed config) :
    (∀ message ∈ config.state.sent, message.task = .teardown →
      ∃ id, message.envId = id.str ∧ Authorized config id) ∧
    ∀ row ∈ config.state.db.rows, row.status = .stopping ∨ row.status = .stopped →
      Authorized config row.id :=
  have traced := traced_of_runs run
  ⟨traced.messages, fun row member ends =>
    traced.rows row.id row (config.state.db.find_of_mem member) ends⟩

/-- A create, and a DELETE of what it made. -/
def createDelete : List Occurrence :=
  Sample.create 0 1 ++
    .ambient (.request (.delete (Sample.envId 1) "alice")) :: Sample.succeed 1 3

theorem teardown_authorized_of_createDelete :
    ∃ config : System, Reachable (machine Compose.shipped) (System.initial true) config ∧
      ∃ message ∈ config.state.sent, message.task = .teardown ∧
        ∃ id, message.envId = id.str ∧ Authorized config id := by
  have shown : ((System.initial true).run (machine Compose.shipped) (fun _ _ => True)
      createDelete).map (fun config => config.state.sent.any
        fun message => message.task = .teardown) = some true := by
    decide +kernel
  obtain ⟨config, run, seen⟩ := Run.exists_run shown
  obtain ⟨message, sent, teardown⟩ := List.any_eq_true.mp seen
  have teardown : message.task = .teardown := of_decide_eq_true teardown
  exact ⟨config, run, message, sent, teardown, (teardown_authorized run).1 message sent teardown⟩

/-! ## Where it comes from -/

/-- The request that made a row: a create of its owner, with its name, template and time to
live, that generated its key. -/
structure Born (job : Job) (payload : EnvironmentCreate) (env row : Environment) : Prop where
  creates : Creates job.role job.trace row.owner payload env
  id : env.id = row.id
  name : row.name = payload.name
  template : row.template = payload.template
  ttlSeconds : row.ttlSeconds = payload.ttlSeconds

/-- The key of a flushed insert. -/
def flushedKey : Entry Reply → Option Uuid
  | ⟨.flushInsert _ _ _ _, .ok env⟩ => some env.id
  | _ => none

/-- A create flushes once. -/
theorem flushed_once {job : Job} {principal : String} {payload : EnvironmentCreate}
    {first second : Entry Reply}
    (run : System.Runs deployment refuses allowed config)
    (member : job ∈ config.threads)
    (role : job.role = .request (.create principal payload))
    (one : first ∈ job.trace) (other : second ∈ job.trace)
    (flushFirst : first.request.flushes = true) (flushSecond : second.request.flushes = true) :
    first = second := by
  have justified := run.evidenced rfl (Evidence.describes deployment _)
    (program_evidence deployment) job member
  have alone : ∀ before entry after, job.trace = before ++ entry :: after →
      entry.request.flushes = true → ∀ earlier ∈ before, earlier.request.flushes = false := by
    intro before entry after split flush
    have evidence := justified before entry after split
    unfold Call.flushes at flush
    split at flush
    · rename_i same
      rw [same] at evidence
      exact evidence principal payload role
    · cases flush
  obtain ⟨before, after, split⟩ := List.append_of_mem one
  rw [split] at other
  rcases List.mem_append.mp other with earlier | here
  · rw [alone before first after split flushFirst second earlier] at flushSecond
    cases flushSecond
  · rcases List.mem_cons.mp here with same | later
    · exact same.symm
    · obtain ⟨middle, rest, later⟩ := List.append_of_mem later
      rw [later, ← List.cons_append, ← List.append_assoc] at split
      rw [alone _ second rest split flushSecond first (by simp)] at flushFirst
      cases flushFirst

/-- A row stays born of its request. -/
theorem Born.mono {job job' : Job} {payload : EnvironmentCreate} {env row row' : Environment}
    (born : Born job payload env row) (role : job'.role = job.role)
    (longer : job.trace ⊆ job'.trace) (kept : row.Persists row') : Born job' payload env row' where
  creates := by
    rw [kept.owner]
    exact ⟨role.trans born.creates.role, longer born.creates.flushed⟩
  id := born.id.trans kept.id.symm
  name := kept.name.trans born.name
  template := kept.template.trans born.template
  ttlSeconds := kept.ttlSeconds.trans born.ttlSeconds

/-- The request of this thread made the row. -/
def Originates (config : System) (index : Nat) (row : Environment) : Prop :=
  ∃ job payload env, config.threads[index]? = some job ∧ Born job payload env row

theorem Originates.mono {after : System} {index : Nat} {row row' : Environment}
    (originates : Originates config index row)
    (extends' : Extends config after)
    (kept : row.Persists row') : Originates after index row' := by
  obtain ⟨job, payload, env, located, born⟩ := originates
  obtain ⟨job', located', role, longer⟩ := extends' index job located
  exact ⟨job', payload, env, located', born.mono role longer kept⟩

/-- An insert is born of the request that commits it. -/
theorem originates_of_insert {index : Nat} {job : Job} {env : Environment}
    {resume : Reply (.commitInsert env) → Action Answer}
    (run : System.Runs deployment refuses allowed config)
    (found : config.threads[index]? = some job)
    (rest : job.rest = .call (.commitInsert env) resume)
    (permits : (Job.phase job).permits deployment (.commitInsert env)) :
    Originates config index env := by
  have member := List.mem_of_getElem? found
  obtain ⟨principal, payload, count, role, -⟩ := permits
  rw [Job.role_phase] at role
  obtain ⟨inserted, task, creates, rfl⟩ :=
    justified_of_runs run member rest principal payload role
  obtain ⟨instant, -, made⟩ := Evidence.told_of_runs run job member _ creates.flushed
  have owner : inserted.owner = principal := by rw [made]; rfl
  exact ⟨job, payload, inserted, found, by rw [owner]; exact creates, rfl, by rw [made]; rfl,
    by rw [made]; rfl, by rw [made]; rfl⟩

/-- Every row was made by a request. -/
theorem originates_of_runs (run : System.Runs deployment refuses allowed config) :
    ∀ id row, config.state.db.find id = some row → ∃ index, Originates config index row := by
  refine run.invariant (fun config => ∀ id row, config.state.db.find id = some row →
    ∃ index, Originates config index row) (fun _ _ found => nomatch found) ?_ ?_ ?_
  · intro config action next spawned _ origin _ surrounds id row found
    obtain ⟨index, originates⟩ := origin id row (surrounds.unchanged.1 ▸ found)
    exact ⟨index, originates.mono (extends_append config next _) (.refl row)⟩
  · intro config index job _ origin _ found alive id row stored
    obtain ⟨index, originates⟩ := origin id row stored
    exact ⟨index, originates.mono (extends_put found rfl fun _ present => present) (.refl row)⟩
  · intro config index job request resume choice reply next ran origin _ found alive rest
      permits effect id row stored
    have longer : Extends config
        (config.put next index (job.answered request reply (resume reply))) :=
      extends_put found rfl (List.subset_append_left _ _)
    rcases effect.db with same | ⟨env, absent, rfl, same⟩ | ⟨changes, rfl, same⟩
    · rw [Config.put, same] at stored
      obtain ⟨index, originates⟩ := origin id row stored
      exact ⟨index, originates.mono longer (.refl row)⟩
    · rw [Config.put, same, Keyed.Table.find_insert] at stored
      split at stored
      · cases stored
        exact ⟨index, (originates_of_insert ran found rest permits).mono longer (.refl _)⟩
      · obtain ⟨index, originates⟩ := origin id row stored
        exact ⟨index, originates.mono longer (.refl row)⟩
    · have commits : (Job.phase job).Commits changes := permits
      rw [Config.put, same] at stored
      have before := stored
      rw [Environments.find_writeAll] at before
      obtain ⟨row', before, -⟩ := Option.map_eq_some_iff.mp before
      obtain ⟨row'', found', kept⟩ := Environments.grows_writeAll
        (fun change present => commits.persists present) id row' before
      rw [stored] at found'
      cases found'
      obtain ⟨index, originates⟩ := origin id row' before
      exact ⟨index, originates.mono longer kept⟩

/-- No two rows go back to the same request. -/
theorem unique_of_originates {index : Nat} {row row' : Environment}
    (run : System.Runs deployment refuses allowed config)
    (member : row ∈ config.state.db.rows) (member' : row' ∈ config.state.db.rows)
    (originates : Originates config index row) (originates' : Originates config index row') :
    row = row' := by
  obtain ⟨job, payload, env, located, born⟩ := originates
  obtain ⟨job', payload', env', located', born'⟩ := originates'
  rw [located] at located'
  cases located'
  have entry := flushed_once run (List.mem_of_getElem? located) born.creates.role
    born.creates.flushed born'.creates.flushed rfl rfl
  have key : row.id = row'.id := by
    have keys : some env.id = some env'.id := congrArg flushedKey entry
    rw [← born.id, ← born'.id]
    exact Option.some.inj keys
  have found := config.state.db.find_of_mem member
  rw [key, config.state.db.find_of_mem member'] at found
  exact (Option.some.inj found).symm

/-- Rows persist in every continuation. -/
theorem grows_of_later {after : System}
    (run : System.Runs deployment refuses allowed config)
    (later : Reachable (machine deployment) config after) :
    config.state.db.Grows after.state.db := by
  induction later with
  | refl => exact .refl _
  | @next middle after event ran _ stepped inductionHypothesis =>
      refine Environments.Along.trans Environment.Persists.lasting inductionHypothesis ?_
      cases stepped with
      | ambient action state acted =>
          exact (Integrity.grows_of_surrounds (surrounds_of_eq acted)).db
      | spawn action state role acted =>
          exact (Integrity.grows_of_surrounds (surrounds_of_eq acted)).db
      | kill index job found alive => exact .refl Environment.Persists.lasting _
      | call index job request resume choice reply state found alive rest executed =>
          have permits := System.Runs.permits (run.reachable.trans ran)
            (List.mem_of_getElem? found) rest
          exact (Integrity.grows_of_effect permits (World.exec_effect executed)).db

/-- In every run each row goes back to a create request of its own: a request of its owner,
with its name, template and time to live, that was given its key. In every continuation the
row is there, with all these as they were, and goes back to the same request. -/
theorem rows_originate (run : System.Runs deployment refuses allowed config) :
    ∃ origin : Uuid → Nat,
      (∀ row ∈ config.state.db.rows, Originates config (origin row.id) row) ∧
      (∀ row ∈ config.state.db.rows, ∀ row' ∈ config.state.db.rows,
        origin row.id = origin row'.id → row = row') ∧
      ∀ after, Reachable (machine deployment) config after → ∀ row ∈ config.state.db.rows,
        ∃ row' ∈ after.state.db.rows, row'.id = row.id ∧ row'.owner = row.owner ∧
          row'.name = row.name ∧ row'.template = row.template ∧
          row'.ttlSeconds = row.ttlSeconds ∧ Originates after (origin row.id) row' := by
  have each : ∀ id, ∃ index, ∀ row, config.state.db.find id = some row →
      Originates config index row := by
    intro id
    by_cases made : ∃ row, config.state.db.find id = some row
    · obtain ⟨row, found⟩ := made
      obtain ⟨index, originates⟩ := originates_of_runs run id row found
      refine ⟨index, fun other same => ?_⟩
      rw [found] at same
      cases same
      exact originates
    · exact ⟨0, fun row found => (made ⟨row, found⟩).elim⟩
  choose origin originates using each
  have mine : ∀ row ∈ config.state.db.rows, Originates config (origin row.id) row :=
    fun row member => originates row.id row (config.state.db.find_of_mem member)
  refine ⟨origin, mine, fun row member row' member' same => ?_, fun after later row member => ?_⟩
  · exact unique_of_originates run member member' (mine row member) (same ▸ mine row' member')
  · obtain ⟨row', found, kept⟩ :=
      grows_of_later run later row.id row (config.state.db.find_of_mem member)
    exact ⟨row', (Keyed.Table.find_eq_some_iff.mp found).1, kept.id, kept.owner, kept.name,
      kept.template, kept.ttlSeconds, (mine row member).mono (extends_of_run later) kept⟩

/-- Two creates of the same payload by two principals. -/
def twoCreates : List Occurrence :=
  Sample.create 0 1 ++
    (.ambient (.request (.create "bob" Sample.payload)) :: Sample.succeed 1 2 ++
      .advance 1 (.fresh (Sample.envId 2)) :: Sample.succeed 1 2)

/-- The two rows after their creates, and once an attempt on the first has begun. -/
theorem rows_originate_of_twoCreates :
    ∃ config after : System, Reachable (machine Compose.shipped) (System.initial true) config ∧
      Reachable (machine Compose.shipped) config after ∧
      config.state.db.rows.length = 2 ∧
      (after.state.db.find (Sample.envId 1)).map Environment.status = some .provisioning ∧
      ∃ origin : Uuid → Nat,
        (∀ row ∈ config.state.db.rows, Originates config (origin row.id) row) ∧
        (∀ row ∈ config.state.db.rows, ∀ row' ∈ config.state.db.rows,
          origin row.id = origin row'.id → row = row') ∧
        ∀ row ∈ config.state.db.rows, ∃ row' ∈ after.state.db.rows, row'.id = row.id ∧
          row'.owner = row.owner ∧ row'.name = row.name ∧ row'.template = row.template ∧
          row'.ttlSeconds = row.ttlSeconds ∧ Originates after (origin row.id) row' := by
  have shown : ((System.initial true).run (machine Compose.shipped) (fun _ _ => True)
      twoCreates).bind (fun config =>
        (config.run (machine Compose.shipped) (fun _ _ => True)
          (Sample.deliver ++ Sample.succeed 2 5)).map fun after =>
            (config.state.db.rows.length,
              (after.state.db.find (Sample.envId 1)).map Environment.status)) =
      some (2, some .provisioning) := by
    decide +kernel
  obtain ⟨config, executed, shown⟩ := Option.bind_eq_some_iff.mp shown
  obtain ⟨after, later, seen⟩ := Run.exists_run shown
  obtain ⟨two, provisioning⟩ := Prod.mk.inj seen
  have run : Reachable (machine Compose.shipped) (System.initial true) config :=
    Run.of_run executed
  obtain ⟨origin, originates, unique, lasts⟩ := rows_originate run
  exact ⟨config, after, run, later, two, provisioning, origin, originates, unique,
    lasts after later⟩

end Authority

end Provisioner
