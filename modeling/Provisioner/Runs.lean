import Provisioner.Conformance.Roles

/-!
# Runs of the service

The rules for invariants of runs, in the words of the service: what the
surroundings do, what an answered call does to the world, and what the thread's
phase permits. Three facts about stages are shared by the invariants: where a
stage that holds rows comes from, and what a commit writes.
-/

namespace Provisioner

open Resumption

/-- The phase a job has reached. -/
def Job.phase (job : Job) : Phase :=
  job.trace.foldl (fun phase entry => phase.advance entry.request entry.reply)
    (Phase.start job.role)

/-- Runs of the service from the empty state. -/
abbrev System.Runs
    (deployment : Deployment)
    (refusesDuplicateNetworks : Bool)
    (allowed : System → Occurrence → Prop)
    (config : System) : Prop :=
  Run (machine deployment) allowed (System.initial refusesDuplicateNetworks) config

namespace Job

variable {deployment : Deployment}

@[simp] theorem phase_start (role : Role) :
    Job.phase (Thread.start (machine deployment) role) = Phase.start role := rfl

@[simp] theorem phase_killed (job : Job) : Job.phase job.killed = job.phase := rfl

@[simp] theorem phase_answered (job : Job) (request : Call) (reply : Reply request)
    (rest : Action Answer) :
    Job.phase (job.answered request reply rest) = job.phase.advance request reply := by
  simp [Job.phase, Thread.answered]

theorem role_foldl (phase : Phase) (trace : List (Entry Reply)) :
    (trace.foldl (fun phase entry => phase.advance entry.request entry.reply)
      phase).role = phase.role := by
  induction trace generalizing phase with
  | nil => rfl
  | cons entry trace inductionHypothesis => exact inductionHypothesis _

/-- The observer never forgets the role. -/
@[simp] theorem role_phase (job : Job) : job.phase.role = job.role :=
  role_foldl _ _

end Job

variable {deployment : Deployment} {refuses : Bool}
  {allowed : System → Occurrence → Prop} {config : System}

/-- The rules for a world invariant and the sessions of all jobs. -/
structure Rules
    (deployment : Deployment)
    (allowed : System → Occurrence → Prop)
    (sound : World → Prop)
    (session : World → Phase → Prop)
    (grows : World → World → Prop) : Prop where
  /-- A session survives the growth of the world. -/
  stable : ∀ world next phase, grows world next → session world phase → session next phase
  /-- The surroundings act. -/
  ambient : ∀ (config : System) action next spawned, sound config.state →
    allowed config (.ambient action) →
    Surrounds config.state action next spawned →
    sound next ∧ grows config.state next ∧
      ∀ role, spawned = some role → session next (Phase.start role)
  /-- A job's call is answered. -/
  call : ∀ (config : System) event (job : Job) request reply next, sound config.state →
    session config.state job.phase →
    allowed config event →
    config.turn event = some (job, request) →
    job.phase.permits deployment request →
    config.state.Effect request reply next →
    sound next ∧ grows config.state next ∧ session next (job.phase.advance request reply)

/-- The invariant rule for sessions, from any state without jobs. -/
theorem Rules.sound
    {sound : World → Prop} {session : World → Phase → Prop}
    {grows : World → World → Prop} {start : System}
    (rules : Rules deployment allowed sound session grows)
    (run : Run (machine deployment) allowed start config)
    (idle : start.threads = [])
    (initially : sound start.state) :
    sound config.state ∧ ∀ job ∈ config.threads, session config.state (Job.phase job) := by
  have both := run.invariant_of_sessions idle (protocol_describes deployment)
    (program_allows deployment) initially
    { stable := rules.stable
      ambient := fun config action next spawned held permitted acted =>
        rules.ambient config action next spawned held permitted (surrounds_of_eq acted)
      call := fun config event job request choice reply next held session permitted
          turn permits executed =>
        rules.call config event job request reply next held session permitted turn
          permits (World.exec_effect executed) }
  exact ⟨both.state, both.sessions⟩

/-- The invariant rule for sessions of the service. -/
theorem System.Runs.sound
    {sound : World → Prop} {session : World → Phase → Prop}
    {grows : World → World → Prop}
    (run : System.Runs deployment refuses allowed config)
    (initially : sound (.initial refuses))
    (rules : Rules deployment allowed sound session grows) :
    sound config.state ∧ ∀ job ∈ config.threads, session config.state (Job.phase job) :=
  rules.sound run rfl initially

/-- The jobs of a run keep to the protocol. -/
theorem System.Runs.meets (run : System.Runs deployment refuses allowed config) :
    config.Meets (protocol deployment) Phase.start Phase.Ended :=
  Run.meets run rfl (protocol_describes deployment) (program_allows deployment)

/-- A job about to make a call may make it. -/
theorem System.Runs.permits
    (run : System.Runs deployment refuses allowed config)
    {job : Job} {request : Call} {resume : Reply request → Action Answer}
    (present : job ∈ config.threads)
    (rest : job.rest = .call request resume) :
    job.phase.permits deployment request := by
  have met := run.meets job present
  rw [rest] at met
  exact met.1

/-- The invariant rule for whole configurations of the service. Each obligation may
use that the configuration before the step is reached by a run, and the answer of a call
is the one that was chosen. -/
theorem System.Runs.invariant_of_exec
    (run : System.Runs deployment refuses allowed config)
    (holds : System → Prop)
    (initially : holds (System.initial refuses))
    (ambient : ∀ config action next spawned,
      System.Runs deployment refuses allowed config → holds config →
      allowed config (.ambient action) →
      Surrounds config.state action next spawned →
      holds ⟨next, config.threads ++
        (spawned.map (Thread.start (machine deployment))).toList⟩)
    (kill : ∀ config index (job : Job),
      System.Runs deployment refuses allowed config → holds config →
      allowed config (.kill index) →
      config.threads[index]? = some job → job.live = true →
      holds (config.put config.state index job.killed))
    (call : ∀ config index (job : Job) request
      (resume : Reply request → Action Answer) choice reply next,
      System.Runs deployment refuses allowed config → holds config →
      allowed config (.advance index choice) →
      config.threads[index]? = some job → job.live = true →
      job.rest = .call request resume →
      job.phase.permits deployment request →
      config.state.exec request choice = some (reply, next) →
      holds (config.put next index (job.answered request reply (resume reply)))) :
    holds config := by
  induction run with
  | refl => exact initially
  | next ran permitted stepped inductionHypothesis =>
      cases stepped with
      | ambient action state acted =>
          have held := ambient _ action state none ran inductionHypothesis permitted
            (surrounds_of_eq acted)
          simpa using held
      | spawn action state role acted =>
          exact ambient _ action state (some role) ran inductionHypothesis permitted
            (surrounds_of_eq acted)
      | kill index job found alive =>
          exact kill _ index job ran inductionHypothesis permitted found alive
      | call index job request resume choice reply state found alive rest executed =>
          exact call _ index job request resume choice reply state ran
            inductionHypothesis permitted found alive rest
            (System.Runs.permits ran (List.mem_of_getElem? found) rest) executed

/-- The invariant rule for whole configurations, in terms of what a call does. -/
theorem System.Runs.invariant
    (run : System.Runs deployment refuses allowed config)
    (holds : System → Prop)
    (initially : holds (System.initial refuses))
    (ambient : ∀ config action next spawned,
      System.Runs deployment refuses allowed config → holds config →
      allowed config (.ambient action) →
      Surrounds config.state action next spawned →
      holds ⟨next, config.threads ++
        (spawned.map (Thread.start (machine deployment))).toList⟩)
    (kill : ∀ config index (job : Job),
      System.Runs deployment refuses allowed config → holds config →
      allowed config (.kill index) →
      config.threads[index]? = some job → job.live = true →
      holds (config.put config.state index job.killed))
    (call : ∀ config index (job : Job) request
      (resume : Reply request → Action Answer) choice reply next,
      System.Runs deployment refuses allowed config → holds config →
      allowed config (.advance index choice) →
      config.threads[index]? = some job → job.live = true →
      job.rest = .call request resume →
      job.phase.permits deployment request →
      config.state.Effect request reply next →
      holds (config.put next index (job.answered request reply (resume reply)))) :
    holds config :=
  run.invariant_of_exec holds initially ambient kill
    fun config index job request resume choice reply next ran held permitted found alive
      rest permits executed =>
    call config index job request resume choice reply next ran held permitted found alive
      rest permits (World.exec_effect executed)

/-- A job that is over has ended as its role demands. -/
theorem System.Runs.ended
    (run : System.Runs deployment refuses allowed config)
    {job : Job} {result : Except Exn Answer}
    (present : job ∈ config.threads)
    (rest : job.rest = .ofExcept result) : job.phase.Ended job.role result := by
  have met := run.meets job present
  rw [rest] at met
  cases result with
  | ok answer => exact met
  | error exc => exact met

/-- A job that cannot act was killed or is over. -/
theorem Job.killed_or_over {job : Job} (idle : ¬job.Active) :
    job.live = false ∨ ∃ result, job.rest = .ofExcept result := by
  cases alive : job.live with
  | false => exact .inl rfl
  | true =>
      refine .inr ?_
      cases rest : job.rest with
      | pure answer => exact ⟨.ok answer, rfl⟩
      | raise exc => exact ⟨.error exc, rfl⟩
      | call request resume => exact (idle ⟨alive, by rw [rest]; trivial⟩).elim

/-- Replacing a job by one of the same role keeps the roles. -/
theorem exists_role_put {index : Nat} {job job' : Job} {world : World} {role : Role}
    (found : config.threads[index]? = some job)
    (same : job'.role = job.role)
    (present : ∃ other ∈ config.threads, other.role = role) :
    ∃ other ∈ (config.put world index job').threads, other.role = role := by
  obtain ⟨other, member, rfl⟩ := present
  obtain ⟨position, located⟩ := List.getElem?_of_mem member
  by_cases here : position = index
  · subst here
    rw [found] at located
    cases located
    refine ⟨job', List.mem_of_getElem? (i := position) ?_, same⟩
    exact List.getElem?_set_self (List.getElem?_eq_some_iff.mp found).1
  · refine ⟨other, List.mem_of_getElem? (i := position) ?_, rfl⟩
    rw [Config.put, List.getElem?_set_ne (Ne.symm here)]
    exact located

namespace Stage

variable {role : Role} {stage : Stage}

/-- A stage without a row. -/
def Bare : Stage → Prop
  | starting | absent | broken | settled | counted _ | checked _ | grouping _
  | listing _ _ _ => True
  | _ => False

/-- Where a stage comes from, as far as the rows it holds are concerned. -/
inductive Advances (role : Role) (stage : Stage) :
    (request : Call) → Reply request → Stage → Prop
  | load (id : Uuid) (reply : Reply (.loadEnvironment id)) :
      Advances role stage (.loadEnvironment id) reply (stage.onLoad id reply)
  | commit (changes : List Change) (reply : Reply (.commitChanges changes)) :
      Advances role stage (.commitChanges changes) reply
        (stage.onCommit role changes reply)
  | select (now : Time) (rows : List Environment) :
      Advances role stage (.selectExpired now) (.ok rows) (.selected rows)
  | scan (status : EnvironmentStatus) (cutoff : Time) (pending : List Change)
      (earlier rows : List Environment) :
      stage = .scanning earlier →
      Advances role stage (.selectStale status cutoff pending) (.ok rows)
        (.scanning (earlier ++ rows))
  | build (request : Call) (reply : Reply request) (env : Environment)
      (network network' : Option DockerId) (containers containers' : List DockerId) :
      stage = .building env network containers →
      Advances role stage request reply (.building env network' containers')
  | remove (request : Call) (reply : Reply request) (env : Environment)
      (cleared cleared' : List Resource) :
      stage = .removing env cleared →
      Advances role stage request reply (.removing env cleared')
  | flush (name owner template : String) (ttlSeconds : Int) (count : Nat)
      (env : Environment) :
      stage = .checked count →
      Advances role stage (.flushInsert name owner template ttlSeconds) (.ok env)
        (.inserted count env)
  | publish (task : Task) (envId : String) (retries : Nat) (countdown : Int)
      (id : TaskId) (count : Nat) (env : Environment) :
      stage = .inserted count env →
      Advances role stage (.publish task envId retries countdown) (.ok id)
        (.published count { env with celeryTaskId := some id })
  | insert (env : Environment) : Advances role stage (.commitInsert env) (.ok ()) (.created env)
  | accept (task : Task) (envId : String) (retries : Nat) (countdown : Int)
      (id : TaskId) (env : Environment) :
      stage = .loaded env →
      Advances role stage (.publish task envId retries countdown) (.ok id) (.deleting env id)
  | keep (request : Call) (reply : Reply request) : Advances role stage request reply stage
  | bare (request : Call) (reply : Reply request) (next : Stage) :
      next.Bare → Advances role stage request reply next

/-- A request about a resource clears it or changes nothing. -/
theorem onResource_cases (resource : Resource) (result : Except Exn Unit) :
    stage.onResource resource result = stage ∨
      stage.onResource resource result = stage.clear resource := by
  cases result with
  | ok value => exact .inl rfl
  | error exc =>
      unfold onResource
      dsimp only
      split
      · exact .inr rfl
      · exact .inl rfl

/-- So does a request that removes it. -/
theorem onRemove_cases (resource : Resource) (result : Except Exn Unit) :
    stage.onRemove resource result = stage ∨
      stage.onRemove resource result = stage.clear resource := by
  cases result with
  | ok value => exact .inr rfl
  | error exc => exact onResource_cases resource (.error exc)

theorem Advances.of_clear {request : Call} {reply : Reply request} {next : Stage}
    {resource : Resource} (cleared : next = stage ∨ next = stage.clear resource) :
    Advances role stage request reply next := by
  rcases cleared with rfl | rfl
  · exact .keep request reply
  · cases stage with
    | removing env cleared => exact .remove request reply env cleared _ rfl
    | _ => exact .keep request reply

/-- Every step of the observer is one of these. -/
theorem after_advances (request : Call) (reply : Reply request) :
    Advances role stage request reply (stage.after role request reply) := by
  cases request with
  | loadEnvironment id => exact .load id reply
  | commitChanges changes => exact .commit changes reply
  | containerGet id => exact .of_clear (onResource_cases (.container id) reply)
  | containerStop id => exact .of_clear (onResource_cases (.container id) reply)
  | containerRemove id => exact .of_clear (onRemove_cases (.container id) reply)
  | networkGet id => exact .of_clear (onResource_cases (.network id) reply)
  | networkRemove id => exact .of_clear (onRemove_cases (.network id) reply)
  | commitInsert env =>
      cases reply with
      | error exc => exact .bare _ _ _ trivial
      | ok done => exact .insert env
  | selectExpired now =>
      cases reply with
      | error exc => exact .keep _ _
      | ok rows => exact .select now rows
  | selectStale status cutoff pending =>
      cases reply with
      | error exc => exact .keep _ _
      | ok rows =>
          cases stage with
          | scanning earlier => exact .scan status cutoff pending earlier rows rfl
          | _ => exact .keep _ _
  | networksCreate name label =>
      cases reply with
      | error exc => exact .keep _ _
      | ok id =>
          cases stage with
          | building env network containers =>
              cases network with
              | none => exact .build _ _ env none _ containers _ rfl
              | some network => exact .keep _ _
          | _ => exact .keep _ _
  | containersRun request =>
      cases reply with
      | error exc => exact .keep _ _
      | ok id =>
          cases stage with
          | building env network containers =>
              exact .build _ _ env network _ containers _ rfl
          | _ => exact .keep _ _
  | publish task envId retries countdown =>
      cases reply with
      | error exc => exact .keep _ _
      | ok id =>
          cases stage with
          | inserted count env =>
              exact .publish task envId retries countdown id count env rfl
          | loaded env => exact .accept task envId retries countdown id env rfl
          | _ => exact .keep _ _
  | findActive owner name =>
      cases reply with
      | error exc => exact .keep _ _
      | ok rows => cases stage <;> cases rows <;> exact .bare _ _ _ trivial
  | flushInsert name owner template ttlSeconds =>
      cases reply with
      | error exc => exact .keep _ _
      | ok env =>
          cases stage with
          | checked count => exact .flush name owner template ttlSeconds count env rfl
          | _ => exact .bare _ _ _ trivial
  | networksList =>
      cases reply with
      | error exc => exact .keep _ _
      | ok networks =>
          cases stage with
          | grouping containers => exact .bare _ _ _ trivial
          | _ => exact .keep _ _
  | countActive owner => cases reply <;> first | exact .keep _ _ | exact .bare _ _ _ trivial
  | containersList => cases reply <;> first | exact .keep _ _ | exact .bare _ _ _ trivial
  | _ => cases reply <;> exact .keep _ _

/-- The stage after a commit, and the one it comes from. -/
inductive Commits (role : Role) (stage : Stage) (changes : List Change) :
    Except Exn Unit → Stage → Prop
  | building (env : Environment) (change : Change) (rest : List Change) :
      stage = .loaded env → changes = change :: rest → role.runs .provision →
      Commits role stage changes (.ok ()) (.building change.now none [])
  | removing (env : Environment) (change : Change) (rest : List Change) :
      stage = .loaded env → changes = change :: rest → ¬role.runs .provision →
      Commits role stage changes (.ok ()) (.removing change.now [])
  | running (env : Environment) (network : Option DockerId) (containers : List DockerId)
      (change : Change) (rest : List Change) :
      stage = .building env network containers → changes = change :: rest →
      Commits role stage changes (.ok ()) (.running change.now)
  | stopped (env : Environment) (cleared : List Resource) (change : Change)
      (rest : List Change) :
      stage = .removing env cleared → changes = change :: rest →
      Commits role stage changes (.ok ()) (.stopped change.now)
  | deleted (env : Environment) (task : TaskId) :
      stage = .deleting env task →
      Commits role stage changes (.ok ()) (.deleted { env with celeryTaskId := some task })
  | claimed (rows : List Environment) :
      stage = .selected rows → Commits role stage changes (.ok ()) (.claimed rows)
  | broken (exc : Exn) : Commits role stage changes (.error exc) .broken
  | settled (reply : Except Exn Unit) : Commits role stage changes reply .settled

/-- Every commit leads to one of these stages. -/
theorem onCommit_commits (changes : List Change) (reply : Except Exn Unit) :
    Commits role stage changes reply (stage.onCommit role changes reply) := by
  cases stage with
  | loaded env =>
      rcases reply with exc | done
      · exact .broken exc
      · cases changes with
        | nil => exact .settled _
        | cons change changes =>
            unfold onCommit
            dsimp only
            split
            · rename_i provision
              exact .building env change changes rfl rfl provision
            · rename_i other
              exact .removing env change changes rfl rfl other
  | building env network containers =>
      rcases reply with exc | done
      · exact .broken exc
      · cases changes with
        | nil => exact .settled _
        | cons change changes => exact .running env network containers change changes rfl rfl
  | removing env cleared =>
      rcases reply with exc | done
      · exact .broken exc
      · cases changes with
        | nil => exact .settled _
        | cons change changes => exact .stopped env cleared change changes rfl rfl
  | deleting env task =>
      rcases reply with exc | done
      · exact .settled _
      · exact .deleted env task rfl
  | selected rows =>
      rcases reply with exc | done
      · exact .settled _
      · exact .claimed rows rfl
  | _ => exact .settled _

/-- What a call of an attempt does to its stage. -/
inductive Works (role : Role) (stage : Stage) :
    (request : Call) → Reply request → Stage → Prop
  | load (id : Uuid) (reply : Reply (.loadEnvironment id)) :
      Works role stage (.loadEnvironment id) reply (stage.onLoad id reply)
  | commit (changes : List Change) (reply : Reply (.commitChanges changes)) :
      Works role stage (.commitChanges changes) reply (stage.onCommit role changes reply)
  | network (name label : String) (id : DockerId) (env : Environment)
      (containers : List DockerId) :
      stage = .building env none containers →
      Works role stage (.networksCreate name label) (.ok id)
        (.building env (some id) containers)
  | container (request : Compose.RunRequest) (id : DockerId) (env : Environment)
      (network : Option DockerId) (containers : List DockerId) :
      stage = .building env network containers →
      Works role stage (.containersRun request) (.ok id)
        (.building env network (containers ++ [id]))
  | clear (request : Call) (reply : Reply request) (resource : Resource) :
      request.about resource →
      Works role stage request reply (stage.clear resource)
  | keep (request : Call) (reply : Reply request) : Works role stage request reply stage

theorem Works.of_clear {request : Call} {reply : Reply request} {next : Stage}
    {resource : Resource} (about : request.about resource)
    (cleared : next = stage ∨ next = stage.clear resource) :
    Works role stage request reply next := by
  rcases cleared with rfl | rfl
  · exact .keep request reply
  · exact .clear request reply resource about

end Stage

/-- An attempt starts without a row. -/
theorem Phase.start_of_runs {role : Role} {task : Task} (attempt : role.runs task) :
    (Phase.start role).stage = .starting := by
  cases role with
  | task message => rfl
  | request request => rfl
  | sweep sweep => exact attempt.elim

/-- Every step of an attempt is one of these. -/
theorem Phase.works {phase : Phase} {task : Task} {request : Call} (reply : Reply request)
    (attempt : phase.role.runs task)
    (permits : phase.permits deployment request) :
    Stage.Works phase.role phase.stage request reply
      (phase.stage.after phase.role request reply) := by
  obtain ⟨role, stage, readings, failed⟩ := phase
  cases role with
  | request request => exact attempt.elim
  | sweep sweep => exact attempt.elim
  | task message =>
  cases request with
  | loadEnvironment id => exact .load id reply
  | commitChanges changes => exact .commit changes reply
  | containerGet id =>
      exact .of_clear rfl (Stage.onResource_cases (.container id) reply)
  | containerStop id =>
      exact .of_clear rfl (Stage.onResource_cases (.container id) reply)
  | containerRemove id => exact .of_clear rfl (Stage.onRemove_cases (.container id) reply)
  | networkGet id => exact .of_clear rfl (Stage.onResource_cases (.network id) reply)
  | networkRemove id => exact .of_clear rfl (Stage.onRemove_cases (.network id) reply)
  | networksCreate name label =>
      rcases reply with exc | id
      · exact .keep _ _
      · cases stage with
        | building env network containers =>
            cases network with
            | none => exact .network name label id env containers rfl
            | some network => exact .keep _ _
        | _ => exact .keep _ _
  | containersRun request =>
      rcases reply with exc | id
      · exact .keep _ _
      · cases stage with
        | building env network containers =>
            exact .container request id env network containers rfl
        | _ => exact .keep _ _
  | publish task envId retries countdown =>
      rcases reply with exc | id
      · exact .keep _ _
      · have publishes : Phase.Publishes _ task envId retries := permits
        cases publishes with
        | create principal payload count env role stage => cases role
        | delete id principal env role stage => cases role
        | reap rows env stage member =>
            cases stage
            exact .keep _ _
        | retry message role retired budget =>
            cases role
            cases stage with
            | inserted count env => exact retired.elim
            | loaded env => exact retired.elim
            | _ => exact .keep _ _
  | countActive owner => obtain ⟨payload, role⟩ := permits; cases role
  | findActive owner name => obtain ⟨payload, count, role, -⟩ := permits; cases role
  | flushInsert name owner template ttlSeconds =>
      obtain ⟨payload, count, role, -⟩ := permits
      cases role
  | commitInsert env => obtain ⟨owner, payload, count, role, -⟩ := permits; cases role
  | selectExpired now => cases permits.1
  | selectStale status cutoff pending => cases permits.1
  | containersList => cases permits
  | networksList => cases permits
  | _ => rcases reply with exc | value <;> exact .keep _ _

/-! ## Sample events -/

namespace Sample

/-- A request for the shipped template. -/
def payload : EnvironmentCreate where
  name := "demo"
  template := "webapp-postgres"
  ttlSeconds := 300
  nameLength := by decide
  nameCharacters := by simp
  ttlRange := by decide

instance neZeroHundred : NeZero 100 := ⟨by decide⟩

/-- The primary keys that the sample inserts receive. -/
def envId (number : Fin 100) : Uuid :=
  ⟨number, by omega⟩

/-- A thread makes some calls, and all of them succeed. -/
def succeed (thread count : Nat) : List Occurrence :=
  List.replicate count (.advance thread .ok)

/-- `thread` creates an environment and answers 202. -/
def create (thread : Nat) (number : Fin 100) : List Occurrence :=
  .ambient (.request (.create "alice" payload)) :: succeed thread 2 ++
    .advance thread (.fresh (envId number)) :: succeed thread 2

/-- `thread` takes the first message of the queue. -/
def deliver : List Occurrence :=
  [.ambient (.deliver 0)]

/-- The daemon refuses a request. -/
def refused : Choice :=
  .fail ⟨.apiError, "server error"⟩

/-- A container that is up, healthy and bound to a host port. -/
def healthy : Choice :=
  .observed ⟨.running, false, some .healthy, [(8000, [32768])]⟩

/-- `thread` starts both roles and waits for them, up to the commit of RUNNING. -/
def startRoles (thread : Nat) : List Occurrence :=
  succeed thread 3 ++ .advance thread healthy :: succeed thread 3 ++
    [.advance thread healthy, .advance thread healthy] ++ succeed thread 2

/-- A create and a first attempt, up to the commit of RUNNING. -/
def firstAttempt : List Occurrence :=
  create 0 1 ++ deliver ++ succeed 1 5 ++ startRoles 1

/-- The world once the sample row is RUNNING. -/
def running : Option World :=
  ((System.initial true).run (machine Compose.shipped) (fun _ _ => True)
    (firstAttempt ++ succeed 1 1)).map fun config => config.state

end Sample

end Provisioner
