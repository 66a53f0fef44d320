import Provisioner.Grace
import Provisioner.Logging
import Provisioner.Messages

/-!
# Log lines carry the id of their environment

In every run, each line of an attempt carries the `env_id` of its message, also the lines of
`DockerManager`, which binds the id of the row it was given. A sweep handles many environments
in one task: each of its lines carries the id of the environment it is about, which the sweep
was answered before, and a line that names a container or a network carries the label of that
resource. When a thread is over, nothing is bound any more, so no id leaks into the next task.
-/

namespace Provisioner

open Resumption

/-- The resources that a line names. -/
def Line.names (line : Line) : List Resource :=
  line.fields.filterMap fun field =>
    match field.2 with
    | .container id => some (.container id)
    | .network id => some (.network id)
    | _ => none

deriving instance DecidableEq for Call

namespace Correlation

open Recorded Logging

variable {deployment : Deployment} {refuses : Bool}
  {allowed : System → Occurrence → Prop} {config : System}
  {trace : List (Entry Reply)} {value : Option String} {line : Line}
  {good : List (Entry Reply) → Option String → Line → Prop}

/-- Docker listed the resource with this label. -/
def Listed (trace : List (Entry Reply)) (label : String) (resource : Resource) : Prop :=
  ∃ created, Grace.Listed trace label resource created

/-- What the `env_id` of a line has to be, by what its thread was answered before. -/
inductive Correlates (trace : List (Entry Reply)) : Role → Option String → Line → Prop
  /-- An attempt writes under the id of its message. -/
  | task (message : Message) (line : Line) :
      Correlates trace (.task message) (some message.envId) line
  /-- The reaper writes about a row that it selected and whose teardown it enqueued. -/
  | reaped (now : Time) (rows : List Environment) (env : Environment) (task : TaskId) :
      (⟨.selectExpired now, .ok rows⟩ : Entry Reply) ∈ trace → env ∈ rows →
      (⟨.publish .teardown env.id.str 0 0, .ok task⟩ : Entry Reply) ∈ trace →
      Correlates trace (.sweep .reapExpired) (some env.id.str) (enqueuedTeardown env)
  /-- The staleness sweep writes about a row that it selected. -/
  | stale (status : EnvironmentStatus) (cutoff : Time) (pending : List Change)
      (rows : List Environment) (env : Environment) (timeout : Int) :
      (⟨.selectStale status cutoff pending, .ok rows⟩ : Entry Reply) ∈ trace → env ∈ rows →
      Correlates trace (.sweep .recoverStale) (some env.id.str) (presumedDead status timeout)
  /-- A label that is no UUID is reported without an id. -/
  | unparseable (label : String) :
      Uuid.parse label = none →
      Correlates trace (.sweep .reconcileOrphans) none (unparseableLabel label)
  /-- The orphan sweep writes under the label whose row it found missing or terminal, and only
  about resources with that label. -/
  | orphaned (label : String) (id : Uuid) (row : Option Environment) (line : Line) :
      Uuid.parse label = some id →
      (⟨.loadEnvironment id, .ok row⟩ : Entry Reply) ∈ trace →
      (∀ env ∈ row, env.status.terminal = true) →
      (∀ resource ∈ line.names, Listed trace label resource) →
      Correlates trace (.sweep .reconcileOrphans) (some label) line

/-- As far as a thread can tell from its answers: `DockerManager` gets the id of the loaded row
rather than that of the message. -/
def Attributed (role : Role) (trace : List (Entry Reply)) (value : Option String)
    (line : Line) : Prop :=
  Correlates trace role value line ∨ ∃ message id env, role = .task message ∧
    Uuid.parse message.envId = some id ∧
    (⟨.loadEnvironment id, .ok (some env)⟩ : Entry Reply) ∈ trace ∧ value = some env.id.str

theorem Listed.mono {label : String} {resource : Resource} {later : List (Entry Reply)}
    (listed : Listed trace label resource) (longer : trace ⊆ later) :
    Listed later label resource := by
  obtain ⟨created, listed⟩ := listed
  exact ⟨created, Grace.Listed.mono listed longer⟩

theorem Correlates.mono {role : Role} {later : List (Entry Reply)}
    (correlates : Correlates trace role value line) (longer : trace ⊆ later) :
    Correlates later role value line := by
  cases correlates with
  | task message line => exact .task message line
  | reaped now rows env task selected member published =>
      exact .reaped now rows env task (longer selected) member (longer published)
  | stale status cutoff pending rows env timeout selected member =>
      exact .stale status cutoff pending rows env timeout (longer selected) member
  | unparseable label unparsed => exact .unparseable label unparsed
  | orphaned label id row line parsed loaded terminal named =>
      exact .orphaned label id row line parsed (longer loaded) terminal fun resource member =>
        (named resource member).mono longer

theorem Attributed.mono {role : Role} {later : List (Entry Reply)}
    (attributed : Attributed role trace value line) (longer : trace ⊆ later) :
    Attributed role later value line := by
  rcases attributed with correlates | ⟨message, id, env, task, parsed, loaded, same⟩
  · exact .inl (correlates.mono longer)
  · exact .inr ⟨message, id, env, task, parsed, longer loaded, same⟩

/-! ## The Docker manager -/

/-- A call that succeeds is remembered with its answer. -/
theorem perform_keeps (request : Call) :
    Keeps good trace value (fun later output => (⟨request, .ok output⟩ : Entry Reply) ∈ later)
      (embed (perform request) : Logged Exn request.Result) := by
  refine ⟨trivial, fun reply next answered => ?_⟩
  cases answered
  have longer : trace ⊆ trace ++ [⟨request, reply⟩] := fun _ => List.mem_append_left _
  cases reply with
  | error exc => exact ⟨longer, rfl, nofun⟩
  | ok output =>
      refine ⟨longer, rfl, fun other same => ?_⟩
      cases same
      exact List.mem_append_right _ (List.mem_singleton_self _)

theorem startContainers_keeps (fits : ∀ later line, good later value line)
    (envId : String) (roles : List String) (specs : List ContainerSpec)
    (containerIds : List DockerId) (hostPort : Option Nat) :
    Keeps good trace value (fun _ _ => True)
      (startContainers deployment envId roles specs containerIds hostPort) := by
  induction specs generalizing trace containerIds hostPort with
  | nil => exact keeps_pure trivial
  | cons spec specs inductionHypothesis =>
      unfold startContainers
      refine keeps_bind (keeps_embed _) fun _ environment _ _ => ?_
      refine keeps_bind (keeps_embed _) fun _ container _ _ => ?_
      refine keeps_bind (keeps_write (fits _ _)) fun _ _ _ _ => ?_
      refine keeps_bind (keeps_embed _) fun _ _ _ _ => ?_
      refine keeps_bind (keeps_embed _) fun _ hostPort _ _ => ?_
      exact inductionHypothesis _ hostPort

theorem provision_keeps (fits : ∀ later line, good later value line)
    (envId templateName : String) :
    Keeps good trace value (fun _ _ => True) (provision deployment envId templateName) := by
  unfold provision
  split
  · exact keeps_raise
  · exact keeps_raise
  · refine keeps_bind (keeps_embed _) fun _ network _ _ => ?_
    refine keeps_bind (keeps_write (fits _ _)) fun _ _ _ _ => ?_
    refine keeps_bind (startContainers_keeps fits _ _ _ _ _) fun _ started _ _ => ?_
    rcases started with ⟨containerIds, _ | hostPort⟩
    · exact keeps_raise
    · exact keeps_pure trivial

theorem removeContainer_keeps {id : DockerId}
    (fits : ∀ later line, trace ⊆ later → line.names = [.container id] → good later value line) :
    Keeps good trace value (fun _ _ => True) (removeContainer id) := by
  refine keeps_tryCatch ?_ fun later exc longer => ?_
  · refine keeps_bind (keeps_embed _) fun _ _ longer _ => ?_
    refine keeps_bind (keeps_embed _) fun _ _ longer' _ => ?_
    refine keeps_bind (keeps_embed _) fun _ _ longer'' _ => ?_
    exact keeps_write (fits _ _ (fun _ present => longer'' (longer' (longer present))) rfl)
  · split
    · exact keeps_write (fits _ _ longer rfl)
    · exact keeps_write (fits _ _ longer rfl)

theorem removeNetwork_keeps {id : DockerId}
    (fits : ∀ later line, trace ⊆ later → line.names = [.network id] → good later value line) :
    Keeps good trace value (fun _ _ => True) (removeNetwork id) := by
  refine keeps_tryCatch ?_ fun later exc longer => ?_
  · refine keeps_bind (keeps_embed _) fun _ _ longer _ => ?_
    refine keeps_bind (keeps_embed _) fun _ _ longer' _ => ?_
    exact keeps_write (fits _ _ (fun _ present => longer' (longer present)) rfl)
  · split
    · exact keeps_pure trivial
    · exact keeps_write (fits _ _ longer rfl)

/-- A removal writes under the id it was given, about the resources it was given. -/
theorem removeResources_keeps {envId : String} {containerIds networkIds : List DockerId}
    (containers : ∀ id ∈ containerIds, ∀ later line, trace ⊆ later →
      line.names = [.container id] → good later (some envId) line)
    (networks : ∀ id ∈ networkIds, ∀ later line, trace ⊆ later →
      line.names = [.network id] → good later (some envId) line) :
    Keeps good trace value (fun _ _ => True) (removeResources envId containerIds networkIds) := by
  refine keeps_within ?_
  refine keeps_bind (keeps_forEach fun id member later longer => ?_) fun later _ longer _ =>
    keeps_forEach fun id member latest longer' => ?_
  · exact removeContainer_keeps fun latest line more =>
      containers id member latest line fun _ present => more (longer present)
  · exact removeNetwork_keeps fun last line more =>
      networks id member last line fun _ present => more (longer' (longer present))

/-! ## The tasks -/

theorem during_keeps {α : Type} {template : String} {held : Option Environment}
    {step : Logged Exn α} {returns : List (Entry Reply) → α → Prop}
    (keeps : step.Keeps good trace value returns) :
    Keeps good trace value returns (during template held step) :=
  keeps_mapError keeps

/-- A row that a task loads has the id that its message names. -/
theorem loadEnv_keeps (envId : String) :
    Keeps good trace value (fun later found => ∀ env ∈ found, ∃ id,
      Uuid.parse envId = some id ∧ (⟨.loadEnvironment id, .ok (some env)⟩ : Entry Reply) ∈ later)
      (embed (Worker.loadEnv envId) : Logged Exn (Option Environment)) := by
  unfold Worker.loadEnv
  cases parsed : Uuid.parse envId with
  | none => exact keeps_raise
  | some id =>
      refine (perform_keeps (.loadEnvironment id)).mono fun reached result ended => ?_
      refine ⟨ended.1, ended.2.1, fun output same env present => ⟨id, rfl, ?_⟩⟩
      cases present
      exact ended.2.2 _ same

theorem markFailed_keeps (fits : ∀ later line, good later value line)
    (held : Option Environment) (envId message : String) :
    Keeps good trace value (fun _ _ => True) (markFailed held envId message) :=
  keeps_tryCatch (keeps_embed _) fun _ _ _ => keeps_write (fits _ _)

theorem step_keeps {α : Type} {template : String} {held : Option Environment} (step : Action α) :
    Keeps good trace value (fun _ _ => True) (during template held (embed step)) :=
  during_keeps (keeps_embed step)

theorem provisionAttempt_keeps (fits : ∀ later line, good later value line)
    (envId : String) (started : Time) :
    Keeps good trace value (fun _ _ => True) (provisionAttempt deployment envId started) := by
  refine keeps_bind (step_keeps _) fun _ found _ _ => ?_
  cases found with
  | none => exact keeps_raise
  | some loaded =>
      -- PROVISIONING is committed.
      refine keeps_bind (step_keeps _) fun _ now _ _ => ?_
      refine keeps_bind (step_keeps _) fun _ _ _ _ => ?_
      refine keeps_bind (keeps_write (fits _ _)) fun _ _ _ _ => ?_
      refine keeps_bind (during_keeps (provision_keeps fits _ _)) fun _ result _ _ => ?_
      -- RUNNING is committed.
      refine keeps_bind (step_keeps _) fun _ now _ _ => ?_
      refine keeps_bind (step_keeps _) fun _ changed _ _ => ?_
      refine keeps_bind (step_keeps _) fun _ _ _ _ => ?_
      -- The success is counted and timed.
      refine keeps_bind (step_keeps _) fun _ _ _ _ => ?_
      refine keeps_bind (step_keeps _) fun _ finished _ _ => ?_
      refine keeps_bind (step_keeps _) fun _ _ _ _ => ?_
      exact keeps_bind (keeps_write (fits _ _)) fun _ _ _ _ => keeps_pure trivial

/-- `teardown` writes under the id of the row that was loaded. -/
theorem teardownAttempt_keeps (fits : ∀ later line, good later value line) (envId : String)
    (loaded : ∀ later id env line, Uuid.parse envId = some id →
      (⟨.loadEnvironment id, .ok (some env)⟩ : Entry Reply) ∈ later →
      good later (some env.id.str) line) :
    Keeps good trace value (fun _ _ => True) (teardownAttempt envId) := by
  refine keeps_bind (during_keeps (loadEnv_keeps envId)) fun first found _ named => ?_
  cases found with
  | none => exact keeps_raise
  | some env =>
      obtain ⟨id, parsed, answered⟩ := named env rfl
      -- STOPPING is committed.
      refine keeps_bind (step_keeps _) fun _ now step _ => ?_
      refine keeps_bind (step_keeps _) fun _ _ step' _ => ?_
      refine keeps_bind (keeps_write (fits _ _)) fun second _ step'' _ => ?_
      have remembered : (⟨.loadEnvironment id, .ok (some env)⟩ : Entry Reply) ∈ second :=
        step'' (step' (step answered))
      have removes : ∀ later line, second ⊆ later → good later (some env.id.str) line :=
        fun later line longer => loaded later id env line parsed (longer remembered)
      have removal : Keeps good second value (fun _ _ => True)
          (removeResources env.id.str env.containerIds env.networkId.toList) := by
        refine removeResources_keeps ?_ ?_
        · exact fun _ _ later line longer _ => removes later line longer
        · exact fun _ _ later line longer _ => removes later line longer
      refine keeps_bind (during_keeps removal) fun _ _ _ _ => ?_
      -- STOPPED is committed, and the success is counted.
      refine keeps_bind (step_keeps _) fun _ changed _ _ => ?_
      refine keeps_bind (step_keeps _) fun _ now _ _ => ?_
      refine keeps_bind (step_keeps _) fun _ _ _ _ => ?_
      refine keeps_bind (step_keeps _) fun _ _ _ _ => ?_
      exact keeps_bind (keeps_write (fits _ _)) fun _ _ _ _ => keeps_pure trivial

theorem provisionEnvironment_keeps (message : Message) :
    Keeps (Attributed (.task message)) trace value (fun _ _ => True)
      (provisionEnvironment deployment message) := by
  have fits : ∀ later line,
      Attributed (.task message) later (some message.envId) line :=
    fun _ line => .inl (.task message line)
  refine keeps_bind (keeps_embed _) fun _ started _ _ => keeps_within ?_
  refine keeps_tryCatch (provisionAttempt_keeps fits _ _) fun _ failure _ => ?_
  refine keeps_bind (keeps_write (fits _ _)) fun _ _ _ _ => ?_
  refine keeps_bind (markFailed_keeps fits _ _ _) fun _ _ _ _ => ?_
  refine keeps_bind (keeps_embed _) fun _ _ _ _ => ?_
  split
  · exact keeps_embed _
  · exact keeps_raise

theorem teardownEnvironment_keeps (message : Message) :
    Keeps (Attributed (.task message)) trace value (fun _ _ => True)
      (teardownEnvironment message) := by
  have fits : ∀ later line,
      Attributed (.task message) later (some message.envId) line :=
    fun _ line => .inl (.task message line)
  have loads : ∀ later id env line, Uuid.parse message.envId = some id →
      (⟨.loadEnvironment id, .ok (some env)⟩ : Entry Reply) ∈ later →
      Attributed (.task message) later (some env.id.str) line :=
    fun later id env line parsed loaded => .inr ⟨message, id, env, rfl, parsed, loaded, rfl⟩
  refine keeps_within ?_
  refine keeps_tryCatch (teardownAttempt_keeps fits _ loads) fun _ failure _ => ?_
  refine keeps_bind (keeps_write (fits _ _)) fun _ _ _ _ => ?_
  refine keeps_bind (keeps_embed _) fun _ _ _ _ => ?_
  split
  · exact keeps_bind (markFailed_keeps fits _ _ _) fun _ _ _ _ => keeps_raise
  · exact keeps_embed _

/-! ## The sweeps -/

theorem reapExpiredEnvironments_keeps :
    Keeps (Attributed (.sweep .reapExpired)) trace value (fun _ _ => True)
      reapExpiredEnvironments := by
  refine keeps_bind (keeps_embed _) fun _ now _ _ => ?_
  refine keeps_bind (perform_keeps (.selectExpired now)) fun first expired _ selected => ?_
  split
  · exact keeps_pure trivial
  · refine keeps_bind (keeps_embed _) fun _ changes longer _ => ?_
    refine keeps_bind (keeps_embed _) fun second _ longer' _ => ?_
    have selected : (⟨.selectExpired now, .ok expired⟩ : Entry Reply) ∈ second :=
      longer' (longer selected)
    refine keeps_bind (keeps_forEach fun env member later longer => ?_) fun _ _ _ _ =>
      keeps_pure trivial
    refine keeps_bind (perform_keeps (.publish .teardown env.id.str 0 0))
      fun _ task more published => ?_
    refine keeps_within (keeps_write (.inl ?_))
    exact .reaped now expired env task (more (longer selected)) member published

/-- The loop writes about listed resources under their labels. -/
theorem reconcileFound_keeps (found : List (String × DockerManager.LabelledResources))
    (removed skipped : Nat)
    (listed : ∀ entry ∈ found, ∀ resource ∈ entry.2.resources, Listed trace entry.1 resource) :
    Keeps (Attributed (.sweep .reconcileOrphans)) trace none (fun _ _ => True)
      (reconcileFound found removed skipped) := by
  induction found generalizing trace removed skipped with
  | nil => exact keeps_pure trivial
  | cons entry found inductionHypothesis =>
      obtain ⟨label, resources⟩ := entry
      have rest : ∀ {later : List (Entry Reply)} (removed skipped : Nat), trace ⊆ later →
          Keeps (Attributed (.sweep .reconcileOrphans)) later none (fun _ _ => True)
            (reconcileFound found removed skipped) :=
        fun removed skipped longer => inductionHypothesis _ _ fun entry member resource present =>
          (listed entry (List.mem_cons_of_mem _ member) resource present).mono longer
      have listed : ∀ resource ∈ resources.resources, Listed trace label resource :=
        listed _ List.mem_cons_self
      unfold reconcileFound
      cases parsed : Uuid.parse label with
      | none =>
          exact keeps_bind (keeps_write (.inl (.unparseable label parsed))) fun _ _ longer _ =>
            rest _ _ longer
      | some id =>
          refine keeps_bind (perform_keeps (.loadEnvironment id)) fun first row longer loaded => ?_
          split
          · rename_i terminal
            have terminal : ∀ env ∈ row, env.status.terminal = true := by
              intro env present
              rw [Option.mem_def.mp present] at terminal
              exact terminal
            have fits : ∀ later line, first ⊆ later →
                (∀ resource ∈ line.names, Listed trace label resource) →
                Attributed (.sweep .reconcileOrphans) later (some label) line :=
              fun later line more named => .inl (.orphaned label id row line parsed (more loaded)
                terminal fun resource member =>
                  (named resource member).mono fun _ present => more (longer present))
            have single : ∀ (line : Line) (resource : Resource), line.names = [resource] →
                Listed trace label resource → ∀ other ∈ line.names, Listed trace label other := by
              intro line resource names listed other member
              rw [names] at member
              rw [List.mem_singleton.mp member]
              exact listed
            have none : ∀ resource ∈ (removing row resources).names, Listed trace label resource :=
              fun _ member => (List.not_mem_nil member).elim
            have round : Keeps (Attributed (.sweep .reconcileOrphans)) first Option.none
                (fun _ _ => True) (bindEnvId label do
                  write (removing row resources)
                  removeResources label resources.containerIds resources.networkIds) := by
              refine keeps_within ?_
              refine keeps_bind (keeps_write (fits _ _ (fun _ present => present) none))
                fun second _ more _ => ?_
              refine removeResources_keeps ?_ ?_
              · exact fun id member later line latest names => fits later line
                  (fun _ present => latest (more present)) (single line _ names
                    (listed _ (List.mem_append_left _ (List.mem_map_of_mem member))))
              · exact fun id member later line latest names => fits later line
                  (fun _ present => latest (more present)) (single line _ names
                    (listed _ (List.mem_append_right _ (List.mem_map_of_mem member))))
            refine keeps_bind round fun _ _ more _ => ?_
            exact rest _ _ fun _ present => more (longer present)
          · exact rest _ _ longer

/-- The listing groups resources under the labels that Docker reported. -/
theorem findLabelled_keeps (minAgeSeconds : Int) :
    Keeps good trace value (fun later found => ∀ entry ∈ found,
      ∀ resource ∈ entry.2.resources, Listed later entry.1 resource)
      (embed (DockerManager.findLabelled minAgeSeconds) :
        Logged Exn (List (String × DockerManager.LabelledResources))) := by
  unfold DockerManager.findLabelled
  simp only [embed_bind]
  refine keeps_bind (perform_keeps .now) fun _ instant _ read => ?_
  refine keeps_bind (perform_keeps .containersList) fun _ containers more first => ?_
  refine keeps_bind (perform_keeps .networksList) fun later networks more' second => keeps_pure ?_
  intro entry member resource present
  obtain ⟨-, created, -, listed, -⟩ :=
    Grace.aged_of_grouped (more' (more read)) (more' first) second member present
  exact ⟨created, listed⟩

theorem failAll_keeps {status : EnvironmentStatus} {cutoff : Time} {pending : List Change}
    {selected : List Environment} (timeout : Int) (rows : List Environment)
    (members : ∀ env ∈ rows, env ∈ selected)
    (answered : (⟨.selectStale status cutoff pending, .ok selected⟩ : Entry Reply) ∈ trace) :
    Keeps (Attributed (.sweep .recoverStale)) trace value (fun _ _ => True)
      (failAll status timeout rows) := by
  induction rows generalizing trace with
  | nil => exact keeps_pure trivial
  | cons env rows inductionHypothesis =>
      have present : env ∈ selected := members env List.mem_cons_self
      have later : ∀ env ∈ rows, env ∈ selected :=
        fun other member => members other (List.mem_cons_of_mem _ member)
      refine keeps_bind (keeps_within (keeps_write (.inl ?_))) fun _ _ longer _ => ?_
      · exact .stale status cutoff pending selected env timeout answered present
      refine keeps_bind (keeps_embed _) fun _ now longer' _ => ?_
      refine keeps_bind (inductionHypothesis later (longer' (longer answered)))
        fun _ changes _ _ => ?_
      exact keeps_pure trivial

theorem recoverTimeouts_keeps (now : Time) (timeouts : List (EnvironmentStatus × Int))
    (changes : List Change) (counts : List (EnvironmentStatus × Nat)) :
    Keeps (Attributed (.sweep .recoverStale)) trace value (fun _ _ => True)
      (recoverTimeouts now timeouts changes counts) := by
  induction timeouts generalizing trace changes counts with
  | nil => exact keeps_pure trivial
  | cons entry timeouts inductionHypothesis =>
      obtain ⟨status, timeout⟩ := entry
      refine keeps_bind (perform_keeps (.selectStale status (now - seconds timeout) changes))
        fun _ stale _ answered => ?_
      refine keeps_bind (failAll_keeps timeout stale (fun _ member => member) answered)
        fun _ failed _ _ => ?_
      exact inductionHypothesis _ _

theorem recoverStaleTransitions_keeps :
    Keeps (Attributed (.sweep .recoverStale)) trace value (fun _ _ => True)
      (recoverStaleTransitions deployment) := by
  refine keeps_bind (keeps_embed _) fun _ now _ _ => ?_
  refine keeps_bind (recoverTimeouts_keeps now _ _ _) fun _ recovered _ _ => ?_
  obtain ⟨changes, counts⟩ := recovered
  dsimp only
  split
  · exact keeps_pure trivial
  · exact keeps_bind (keeps_embed _) fun _ _ _ _ => keeps_pure trivial

/-- Every role that starts with nothing bound writes what it should. -/
theorem program_keeps (deployment : Deployment) (role : Role) :
    Keeps (Attributed role) [] none (fun _ _ => True) (Logging.program deployment role) := by
  cases role with
  | request request => exact keeps_embed _
  | task message =>
      unfold Logging.program
      dsimp only
      cases message.task with
      | provision => exact provisionEnvironment_keeps message
      | teardown => exact teardownEnvironment_keeps message
  | sweep sweep =>
      cases sweep with
      | reapExpired => exact reapExpiredEnvironments_keeps
      | reconcileOrphans =>
          exact keeps_bind (findLabelled_keeps _) fun _ found _ listed =>
            reconcileFound_keeps found 0 0 listed
      | recoverStale => exact recoverStaleTransitions_keeps

/-! ## Runs -/

/-- In a run the loaded row has the id of the message, so both ids of an attempt are one. -/
theorem correlates_of_attributed (run : System.Runs deployment refuses allowed config)
    {job : Job} (member : job ∈ config.threads)
    (attributed : Attributed job.role job.trace value line) :
    Correlates job.trace job.role value line := by
  rcases attributed with correlates | ⟨message, id, env, role, parsed, loaded, same⟩
  · exact correlates
  · obtain ⟨ordered, attends⟩ := Messages.of_runs run
    have sent := (attends job member).sent message ((Job.role_phase job).trans role)
    obtain ⟨id', -, named, -⟩ := ordered.names message sent
    rw [named, Uuid.parse_str] at parsed
    cases parsed
    obtain ⟨key, -⟩ : env.id = id ∧ _ := Evidence.told_of_runs run job member _ loaded
    rw [role, same, key, ← named]
    exact .task message line

/-- Every line carries the id of its environment. In every run, every thread has come as far
as its log lines and bindings allow: each line it has written is under the `env_id` of the
message, the row or the label that it is about, and once the thread is over nothing is bound. -/
theorem correlated (run : System.Runs deployment refuses allowed config) {job : Job}
    (member : job ∈ config.threads) :
    ∃ position, follow none (Logging.program deployment job.role) job.trace = some position ∧
      erase position.value position.rest = job.rest ∧
      (∀ record ∈ position.records, Correlates job.trace job.role record.1 record.2) ∧
      (¬job.rest.Suspended → position.value = none) := by
  have reached := run.follows rfl job member
  have same : (machine deployment).program job.role =
      erase none (Logging.program deployment job.role) :=
    (program_erases deployment job.role none).symm
  rw [same] at reached
  obtain ⟨position, followed, rest⟩ := exists_follow reached
  obtain ⟨written, ends⟩ := good_of_follow (fun trace more value record attributed =>
    attributed.mono fun _ => List.mem_append_left more) (program_keeps deployment job.role) followed
  refine ⟨position, followed, rest, fun record present =>
    correlates_of_attributed run member (written record present), fun finished => ?_⟩
  rw [← rest] at finished
  obtain ⟨result, ended⟩ := exists_result_of_follow followed finished
  rw [ended] at ends
  cases result with
  | ok answer => exact ends.2.1
  | error exc => exact ends.2.1

/-- The events that a job has logged so far. -/
def events (deployment : Deployment) (job : Job) : Option (List String) :=
  (follow none (Logging.program deployment job.role) job.trace).map fun position =>
    position.records.map fun record => record.2.event

/-- A first attempt to its end. -/
theorem correlated_of_firstAttempt :
    ∃ (config : System) (job : Job) (records : List (Option String × Line)),
      System.Runs Compose.shipped true (fun _ _ => True) config ∧ job ∈ config.threads ∧
      records.map (fun record => record.2.event) = ["provision.started", "network.created",
        "container.started", "container.started", "provision.running"] ∧
      ∀ record ∈ records, Correlates job.trace job.role record.1 record.2 := by
  have shown : ((System.initial true).run (machine Compose.shipped) (fun _ _ => True)
      (Sample.firstAttempt ++ Sample.succeed 1 4)).map
        (fun config => (config.threads[1]?).bind (events Compose.shipped)) =
      some (some ["provision.started", "network.created", "container.started",
        "container.started", "provision.running"]) := by
    decide +kernel
  obtain ⟨config, run, seen⟩ := Run.exists_run shown
  obtain ⟨job, found, logged⟩ := Option.bind_eq_some_iff.mp seen
  have member := List.mem_of_getElem? found
  obtain ⟨position, followed, -, correlates, -⟩ := correlated run member
  unfold events at logged
  rw [followed] at logged
  exact ⟨config, job, position.records, run, member, Option.some.inj logged, correlates⟩

end Correlation

end Provisioner
