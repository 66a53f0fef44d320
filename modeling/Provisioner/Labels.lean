import Provisioner.Integrity
import Provisioner.Publishing
import Provisioner.Reading
import Mathlib.Data.List.Dedup

/-!
# The label values of the metrics

The template of a series is the sentinel or the template of the row that the attempt
loaded, and a duration is only recorded for a template that could be provisioned. So
the label set is as closed as the templates of the committed rows: nothing between
the request body and the metric compares them with the table of templates.
-/

namespace Provisioner

open Resumption

namespace Labels

/-- The call records a sample that carries a template. -/
def counts : Call → Bool
  | .record (.provisionTotal _ _) | .record (.provisionDuration _ _) => true
  | _ => false

/-- The call records no such sample. -/
def Plain (request : Call) : Prop :=
  counts request = false

variable {deployment : Deployment}

/-! ## Who records nothing -/

theorem plain_of_silent (request : Call) (silent : request.silent = true) : Plain request := by
  cases request with
  | record metric => cases silent
  | _ => rfl

theorem perform_makes {request : Call} (plain : Plain request) :
    (perform request).Makes Plain :=
  DockerManager.perform_makes plain

/-- A role that is no attempt records nothing. -/
theorem program_makes_plain {role : Role} (other : ∀ message, role ≠ .task message) :
    (program deployment role).Makes Plain :=
  program_makes plain_of_silent (fun message _ same => (other message same).elim)
    fun _ _ _ _ _ => rfl

/-- A teardown records nothing about a template. -/
theorem teardownEnvironment_makes_plain (message : Message) :
    (Worker.teardownEnvironment message).Makes Plain :=
  Worker.teardownEnvironment_makes message plain_of_silent (fun _ => rfl) fun _ _ _ _ _ => rfl

/-! ## What an attempt records -/

/-- The template is the sentinel or that of a row that has been read. -/
def Known (rows : List Environment) (template : String) : Prop :=
  template = Worker.unknownTemplate ∨ ∃ env ∈ rows, env.template = template

/-- The template is a key of the table of templates. -/
def Listed (deployment : Deployment) (template : String) : Prop :=
  template ∈ deployment.templates.map Prod.fst

instance (template : String) : Decidable (Listed deployment template) :=
  inferInstanceAs (Decidable (_ ∈ _))

/-- The samples that a thread may record, given the rows it has read. -/
def permits (deployment : Deployment) (rows : List Environment) : Call → Prop
  | .record (.provisionTotal template _) => Known rows template
  | .record (.provisionDuration template _) => Listed deployment template
  | _ => True

theorem permits_of_plain {request : Call} {rows : List Environment} (plain : Plain request) :
    permits deployment rows request := by
  cases request with
  | record metric =>
      cases metric with
      | teardownTotal outcome => trivial
      | _ => cases plain
  | _ => trivial

theorem mem_rowsRead {request : Call} {reply : Reply request} {rows : List Environment}
    {env : Environment} (present : env ∈ rows) : env ∈ rowsRead rows request reply := by
  unfold rowsRead
  split
  · exact List.mem_cons_of_mem _ present
  · exact present

/-- A program that records nothing is allowed and forgets nothing. -/
theorem allows_of_plain {α ε : Type} {program : Program Call Reply ε α}
    (makes : program.Makes Plain) (rows : List Environment) :
    (reader (permits deployment)).Allows
      (fun reached _ => ∀ template, Known rows template → Known reached template) rows
      program := by
  refine makes.meets (fun state request kept plain => ⟨permits_of_plain plain, ?_⟩)
    fun template known => known
  rintro reply next ⟨-, rfl⟩ template known
  rcases kept template known with sentinel | ⟨env, present, same⟩
  · exact .inl sentinel
  · exact .inr ⟨env, mem_rowsRead present, same⟩

/-- A step of an attempt whose template is known. -/
theorem during_allows {α : Type} {template : String} {held : Option Environment}
    {step : Action α} {rows : List Environment}
    (makes : step.Makes Plain) (known : Known rows template) :
    (reader (permits deployment)).Allows (fun reached result => Known reached template ∧
        ∀ failure, result = .error failure → failure.template = template) rows
      (Worker.during template held step) := by
  refine Worker.during_meets.mpr ((allows_of_plain makes rows).mono ?_)
  intro reached result kept
  refine ⟨kept template known, fun failure equal => ?_⟩
  cases result with
  | ok value => cases equal
  | error exc =>
      cases equal
      rfl

/-- A plain step of an attempt, followed by the rest of the attempt. -/
theorem during_bind {α β : Type} {template : String} {held : Option Environment}
    {step : Action α} {next : α → Program Call Reply Worker.Failure β}
    {rows : List Environment}
    (makes : step.Makes Plain) (known : Known rows template)
    (continues : ∀ value reached, Known reached template →
      (reader (permits deployment)).Allows (fun reached result =>
        ∀ failure, result = .error failure → Known reached failure.template) reached
        (next value)) :
    (reader (permits deployment)).Allows (fun reached result =>
        ∀ failure, result = .error failure → Known reached failure.template) rows
      (Worker.during template held step >>= next) := by
  refine Program.meets_bind.mpr ((during_allows makes known).mono ?_)
  rintro reached (failure | value) ⟨known, same⟩
  · intro other equal
    cases equal
    rw [same failure rfl]
    exact known
  · exact continues value reached known

/-- Recording a permitted sample, followed by the rest of the attempt. -/
theorem record_bind {β : Type} {template : String} {metric : Metric}
    {next : Unit → Program Call Reply Worker.Failure β} {rows : List Environment}
    (permitted : permits deployment rows (.record metric)) (known : Known rows template)
    (continues : ∀ reached, Known reached template →
      (reader (permits deployment)).Allows (fun reached result =>
        ∀ failure, result = .error failure → Known reached failure.template) reached
        (next ())) :
    (reader (permits deployment)).Allows (fun reached result =>
        ∀ failure, result = .error failure → Known reached failure.template) rows
      (Worker.during template none (perform (.record metric)) >>= next) := by
  refine Program.meets_bind.mpr (Worker.during_meets.mpr ⟨permitted, ?_⟩)
  rintro reply next ⟨-, rfl⟩
  rcases reply with exc | done
  · intro failure equal
    cases equal
    exact known
  · exact continues _ known

/-- The template of the row that the first query finds is known. -/
theorem loadEnv_allows (envId : String) :
    (reader (permits deployment)).Allows
      (fun rows result => ∀ env, result = .ok (some env) → Known rows env.template) []
      (Worker.loadEnv envId) := by
  unfold Worker.loadEnv
  cases Uuid.parse envId with
  | none =>
      intro env equal
      cases equal
  | some id =>
      refine ⟨trivial, fun reply rows answered => ?_⟩
      obtain ⟨-, rfl⟩ := answered
      rcases reply with exc | found
      · intro env equal
        cases equal
      · intro env equal
        cases equal
        exact .inr ⟨env, List.mem_singleton_self _, rfl⟩

/-- An attempt knows the template that it fails with, and it records a duration only
for a listed one. -/
theorem provisionAttempt_allows (envId : String) (started : Time) :
    (reader (permits deployment)).Allows (fun rows result =>
        ∀ failure, result = .error failure → Known rows failure.template) []
      (Worker.provisionAttempt deployment envId started) := by
  have sentinel : ∀ (rows : List Environment) (exc : Exn) (held : Option Environment) failure,
      (Except.error ⟨exc, Worker.unknownTemplate, held⟩ : Except Worker.Failure Answer) =
        .error failure → Known rows failure.template := by
    intro rows exc held failure equal
    cases equal
    exact .inl rfl
  unfold Worker.provisionAttempt
  refine Program.meets_bind.mpr (Worker.during_meets.mpr ((loadEnv_allows envId).mono ?_))
  rintro rows (exc | _ | loaded) knows
  · exact sentinel _ _ _
  · exact sentinel _ _ _
  have known := knows loaded rfl
  refine during_bind (perform_makes rfl) known fun now reached known => ?_
  refine during_bind (perform_makes rfl) known fun _ reached known => ?_
  by_cases listed : Listed deployment loaded.template
  · refine during_bind ((Worker.provision_silent _ _ _).mono plain_of_silent) known
      fun stack reached known => ?_
    refine during_bind (perform_makes rfl) known fun now reached known => ?_
    refine during_bind (perform_makes rfl) known fun changed reached known => ?_
    refine during_bind (perform_makes rfl) known fun _ reached known => ?_
    refine record_bind known known fun reached known => ?_
    refine during_bind (perform_makes rfl) known fun finished reached known => ?_
    refine record_bind listed known fun reached known => ?_
    intro failure equal
    cases equal
  · have unlisted : deployment.templates.lookup loaded.template = none := by
      rw [List.lookup_eq_none_iff]
      intro entry present
      exact bne_iff_ne.mpr fun same => listed (same ▸ List.mem_map_of_mem present)
    have refused : DockerManager.provision deployment loaded.id.str loaded.template =
        .raise ⟨.valueError, "Unknown template: " ++ pyRepr loaded.template⟩ := by
      unfold DockerManager.provision
      rw [unlisted]
    refine Program.meets_bind.mpr (Worker.during_meets.mpr ?_)
    simp only [Environment.setStatus]
    rw [refused]
    intro failure equal
    cases equal
    exact known

/-- A provision only records permitted samples. -/
theorem provisionEnvironment_allows (message : Message) :
    (reader (permits deployment)).Allows (fun _ _ => True) []
      (Worker.provisionEnvironment deployment message) := by
  unfold Worker.provisionEnvironment
  refine Program.meets_bind.mpr ⟨trivial, fun reply rows answered => ?_⟩
  obtain ⟨-, rfl⟩ := answered
  rcases reply with exc | started
  · trivial
  refine Program.meets_tryCatch.mpr ((provisionAttempt_allows message.envId started).mono ?_)
  rintro rows (failure | answer) knows
  · have known := knows failure rfl
    have marks := (Worker.markFailed_silent failure.held message.envId failure.exc.message).mono
      plain_of_silent
    refine Program.meets_bind.mpr ((allows_of_plain marks rows).mono ?_)
    rintro marked (exc | done) kept
    · trivial
    · refine Program.meets_bind.mpr ⟨kept _ known, fun reply next answered => ?_⟩
      rcases reply with exc | recorded
      · trivial
      · split
        · have retries : (Worker.selfRetry message (2 ^ message.retries * 10) failure.exc).Makes
              Plain := Worker.selfRetry_makes_publishes _ _ fun _ _ _ _ _ => rfl
          exact (allows_of_plain retries _).mono fun _ _ _ => trivial
        · trivial
  · trivial

/-- Every thread only records permitted samples. -/
theorem program_permits (role : Role) :
    (reader (permits deployment)).Allows (fun _ _ => True) [] (program deployment role) := by
  have others : (∀ message, role ≠ .task message) →
      (reader (permits deployment)).Allows (fun _ _ => True) [] (program deployment role) :=
    fun other => (allows_of_plain (program_makes_plain other) []).mono fun _ _ _ => trivial
  cases role with
  | request request => exact others fun _ same => (by cases same)
  | sweep sweep => exact others fun _ same => (by cases same)
  | task message =>
      unfold program
      dsimp only
      cases message.task with
      | provision => exact provisionEnvironment_allows message
      | teardown =>
          exact (allows_of_plain (teardownEnvironment_makes_plain message) []).mono
            fun _ _ _ => trivial

/-! ## Which series there are -/

/-- A time series: a metric with the values of its labels. -/
inductive Series
  | provisionTotal (template : String) (outcome : Outcome)
  | provisionDuration (template : String)
  | teardownTotal (outcome : Outcome)
  deriving DecidableEq

/-- The series of a sample. -/
def series : Metric → Series
  | .provisionTotal template outcome => .provisionTotal template outcome
  | .provisionDuration template _ => .provisionDuration template
  | .teardownTotal outcome => .teardownTotal outcome

/-- `OUTCOMES` -/
def outcomes : List Outcome :=
  [.success, .failure, .retry]

/-- The series over the closed label sets: the keys of `TEMPLATES`, with the sentinel
for the totals, and `OUTCOMES`. -/
def closedSeries (deployment : Deployment) : List Series :=
  (deployment.templates.map Prod.fst ++ [Worker.unknownTemplate]).flatMap
      (fun template => outcomes.map (.provisionTotal template)) ++
    (deployment.templates.map fun entry => .provisionDuration entry.1) ++
    outcomes.map .teardownTotal

theorem mem_outcomes (outcome : Outcome) : outcome ∈ outcomes := by
  cases outcome <;> decide

/-- How many closed series there are. -/
theorem length_closedSeries :
    (closedSeries deployment).length = 4 * deployment.templates.length + 6 := by
  simp [closedSeries, outcomes, List.length_flatMap, Function.comp_def]
  omega

/-- A row is only inserted with a listed template, or with the sentinel's text. -/
def keepsUp (deployment : Deployment) : Call → Bool
  | .commitInsert env => Listed deployment env.template || env.template = Worker.unknownTemplate
  | _ => true

/-- Only rows with listed templates are inserted. -/
def Listing (deployment : Deployment) (config : System) (event : Occurrence) : Prop :=
  ∀ turn ∈ config.turn event, keepsUp deployment turn.2 = true

instance (config : System) (event : Occurrence) : Decidable (Listing deployment config event) :=
  inferInstanceAs (Decidable (∀ turn ∈ config.turn event, _))

variable {refuses : Bool} {config : System}

/-- The templates of committed rows are listed. -/
theorem listed_of_runs (run : System.Runs deployment refuses (Listing deployment) config) :
    ∀ row ∈ config.state.db.rows,
      Listed deployment row.template ∨ row.template = Worker.unknownTemplate := by
  refine run.invariant (fun config => ∀ row ∈ config.state.db.rows,
      Listed deployment row.template ∨ row.template = Worker.unknownTemplate)
    (fun row present => nomatch present) ?_ ?_ ?_
  · intro config action next spawned ran listed _ surrounds
    rw [surrounds.unchanged.1]
    exact listed
  · intro config index job ran listed _ found alive
    exact listed
  · intro config index job request resume choice reply next ran listed listing found alive
      rest permits effect
    show ∀ row ∈ next.db.rows, _
    have kept := listing _ (Config.turn_advance found rest)
    rcases effect.db with same | ⟨env, absent, rfl, same⟩ | ⟨changes, rfl, same⟩
    · exact same ▸ listed
    · rw [same]
      intro row present
      rcases List.mem_append.mp present with old | inserted
      · exact listed row old
      · rw [List.mem_singleton.mp inserted]
        simpa [keepsUp] using kept
    · have commits : Phase.Commits (Job.phase job) changes := permits
      rw [same]
      intro row' present
      obtain ⟨row, stored, viewed⟩ := Phase.exists_of_view present
      obtain ⟨again, found', persists⟩ := Environments.grows_writeAll
        (fun change member => commits.persists member) row'.id row stored
      rw [viewed] at found'
      cases found'
      rw [persists.template]
      exact listed row (Keyed.Table.mem_of_find stored)

/-- The samples of known and listed templates belong to closed series. -/
theorem mem_closedSeries {rows : List Environment} {metric : Metric}
    (listed : ∀ env ∈ rows, Listed deployment env.template ∨
      env.template = Worker.unknownTemplate)
    (permitted : permits deployment rows (.record metric)) :
    series metric ∈ closedSeries deployment := by
  unfold closedSeries
  cases metric with
  | provisionTotal template outcome =>
      have known : template ∈
          deployment.templates.map Prod.fst ++ [Worker.unknownTemplate] := by
        rw [List.mem_append, List.mem_singleton]
        rcases permitted with sentinel | ⟨env, present, rfl⟩
        · exact .inr sentinel
        · exact listed env present
      refine List.mem_append_left _ (List.mem_append_left _ (List.mem_flatMap.mpr
        ⟨template, known, List.mem_map.mpr ⟨outcome, mem_outcomes outcome, rfl⟩⟩))
  | provisionDuration template elapsed =>
      obtain ⟨entry, present, rfl⟩ := List.mem_map.mp permitted
      exact List.mem_append_left _ (List.mem_append_right _
        (List.mem_map.mpr ⟨entry, present, rfl⟩))
  | teardownTotal outcome =>
      exact List.mem_append_right _ (List.mem_map.mpr ⟨outcome, mem_outcomes outcome, rfl⟩)

/-- Every recorded sample belongs to a closed series. -/
theorem closed_of_runs (run : System.Runs deployment refuses (Listing deployment) config) :
    ∀ metric ∈ config.state.metrics, series metric ∈ closedSeries deployment := by
  refine run.invariant (fun config => ∀ metric ∈ config.state.metrics,
      series metric ∈ closedSeries deployment) (fun metric present => nomatch present) ?_ ?_ ?_
  · intro config action next spawned ran closed _ surrounds
    cases surrounds <;> exact closed
  · intro config index job ran closed _ found alive
    exact closed
  · intro config index job request resume choice reply next ran closed listing found alive
      rest _ effect
    show ∀ metric ∈ next.metrics, _
    cases effect with
    | recorded metric =>
        have member := List.mem_of_getElem? found
        have met := Run.meets ran rfl reader_describes program_permits job member
        rw [rest] at met
        have read := ran.of_read (fun env => Listed deployment env.template ∨
          env.template = Worker.unknownTemplate) (fun config ran => listed_of_runs ran) job member
        intro other present
        rcases List.mem_append.mp present with old | new
        · exact closed other old
        · rw [List.mem_singleton.mp new]
          exact mem_closedSeries read met.1
    | _ => exact closed

/-- In a run that only inserts rows with listed templates, every sample belongs to one
of the closed series, so there are no more series than those. -/
theorem series_closed (run : System.Runs deployment refuses (Listing deployment) config) :
    (∀ metric ∈ config.state.metrics, series metric ∈ closedSeries deployment) ∧
      ((config.state.metrics.map series).dedup).length ≤
        4 * deployment.templates.length + 6 := by
  have closed := closed_of_runs run
  refine ⟨closed, ?_⟩
  rw [← length_closedSeries]
  refine (List.subperm_of_subset (List.nodup_dedup _) fun value present => ?_).length_le
  obtain ⟨metric, member, rfl⟩ := List.mem_map.mp (List.mem_dedup.mp present)
  exact closed metric member

/-- The rule on a first attempt that succeeds and records its duration. -/
theorem series_closed_of_firstAttempt :
    ∃ config, System.Runs Compose.shipped true (Listing Compose.shipped) config ∧
      config.state.metrics.length = 2 ∧
      ∀ metric ∈ config.state.metrics, series metric ∈ closedSeries Compose.shipped := by
  have shown : ((System.initial true).run (machine Compose.shipped) (Listing Compose.shipped)
      (Sample.firstAttempt ++ Sample.succeed 1 4)).map
        (fun config => config.state.metrics.length) = some 2 := by decide +kernel
  obtain ⟨config, run, two⟩ := Run.exists_run shown
  exact ⟨config, run, two, (series_closed run).1⟩

/-- A request for a template that does not exist. -/
def unlisted : EnvironmentCreate :=
  { Sample.payload with template := "tenant-4711" }

/-- The request is accepted, and the attempt fails with `ValueError`. -/
def rejectedTemplate : List Occurrence :=
  .ambient (.request (.create "alice" unlisted)) :: Sample.succeed 0 2 ++
    .advance 0 (.fresh (Sample.envId 1)) :: Sample.succeed 0 2 ++ Sample.deliver ++
    Sample.succeed 1 8

/-- The text of the request has become the label of a series. -/
theorem caller_text_recorded :
    ∃ config, Reachable (machine Compose.shipped) (System.initial true) config ∧
      ∃ metric ∈ config.state.metrics,
        series metric = .provisionTotal unlisted.template .failure ∧
        series metric ∉ closedSeries Compose.shipped := by
  have shown : ((System.initial true).run (machine Compose.shipped) (fun _ _ => True)
      rejectedTemplate).map (fun config => config.state.metrics) =
        some [.provisionTotal unlisted.template .failure] := by
    decide +kernel
  obtain ⟨config, run, recorded⟩ := Run.exists_run shown
  refine ⟨config, run, .provisionTotal unlisted.template .failure, ?_, rfl, ?_⟩
  · rw [recorded]
    exact List.mem_singleton_self _
  · decide

end Labels

end Provisioner
