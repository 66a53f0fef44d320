import Provisioner.Integrity
import Provisioner.Lifecycle
import Provisioner.Reading

/-!
# What a failed attempt leaves on its row

A failure writes a message and a teardown writes a stop time; the commit of
RUNNING clears neither. This module gives the condition under which a RUNNING row
shows neither of them: RUNNING is committed over a row that has none, and no
failure is written over a RUNNING row by a session that already saw it FAILED.
-/

namespace Provisioner

open Resumption

namespace Residue

/-- The row shows no failure and no stop. -/
def Blank (row : Environment) : Prop :=
  row.errorMessage = none ∧ row.stoppedAt = none

instance (row : Environment) : Decidable (Blank row) :=
  inferInstanceAs (Decidable (_ ∧ _))

/-- A RUNNING row is blank. -/
def Clean (row : Environment) : Prop :=
  row.status = .running → Blank row

/-- RUNNING is written over a blank row; and a change that writes a message or a stop
time but no status does not meet a RUNNING row. -/
def fits (row : Environment) (change : Change) : Bool :=
  if change.now.status = change.seen.status then
    row.status ≠ .running || (change.now.errorMessage = change.seen.errorMessage &&
      change.now.stoppedAt = change.seen.stoppedAt)
  else change.now.status ≠ .running || Blank row

/-- Every change of a transaction fits the row that it meets. -/
def fitsAll : Environments → List Change → Bool
  | _, [] => true
  | db, change :: changes =>
      (db.find change.seen.id).all (fits · change) && fitsAll (db.write change) changes

/-- A commit fits the rows that it meets. -/
def keepsUp (world : World) : Call → Bool
  | .commitChanges changes => fitsAll world.db changes
  | _ => true

/-- Every commit fits the rows that it meets. -/
def Fitting (config : System) (event : Occurrence) : Prop :=
  ∀ turn ∈ config.turn event, keepsUp config.state turn.2 = true

instance (config : System) (event : Occurrence) : Decidable (Fitting config event) :=
  inferInstanceAs (Decidable (∀ turn ∈ config.turn event, _))

variable {deployment : Deployment} {refuses : Bool} {config : System}
  {phase : Phase} {changes : List Change} {change : Change}

/-- The commit of RUNNING writes neither a message nor a stop time. -/
theorem blank_of_commits (commits : phase.Commits changes) (present : change ∈ changes)
    (running : change.now.status = .running)
    (differs : change.now.status ≠ change.seen.status) :
    change.now.errorMessage = change.seen.errorMessage ∧
      change.now.stoppedAt = change.seen.stoppedAt := by
  cases commits with
  | running env network containers port now changed =>
      cases List.mem_singleton.mp present
      exact ⟨rfl, rfl⟩
  | accepted env task stage =>
      cases List.mem_singleton.mp present
      exact ⟨rfl, rfl⟩
  | reaping rows _ sweep stage written =>
      obtain ⟨-, now, -, made⟩ := written change present
      rw [made] at running
      cases running
  | recovering rows _ sweep stage written =>
      obtain ⟨-, now, -, message, made⟩ := written change present
      rw [made] at running
      cases running
  | _ =>
      cases List.mem_singleton.mp present
      cases running

/-- A change that fits a clean row leaves it clean. -/
theorem clean_flush {row : Environment} (clean : Clean row)
    (fitting : fits row change = true)
    (blank : change.now.status = .running → change.now.status ≠ change.seen.status →
      change.now.errorMessage = change.seen.errorMessage ∧
        change.now.stoppedAt = change.seen.stoppedAt) :
    Clean (row.flush change.seen change.now) := by
  intro running
  have unwritten : change.now.errorMessage = change.seen.errorMessage ∧
      change.now.stoppedAt = change.seen.stoppedAt → Blank row →
      Blank (row.flush change.seen change.now) := by
    rintro ⟨message, stop⟩ ⟨noMessage, noStop⟩
    unfold Blank Environment.flush
    rw [message, stop, Environment.column_self, Environment.column_self]
    exact ⟨noMessage, noStop⟩
  unfold fits at fitting
  by_cases same : change.now.status = change.seen.status
  · have before : row.status = .running := by
      rw [← running]
      unfold Environment.flush
      rw [same, Environment.column_self]
    rw [if_pos same] at fitting
    simp only [before, ne_eq, not_true_eq_false, decide_false, Bool.false_or, Bool.and_eq_true,
      decide_eq_true_eq] at fitting
    exact unwritten fitting (clean before)
  · have after : change.now.status = .running := by
      rw [← running]
      exact (Environment.status_flush same).symm
    rw [if_neg same] at fitting
    simp only [after, ne_eq, not_true_eq_false, decide_false, Bool.false_or,
      decide_eq_true_eq] at fitting
    exact unwritten (blank after same) fitting

/-- A transaction whose changes fit leaves all rows clean. -/
theorem clean_writeAll {db : Environments}
    (clean : ∀ row ∈ db.rows, Clean row)
    (fitting : fitsAll db changes = true)
    (blank : ∀ change ∈ changes, change.now.status = .running →
      change.now.status ≠ change.seen.status →
      change.now.errorMessage = change.seen.errorMessage ∧
        change.now.stoppedAt = change.seen.stoppedAt) :
    ∀ row ∈ (db.writeAll changes).rows, Clean row := by
  induction changes generalizing db with
  | nil => exact clean
  | cons change changes inductionHypothesis =>
      rw [List.forall_mem_cons] at blank
      simp only [fitsAll, Bool.and_eq_true] at fitting
      refine inductionHypothesis (fun row' present => ?_) fitting.2 blank.2
      obtain ⟨row, member, rfl⟩ := Keyed.Table.mem_update.mp present
      split
      · rename_i own
        have found : db.find change.seen.id = some row := own ▸ Keyed.Table.find_of_mem member
        have fit := fitting.1
        rw [found] at fit
        exact clean_flush (clean row member) fit blank.1
      · exact clean row member

/-- In a run whose commits all fit, every row is clean. -/
theorem clean_of_runs (run : System.Runs deployment refuses Fitting config) :
    ∀ row ∈ config.state.db.rows, Clean row := by
  refine run.invariant (fun config => ∀ row ∈ config.state.db.rows, Clean row)
    (fun row present => nomatch present) ?_ ?_ ?_
  · intro config action next spawned ran clean _ surrounds
    rw [surrounds.unchanged.1]
    exact clean
  · intro config index job ran clean _ found alive
    exact clean
  · intro config index job request resume choice reply next ran clean fitting found alive
      rest permits effect
    show ∀ row ∈ next.db.rows, Clean row
    have kept := fitting _ (Config.turn_advance found rest)
    rcases effect.db with same | ⟨env, absent, rfl, same⟩ | ⟨changes, rfl, same⟩
    · exact same ▸ clean
    · obtain ⟨owner, payload, count, role, stage⟩ := permits
      have new := ((Integrity.of_runs ran).2 job (List.mem_of_getElem? found)).fresh count env
        (by rw [stage]; rfl)
      rw [same]
      intro row present running
      rcases List.mem_append.mp present with old | inserted
      · exact clean row old running
      · rw [List.mem_singleton.mp inserted, new.pending] at running
        cases running
    · have commits : Phase.Commits (Job.phase job) changes := permits
      rw [same]
      exact clean_writeAll clean kept fun change => blank_of_commits commits

/-- GET answers with a row that it has loaded. -/
theorem getEnvironment_answers (id : Uuid) (principal : String) :
    (reader fun _ _ => True).Allows
      (fun rows result => ∀ env, result = .ok (.environment env) → env ∈ rows) []
      (Router.getEnvironment id principal) := by
  unfold Router.getEnvironment Router.loadOwned
  refine Program.meets_bind.mpr (Program.meets_bind.mpr ⟨trivial, fun reply rows answered => ?_⟩)
  obtain ⟨-, rfl⟩ := answered
  rcases reply with exc | row
  · intro env equal
    cases equal
  · cases row with
    | none =>
        intro env equal
        cases equal
    | some env =>
        by_cases own : env.owner = principal
        · simp only [Program.ofExcept_ok, Program.meets_pure, if_pos own]
          intro other equal
          cases equal
          exact List.mem_cons_self
        · simp only [Program.ofExcept_ok, Program.meets_pure, if_neg own]
          intro other equal
          cases equal

/-- In a run whose commits all fit, every RUNNING row is blank, and so is every RUNNING
row that a GET request answers with. -/
theorem running_blank (run : System.Runs deployment refuses Fitting config) :
    (∀ row ∈ config.state.db.rows, row.status = .running →
      row.errorMessage = none ∧ row.stoppedAt = none) ∧
    ∀ job ∈ config.threads, ∀ id principal env, job.role = .request (.get id principal) →
      job.rest = .pure (.environment env) → env.status = .running →
      env.errorMessage = none ∧ env.stoppedAt = none := by
  refine ⟨clean_of_runs run, fun job present id principal env role rest => ?_⟩
  have answers : config.Meets (reader fun _ _ => True) (fun _ => []) (fun role rows result =>
      (∃ id principal, role = .request (.get id principal)) →
        ∀ env, result = .ok (.environment env) → env ∈ rows) := by
    refine Run.meets run rfl reader_describes fun role => ?_
    by_cases get : ∃ id principal, role = .request (.get id principal)
    · obtain ⟨id, principal, rfl⟩ := get
      exact (getEnvironment_answers id principal).mono fun rows result found _ => found
    · exact (Program.meets_of_permits (fun _ _ => trivial) _ _).mono
        fun rows result _ some => (get some).elim
  have loaded := answers job present
  rw [rest] at loaded
  exact run.of_read Clean (fun config ran => clean_of_runs ran) job present env
    (loaded ⟨id, principal, role⟩ env rfl)

/-- The status of the sample row, and whether it shows a failure. -/
def observe (config : System) : Option (EnvironmentStatus × Bool) :=
  (config.state.db.find (Sample.envId 1)).map fun row => (row.status, row.errorMessage.isSome)

/-- The rule on a first attempt that succeeds. -/
theorem running_blank_of_firstAttempt :
    ∃ config row, System.Runs Compose.shipped true Fitting config ∧
      row ∈ config.state.db.rows ∧ row.status = .running ∧
      row.errorMessage = none ∧ row.stoppedAt = none := by
  have shown : ((System.initial true).run (machine Compose.shipped) Fitting
      (Sample.firstAttempt ++ Sample.succeed 1 1)).map observe =
      some (some (.running, false)) := by decide +kernel
  obtain ⟨config, run, seen⟩ := Run.exists_run shown
  obtain ⟨row, found, same⟩ := Option.map_eq_some_iff.mp seen
  have present := Keyed.Table.mem_of_find found
  have running : row.status = .running := congrArg Prod.fst same
  exact ⟨config, row, run, present, running, (running_blank run).1 row present running⟩

/-- The daemon refuses the network of the first attempt, and the retry succeeds. -/
def secondAttempt : List Occurrence :=
  Lifecycle.retry ++ Sample.succeed 2 2 ++ Sample.startRoles 2 ++ Sample.succeed 2 1

/-- After a failed attempt and a successful retry the RUNNING row still shows the
failure. -/
theorem failure_shown :
    ∃ config row, Reachable (machine Compose.shipped) (System.initial true) config ∧
      row ∈ config.state.db.rows ∧ row.status = .running ∧
      ¬(row.errorMessage = none ∧ row.stoppedAt = none) := by
  have shown : ((System.initial true).run (machine Compose.shipped) (fun _ _ => True)
      secondAttempt).map observe = some (some (.running, true)) := by decide +kernel
  obtain ⟨config, run, seen⟩ := Run.exists_run shown
  obtain ⟨row, found, same⟩ := Option.map_eq_some_iff.mp seen
  have running : row.status = .running := congrArg Prod.fst same
  have message : row.errorMessage.isSome = true := congrArg Prod.snd same
  refine ⟨config, row, run, Keyed.Table.mem_of_find found, running, fun blank => ?_⟩
  rw [blank.1] at message
  cases message

end Residue

end Provisioner
