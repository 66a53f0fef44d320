import Provisioner.Runs

/-!
# What a thread has read

An observer that remembers the rows a thread has loaded. What holds of the rows of
every reachable state holds of everything that any thread has ever read.
-/

namespace Provisioner

open Resumption

/-- The rows that a thread has loaded after a call, given those before. -/
def rowsRead (rows : List Environment) : (request : Call) → Reply request → List Environment
  | .loadEnvironment _, .ok (some env) => env :: rows
  | _, _ => rows

/-- The observer, which may permit calls by what has been read. -/
def reader (permits : List Environment → Call → Prop) :
    Protocol (List Environment) Call Reply where
  permits := permits
  possible _ _ := True
  advance := rowsRead

/-- The rows that a job has loaded. -/
def Job.read (job : Job) : List Environment :=
  job.trace.foldl (fun rows entry => rowsRead rows entry.request entry.reply) []

variable {deployment : Deployment} {refuses : Bool}
  {allowed : System → Occurrence → Prop} {config : System}
  {permits : List Environment → Call → Prop}

theorem reader_describes : (reader permits).Describes (machine deployment) :=
  fun _ _ _ _ _ _ => trivial

/-- A row that was read is the answer to a recorded query. -/
theorem Job.mem_read {job : Job} {env : Environment} (read : env ∈ job.read) :
    ∃ id, (⟨.loadEnvironment id, .ok (some env)⟩ : Entry Reply) ∈ job.trace := by
  have grows : ∀ (trace : List (Entry Reply)) (rows : List Environment),
      env ∈ trace.foldl (fun rows entry => rowsRead rows entry.request entry.reply) rows →
      env ∈ rows ∨ ∃ id, (⟨.loadEnvironment id, .ok (some env)⟩ : Entry Reply) ∈ trace := by
    intro trace
    induction trace with
    | nil => exact fun rows present => .inl present
    | cons entry trace inductionHypothesis =>
        intro rows present
        rcases inductionHypothesis _ present with old | ⟨id, recorded⟩
        · obtain ⟨request, reply⟩ := entry
          unfold rowsRead at old
          dsimp only at old
          split at old
          · rename_i id loaded
            rcases List.mem_cons.mp old with rfl | older
            · exact .inr ⟨id, List.mem_cons_self⟩
            · exact .inl older
          · exact .inl old
        · exact .inr ⟨id, List.mem_cons_of_mem _ recorded⟩
  exact (grows job.trace [] read).resolve_left List.not_mem_nil

/-- What holds of the rows of every state of a run holds of every row read in it. -/
theorem System.Runs.of_read (run : System.Runs deployment refuses allowed config)
    (holds : Environment → Prop)
    (stored : ∀ config, System.Runs deployment refuses allowed config →
      ∀ row ∈ config.state.db.rows, holds row) :
    ∀ job ∈ config.threads, ∀ env ∈ Job.read job, holds env := by
  intro job present env read
  obtain ⟨query, recorded⟩ := Job.mem_read read
  refine Run.entries run rfl (fun _ entry => ∀ id env,
      entry = ⟨.loadEnvironment id, .ok (some env)⟩ → holds env) ?_ job present _ recorded
    query env rfl
  intro config event thread request choice reply next ran _ turn member executed id env same
  cases same
  cases World.exec_effect executed with
  | read _ _ reads =>
      have found : some env = config.state.db.find id := reads
      exact stored config ran env (Keyed.Table.mem_of_find found.symm)

end Provisioner
