import Provisioner.Alone
import Provisioner.Auth

/-!
# Which creates are answered

`create_environment` refuses a principal at its quota with 429 and a taken name with 409,
and inserts a row otherwise. Neither the payload nor the key parser bounds what the
columns `template` and `owner` have to hold or keeps null characters out of it, and the
look-up of the name accepts one row at most. This module says when a create ends in one of
its answers.
-/

namespace Provisioner

open Resumption

namespace Admission

/-- The answers of `create_environment`, each with its effect. -/
inductive Answered (world : World) (principal : String) (payload : EnvironmentCreate) :
    World → Except Exn Answer → Prop
  /-- 202: one PENDING row and one provision task for its id are added. -/
  | accepted (row : Environment) (task : TaskId) (message : String) (last : World) :
      world.db.find row.id = none →
      row.status = .pending →
      row.owner = principal →
      row.name = payload.name →
      row.template = payload.template →
      row.ttlSeconds = payload.ttlSeconds →
      last.db.rows = world.db.rows ++ [row] →
      last.queue = world.queue ++ [⟨.provision, row.id.str, 0, world.clock⟩] →
      Answered world principal payload last (.ok (.accepted row.id task message))
  /-- 429 or 409: the table and the queue are unchanged. -/
  | refused (exc : Exn) (last : World) :
      exc.cls = .http 429 ∨ exc.cls = .http 409 →
      last.db = world.db →
      last.queue = world.queue →
      Answered world principal payload last (.error exc)

/-- A create that is answered: the principal has no null character, and it is at its quota,
or exactly one active row has the name, or none has and the new row fits the columns. -/
def Answerable
    (deployment : Deployment)
    (world : World)
    (principal : String)
    (payload : EnvironmentCreate) : Prop :=
  '\x00' ∉ principal.toList ∧
    (deployment.settings.maxEnvironmentsPerUser ≤ world.db.activeCount principal ∨
      (world.db.activeNamed principal payload.name).length = 1 ∨
      (world.db.activeNamed principal payload.name = [] ∧
        Environment.fitsColumn 50 payload.template = true ∧
        Environment.fitsColumn 100 principal = true))

instance (deployment : Deployment) (world : World) (principal : String)
    (payload : EnvironmentCreate) :
    Decidable (Answerable deployment world principal payload) :=
  inferInstanceAs (Decidable (_ ∧ (_ ∨ _ ∨ _ ∧ _ ∧ _)))

variable {deployment : Deployment} {refuses : Bool}
  {allowed : System → Occurrence → Prop} {config : System} {world last : World}
  {principal : String} {payload : EnvironmentCreate} {trace : List (Entry Reply)}

/-- A name that validation lets through fits its column. -/
theorem fitsColumn_name : Environment.fitsColumn 100 payload.name = true := by
  have null : '\x00' ∉ payload.name.toList := by
    intro present
    rcases payload.nameCharacters _ present with letter | digit | dash
    · exact absurd letter.1 (by decide)
    · exact absurd digit.1 (by decide)
    · exact absurd dash (by decide)
  unfold Environment.fitsColumn
  rw [decide_eq_true payload.nameLength.2, decide_eq_true null]
  rfl

/-- A new row fits exactly if its template and its owner do. -/
theorem fitsColumns_inserted (id : Uuid) (now : Time) :
    (Environment.inserted id payload.name principal payload.template payload.ttlSeconds
      now).fitsColumns = true ↔
      Environment.fitsColumn 50 payload.template = true ∧
        Environment.fitsColumn 100 principal = true := by
  simp only [Environment.fitsColumns, Environment.inserted, fitsColumn_name, Bool.true_and,
    Bool.and_eq_true]
  exact and_comm

/-- The count of a principal changes nothing. -/
theorem countActive_of_executes {result : Except Exn Nat}
    (executed : Executes (lone deployment Reliable) world (perform (.countActive principal))
      trace last result) :
    world = last ∧
      result = World.counted principal (world.db.activeCount principal) := by
  have met : (perform (.countActive principal)).Meets (lone deployment Reliable)
      (fun last result => world = last ∧
        result = World.counted principal (world.db.activeCount principal)) world :=
    Alone.meets_count rfl rfl rfl (fun _ succeeds => succeeds) ⟨rfl, rfl⟩
  exact executed.meets met

/-- A flush generates a new primary key, and fails when the row does not fit. -/
theorem flushInsert_of_executes {name owner template : String} {ttlSeconds : Int}
    {result : Except Exn Environment}
    (executed : Executes (lone deployment Reliable) world
      (perform (.flushInsert name owner template ttlSeconds)) trace last result) :
    ∃ id, id ∉ world.issued ∧
      result = (if (Environment.inserted id name owner template ttlSeconds
          world.clock).fitsColumns then
        .ok (Environment.inserted id name owner template ttlSeconds world.clock)
        else .error ⟨.databaseError, (Environment.inserted id name owner template ttlSeconds
          world.clock).misfit⟩) ∧
      last.db = world.db ∧ last.queue = world.queue ∧ last.clock = world.clock := by
  obtain ⟨-, choice, succeeds, answered⟩ := Alone.executes_perform.mp executed
  cases choice with
  | fresh id =>
      simp only [machine, World.exec] at answered
      split at answered
      · cases answered
      · rename_i unused
        have outcome := Option.some.inj answered
        unfold World.flushInsert at outcome
        dsimp only at outcome
        split at outcome
        · rename_i fits
          cases outcome
          exact ⟨id, unused, (if_pos fits).symm, rfl, rfl, rfl⟩
        · rename_i wide
          cases outcome
          exact ⟨id, unused, (if_neg wide).symm, rfl, rfl, rfl⟩
  | fail exc => cases succeeds
  | failAfter exc => cases succeeds
  | _ => cases answered

/-- A published task goes to the end of the queue. -/
theorem publish_of_executes {envId : String} {result : Except Exn TaskId}
    (executed : Executes (lone deployment Reliable) world
      (perform (.publish .provision envId 0 0)) trace last result) :
    ∃ task, result = .ok task ∧ last.db = world.db ∧
      last.queue = world.queue ++ [⟨.provision, envId, 0, world.clock⟩] := by
  obtain ⟨task, rfl, effect⟩ := Alone.executes_plain rfl executed
  cases effect with
  | read _ _ reads => cases reads
  | published _ _ _ _ =>
      refine ⟨_, rfl, rfl, ?_⟩
      simp [World.publish, seconds]

/-- A new row is committed. -/
theorem commitInsert_of_executes {env : Environment} {result : Except Exn Unit}
    (absent : world.db.find env.id = none)
    (executed : Executes (lone deployment Reliable) world (perform (.commitInsert env)) trace
      last result) :
    result = .ok () ∧ last.db.rows = world.db.rows ++ [env] ∧ last.queue = world.queue := by
  obtain ⟨-, choice, succeeds, answered⟩ := Alone.executes_perform.mp executed
  cases choice with
  | ok =>
      simp only [machine, World.exec, World.succeed, World.commitInsert, absent,
        dite_true] at answered
      cases answered
      exact ⟨rfl, rfl, rfl⟩
  | fail exc => cases succeeds
  | failAfter exc => cases succeeds
  | _ => cases answered

/-- An unhandled error is no answer. -/
theorem not_answered {exc : Exn} (other : exc.cls ≠ .http 429 ∧ exc.cls ≠ .http 409) :
    ¬Answered world principal payload last (.error exc) := by
  intro answered
  cases answered with
  | refused _ _ refused => exact refused.elim other.1 other.2

/-- What `create_environment` does behind its two guards. -/
def insertion (principal : String) (payload : EnvironmentCreate) : Action Answer := do
  let env ← perform
    (.flushInsert payload.name principal payload.template payload.ttlSeconds)
  let task ← perform (.publish .provision env.id.str 0 0)
  perform (.commitInsert { env with celeryTaskId := some task })
  pure (.accepted env.id task "Provisioning started. Poll /environments/{id} for status.")

/-- The insert of `create_environment` is answered exactly if the row fits. -/
theorem answered_of_insertion {result : Except Exn Answer}
    (issued : ∀ row ∈ world.db.rows, row.id ∈ world.issued)
    (executed : Executes (lone deployment Reliable) world (insertion principal payload) trace
      last result) :
    Answered world principal payload last result ↔
      Environment.fitsColumn 50 payload.template = true ∧
        Environment.fitsColumn 100 principal = true := by
  obtain ⟨first, second, flushed, inserted, rfl, flushes, continued⟩ :=
    Executes.bind_iff.mp executed
  obtain ⟨id, unused, rfl, sameRows, sameQueue, sameClock⟩ := flushInsert_of_executes flushes
  rw [← fitsColumns_inserted id world.clock]
  split at continued
  all_goals rename_i outcome
  · split at outcome
    · rename_i fits
      cases outcome
      obtain ⟨sends, rest, queued, published, rfl, publishes, commits⟩ :=
        Executes.bind_iff.mp continued
      obtain ⟨task, rfl, rows, queue⟩ := publish_of_executes publishes
      obtain ⟨stores, rest, stored, committed, rfl, inserts, ends⟩ :=
        Executes.bind_iff.mp commits
      rw [sameRows] at rows
      rw [sameQueue, sameClock] at queue
      have absent : world.db.find id = none := by
        rw [Keyed.Table.find_eq_none_iff]
        rintro row present rfl
        exact unused (issued row present)
      obtain ⟨rfl, added, kept⟩ := commitInsert_of_executes (by rw [rows]; exact absent) inserts
      obtain ⟨-, rfl, rfl⟩ := Executes.pure_iff.mp ends
      rw [rows] at added
      rw [queue] at kept
      refine iff_of_true (.accepted { Environment.inserted id payload.name principal
        payload.template payload.ttlSeconds world.clock with celeryTaskId := some task }
        task _ _ absent rfl rfl rfl rfl rfl added kept) fits
    · cases outcome
  · split at outcome
    · cases outcome
    · rename_i wide
      cases outcome
      obtain ⟨-, rfl, rfl⟩ := Executes.raise_iff.mp continued
      exact iff_of_false (not_answered ⟨nofun, nofun⟩) wide

/-- `create_environment` is answered exactly in the states in which it is answerable. -/
theorem answered_iff_answerable {result : Except Exn Answer}
    (issued : ∀ row ∈ world.db.rows, row.id ∈ world.issued)
    (executed : Executes (lone deployment Reliable) world
      (Router.createEnvironment deployment principal payload) trace last result) :
    Answered world principal payload last result ↔
      Answerable deployment world principal payload := by
  unfold Router.createEnvironment at executed
  obtain ⟨counts, rest, counted, count, rfl, asked, continued⟩ := Executes.bind_iff.mp executed
  obtain ⟨rfl, rfl⟩ := countActive_of_executes asked
  by_cases null : '\x00' ∈ principal.toList
  · rw [World.counted_of_null null] at continued
    obtain ⟨-, rfl, rfl⟩ := Executes.raise_iff.mp continued
    exact iff_of_false (not_answered ⟨nofun, nofun⟩) fun answerable => answerable.1 null
  rw [World.counted_of_clean null] at continued
  unfold Answerable
  rw [and_iff_right null]
  dsimp only at continued
  split at continued
  · rename_i full
    obtain ⟨-, rfl, rfl⟩ := Executes.raise_iff.mp continued
    exact iff_of_true (.refused _ _ (.inl rfl) rfl rfl) (.inl full)
  rename_i room
  obtain ⟨finds, rest, looked, found, rfl, asked, continued⟩ := Executes.bind_iff.mp continued
  obtain ⟨rows, rfl, effect⟩ := Alone.executes_plain rfl asked
  cases effect with
  | read _ _ reads =>
  have listed : rows.Perm (world.db.activeNamed principal payload.name) := reads
  rw [← listed.length_eq, ← List.length_eq_zero_iff, ← listed.length_eq]
  dsimp only at continued
  match rows with
  | [] =>
      rw [answered_of_insertion issued continued]
      simp [room]
  | [row] =>
      obtain ⟨-, rfl, rfl⟩ := Executes.raise_iff.mp continued
      exact iff_of_true (.refused _ _ (.inr rfl) rfl rfl) (.inr (.inl rfl))
  | first :: second :: others =>
      obtain ⟨-, rfl, rfl⟩ := Executes.raise_iff.mp continued
      refine iff_of_false (not_answered ⟨nofun, nofun⟩) ?_
      simp [room]

/-- An insert comes to its end as long as a new primary key can be generated. -/
theorem insertion_meets {id : Uuid} (unused : id ∉ world.issued) :
    (insertion principal payload).Meets (lone deployment Reliable) (fun _ _ => True)
      world := by
  have flushes : ∃ reply next, world.exec (.flushInsert payload.name principal
      payload.template payload.ttlSeconds) (.fresh id) = some (reply, next) :=
    ⟨_, _, if_neg unused⟩
  obtain ⟨reply, next, answered⟩ := flushes
  unfold insertion
  refine Program.meets_bind.mpr (Alone.meets_perform.mpr
    ⟨⟨.fresh id, reply, next, rfl, answered⟩, fun choice reply flushed _ _ => ?_⟩)
  rcases reply with exc | env
  · trivial
  refine Program.meets_bind.mpr (Alone.reliable_meets rfl fun task sent _ => ?_)
  refine Program.meets_bind.mpr (Alone.meets_perform.mpr
    ⟨⟨.ok, _, _, rfl, rfl⟩, fun choice reply stored _ _ => ?_⟩)
  rcases reply with exc | done <;> trivial

/-- A create comes to its end as long as a new primary key can be generated. -/
theorem exists_executes_create {id : Uuid} (unused : id ∉ world.issued) :
    ∃ trace last result, Executes (lone deployment Reliable) world
      (Router.createEnvironment deployment principal payload) trace last result := by
  have met : (Router.createEnvironment deployment principal payload).Meets
      (lone deployment Reliable) (fun _ _ => True) world := by
    unfold Router.createEnvironment
    refine Program.meets_bind.mpr (Alone.meets_count rfl rfl rfl
      (fun _ succeeds => succeeds) ?_)
    by_cases null : '\x00' ∈ principal.toList
    · rw [World.counted_of_null null]
      trivial
    rw [World.counted_of_clean null]
    dsimp only
    split
    · trivial
    refine Program.meets_bind.mpr (Alone.reliable_meets rfl fun rows looked effect => ?_)
    cases effect with
    | read _ _ reads =>
    match rows with
    | [] => exact insertion_meets unused
    | [_] => trivial
    | _ :: _ :: _ => trivial
  obtain ⟨trace, last, result, executed, -⟩ := Alone.exists_ends met
  exact ⟨trace, last, result, executed⟩

/-- A payload whose template does not fit its column. -/
def widePayload : EnvironmentCreate :=
  { Sample.payload with template := .ofList (List.replicate 51 'a') }

end Admission

end Provisioner
