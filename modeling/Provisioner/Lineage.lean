import Provisioner.Teardown
import Provisioner.Calls

/-!
# The books of a task

An attempt counts itself once, before it knows whether Celery will try again, and the
row is marked by what the attempt made of it. The attempts of one message run while
others work on everything but their row; between two calls anything else may change.
-/

namespace Provisioner

open Resumption

/-- The call writes rows. -/
def Call.writes : Call → Bool
  | .commitChanges _ | .commitInsert _ => true
  | _ => false

namespace Lineage

/-- The row that a message names. -/
def rowOf (envId : String) (world : World) : Option Environment :=
  (Uuid.parse envId).bind world.db.find

/-- The services while nobody else writes the row of the message: between two calls
everything else may change. Publishing does not fail. -/
def amid (deployment : Deployment) (envId : String) : Service World Call Reply where
  permits _ _ := True
  answers world request reply next := ∃ middle choice,
    rowOf envId middle = rowOf envId world ∧
      (request.target = .broker → choice.succeeds = true) ∧
      (machine deployment).exec middle request choice = some (reply, next)

/-- The sample that an answered call records. -/
def sampleOf : Entry Reply → Option Metric
  | ⟨.record metric, _⟩ => some metric
  | _ => none

/-- The message that an answered call publishes. -/
def messageOf : Entry Reply → Option (Task × String × Nat)
  | ⟨.publish task envId retries _, _⟩ => some (task, envId, retries)
  | _ => none

/-- The changes that an answered call commits. -/
def changesOf : Entry Reply → Option (List Change)
  | ⟨.commitChanges changes, .ok _⟩ => some changes
  | _ => none

/-- A row has been queried in a trace. -/
def Queried (trace : List (Entry Reply)) : Prop :=
  ∃ id reply, (⟨.loadEnvironment id, reply⟩ : Entry Reply) ∈ trace

/-- The call is one of `_mark_failed`: the second query of an attempt or the write of
FAILED. -/
def Marking (before : List (Entry Reply)) : Call → Prop
  | .loadEnvironment _ => Queried before
  | .commitChanges changes => ∃ change ∈ changes, change.now.status = .failed
  | _ => False

/-- The query and the write of `_mark_failed` succeed. -/
def Marks (trace : List (Entry Reply)) : Prop :=
  ∀ before entry after, trace = before ++ entry :: after → Marking before entry.request →
    ∃ value, entry.reply = .ok value

/-- The services with the history of the attempt; `marks` says whether the calls of
`_mark_failed` have to succeed. -/
def service (deployment : Deployment) (envId : String) (marks : Prop) :
    Service (World × List (Entry Reply)) Call Reply :=
  (amid deployment envId).recorded fun before entry =>
    marks → Marking before entry.request → ∃ value, entry.reply = .ok value

variable {deployment : Deployment} {envId : String} {marks : Prop} {id : Uuid}
  {world : World} {trace : List (Entry Reply)}

/-- The rule for one call. -/
theorem call_meets {request : Call}
    {post : World × List (Entry Reply) → Except Exn request.Result → Prop}
    (continues : ∀ (reply : Reply request) middle next,
      rowOf envId middle = rowOf envId world → middle.Effect request reply next →
      (request.target = .broker → ∃ value, reply = .ok value) →
      (marks → Marking trace request → ∃ value, reply = .ok value) →
      post (next, trace ++ [⟨request, reply⟩]) reply) :
    (perform request).Meets (service deployment envId marks) post (world, trace) := by
  refine ⟨trivial, ?_⟩
  rintro reply ⟨next, history⟩ ⟨⟨middle, choice, same, serves, executed⟩, allowed, rfl⟩
  have answered := continues reply middle next same (World.exec_effect executed)
    (fun broker => ?_) allowed
  · cases reply with
    | ok value => exact answered
    | error exc => exact answered
  · have plain : request.plain = true := by
      cases request <;> first | rfl | cases broker
    exact Alone.ok_of_plain plain (serves broker) executed

/-- What an attempt has recorded, published and committed so far, and the row as it is
now. -/
structure Stands (envId : String) (queried : Prop) (row : Option Environment)
    (metrics : List Metric) (sent : List (Task × String × Nat)) (writes : List (List Change))
    (state : World × List (Entry Reply)) : Prop where
  row : rowOf envId state.1 = row
  queried : queried → Queried state.2
  samples : state.2.filterMap sampleOf = metrics
  published : state.2.filterMap messageOf = sent
  written : state.2.filterMap changesOf = writes

variable {queried : Prop} {row : Option Environment} {metrics : List Metric}
  {sent : List (Task × String × Nat)} {writes : List (List Change)}

/-- One more answered call adds what it records, publishes and commits. -/
theorem Stands.push {next : World} {row' : Option Environment} (entry : Entry Reply)
    (stands : Stands envId queried row metrics sent writes (world, trace))
    (now : rowOf envId next = row') :
    Stands envId queried row' (metrics ++ (sampleOf entry).toList)
      (sent ++ (messageOf entry).toList) (writes ++ (changesOf entry).toList)
      (next, trace ++ [entry]) := by
  have concat : ∀ {β : Type} (f : Entry Reply → Option β),
      (trace ++ [entry]).filterMap f = trace.filterMap f ++ (f entry).toList := by
    intro β f
    rw [List.filterMap_append]
    cases value : f entry with
    | none => rw [List.filterMap_cons_none value]; rfl
    | some value' => rw [List.filterMap_cons_some value]; rfl
  refine ⟨now, fun asked => ?_, ?_, ?_, ?_⟩
  · obtain ⟨id, reply, present⟩ := stands.queried asked
    exact ⟨id, reply, List.mem_append_left _ present⟩
  · dsimp only
    rw [concat, stands.samples]
  · dsimp only
    rw [concat, stands.published]
  · dsimp only
    rw [concat, stands.written]

/-- A call that commits nothing leaves the row alone. -/
theorem rowOf_of_effect {request : Call} {reply : Reply request} {middle next : World}
    (keeps : request.writes = false)
    (same : rowOf envId middle = rowOf envId world)
    (effect : middle.Effect request reply next) :
    rowOf envId next = rowOf envId world := by
  have db : next.db = middle.db := by
    rcases effect.db with kept | ⟨env, absent, rfl, -⟩ | ⟨changes, rfl, -⟩
    · exact kept
    · cases keeps
    · cases keeps
  rw [← same]
  unfold rowOf
  rw [db]

/-- The call leaves the books alone. -/
def Unbooked (request : Call) : Prop :=
  request.writes = false ∧ ∀ reply : Reply request, sampleOf ⟨request, reply⟩ = none ∧
    messageOf ⟨request, reply⟩ = none ∧ changesOf ⟨request, reply⟩ = none

theorem unbooked_of_docks {request : Call} (docks : request.docks = true) : Unbooked request := by
  cases request <;> first | exact ⟨rfl, fun _ => ⟨rfl, rfl, rfl⟩⟩ | cases docks

/-- A call that leaves the books alone. -/
theorem Stands.unbooked {request : Call} {reply : Reply request} {middle next : World}
    (stands : Stands envId queried row metrics sent writes (world, trace))
    (unbooked : Unbooked request)
    (same : rowOf envId middle = rowOf envId world)
    (effect : middle.Effect request reply next) :
    Stands envId queried row metrics sent writes (next, trace ++ [⟨request, reply⟩]) := by
  obtain ⟨keeps, notes⟩ := unbooked
  obtain ⟨sample, message, changes⟩ := notes reply
  have pushed := stands.push ⟨request, reply⟩
    ((rowOf_of_effect keeps same effect).trans stands.row)
  rw [sample, message, changes] at pushed
  simpa using pushed

/-- The process itself never fails. -/
theorem ok_of_process {request : Call} {reply : Reply request} {middle next : World}
    (process : request.target = .process)
    (effect : middle.Effect request reply next) : ∃ value, reply = .ok value := by
  cases reply with
  | ok value => exact ⟨value, rfl⟩
  | error exc =>
      have raises := effect.raises rfl
      rw [process] at raises
      cases raises

variable {state : World × List (Entry Reply)}

/-- Programs that leave the books alone. -/
theorem docks_meets {α ε : Type} {program : Program Call Reply ε α}
    (docks : program.Makes (·.docks = true))
    (stands : Stands envId queried row metrics sent writes state) :
    program.Meets (service deployment envId marks)
      (fun reached _ => Stands envId queried row metrics sent writes reached) state := by
  refine docks.meets (fun state request stands docks => ⟨trivial, ?_⟩) stands
  rintro reply ⟨next, history⟩ ⟨⟨middle, choice, same, -, executed⟩, -, rfl⟩
  exact stands.unbooked (unbooked_of_docks docks) same (World.exec_effect executed)

/-- Reading the clock. -/
theorem now_meets {post : World × List (Entry Reply) → Except Exn Time → Prop}
    (stands : Stands envId queried row metrics sent writes state)
    (continues : ∀ reached instant, Stands envId queried row metrics sent writes reached →
      post reached (.ok instant)) :
    (perform .now).Meets (service deployment envId marks) post state := by
  refine call_meets fun reply middle next same effect _ _ => ?_
  obtain ⟨instant, rfl⟩ := ok_of_process rfl effect
  exact continues _ instant (stands.unbooked (unbooked_of_docks rfl) same effect)

/-- Recording a sample. -/
theorem record_meets {metric : Metric} {post : World × List (Entry Reply) → Except Exn Unit → Prop}
    (stands : Stands envId queried row metrics sent writes state)
    (continues : ∀ reached, Stands envId queried row (metrics ++ [metric]) sent writes reached →
      post reached (.ok ())) :
    (perform (.record metric)).Meets (service deployment envId marks) post state := by
  refine call_meets fun reply middle next same effect _ _ => ?_
  obtain ⟨done, rfl⟩ := ok_of_process rfl effect
  have pushed := stands.push ⟨.record metric, .ok ()⟩
    ((rowOf_of_effect rfl same effect).trans stands.row)
  refine continues _ ?_
  simpa [sampleOf, messageOf, changesOf] using pushed

/-- Publishing a message. -/
theorem publish_meets {task : Task} {text : String} {retries : Nat} {countdown : Int}
    {post : World × List (Entry Reply) → Except Exn TaskId → Prop}
    (stands : Stands envId queried row metrics sent writes state)
    (continues : ∀ reached id,
      Stands envId queried row metrics (sent ++ [(task, text, retries)]) writes reached →
      post reached (.ok id)) :
    (perform (.publish task text retries countdown)).Meets (service deployment envId marks)
      post state := by
  refine call_meets fun reply middle next same effect serves _ => ?_
  obtain ⟨id, rfl⟩ := serves rfl
  have pushed := stands.push ⟨.publish task text retries countdown, .ok id⟩
    ((rowOf_of_effect rfl same effect).trans stands.row)
  refine continues _ id ?_
  simpa [sampleOf, messageOf, changesOf] using pushed

/-- Querying the row of the message. -/
theorem load_meets {post : World × List (Entry Reply) → Except Exn (Option Environment) → Prop}
    (stands : Stands envId queried row metrics sent writes state)
    (found : ∀ reached, (Uuid.parse envId).isSome →
      Stands envId True row metrics sent writes reached → post reached (.ok row))
    (failed : ∀ reached exc, (marks → queried → row = none) →
      Stands envId ((Uuid.parse envId).isSome = true) row metrics sent writes reached →
      post reached (.error exc)) :
    (Worker.loadEnv envId).Meets (service deployment envId marks) post state := by
  unfold Worker.loadEnv
  cases parsed : Uuid.parse envId with
  | none =>
      refine failed state _ (fun _ _ => ?_) ⟨stands.row, ?_, stands.samples, stands.published,
        stands.written⟩
      · rw [← stands.row]
        unfold rowOf
        rw [parsed]
        rfl
      · rw [parsed]
        exact nofun
  | some id =>
      refine call_meets fun reply middle next same effect _ allowed => ?_
      have unbooked : Unbooked (.loadEnvironment id) := ⟨rfl, fun _ => ⟨rfl, rfl, rfl⟩⟩
      have kept := stands.unbooked unbooked same effect
      have asked : Queried (state.2 ++ [⟨.loadEnvironment id, reply⟩]) :=
        ⟨id, reply, List.mem_append_right _ (List.mem_singleton_self _)⟩
      cases effect with
      | failed _ exc raises =>
          refine failed _ exc (fun marked earlier => ?_) ⟨kept.row, fun _ => asked, kept.samples,
            kept.published, kept.written⟩
          obtain ⟨value, equal⟩ := allowed marked (stands.queried earlier)
          cases equal
      | read _ value reads =>
          have current : value = middle.db.find id := reads
          have same' : value = row := by
            rw [current, ← stands.row, ← same]
            unfold rowOf
            rw [parsed]
            rfl
          subst same'
          exact found _ (by rw [parsed]; rfl) ⟨kept.row, fun _ => asked, kept.samples,
            kept.published, kept.written⟩

/-- Committing a change of the row. -/
theorem commit_meets {seen now : Environment}
    {post : World × List (Entry Reply) → Except Exn Unit → Prop}
    (stands : Stands envId queried row metrics sent writes state)
    (own : Uuid.parse envId = some seen.id)
    (done : ∀ reached, Stands envId queried (row.map fun stored => stored.flush seen now) metrics
      sent (writes ++ [[⟨seen, now⟩]]) reached → post reached (.ok ()))
    (failed : ∀ reached exc, (marks → now.status ≠ .failed) →
      Stands envId queried row metrics sent writes reached → post reached (.error exc)) :
    (perform (.commitChanges [⟨seen, now⟩])).Meets (service deployment envId marks)
      post state := by
  refine call_meets fun reply middle next same effect _ allowed => ?_
  cases effect with
  | failed _ exc raises =>
      refine failed _ exc (fun marked failing => ?_) ?_
      · obtain ⟨value, equal⟩ := allowed marked ⟨_, List.mem_singleton_self _, failing⟩
        cases equal
      · have pushed := stands.push
          ⟨.commitChanges [⟨seen, now⟩], .error exc⟩ (same.trans stands.row)
        simpa [sampleOf, messageOf, changesOf] using pushed
  | read _ _ reads => cases reads
  | committed _ =>
      refine done _ ?_
      have after : rowOf envId { middle with db := middle.db.writeAll [⟨seen, now⟩] } =
          row.map fun stored => stored.flush seen now := by
        rw [← stands.row, ← same]
        unfold rowOf
        rw [own]
        dsimp only [Option.bind_some]
        rw [Environments.writeAll_cons, Environments.writeAll_nil, Environments.find_write,
          if_pos rfl]
      have pushed := stands.push ⟨.commitChanges [⟨seen, now⟩], .ok ()⟩ after
      simpa [sampleOf, messageOf, changesOf] using pushed

/-! ## Attempts -/

/-- Writing FAILED over the stored row or over another copy marks the row. -/
theorem status_marked {stored env : Environment} {message : String} {now : Time}
    (copy : env = stored ∨ env.status ≠ .failed) :
    (stored.flush env (Worker.asFailed env message now)).status = .failed := by
  rcases copy with rfl | differs
  · have fresh : env.flush env (Worker.asFailed env message now) =
        Worker.asFailed env message now := Environment.flush_fresh rfl
    rw [fresh]
    rfl
  · exact Environment.status_flush (Ne.symm differs)

/-- The row that a query of the message finds has the id of the message. -/
theorem parse_of_row {stored : Environment}
    (stands : Stands envId queried (some stored) metrics sent writes state) :
    Uuid.parse envId = some stored.id := by
  have found := stands.row
  unfold rowOf at found
  obtain ⟨id, parsed, found⟩ := Option.bind_eq_some_iff.mp found
  rw [parsed, Keyed.Table.key_of_find found]

theorem Stands.weaken {fewer : Prop} (implies : fewer → queried)
    (stands : Stands envId queried row metrics sent writes state) :
    Stands envId fewer row metrics sent writes state :=
  ⟨stands.row, fun asked => stands.queried (implies asked), stands.samples, stands.published,
    stands.written⟩

/-- An existing row is still there, and FAILED if the calls of `_mark_failed` succeed. -/
def Marked (marks : Prop) (row row' : Option Environment) : Prop :=
  row'.isSome = row.isSome ∧
    (marks → row.isSome → ∃ env, row' = some env ∧ env.status = .failed)

/-- `_mark_failed` never raises, and marks an existing row when its calls succeed. -/
theorem markFailed_meets {held : Option Environment} {message : String}
    {post : World × List (Entry Reply) → Except Exn Unit → Prop}
    (asked : row.isSome → queried)
    (keeps : ∀ env, held = some env → Uuid.parse envId = some env.id ∧ env.status ≠ .failed)
    (stands : Stands envId queried row metrics sent writes state)
    (continues : ∀ reached row' writes', Stands envId False row' metrics sent writes' reached →
      Marked marks row row' → post reached (.ok ())) :
    (Worker.markFailed held envId message).Meets (service deployment envId marks) post state := by
  unfold Worker.markFailed
  refine Program.meets_tryCatch.mpr (Program.meets_bind.mpr (load_meets stands ?_ ?_))
  · intro loaded named stands
    cases row with
    | none =>
        refine continues loaded none writes (stands.weaken False.elim) ⟨rfl, fun _ some => ?_⟩
        cases some
    | some fresh =>
        have own := parse_of_row stands
        have copy : Uuid.parse envId = some (held.getD fresh).id ∧
            (held.getD fresh = fresh ∨ (held.getD fresh).status ≠ .failed) := by
          cases held with
          | none => exact ⟨own, .inl rfl⟩
          | some env => exact ⟨(keeps env rfl).1, .inr (keeps env rfl).2⟩
        refine Program.meets_bind.mpr (now_meets stands fun read instant stands => ?_)
        refine commit_meets stands copy.1 (fun reached stands => ?_)
          fun reached exc failing stands => ?_
        · refine continues reached _ _ (stands.weaken False.elim)
            ⟨rfl, fun _ _ => ⟨_, rfl, status_marked copy.2⟩⟩
        · refine continues reached _ _ (stands.weaken False.elim) ⟨rfl, fun marked _ => ?_⟩
          exact (failing marked rfl).elim
  · intro loaded exc answers stands
    refine continues loaded row writes (stands.weaken False.elim) ⟨rfl, fun marked some => ?_⟩
    rw [answers marked (asked some)] at some
    cases some

/-- What the `try` block of an attempt has done when it raises: nothing is recorded and
published, and the row has been committed in this status, or not at all. -/
structure Broke (envId : String) (row : Option Environment) (status : EnvironmentStatus)
    (failure : Worker.Failure) (reached : World × List (Entry Reply)) : Prop where
  keeps : ∀ env, failure.held = some env → Uuid.parse envId = some env.id ∧ env.status ≠ .failed
  stands : ∃ row' writes, Stands envId (row'.isSome = true) row' [] [] writes reached ∧
    row'.isSome = row.isSome ∧
    ((row' = row ∧ writes = []) ∨ ∃ env, row' = some env ∧ env.status = status)

/-- The `try` block of a provision. -/
theorem provisionAttempt_meets {started : Time}
    (stands : Stands envId False row [] [] [] state) :
    (Worker.provisionAttempt deployment envId started).Meets (service deployment envId marks)
      (fun reached result =>
        (∀ answer, result = .ok answer → ∃ template elapsed env writes,
          Stands envId False (some env)
            [.provisionTotal template .success, .provisionDuration template elapsed] [] writes
            reached ∧ env.status = .running ∧ row.isSome = true) ∧
        ∀ failure, result = .error failure → Broke envId row .provisioning failure reached)
      state := by
  unfold Worker.provisionAttempt
  refine Program.meets_bind.mpr (Worker.during_meets.mpr (load_meets stands ?_ ?_))
  · intro loaded named stands
    cases row with
    | none =>
        refine ⟨fun answer equal => ?_, fun failure equal => ?_⟩
        · cases equal
        · cases equal
          refine ⟨fun env held => ?_, none, [], stands.weaken fun _ => trivial, rfl,
            .inl ⟨rfl, rfl⟩⟩
          cases held
    | some env =>
        have own := parse_of_row stands
        refine Program.meets_bind.mpr (Worker.during_meets.mpr
          (now_meets stands fun read instant stands => ?_))
        refine Program.meets_bind.mpr (Worker.during_meets.mpr
          (commit_meets stands own (fun committed stands => ?_) fun reached exc _ stands => ?_))
        · have stored : env.flush env (env.setStatus .provisioning instant) =
              env.setStatus .provisioning instant := Environment.flush_fresh rfl
          rw [Option.map_some, stored] at stands
          refine Program.meets_bind.mpr (Worker.during_meets.mpr ((docks_meets
            (DockerManager.provision_docks _ _) stands).mono ?_))
          rintro built (exc | stack) stands
          · refine ⟨fun answer equal => ?_, fun failure equal => ?_⟩
            · cases equal
            · cases equal
              refine ⟨fun held same => ?_, _, _, stands.weaken fun _ => trivial, rfl,
                .inr ⟨_, rfl, rfl⟩⟩
              cases same
              exact ⟨own, nofun⟩
          · refine Program.meets_bind.mpr (Worker.during_meets.mpr
              (now_meets stands fun read now stands => ?_))
            refine Program.meets_bind.mpr (Worker.during_meets.mpr
              (now_meets stands fun read changed stands => ?_))
            refine Program.meets_bind.mpr (Worker.during_meets.mpr
              (commit_meets stands own (fun finished stands => ?_)
                fun reached exc _ stands => ?_))
            · refine Program.meets_bind.mpr (Worker.during_meets.mpr
                (record_meets stands fun counted stands => ?_))
              refine Program.meets_bind.mpr (Worker.during_meets.mpr
                (now_meets stands fun read ended stands => ?_))
              refine Program.meets_bind.mpr (Worker.during_meets.mpr
                (record_meets stands fun timed stands => ?_))
              refine ⟨fun answer equal => ?_, fun failure equal => ?_⟩
              · refine ⟨env.template, ended - started, _, _, stands.weaken False.elim, ?_, rfl⟩
                exact Environment.status_flush nofun
              · cases equal
            · refine ⟨fun answer equal => ?_, fun failure equal => ?_⟩
              · cases equal
              · cases equal
                refine ⟨fun held same => ?_, _, _, stands.weaken fun _ => trivial, rfl,
                  .inr ⟨_, rfl, rfl⟩⟩
                cases same
        · refine ⟨fun answer equal => ?_, fun failure equal => ?_⟩
          · cases equal
          · cases equal
            refine ⟨fun held same => ?_, _, _, stands.weaken fun _ => trivial, rfl,
              .inl ⟨rfl, rfl⟩⟩
            cases same
  · intro reached exc _ stands
    refine ⟨fun answer equal => ?_, fun failure equal => ?_⟩
    · cases equal
    · cases equal
      refine ⟨fun env held => ?_, row, [], stands.weaken fun some => ?_, rfl, .inl ⟨rfl, rfl⟩⟩
      · cases held
      · obtain ⟨env, rfl⟩ := Option.isSome_iff_exists.mp some
        rw [parse_of_row stands]
        rfl

/-- A removal leaves the books alone. -/
theorem docks_of_teardown (containerIds : List DockerId) (networkId : Option DockerId) :
    (DockerManager.teardown containerIds networkId).Makes (·.docks = true) := by
  refine (DockerManager.removeResources_docks containerIds networkId.toList).mono
    fun request docker => ?_
  cases request <;> first | rfl | cases docker

/-- The `try` block of a teardown. -/
theorem teardownAttempt_meets (stands : Stands envId False row [] [] [] state) :
    (Worker.teardownAttempt envId).Meets (service deployment envId marks)
      (fun reached result =>
        (∀ answer, result = .ok answer → ∃ env writes,
          Stands envId False (some env) [.teardownTotal .success] [] writes reached ∧
            env.status = .stopped ∧ row.isSome = true) ∧
        ∀ failure, result = .error failure → Broke envId row .stopping failure reached)
      state := by
  unfold Worker.teardownAttempt
  refine Program.meets_bind.mpr (Worker.during_meets.mpr (load_meets stands ?_ ?_))
  · intro loaded named stands
    cases row with
    | none =>
        refine ⟨fun answer equal => ?_, fun failure equal => ?_⟩
        · cases equal
        · cases equal
          refine ⟨fun env held => ?_, none, [], stands.weaken fun _ => trivial, rfl,
            .inl ⟨rfl, rfl⟩⟩
          cases held
    | some env =>
        have own := parse_of_row stands
        refine Program.meets_bind.mpr (Worker.during_meets.mpr
          (now_meets stands fun read instant stands => ?_))
        refine Program.meets_bind.mpr (Worker.during_meets.mpr
          (commit_meets stands own (fun committed stands => ?_) fun reached exc _ stands => ?_))
        · have stored : env.flush env (env.setStatus .stopping instant) =
              env.setStatus .stopping instant := Environment.flush_fresh rfl
          rw [Option.map_some, stored] at stands
          refine Program.meets_bind.mpr (Worker.during_meets.mpr ((docks_meets
            (docks_of_teardown _ _) stands).mono ?_))
          rintro cleared (exc | done) stands
          · refine ⟨fun answer equal => ?_, fun failure equal => ?_⟩
            · cases equal
            · cases equal
              refine ⟨fun held same => ?_, _, _, stands.weaken fun _ => trivial, rfl,
                .inr ⟨_, rfl, rfl⟩⟩
              cases same
              exact ⟨own, nofun⟩
          · refine Program.meets_bind.mpr (Worker.during_meets.mpr
              (now_meets stands fun read changed stands => ?_))
            refine Program.meets_bind.mpr (Worker.during_meets.mpr
              (now_meets stands fun read now stands => ?_))
            refine Program.meets_bind.mpr (Worker.during_meets.mpr
              (commit_meets stands own (fun finished stands => ?_)
                fun reached exc _ stands => ?_))
            · refine Program.meets_bind.mpr (Worker.during_meets.mpr
                (record_meets stands fun counted stands => ?_))
              refine ⟨fun answer equal => ?_, fun failure equal => ?_⟩
              · refine ⟨_, _, stands.weaken False.elim, ?_, rfl⟩
                exact Environment.status_flush nofun
              · cases equal
            · refine ⟨fun answer equal => ?_, fun failure equal => ?_⟩
              · cases equal
              · cases equal
                refine ⟨fun held same => ?_, _, _, stands.weaken fun _ => trivial, rfl,
                  .inr ⟨_, rfl, rfl⟩⟩
                cases same
        · refine ⟨fun answer equal => ?_, fun failure equal => ?_⟩
          · cases equal
          · cases equal
            refine ⟨fun held same => ?_, _, _, stands.weaken fun _ => trivial, rfl,
              .inl ⟨rfl, rfl⟩⟩
            cases same
  · intro reached exc _ stands
    refine ⟨fun answer equal => ?_, fun failure equal => ?_⟩
    · cases equal
    · cases equal
      refine ⟨fun env held => ?_, row, [], stands.weaken fun some => ?_, rfl, .inl ⟨rfl, rfl⟩⟩
      · cases held
      · obtain ⟨env, rfl⟩ := Option.isSome_iff_exists.mp some
        rw [parse_of_row stands]
        rfl

/-- The sample counts an attempt of a task. -/
def total : Metric → Option (Task × Outcome)
  | .provisionTotal _ outcome => some (.provision, outcome)
  | .teardownTotal outcome => some (.teardown, outcome)
  | .provisionDuration _ _ => none

/-- The sample is a duration. -/
def timed : Metric → Bool
  | .provisionDuration _ _ => true
  | _ => false

/-- The books of one attempt: it is counted once, under its outcome; the duration is
observed exactly when it succeeds; it raises exactly when it does not, and publishes
the next attempt exactly when its outcome is a retry. -/
structure Accounts (message : Message) (trace : List (Entry Reply))
    (result : Except Exn Answer) (outcome : Outcome) : Prop where
  total : (trace.filterMap sampleOf).filterMap total = [(message.task, outcome)]
  duration : ((trace.filterMap sampleOf).filter timed).length =
    if message.task = .provision ∧ outcome = .success then 1 else 0
  success : outcome = .success ↔ ∃ answer, result = .ok answer
  published : trace.filterMap messageOf =
    if outcome = .retry then [(message.task, message.envId, message.retries + 1)] else []
  bounded : outcome = .retry → message.retries < message.task.maxRetries

/-- The status that a task ends in when it succeeds. -/
def finished : Task → EnvironmentStatus
  | .provision => .running
  | .teardown => .stopped

/-- STOPPING has been committed in a trace. -/
def Stops (trace : List (Entry Reply)) : Prop :=
  ∃ changes ∈ trace.filterMap changesOf, ∃ change ∈ changes, change.now.status = .stopping

/-- What an attempt makes of the row. -/
structure Leaves (marks : Prop) (task : Task) (outcome : Outcome)
    (row row' : Option Environment) (trace : List (Entry Reply)) : Prop where
  success : outcome = .success → ∃ env, row' = some env ∧ env.status = finished task
  failure : outcome = .failure → Marked marks row row'
  kept : row'.isSome = row.isSome
  retry : outcome = .retry → task = .teardown →
    (row' = row ∧ ¬Stops trace) ∨ ∃ env, row' = some env ∧ env.status = .stopping

/-- The books of an attempt that raises. -/
theorem accounts_of_error {message : Message} {result : Except Exn Answer} {exc : Exn}
    {outcome : Outcome} {metric : Metric}
    (raised : result = .error exc)
    (unsuccessful : outcome ≠ .success)
    (samples : trace.filterMap sampleOf = [metric])
    (counted : total metric = some (message.task, outcome))
    (published : trace.filterMap messageOf =
      if outcome = .retry then [(message.task, message.envId, message.retries + 1)] else [])
    (bounded : outcome = .retry → message.retries < message.task.maxRetries) :
    Accounts message trace result outcome := by
  refine ⟨?_, ?_, ⟨fun success => (unsuccessful success).elim, ?_⟩, published, bounded⟩
  · rw [samples, List.filterMap_cons_some counted]
    rfl
  · rw [samples, if_neg fun both => unsuccessful both.2]
    cases metric with
    | provisionDuration template elapsed => cases counted
    | _ => rfl
  · rintro ⟨answer, equal⟩
    rw [raised] at equal
    cases equal

/-- The books of `provision_environment`. -/
theorem provisionEnvironment_meets {message : Message} (task : message.task = .provision)
    (world : World) :
    (Worker.provisionEnvironment deployment message).Meets
      (service deployment message.envId marks)
      (fun reached result => ∃ outcome, Accounts message reached.2 result outcome ∧
        Leaves marks .provision outcome (rowOf message.envId world)
          (rowOf message.envId reached.1) reached.2) (world, []) := by
  have stands : Stands message.envId False (rowOf message.envId world) [] [] [] (world, []) :=
    ⟨rfl, False.elim, rfl, rfl, rfl⟩
  unfold Worker.provisionEnvironment
  refine Program.meets_bind.mpr (now_meets stands fun read started stands => ?_)
  refine Program.meets_tryCatch.mpr ((provisionAttempt_meets stands).mono ?_)
  rintro reached (failure | answer) ⟨succeeded, failed⟩
  · obtain ⟨keeps, row', writes, stands, some, -⟩ := failed failure rfl
    refine Program.meets_bind.mpr (markFailed_meets id keeps stands
      fun marked row'' writes stands mark => ?_)
    have leaves : ∀ outcome, outcome ≠ .success → ∀ trace,
        Leaves marks .provision outcome (rowOf message.envId world) row'' trace := by
      intro outcome raised trace
      refine ⟨fun success => (raised success).elim, fun _ => ?_, mark.1.trans some, fun _ => nofun⟩
      exact ⟨mark.1.trans some, fun marks present => mark.2 marks (some.trans present)⟩
    unfold Worker.selfRetry
    rw [task]
    dsimp only
    have pubTask : (message.task, message.envId, message.retries + 1) =
        (Task.provision, message.envId, message.retries + 1) := by rw [task]
    cases failure.exc.isValueError with
    | true =>
        refine Program.meets_bind.mpr (record_meets stands fun counted stands => ?_)
        refine ⟨.failure, accounts_of_error rfl nofun stands.samples (by rw [task]; rfl) ?_ nofun,
          ?_⟩
        · rw [stands.published, if_neg nofun]
        · rw [stands.row]
          exact leaves .failure nofun _
    | false =>
        by_cases exhausted : Task.provision.maxRetries ≤ message.retries
        · rw [decide_eq_true exhausted, if_pos exhausted]
          refine Program.meets_bind.mpr (record_meets stands fun counted stands => ?_)
          refine ⟨.failure, accounts_of_error rfl nofun stands.samples (by rw [task]; rfl) ?_
            nofun, ?_⟩
          · rw [stands.published, if_neg nofun]
          · rw [stands.row]
            exact leaves .failure nofun _
        · rw [decide_eq_false exhausted, if_neg exhausted]
          refine Program.meets_bind.mpr (record_meets stands fun counted stands => ?_)
          refine Program.meets_bind.mpr (publish_meets stands fun sent taskId stands => ?_)
          refine ⟨.retry, accounts_of_error rfl nofun stands.samples (by rw [task]; rfl) ?_
            fun _ => ?_, ?_⟩
          · rw [stands.published, if_pos rfl, pubTask]
            rfl
          · rw [task]
            exact Nat.lt_of_not_le exhausted
          · rw [stands.row]
            exact leaves .retry nofun _
  · obtain ⟨template, elapsed, env, writes, stands, running, present⟩ := succeeded answer rfl
    refine ⟨.success, ⟨?_, ?_, ⟨fun _ => ⟨answer, rfl⟩, fun _ => rfl⟩, ?_, nofun⟩, ?_⟩
    · rw [stands.samples, task]
      rfl
    · rw [stands.samples, if_pos ⟨task, rfl⟩]
      rfl
    · rw [stands.published, if_neg nofun]
    · rw [stands.row]
      exact ⟨fun _ => ⟨env, rfl, running⟩, nofun, present.symm, fun _ => nofun⟩

/-- The books of `teardown_environment`. -/
theorem teardownEnvironment_meets {message : Message} (task : message.task = .teardown)
    (world : World) :
    (Worker.teardownEnvironment message).Meets (service deployment message.envId marks)
      (fun reached result => ∃ outcome, Accounts message reached.2 result outcome ∧
        Leaves marks .teardown outcome (rowOf message.envId world)
          (rowOf message.envId reached.1) reached.2) (world, []) := by
  have stands : Stands message.envId False (rowOf message.envId world) [] [] [] (world, []) :=
    ⟨rfl, False.elim, rfl, rfl, rfl⟩
  unfold Worker.teardownEnvironment
  refine Program.meets_tryCatch.mpr ((teardownAttempt_meets stands).mono ?_)
  rintro reached (failure | answer) ⟨succeeded, failed⟩
  · obtain ⟨keeps, row', writes, stands, some, row⟩ := failed failure rfl
    unfold Worker.selfRetry
    rw [task]
    dsimp only
    by_cases exhausted : Task.teardown.maxRetries ≤ message.retries
    · rw [decide_eq_true exhausted]
      refine Program.meets_bind.mpr (record_meets stands fun counted stands => ?_)
      refine Program.meets_bind.mpr (markFailed_meets id keeps stands
        fun marked row'' writes stands mark => ?_)
      refine ⟨.failure, accounts_of_error rfl nofun stands.samples (by rw [task]; rfl) ?_ nofun,
        ?_⟩
      · rw [stands.published, if_neg nofun]
      · rw [stands.row]
        refine ⟨nofun, fun _ => ⟨mark.1.trans some, fun marks present => ?_⟩,
          mark.1.trans some, nofun⟩
        exact mark.2 marks (some.trans present)
    · rw [decide_eq_false exhausted, if_neg exhausted]
      refine Program.meets_bind.mpr (record_meets stands fun counted stands => ?_)
      refine Program.meets_bind.mpr (publish_meets stands fun sent taskId stands => ?_)
      refine ⟨.retry, accounts_of_error rfl nofun stands.samples (by rw [task]; rfl) ?_
        fun _ => ?_, ?_⟩
      · rw [stands.published, if_pos rfl, task]
        rfl
      · rw [task]
        exact Nat.lt_of_not_le exhausted
      · rw [stands.row]
        refine ⟨nofun, nofun, some, fun _ _ => row.imp (fun same => ⟨same.1, ?_⟩) id⟩
        rintro ⟨changes, present, -⟩
        rw [stands.written, same.2] at present
        cases present
  · obtain ⟨env, writes, stands, stopped, present⟩ := succeeded answer rfl
    refine ⟨.success, ⟨?_, ?_, ⟨fun _ => ⟨answer, rfl⟩, fun _ => rfl⟩, ?_, nofun⟩, ?_⟩
    · rw [stands.samples, task]
      rfl
    · rw [stands.samples, if_neg (by rw [task]; exact nofun)]
      rfl
    · rw [stands.published, if_neg nofun]
    · rw [stands.row]
      exact ⟨fun _ => ⟨env, rfl, stopped⟩, nofun, present.symm, nofun⟩

/-! ## Lineages -/

/-- One attempt: its calls, the world it leaves and its result. -/
structure Attempt where
  trace : List (Entry Reply)
  reached : World
  result : Except Exn Answer

/-- The attempt is one for this message, and nobody else writes its row. -/
def Attempt.Runs (deployment : Deployment) (message : Message) (world : World)
    (attempt : Attempt) : Prop :=
  Executes (amid deployment message.envId) world (program deployment (.task message))
    attempt.trace attempt.reached attempt.result

/-- The messages that an attempt publishes. -/
def Attempt.published (attempt : Attempt) : List (Task × String × Nat) :=
  attempt.trace.filterMap messageOf

/-- The attempts of a message and of the retries that it causes. -/
inductive Chain (deployment : Deployment) : Message → World → List Attempt → Prop
  | closed (message : Message) (world : World) (attempt : Attempt) :
      attempt.Runs deployment message world →
      attempt.published = [] →
      Chain deployment message world [attempt]
  | again (message next : Message) (world : World) (attempt : Attempt)
      (rest : List Attempt) :
      attempt.Runs deployment message world →
      (next.task, next.envId, next.retries) ∈ attempt.published →
      Chain deployment next attempt.reached rest →
      Chain deployment message world (attempt :: rest)

/-- The books of every attempt. -/
theorem books_of_runs {message : Message} {attempt : Attempt}
    (runs : attempt.Runs deployment message world) :
    ∃ outcome, Accounts message attempt.trace attempt.result outcome ∧
      Leaves (Marks attempt.trace) message.task outcome (rowOf message.envId world)
        (rowOf message.envId attempt.reached) attempt.trace := by
  have executed : Executes (service deployment message.envId (Marks attempt.trace))
      (world, []) (program deployment (.task message)) attempt.trace
      (attempt.reached, [] ++ attempt.trace) attempt.result :=
    Executes.recorded runs fun before entry after split marks => marks before entry after split
  unfold program at executed
  dsimp only at executed
  cases task : message.task with
  | provision =>
      rw [task] at executed
      exact executed.meets (provisionEnvironment_meets task world)
  | teardown =>
      rw [task] at executed
      exact executed.meets (teardownEnvironment_meets task world)

/-- What is counted for one attempt of a task: it increments exactly one total, the one
of its outcome; the duration is observed exactly when a provision succeeds; it returns
exactly when it succeeds, and is followed by another attempt exactly when it is a retry. -/
structure Books (task : Task) (attempt : Attempt) (outcome : Outcome) : Prop where
  total : (attempt.trace.filterMap sampleOf).filterMap Lineage.total = [(task, outcome)]
  duration : ((attempt.trace.filterMap sampleOf).filter timed).length =
    if task = .provision ∧ outcome = .success then 1 else 0
  returns : outcome = .success ↔ ∃ answer, attempt.result = .ok answer
  followed : outcome = .retry ↔ attempt.published ≠ []

theorem books_of_accounts {message : Message} {attempt : Attempt} {outcome : Outcome}
    (accounts : Accounts message attempt.trace attempt.result outcome) :
    Books message.task attempt outcome := by
  refine ⟨accounts.total, accounts.duration, accounts.success, ?_⟩
  unfold Attempt.published
  rw [accounts.published]
  split
  · rename_i retry
    exact ⟨fun _ => List.cons_ne_nil _ _, fun _ => retry⟩
  · rename_i other
    exact ⟨fun retry => (other retry).elim, fun some => (some rfl).elim⟩

/-- The outcomes of a lineage: retries, at most as many as the task has left, and then
one success or failure. -/
theorem outcomes_of_chain {message : Message} {attempts : List Attempt}
    (chain : Chain deployment message world attempts) :
    ∃ k last, last ≠ .retry ∧ k ≤ message.task.maxRetries - message.retries ∧
      List.Forall₂ (Books message.task) attempts (List.replicate k .retry ++ [last]) ∧
      ∃ final ∈ attempts.getLast?, (rowOf message.envId world).isSome = true →
        (∀ attempt ∈ attempts, Marks attempt.trace) →
        ∃ env, rowOf message.envId final.reached = some env ∧
          (last = .success → env.status = finished message.task) ∧
          (last = .failure → env.status = .failed) := by
  induction chain with
  | closed message world attempt runs none =>
      obtain ⟨outcome, accounts, leaves⟩ := books_of_runs runs
      have books := books_of_accounts accounts
      have closed : outcome ≠ .retry := fun retry => books.followed.mp retry none
      refine ⟨0, outcome, closed, Nat.zero_le _, .cons books .nil, attempt, rfl,
        fun present marks => ?_⟩
      have marked := marks attempt (List.mem_singleton_self _)
      cases outcome with
      | success =>
          obtain ⟨env, found, status⟩ := leaves.success rfl
          exact ⟨env, found, fun _ => status, nofun⟩
      | failure =>
          obtain ⟨env, found, status⟩ := (leaves.failure rfl).2 marked present
          exact ⟨env, found, nofun, fun _ => status⟩
      | retry => exact (closed rfl).elim
  | again message next world attempt rest runs sent chain inductionHypothesis =>
      obtain ⟨outcome, accounts, leaves⟩ := books_of_runs runs
      have books := books_of_accounts accounts
      have retry : outcome = .retry :=
        books.followed.mpr (List.ne_nil_of_mem sent)
      subst retry
      unfold Attempt.published at sent
      rw [accounts.published, if_pos rfl, List.mem_singleton, Prod.mk.injEq, Prod.mk.injEq] at sent
      obtain ⟨task, envId, retries⟩ := sent
      obtain ⟨k, last, closed, few, all, final, ends, row⟩ := inductionHypothesis
      have bounded := accounts.bounded rfl
      rw [task] at few all row
      rw [retries] at few
      rw [envId] at row
      refine ⟨k + 1, last, closed, by omega, .cons books all, final, ?_, fun present marks => ?_⟩
      · have some : rest ≠ [] := by
          intro none
          rw [none] at ends
          cases ends
        rw [List.getLast?_cons_of_ne_nil some]
        exact ends
      · exact row (leaves.kept.trans present)
          fun attempt later => marks attempt (List.mem_cons_of_mem _ later)

/-- Between the attempts of a teardown the row is STOPPING once one of them has
committed it. -/
theorem stopping_of_chain {message : Message} {attempts : List Attempt}
    (chain : Chain deployment message world attempts)
    (task : message.task = .teardown)
    {before after : List Attempt} {attempt : Attempt}
    (split : attempts = before ++ attempt :: after)
    (followed : after ≠ [])
    (stops : (∃ env, rowOf message.envId world = some env ∧ env.status = .stopping) ∨
      ∃ earlier ∈ before ++ [attempt], Stops earlier.trace) :
    ∃ env, rowOf message.envId attempt.reached = some env ∧ env.status = .stopping := by
  induction chain generalizing before with
  | closed message world only runs none =>
      cases before with
      | nil =>
          cases split
          exact (followed rfl).elim
      | cons first before =>
          rw [List.cons_append, List.cons.injEq] at split
          exact (List.append_ne_nil_of_right_ne_nil _ (List.cons_ne_nil _ _) split.2.symm).elim
  | again message next world first rest runs sent chain inductionHypothesis =>
      obtain ⟨outcome, accounts, leaves⟩ := books_of_runs runs
      have retry : outcome = .retry :=
        (books_of_accounts accounts).followed.mpr (List.ne_nil_of_mem sent)
      subst retry
      unfold Attempt.published at sent
      rw [accounts.published, if_pos rfl, List.mem_singleton, Prod.mk.injEq, Prod.mk.injEq] at sent
      obtain ⟨sameTask, envId, retries⟩ := sent
      have here : ((∃ env, rowOf message.envId world = some env ∧ env.status = .stopping) ∨
          Stops first.trace) →
          ∃ env, rowOf message.envId first.reached = some env ∧ env.status = .stopping := by
        rintro (stopping | now)
        · rcases leaves.retry rfl task with ⟨same, -⟩ | stopping'
          · rw [same]
            exact stopping
          · exact stopping'
        · exact (leaves.retry rfl task).resolve_left fun kept => kept.2 now
      cases before with
      | nil =>
          rw [List.nil_append, List.cons.injEq] at split
          rw [← split.1]
          refine here (stops.imp_right ?_)
          rintro ⟨earlier, present, now⟩
          rw [List.nil_append, List.mem_singleton] at present
          rw [split.1, ← present]
          exact now
      | cons other before =>
          rw [List.cons_append, List.cons.injEq] at split
          rw [envId] at inductionHypothesis
          refine inductionHypothesis (sameTask.trans task) split.2 ?_
          rcases stops with stopping | ⟨earlier, present, now⟩
          · exact .inl (here (.inl stopping))
          · rcases List.mem_cons.mp present with rfl | later
            · exact .inl (here (.inr (split.1 ▸ now)))
            · exact .inr ⟨earlier, later, now⟩

/-- A lone attempt against a daemon that may fail is an attempt. -/
theorem runs_of_execute {message : Message} {choices : List Choice} {attempt : Attempt}
    (executed : (machine deployment).execute Teardown.DaemonFails choices world
      (program deployment (.task message)) =
        some (attempt.trace, attempt.reached, attempt.result)) :
    attempt.Runs deployment message world := by
  refine (Machine.executes_of_execute executed).mono ?_
  rintro state request reply next ⟨choice, allowed, answered⟩
  refine ⟨state, choice, rfl, fun broker => allowed.resolve_left ?_, answered⟩
  rw [broker]
  exact nofun

/-- The message of the sample request, and of its first retry. -/
def sampleMessage (retries : Nat) : Message :=
  ⟨.provision, (Sample.envId 1).str, retries, 0⟩

/-- A first attempt that the daemon refuses a network, and a second one that succeeds. -/
def sampleAttempts : Option (World × List Attempt) := do
  let config ← (System.initial true).run (machine Compose.shipped) (fun _ _ => True)
    (Sample.create 0 1)
  let (trace, reached, result) ← (machine Compose.shipped).execute Teardown.DaemonFails
    (List.replicate 4 .ok ++ Sample.refused :: List.replicate 5 .ok) config.state
    (program Compose.shipped (.task (sampleMessage 0)))
  let (trace', reached', result') ← (machine Compose.shipped).execute Teardown.DaemonFails
    (List.replicate 8 .ok ++ Sample.healthy :: List.replicate 3 .ok ++
      Sample.healthy :: Sample.healthy :: List.replicate 6 .ok) reached
    (program Compose.shipped (.task (sampleMessage 1)))
  some (config.state, [⟨trace, reached, result⟩, ⟨trace', reached', result'⟩])

end Lineage

end Provisioner
