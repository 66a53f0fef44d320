import Provisioner.Integrity

/-!
# One thread alone

A thread that runs while nothing else moves, against a world whose answers are
restricted: which services may fail is a parameter. The rules give what each
kind of call returns when it may not fail.
-/

namespace Provisioner

open Resumption

/-- An answer that is not a failure. -/
def Choice.succeeds : Choice → Bool
  | .fail _ | .failAfter _ => false
  | _ => true

/-- No service fails. -/
def Reliable (_ : World) (_ : Call) (choice : Choice) : Prop :=
  choice.succeeds = true

instance (world : World) (request : Call) (choice : Choice) :
    Decidable (Reliable world request choice) :=
  inferInstanceAs (Decidable (_ = true))

/-- Every service may answer in any way it can. -/
def Unrestricted (_ : World) (_ : Call) (_ : Choice) : Prop :=
  True

instance (world : World) (request : Call) (choice : Choice) :
    Decidable (Unrestricted world request choice) :=
  .isTrue trivial

/-- The world as a lone thread sees it. -/
abbrev lone (deployment : Deployment) (granted : World → Call → Choice → Prop) :
    Service World Call Reply :=
  (machine deployment).service granted

/-- A call that always succeeds unless its service fails. -/
def Call.plain : Call → Bool
  | .now | .sleepUntil _ | .record _ | .loadEnvironment _
  | .findActive _ _ | .listOwned _ _ _ _ | .selectExpired _ | .selectStale _ _ _
  | .commitChanges _ | .publish _ _ _ _ | .containersList | .networksList => true
  | _ => false

/-- A count over the rows of an owner. -/
def Call.counts : Call → Bool
  | .countActive _ | .countOwned _ _ => true
  | _ => false

/-- A call to the daemon that can be answered in one way only, apart from failures. -/
def Call.direct : Call → Bool
  | .networksCreate _ _ | .networkGet _ | .networkRemove _ | .containersRun _
  | .containerGet _ | .containerStop _ | .containerRemove _ => true
  | _ => false

theorem Call.target_of_direct {request : Call} (direct : request.direct = true) :
    request.target = .docker := by
  cases request <;> first | rfl | cases direct

namespace Alone

variable {deployment : Deployment} {granted : World → Call → Choice → Prop}
  {world next : World} {request : Call}

/-- The rule for one call. -/
theorem meets_perform {post : World → Except Exn request.Result → Prop} :
    (perform request).Meets (lone deployment granted) post world ↔
      (∃ choice reply next, granted world request choice ∧
        world.exec request choice = some (reply, next)) ∧
      ∀ choice (reply : Reply request) next, granted world request choice →
        world.exec request choice = some (reply, next) → post next reply := by
  constructor
  · rintro ⟨permitted, answered⟩
    refine ⟨permitted, fun choice reply next allowed executed => ?_⟩
    have met := answered reply next ⟨choice, allowed, executed⟩
    cases reply with
    | ok value => exact met
    | error exc => exact met
  · rintro ⟨permitted, answered⟩
    refine ⟨permitted, ?_⟩
    rintro reply next ⟨choice, allowed, executed⟩
    cases reply with
    | ok value => exact answered choice (.ok value) next allowed executed
    | error exc => exact answered choice (.error exc) next allowed executed

/-- An execution of one call. -/
theorem executes_perform {State : Type} {service : Service State Call Reply}
    {state last : State} {trace : List (Entry Reply)} {result : Except Exn request.Result} :
    Executes service state (perform request) trace last result ↔
      trace = [⟨request, result⟩] ∧ service.answers state request result last := by
  unfold perform
  rw [Executes.call_iff]
  constructor
  · rintro ⟨reply, middle, rest, rfl, answered, continued⟩
    cases reply with
    | ok value =>
        obtain ⟨rfl, rfl, rfl⟩ := Executes.pure_iff.mp continued
        exact ⟨rfl, answered⟩
    | error exc =>
        obtain ⟨rfl, rfl, rfl⟩ := Executes.raise_iff.mp continued
        exact ⟨rfl, answered⟩
  · rintro ⟨rfl, answered⟩
    refine ⟨result, last, [], rfl, answered, ?_⟩
    cases result with
    | ok value => exact .pure _ _
    | error exc => exact .raise _ _

/-- A program that meets a condition in a world where every call is answered ends in it. -/
theorem exists_ends {α : Type} {action : Action α} {post : World → Except Exn α → Prop}
    (met : action.Meets (lone deployment granted) post world) :
    ∃ trace last result, Executes (lone deployment granted) world action trace last result ∧
      post last result := by
  obtain ⟨trace, last, result, executed⟩ := exists_executes
    (fun state request permitted => by
      obtain ⟨choice, reply, next, allowed, answered⟩ := permitted
      exact ⟨reply, next, choice, allowed, answered⟩) met
  exact ⟨trace, last, result, executed, executed.meets met⟩

/-- An execution in a restricted world is one in an unrestricted world. -/
theorem unrestricted {α : Type} {action : Action α} {trace : List (Entry Reply)}
    {result : Except Exn α}
    (executed : Executes (lone deployment granted) world action trace next result) :
    Executes (lone deployment Unrestricted) world action trace next result := by
  refine executed.mono ?_
  rintro state request reply reached ⟨choice, -, answered⟩
  exact ⟨choice, trivial, answered⟩

/-- A plain call does not raise by itself. -/
theorem ok_of_plain {choice : Choice} {reply : Reply request}
    (plain : request.plain = true)
    (succeeds : choice.succeeds = true)
    (executed : world.exec request choice = some (reply, next)) :
    ∃ value, reply = .ok value := by
  cases choice with
  | ok => cases request <;> first | (cases executed; exact ⟨_, rfl⟩) | cases plain
  | fail exc => cases succeeds
  | failAfter exc => cases succeeds
  | fresh id => cases request <;> first | cases executed | cases plain
  | rows rows =>
      cases request <;> first
        | cases executed
        | (simp only [World.exec, World.ordered] at executed
           split at executed
           · cases executed
             exact ⟨_, rfl⟩
           · cases executed)
  | containers containers =>
      cases request <;> first
        | cases executed
        | (simp only [World.exec] at executed
           split at executed
           · cases executed
             exact ⟨_, rfl⟩
           · cases executed)
  | networks networks =>
      cases request <;> first
        | cases executed
        | (simp only [World.exec] at executed
           split at executed
           · cases executed
             exact ⟨_, rfl⟩
           · cases executed)
  | observed observation => cases request <;> first | cases executed | cases plain

/-- A task only makes plain calls to the database: it inserts and counts nothing. -/
theorem plain_of_attempt {deployment : Deployment} {phase : Phase} {task : Task}
    (attempt : phase.role.runs task)
    (permits : phase.permits deployment request)
    (database : request.target = .database) : request.plain = true := by
  cases request with
  | flushInsert name owner template ttlSeconds =>
      obtain ⟨payload, count, role, -⟩ := permits
      rw [role] at attempt
      exact attempt.elim
  | commitInsert env =>
      obtain ⟨owner, payload, count, role, -⟩ := permits
      rw [role] at attempt
      exact attempt.elim
  | countActive owner =>
      obtain ⟨payload, role⟩ := permits
      rw [role] at attempt
      exact attempt.elim
  | countOwned owner status =>
      obtain ⟨limit, offset, role⟩ := permits
      rw [role] at attempt
      exact attempt.elim
  | _ => first | rfl | cases database

/-- The rule for a plain call that may not fail. -/
theorem meets_plain {post : World → Except Exn request.Result → Prop}
    (plain : request.plain = true)
    (serves : granted world request .ok)
    (safe : ∀ choice, granted world request choice → choice.succeeds = true)
    (continues : ∀ value next, world.Effect request (.ok value) next →
      post next (.ok value)) :
    (perform request).Meets (lone deployment granted) post world := by
  refine meets_perform.mpr ⟨?_, fun choice reply next allowed executed => ?_⟩
  · obtain ⟨answer, answered⟩ : ∃ answer, world.exec request .ok = some answer := by
      cases request <;> first | exact ⟨_, rfl⟩ | cases plain
    exact ⟨.ok, answer.1, answer.2, serves, answered⟩
  · obtain ⟨value, rfl⟩ := ok_of_plain plain (safe choice allowed) executed
    exact continues value next (World.exec_effect executed)

/-- The rule for a count that may not fail: the database answers it in one way. -/
theorem meets_count {reply : Reply request} {post : World → Except Exn request.Result → Prop}
    (counts : request.counts = true)
    (counted : world.succeed request = some (reply, world))
    (serves : granted world request .ok)
    (safe : ∀ choice, granted world request choice → choice.succeeds = true)
    (met : post world reply) :
    (perform request).Meets (lone deployment granted) post world := by
  refine meets_perform.mpr ⟨⟨.ok, reply, world, serves, counted⟩, ?_⟩
  intro choice reply' next allowed executed
  cases choice with
  | ok =>
      have same := counted.symm.trans executed
      cases same
      exact met
  | fail exc => cases safe _ allowed
  | failAfter exc => cases safe _ allowed
  | _ => cases request <;> first | cases executed | cases counts

/-- A plain call to services that do not fail returns. -/
theorem executes_plain {trace : List (Entry Reply)} {result : Except Exn request.Result}
    (plain : request.plain = true)
    (executed : Executes (lone deployment Reliable) world (perform request) trace next
      result) :
    ∃ value, result = .ok value ∧ world.Effect request (.ok value) next := by
  obtain ⟨-, choice, succeeds, answered⟩ := executes_perform.mp executed
  obtain ⟨value, rfl⟩ := ok_of_plain plain succeeds answered
  exact ⟨value, rfl, World.exec_effect answered⟩

/-- The rule for a plain call to services that do not fail. -/
theorem reliable_meets {post : World → Except Exn request.Result → Prop}
    (plain : request.plain = true)
    (continues : ∀ value next, world.Effect request (.ok value) next →
      post next (.ok value)) :
    (perform request).Meets (lone deployment Reliable) post world :=
  meets_plain plain rfl (fun _ allowed => allowed) continues

/-- The rule for a direct call that may not fail. -/
theorem meets_direct {reply : Reply request} {post : World → Except Exn request.Result → Prop}
    (direct : request.direct = true)
    (serves : granted world request .ok)
    (safe : ∀ choice, granted world request choice → choice.succeeds = true)
    (succeeded : world.succeed request = some (reply, next))
    (continues : post next reply) :
    (perform request).Meets (lone deployment granted) post world := by
  refine meets_perform.mpr ⟨⟨.ok, reply, next, serves, succeeded⟩, ?_⟩
  intro choice reply' next' allowed executed
  have succeeds := safe choice allowed
  have same : world.succeed request = some (reply', next') := by
    cases choice with
    | ok => exact executed
    | fail exc => cases succeeds
    | failAfter exc => cases succeeds
    | _ => cases request <;> first | cases executed | cases direct
  rw [succeeded] at same
  cases same
  exact continues

end Alone

end Provisioner
