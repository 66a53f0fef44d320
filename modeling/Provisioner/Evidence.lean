import Provisioner.Integrity
import Provisioner.Resumption.Evidence

/-!
# The evidence of the service

What a thread of the service has been answered stays true in the ways that matter later: an
instant it read is past, a row it saw is an earlier copy of a committed row, an insert it
flushed has the key it was given.
-/

namespace Provisioner

open Resumption

/-- What an answer tells for good. -/
def World.Told (world : World) : Entry Reply → Prop
  | ⟨.now, .ok instant⟩ => instant ≤ world.clock
  | ⟨.loadEnvironment id, .ok (some env)⟩ => env.id = id ∧ world.db.Held env
  | ⟨.selectExpired instant, .ok rows⟩ => ∀ env ∈ rows,
      world.db.Held env ∧ env.status = .running ∧ ∃ due ∈ env.expiresAt, due ≤ instant
  | ⟨.flushInsert name owner template ttlSeconds, .ok env⟩ =>
      ∃ instant ≤ world.clock, env = .inserted env.id name owner template ttlSeconds instant
  | ⟨.commitInsert env, .ok _⟩ => world.db.Held env
  | _ => True

namespace Evidence

/-- The replies that a call can get. -/
def Possible (request : Call) (reply : Reply request) : Prop :=
  ∀ exc, reply = .error exc → request.target.raises exc.cls = true

variable {deployment : Deployment} {refuses : Bool}
  {allowed : System → Occurrence → Prop} {config : System} {world next : World}
  {role : Role} {trace : List (Entry Reply)} {justified : Role → List (Entry Reply) → Call → Prop}

theorem describes (deployment : Deployment)
    (justified : Role → List (Entry Reply) → Call → Prop) :
    (evidence Possible justified).Describes (machine deployment) :=
  fun _ _ _ _ _ executed _ raised => (World.exec_effect executed).raises raised

/-- The rule for a call that is performed. -/
theorem allows_perform {request : Call}
    {post : Role × List (Entry Reply) → Except Exn request.Result → Prop}
    (justifies : justified role trace request)
    (continues : ∀ reply : Reply request, post (role, trace ++ [⟨request, reply⟩]) reply) :
    (evidence Possible justified).Allows post (role, trace) (perform request) := by
  refine evidence_call justifies fun reply _ => ?_
  cases reply with
  | ok value => exact continues (.ok value)
  | error exc => exact continues (.error exc)

theorem mem_concat (trace : List (Entry Reply)) (entry : Entry Reply) :
    entry ∈ trace ++ [entry] :=
  List.mem_append_right _ (List.mem_singleton_self entry)

/-- What was told stays true while the world grows. -/
theorem told_mono {entry : Entry Reply} (told : world.Told entry) (grows : world.Grows next) :
    next.Told entry := by
  unfold World.Told at told ⊢
  split at told
  · exact le_trans told grows.clock
  · exact ⟨told.1, told.2.mono grows.db⟩
  · exact fun env present => ⟨(told env present).1.mono grows.db, (told env present).2⟩
  · obtain ⟨instant, past, same⟩ := told
    exact ⟨instant, le_trans past grows.clock, same⟩
  · exact told.mono grows.db
  · trivial

/-- An answer tells what is true. -/
theorem told_of_effect {request : Call} {reply : Reply request}
    (effect : world.Effect request reply next) : next.Told ⟨request, reply⟩ := by
  cases effect with
  | failed request exc _ => cases request <;> trivial
  | read request result reads =>
      cases request with
      | now => exact le_of_eq reads
      | loadEnvironment id =>
          cases result with
          | none => trivial
          | some env =>
              have found : some env = world.db.find id := reads
              exact ⟨Keyed.Table.key_of_find found.symm, Environments.held_of_find found.symm⟩
      | selectExpired instant =>
          intro env present
          have selected : result.Perm (world.selected (.selectExpired instant)) := reads
          have chosen := selected.mem_iff.mp present
          obtain ⟨member, due⟩ := List.mem_filter.mp chosen
          obtain ⟨running, expired⟩ := of_decide_eq_true due
          exact ⟨Environments.held_of_mem member, running, expired⟩
      | flushInsert name owner template ttlSeconds => cases reads
      | _ => trivial
  | slept instant => trivial
  | flushed id name owner template ttlSeconds unused fits =>
      exact ⟨world.clock, le_refl _, rfl⟩
  | inserted env absent =>
      refine Environments.held_of_mem ?_
      rw [Keyed.Table.rows_insert]
      exact List.mem_append_right _ (List.mem_singleton_self env)
  | committed changes => trivial
  | published task envId retries countdown => trivial
  | networkCreated name label reply _ _ => cases reply <;> trivial
  | containerCreated request reply _ _ _ _ _ => cases reply <;> trivial
  | containerRemoved id _ => trivial
  | networkRemoved id _ _ => trivial
  | recorded metric => trivial

/-- In every run, all that was told is true. -/
theorem told_of_runs (run : System.Runs deployment refuses allowed config) :
    ∀ job ∈ config.threads, ∀ entry ∈ job.trace, config.state.Told entry := by
  refine run.invariant (fun config => ∀ job ∈ config.threads, ∀ entry ∈ job.trace,
    config.state.Told entry) nofun ?_ ?_ ?_
  · intro config action next spawned _ told _ surrounds job member entry recorded
    rcases List.mem_append.mp member with old | new
    · exact told_mono (told job old entry recorded) (Integrity.grows_of_surrounds surrounds)
    · obtain ⟨role, -, rfl⟩ := Option.map_eq_some_iff.mp (Option.mem_toList.mp new)
      cases recorded
  · intro config index job _ told _ found alive
    exact forall_mem_set told (told job (List.mem_of_getElem? found))
  · intro config index job request resume choice reply next _ told _ found alive rest
      permits effect
    have kept : ∀ other ∈ config.threads, ∀ entry ∈ other.trace, next.Told entry :=
      fun other member entry recorded =>
        told_mono (told other member entry recorded) (Integrity.grows_of_effect permits effect)
    refine forall_mem_set kept fun entry recorded => ?_
    rcases List.mem_append.mp recorded with old | new
    · exact kept job (List.mem_of_getElem? found) entry old
    · rw [List.mem_singleton.mp new]
      exact told_of_effect effect

end Evidence

end Provisioner
