import Provisioner.Resumption.Interleaving
import Mathlib.Logic.Relation

/-!
# What runs look like from one side

A view shows one part of the shared state. If every call of a thread either leaves the view
alone or is an act that the thread's role may perform on it, and the surroundings leave it
alone, then along every run the view moves by such acts only, all of them acts of threads of
the run. So a part of the state that no thread of the run may act on does not change.
-/

namespace Resumption

variable {State Role Call Ambient Choice ε α View : Type} {Reply : Call → Type}
  {machine : Machine State Role Call Reply Ambient Choice ε α}
  {allowed : Config State Role Call Reply ε α → Event Ambient Choice → Prop}
  {start config : Config State Role Call Reply ε α}

/-- A role acts on the view, and one of the threads has it. -/
def Config.Acts (config : Config State Role Call Reply ε α)
    (acts : Role → View → View → Prop) (before after : View) : Prop :=
  ∃ thread ∈ config.threads, acts thread.role before after

/-- The roles of a configuration are those of every later one. -/
theorem Step.exists_role {event : Event Ambient Choice}
    {next : Config State Role Call Reply ε α} (step : Step machine config event next)
    {thread : Thread Role Call Reply ε α} (member : thread ∈ config.threads) :
    ∃ other ∈ next.threads, other.role = thread.role := by
  have put : ∀ (index : Nat) (old new : Thread Role Call Reply ε α),
      config.threads[index]? = some old → new.role = old.role →
      ∃ other ∈ config.threads.set index new, other.role = thread.role := by
    intro index old new found same
    obtain ⟨position, located⟩ := List.getElem?_of_mem member
    by_cases here : position = index
    · subst here
      rw [found] at located
      cases located
      exact ⟨new, List.mem_of_getElem?
        (List.getElem?_set_self (List.getElem?_eq_some_iff.mp found).1), same⟩
    · refine ⟨thread, List.mem_of_getElem? (i := position) ?_, rfl⟩
      rw [List.getElem?_set_ne (Ne.symm here)]
      exact located
  cases step with
  | ambient action state acted => exact ⟨thread, member, rfl⟩
  | spawn action state role acted => exact ⟨thread, List.mem_append_left _ member, rfl⟩
  | kill index old found alive => exact put index old old.killed found rfl
  | call index old request resume choice reply state found alive rest executed =>
      exact put index old _ found rfl

/-- Along a run the view moves by acts of the threads of the run. -/
theorem Run.projects
    (view : State → View)
    (acts : Role → View → View → Prop)
    (run : Run machine allowed start config)
    (ambient : ∀ state action next spawned, machine.ambient state action = some (next, spawned) →
      view next = view state)
    (call : ∀ (config : Config State Role Call Reply ε α) (index : Nat)
      (thread : Thread Role Call Reply ε α) request
      (resume : Reply request → Program Call Reply ε α) choice reply next,
      Run machine allowed start config → allowed config (.advance index choice) →
      config.threads[index]? = some thread → thread.rest = .call request resume →
      machine.exec config.state request choice = some (reply, next) →
      view next = view config.state ∨ acts thread.role (view config.state) (view next)) :
    Relation.ReflTransGen (config.Acts acts) (view start.state) (view config.state) := by
  induction run with
  | refl => exact .refl
  | @next config after event ran permitted stepped inductionHypothesis =>
      have longer : Relation.ReflTransGen (after.Acts acts) (view start.state)
          (view config.state) := by
        refine Relation.ReflTransGen.mono (fun before after acted => ?_) _ _ inductionHypothesis
        obtain ⟨thread, member, acts⟩ := acted
        obtain ⟨other, present, same⟩ := stepped.exists_role member
        exact ⟨other, present, same.symm ▸ acts⟩
      have moves : view after.state = view config.state ∨
          after.Acts acts (view config.state) (view after.state) := by
        cases stepped with
        | ambient action state acted => exact .inl (ambient _ _ _ _ acted)
        | spawn action state role acted => exact .inl (ambient _ _ _ _ acted)
        | kill index thread found alive => exact .inl rfl
        | call index thread request resume choice reply state found alive rest executed =>
            refine (call config index thread request resume choice reply state ran permitted
              found rest executed).imp_right fun acted => ?_
            exact ⟨_, List.mem_of_getElem?
              (List.getElem?_set_self (List.getElem?_eq_some_iff.mp found).1), acted⟩
      rcases moves with same | acted
      · rw [same]
        exact longer
      · exact longer.tail acted

/-- A view on which no thread of the run may act does not change. -/
theorem Config.Acts.unchanged {acts : Role → View → View → Prop} {before after : View}
    (moved : Relation.ReflTransGen (config.Acts acts) before after)
    (idle : ∀ thread ∈ config.threads, ∀ other, ¬acts thread.role before other) :
    after = before := by
  rcases moved.cases_head with same | ⟨other, ⟨thread, member, acted⟩, -⟩
  · exact same.symm
  · exact (idle thread member other acted).elim

end Resumption
