import Provisioner.Resumption.Interleaving

/-!
# A shared log and who wrote it

Some calls append to a log that all threads share. What a call appends can be read off its
answered call, so in every run the log consists of what the traces of the threads account for,
in some order. Counting in the log is then counting in the traces, thread by thread.
-/

namespace Resumption

variable {State Role Call Ambient Choice ε α β γ : Type} {Reply : Call → Type}

/-- A thread that moves on adds the rest of its account. -/
theorem perm_flatMap_set {items : List γ} {index : Nat} {item item' : γ} {account : γ → List β}
    {more : List β} (found : items[index]? = some item)
    (grown : account item' = account item ++ more) :
    (items.flatMap account ++ more).Perm ((items.set index item').flatMap account) := by
  obtain ⟨within, same⟩ := List.getElem?_eq_some_iff.mp found
  have split : items = items.take index ++ item :: items.drop (index + 1) := by
    rw [← same, ← List.drop_eq_getElem_cons within, List.take_append_drop]
  rw [List.set_eq_take_append_cons_drop, if_pos within]
  conv => lhs; rw [split]
  simp only [List.flatMap_append, List.flatMap_cons, List.append_assoc, grown]
  exact (List.perm_append_comm.append_left _).append_left _

/-- What the trace of a thread accounts for. -/
def Thread.account (note : Entry Reply → Option β) (thread : Thread Role Call Reply ε α) : List β :=
  thread.trace.filterMap note

theorem filterMap_concat (note : γ → Option β) (items : List γ) (item : γ) :
    (items ++ [item]).filterMap note = items.filterMap note ++ (note item).toList := by
  rw [List.filterMap_append]
  cases noted : note item with
  | none => rw [List.filterMap_cons_none noted]; rfl
  | some value => rw [List.filterMap_cons_some noted]; rfl

/-- The log of a run holds what the traces account for. -/
theorem Run.tallies
    {machine : Machine State Role Call Reply Ambient Choice ε α}
    {allowed : Config State Role Call Reply ε α → Event Ambient Choice → Prop}
    {start config : Config State Role Call Reply ε α}
    (run : Run machine allowed start config)
    (log : State → List β) (note : Entry Reply → Option β)
    (idle : start.threads = [])
    (empty : log start.state = [])
    (ambient : ∀ state action next role,
      machine.ambient state action = some (next, role) → log next = log state)
    (exec : ∀ state request choice (reply : Reply request) next,
      machine.exec state request choice = some (reply, next) →
        log next = log state ++ (note ⟨request, reply⟩).toList) :
    (log config.state).Perm (config.threads.flatMap (Thread.account note)) := by
  refine run.invariant (fun config =>
    (log config.state).Perm (config.threads.flatMap (Thread.account note))) ?_ ?_
  · rw [idle, empty]
    exact .nil
  · intro config event after tallied _ stepped
    cases stepped with
    | ambient action state acted => exact ambient _ _ _ _ acted ▸ tallied
    | spawn action state role acted =>
        have same := ambient _ _ _ _ acted
        rw [Config.spawn, List.flatMap_append, same]
        simpa [Thread.start, Thread.account] using tallied
    | kill index thread found alive =>
        have same : thread.killed.account note = thread.account note ++ [] :=
          (List.append_nil _).symm
        have kept := perm_flatMap_set found same
        rw [List.append_nil] at kept
        exact tallied.trans kept
    | call index thread request resume choice reply state found alive rest executed =>
        rw [Config.put, exec _ _ _ _ _ executed]
        exact (tallied.append_right _).trans
          (perm_flatMap_set found (filterMap_concat note thread.trace _))

/-- Counts that agree thread by thread, up to a case, agree in total up to that case. -/
theorem sum_map_eq_add {items : List γ} {left right : γ → Nat} {odd : γ → Bool}
    (each : ∀ item ∈ items, left item = right item + if odd item then 1 else 0) :
    (items.map left).sum = (items.map right).sum + items.countP odd := by
  induction items with
  | nil => rfl
  | cons item items inductionHypothesis =>
      have rest := inductionHypothesis fun other member =>
        each other (List.mem_cons_of_mem _ member)
      have here := each item List.mem_cons_self
      rw [List.map_cons, List.sum_cons, List.map_cons, List.sum_cons, List.countP_cons, rest, here]
      omega

end Resumption
