import Provisioner.Resumption.Interleaving

/-!
# Calls with evidence

What a thread has been answered so far may be what entitles it to its next call. The
protocol of this module remembers the whole trace of a thread and asks every call to be
justified by it. If all programs keep to it, then in every run every call that was made,
or is about to be made, is justified by what its thread had been answered before.
-/

namespace Resumption

variable {State Role Call Ambient Choice ε α : Type} {Reply : Call → Type}

/-- Every call is justified by the role of the thread and by the answers before it. -/
def evidence
    (possible : (request : Call) → Reply request → Prop)
    (justified : Role → List (Entry Reply) → Call → Prop) :
    Protocol (Role × List (Entry Reply)) Call Reply where
  permits known request := justified known.1 known.2 request
  possible := possible
  advance known request reply := (known.1, known.2 ++ [⟨request, reply⟩])

variable {possible : (request : Call) → Reply request → Prop}
  {justified : Role → List (Entry Reply) → Call → Prop}
  {machine : Machine State Role Call Reply Ambient Choice ε α}
  {allowed : Config State Role Call Reply ε α → Event Ambient Choice → Prop}
  {start config : Config State Role Call Reply ε α}
  {role : Role} {trace : List (Entry Reply)}

/-- The rule for one call. -/
theorem evidence_call {β ε' : Type} {request : Call}
    {resume : Reply request → Program Call Reply ε' β}
    {post : Role × List (Entry Reply) → Except ε' β → Prop}
    (justifies : justified role trace request)
    (continues : ∀ reply, possible request reply →
      (evidence possible justified).Allows post (role, trace ++ [⟨request, reply⟩])
        (resume reply)) :
    (evidence possible justified).Allows post (role, trace) (.call request resume) :=
  ⟨justifies, by rintro reply next ⟨able, rfl⟩; exact continues reply able⟩

/-- Calls that need no evidence only make the trace longer. -/
theorem evidence_of_makes {β ε' : Type} {good : Call → Prop}
    {program : Program Call Reply ε' β}
    (makes : program.Makes good)
    (justifies : ∀ later request, trace ⊆ later → good request →
      justified role later request) :
    (evidence possible justified).Allows
      (fun known _ => known.1 = role ∧ trace ⊆ known.2) (role, trace) program := by
  have initially : (role, trace).1 = role ∧ trace ⊆ (role, trace).2 :=
    ⟨rfl, fun _ present => present⟩
  refine makes.meets (fun known request held fits => ?_) initially
  obtain ⟨same, longer⟩ := held
  have justifies : justified known.1 known.2 request := by
    rw [same]
    exact justifies known.2 request longer fits
  refine ⟨justifies, ?_⟩
  rintro reply next ⟨-, rfl⟩
  exact ⟨same, List.subset_append_of_subset_left _ longer⟩

/-- The evidence of a thread is its trace. -/
theorem phase_evidence (thread : Thread Role Call Reply ε α) :
    thread.phase (evidence possible justified) (fun role => (role, [])) =
      (thread.role, thread.trace) := by
  have appends : ∀ trace before : List (Entry Reply),
      trace.foldl (fun known entry =>
          (evidence possible justified).advance known entry.request entry.reply)
        (thread.role, before) = (thread.role, before ++ trace) := by
    intro trace
    induction trace with
    | nil => exact fun before => by rw [List.append_nil]; rfl
    | cons entry trace inductionHypothesis =>
        intro before
        rw [List.foldl_cons]
        refine (inductionHypothesis (before ++ [entry])).trans ?_
        rw [List.append_assoc]
        rfl
  exact appends thread.trace []

/-- A call that a thread is about to make is justified by its trace. -/
theorem Run.evidenced_next
    (run : Run machine allowed start config)
    (idle : start.threads = [])
    (described : (evidence possible justified).Describes machine)
    (programs : ∀ role, (evidence possible justified).Allows (fun _ _ => True) (role, [])
      (machine.program role))
    {thread : Thread Role Call Reply ε α} {request : Call}
    {resume : Reply request → Program Call Reply ε α}
    (member : thread ∈ config.threads)
    (rest : thread.rest = .call request resume) :
    justified thread.role thread.trace request := by
  have meets : config.Meets (evidence possible justified) (fun role => (role, []))
      fun _ _ _ => True := Run.meets run idle described programs
  have meets := meets thread member
  rw [rest, phase_evidence] at meets
  exact meets.1

/-- Every call of a run was justified by what its thread had been answered before it. -/
theorem Run.evidenced
    (run : Run machine allowed start config)
    (idle : start.threads = [])
    (described : (evidence possible justified).Describes machine)
    (programs : ∀ role, (evidence possible justified).Allows (fun _ _ => True) (role, [])
      (machine.program role)) :
    ∀ thread ∈ config.threads, ∀ before entry after,
      thread.trace = before ++ entry :: after → justified thread.role before entry.request := by
  induction run with
  | refl =>
      intro thread member
      rw [idle] at member
      cases member
  | next ran permitted stepped inductionHypothesis =>
      cases stepped with
      | ambient action state acted => exact inductionHypothesis
      | spawn action state role acted =>
          intro thread member before entry after split
          rcases List.mem_append.mp member with old | new
          · exact inductionHypothesis thread old before entry after split
          · rw [List.mem_singleton.mp new] at split
            cases before <;> cases split
      | kill index thread found alive =>
          exact forall_mem_set inductionHypothesis
            (inductionHypothesis thread (List.mem_of_getElem? found))
      | call index thread request resume choice reply state found alive rest executed =>
          have member := List.mem_of_getElem? found
          refine forall_mem_set inductionHypothesis fun before entry after split => ?_
          have split : thread.trace ++ [⟨request, reply⟩] = before ++ entry :: after := split
          rcases List.eq_nil_or_concat' after with rfl | ⟨earlier, last, rfl⟩
          · -- The call that has just been answered.
            obtain ⟨rfl, same⟩ := List.append_inj' split rfl
            cases same
            exact ran.evidenced_next idle described programs member rest
          · rw [← List.cons_append, ← List.append_assoc] at split
            obtain ⟨traced, -⟩ := List.append_inj' split rfl
            exact inductionHypothesis thread member before entry earlier traced

end Resumption
