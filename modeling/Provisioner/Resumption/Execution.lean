import Provisioner.Resumption.Program

/-!
# Executions of one program

An execution runs a program against a service to the end and records every
answered call. The weakest precondition is sound for executions, an execution
of a composed program splits at the seam, and a program that meets its
postcondition on a service that answers what it permits has an execution.
-/

namespace Resumption

/-- One answered call. -/
structure Entry {Call : Type} (Reply : Call → Type) where
  /-- The call that was made. -/
  request : Call
  /-- The answer it received. -/
  reply : Reply request

variable {State Call : Type} {Reply : Call → Type} {ε ε' α β : Type}

/-- The program, run alone from a state, makes the calls of the trace and ends
in a state with a result. -/
inductive Executes (service : Service State Call Reply) :
    State → Program Call Reply ε α → List (Entry Reply) →
      State → Except ε α → Prop
  | pure (state : State) (value : α) :
      Executes service state (.pure value) [] state (.ok value)
  | raise (state : State) (error : ε) :
      Executes service state (.raise error) [] state (.error error)
  | call (state middle last : State) (request : Call)
      (resume : Reply request → Program Call Reply ε α)
      (reply : Reply request) (trace : List (Entry Reply))
      (result : Except ε α) :
      service.answers state request reply middle →
      Executes service middle (resume reply) trace last result →
      Executes service state (.call request resume)
        (⟨request, reply⟩ :: trace) last result

variable {service : Service State Call Reply}
  {state last : State} {trace : List (Entry Reply)}

namespace Executes

@[simp] theorem pure_iff {value : α} {result : Except ε α} :
    Executes service state (.pure value) trace last result ↔
      trace = [] ∧ last = state ∧ result = .ok value := by
  constructor
  · intro executed
    cases executed
    exact ⟨rfl, rfl, rfl⟩
  · rintro ⟨rfl, rfl, rfl⟩
    exact .pure _ _

@[simp] theorem raise_iff {error : ε} {result : Except ε α} :
    Executes service state (.raise error) trace last result ↔
      trace = [] ∧ last = state ∧ result = .error error := by
  constructor
  · intro executed
    cases executed
    exact ⟨rfl, rfl, rfl⟩
  · rintro ⟨rfl, rfl, rfl⟩
    exact .raise _ _

@[simp] theorem call_iff {request : Call}
    {resume : Reply request → Program Call Reply ε α}
    {result : Except ε α} :
    Executes service state (.call request resume) trace last result ↔
      ∃ reply middle rest, trace = ⟨request, reply⟩ :: rest ∧
        service.answers state request reply middle ∧
        Executes service middle (resume reply) rest last result := by
  constructor
  · intro executed
    cases executed with
    | call _ middle _ _ _ reply rest _ answered continued =>
        exact ⟨reply, middle, rest, rfl, answered, continued⟩
  · rintro ⟨reply, middle, rest, rfl, answered, continued⟩
    exact .call _ _ _ _ _ _ _ _ answered continued

/-- An execution of a handled program splits where the handler takes over. -/
theorem handle_iff
    {onValue : α → Program Call Reply ε' β}
    {onError : ε → Program Call Reply ε' β}
    {result : Except ε' β}
    (program : Program Call Reply ε α) :
    Executes service state (program.handle onValue onError) trace last result ↔
      ∃ first second middle ended, trace = first ++ second ∧
        Executes service state program first middle ended ∧
        match ended with
        | .ok value => Executes service middle (onValue value) second last result
        | .error error => Executes service middle (onError error) second last result := by
  induction program generalizing state trace with
  | pure value =>
      constructor
      · intro executed
        exact ⟨[], trace, state, .ok value, rfl, .pure _ _, executed⟩
      · rintro ⟨first, second, middle, ended, rfl, executed, continued⟩
        obtain ⟨rfl, rfl, rfl⟩ := pure_iff.mp executed
        exact continued
  | raise error =>
      constructor
      · intro executed
        exact ⟨[], trace, state, .error error, rfl, .raise _ _, executed⟩
      · rintro ⟨first, second, middle, ended, rfl, executed, continued⟩
        obtain ⟨rfl, rfl, rfl⟩ := raise_iff.mp executed
        exact continued
  | call request resume inductionHypothesis =>
      constructor
      · intro executed
        obtain ⟨reply, next, rest, rfl, answered, continued⟩ := call_iff.mp executed
        obtain ⟨first, second, middle, ended, rfl, executed, finished⟩ :=
          (inductionHypothesis reply).mp continued
        exact ⟨⟨request, reply⟩ :: first, second, middle, ended, rfl,
          .call _ _ _ _ _ _ _ _ answered executed, finished⟩
      · rintro ⟨first, second, middle, ended, rfl, executed, finished⟩
        obtain ⟨reply, next, rest, rfl, answered, continued⟩ := call_iff.mp executed
        exact .call _ _ _ _ _ _ _ _ answered
          ((inductionHypothesis reply).mpr
            ⟨rest, second, middle, ended, rfl, continued, finished⟩)

/-- An execution of a sequence. -/
theorem bind_iff
    {program : Program Call Reply ε α}
    {next : α → Program Call Reply ε β}
    {result : Except ε β} :
    Executes service state (program >>= next) trace last result ↔
      ∃ first second middle ended, trace = first ++ second ∧
        Executes service state program first middle ended ∧
        match ended with
        | .ok value => Executes service middle (next value) second last result
        | .error error =>
            Executes service middle (.raise error) second last result :=
  handle_iff program

/-- An execution of a sequence that returns. -/
theorem bind_ok_iff
    {program : Program Call Reply ε α}
    {next : α → Program Call Reply ε β}
    {value : β} :
    Executes service state (program >>= next) trace last (.ok value) ↔
      ∃ first second middle passed, trace = first ++ second ∧
        Executes service state program first middle (.ok passed) ∧
        Executes service middle (next passed) second last (.ok value) := by
  rw [bind_iff]
  constructor
  · rintro ⟨first, second, middle, passed | passed, split, executed, continued⟩
    · cases continued
    · exact ⟨first, second, middle, passed, split, executed, continued⟩
  · rintro ⟨first, second, middle, passed, split, executed, continued⟩
    exact ⟨first, second, middle, .ok passed, split, executed, continued⟩

/-- An execution of a computed result. -/
theorem ofExcept_iff {computed result : Except ε α} :
    Executes service state (.ofExcept computed : Program Call Reply ε α) trace last result ↔
      trace = [] ∧ last = state ∧ result = computed := by
  cases computed with
  | ok value => exact pure_iff
  | error error => exact raise_iff

/-- An execution of a guarded program. -/
theorem tryCatch_iff
    {program : Program Call Reply ε α}
    {handler : ε → Program Call Reply ε' α}
    {result : Except ε' α} :
    Executes service state (program.tryCatch handler) trace last result ↔
      ∃ first second middle ended, trace = first ++ second ∧
        Executes service state program first middle ended ∧
        match ended with
        | .ok value => Executes service middle (.pure value) second last result
        | .error error => Executes service middle (handler error) second last result :=
  handle_iff program

/-- The weakest precondition is sound for executions. -/
theorem meets
    {program : Program Call Reply ε α}
    {post : State → Except ε α → Prop}
    {result : Except ε α}
    (executed : Executes service state program trace last result)
    (met : program.Meets service post state) : post last result := by
  induction executed with
  | pure state value => exact met
  | raise state error => exact met
  | call state middle last request resume reply trace result answered continued
      inductionHypothesis =>
      exact inductionHypothesis (met.2 reply middle answered)

/-- An execution of a program that only makes good calls records only good calls. -/
theorem makes {good : Call → Prop} {program : Program Call Reply ε α} {result : Except ε α}
    (executed : Executes service state program trace last result)
    (makes : program.Makes good) : ∀ entry ∈ trace, good entry.request := by
  induction executed with
  | pure state value =>
      intro entry present
      cases present
  | raise state error =>
      intro entry present
      cases present
  | call state middle last request resume reply trace result answered continued
      inductionHypothesis =>
      intro entry present
      rcases List.mem_cons.mp present with rfl | later
      · exact makes.1
      · exact inductionHypothesis (makes.2 reply) entry later

/-- When no body of a loop raises, what one notes of the calls of the loop is what one
notes of its bodies, one after another. -/
theorem forEach_notes {γ δ : Type} {body : γ → Program Call Reply ε Unit}
    {note : Entry Reply → Option δ} {noted : γ → List δ} {items : List γ}
    {result : Except ε Unit}
    (each : ∀ item state trace last result,
      Executes service state (body item) trace last result →
        result = .ok () ∧ trace.filterMap note = noted item)
    (executed : Executes service state (Program.forEach body items) trace last result) :
    result = .ok () ∧ trace.filterMap note = items.flatMap noted := by
  induction items generalizing state trace with
  | nil =>
      obtain ⟨rfl, -, rfl⟩ := pure_iff.mp executed
      exact ⟨rfl, rfl⟩
  | cons item items inductionHypothesis =>
      obtain ⟨first, second, middle, ended, rfl, ran, continued⟩ := bind_iff.mp executed
      obtain ⟨rfl, firstNotes⟩ := each item state first middle ended ran
      obtain ⟨done, secondNotes⟩ := inductionHypothesis continued
      exact ⟨done, by rw [List.filterMap_append, firstNotes, secondNotes, List.flatMap_cons]⟩

end Executes

/-- A program that only makes calls that can be answered is executed to its end. -/
theorem exists_executes
    (serves : ∀ state request, service.permits state request →
      ∃ reply next, service.answers state request reply next)
    {program : Program Call Reply ε α}
    {post : State → Except ε α → Prop}
    {state : State}
    (met : program.Meets service post state) :
    ∃ trace last result, Executes service state program trace last result := by
  induction program generalizing state with
  | pure value => exact ⟨[], state, .ok value, .pure _ _⟩
  | raise error => exact ⟨[], state, .error error, .raise _ _⟩
  | call request resume inductionHypothesis =>
      obtain ⟨permitted, continued⟩ := met
      obtain ⟨reply, next, answered⟩ := serves state request permitted
      obtain ⟨trace, last, result, executed⟩ :=
        inductionHypothesis reply (continued reply next answered)
      exact ⟨_, last, result, .call _ _ _ _ _ _ _ _ answered executed⟩

/-- An execution against a service is one against every service that answers as much. -/
theorem Executes.mono {wider : Service State Call Reply}
    {program : Program Call Reply ε α} {result : Except ε α}
    (executed : Executes service state program trace last result)
    (answers : ∀ state request reply next, service.answers state request reply next →
      wider.answers state request reply next) :
    Executes wider state program trace last result := by
  induction executed with
  | pure state value => exact .pure _ _
  | raise state error => exact .raise _ _
  | call state middle last request resume reply trace result answered continued
      inductionHypothesis =>
      exact .call _ _ _ _ _ _ _ _ (answers _ _ _ _ answered) inductionHypothesis

/-- The service with the calls answered so far as a part of its state; what an answer
may be can depend on them. -/
def Service.recorded
    (service : Service State Call Reply)
    (allowed : List (Entry Reply) → Entry Reply → Prop) :
    Service (State × List (Entry Reply)) Call Reply where
  permits state request := service.permits state.1 request
  answers state request reply next :=
    service.answers state.1 request reply next.1 ∧
      allowed state.2 ⟨request, reply⟩ ∧ next.2 = state.2 ++ [⟨request, reply⟩]

/-- An execution whose every answer is allowed is one with its history in the state. -/
theorem Executes.recorded
    {allowed : List (Entry Reply) → Entry Reply → Prop}
    {program : Program Call Reply ε α}
    {result : Except ε α}
    {earlier : List (Entry Reply)}
    (executed : Executes service state program trace last result)
    (each : ∀ before entry after, trace = before ++ entry :: after →
      allowed (earlier ++ before) entry) :
    Executes (service.recorded allowed) (state, earlier) program trace
      (last, earlier ++ trace) result := by
  induction executed generalizing earlier with
  | pure state value =>
      rw [List.append_nil]
      exact .pure _ _
  | raise state error =>
      rw [List.append_nil]
      exact .raise _ _
  | call state middle last request resume reply trace result answered continued
      inductionHypothesis =>
      have first := each [] ⟨request, reply⟩ trace rfl
      rw [List.append_nil] at first
      have rest : ∀ before entry after, trace = before ++ entry :: after →
          allowed (earlier ++ [⟨request, reply⟩] ++ before) entry := by
        intro before entry after split
        have whole := each (⟨request, reply⟩ :: before) entry after (by rw [split]; rfl)
        rw [List.append_cons] at whole
        exact whole
      have continued' := inductionHypothesis rest
      rw [← List.append_cons] at continued'
      exact .call _ (middle, earlier ++ [⟨request, reply⟩]) _ _ _ _ _ _
        ⟨answered, first, rfl⟩ continued'

end Resumption
