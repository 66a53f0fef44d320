import Provisioner.Resumption.Interleaving

/-!
# Last calls

A program may keep one kind of call for its end: it makes other calls first, and after one of
these it makes no call at all. In every run a thread that has been answered such a last call
is finished.
-/

namespace Resumption

variable {State Role Call Ambient Choice ε ε' α β : Type} {Reply : Call → Type}
  {good last : Call → Prop}

namespace Program

/-- A program that makes good calls, and at most one last call, after which it is finished. -/
def Closes (good last : Call → Prop) : Program Call Reply ε α → Prop
  | .pure _ => True
  | .raise _ => True
  | .call request resume =>
      (good request ∧ ∀ reply, (resume reply).Closes good last) ∨
        (last request ∧ ∀ reply, ¬(resume reply).Suspended)

theorem Makes.closes {program : Program Call Reply ε α} (makes : program.Makes good) :
    program.Closes good last := by
  induction program with
  | pure value => trivial
  | raise error => trivial
  | call request resume inductionHypothesis =>
      exact .inl ⟨makes.1, fun reply => inductionHypothesis reply (makes.2 reply)⟩

/-- Good calls may come before a program that closes. -/
theorem closes_handle {program : Program Call Reply ε α}
    {onValue : α → Program Call Reply ε' β} {onError : ε → Program Call Reply ε' β}
    (first : program.Makes good)
    (values : ∀ value, (onValue value).Closes good last)
    (errors : ∀ error, (onError error).Closes good last) :
    (program.handle onValue onError).Closes good last := by
  induction program with
  | pure value => exact values value
  | raise error => exact errors error
  | call request resume inductionHypothesis =>
      exact .inl ⟨first.1, fun reply => inductionHypothesis reply (first.2 reply)⟩

theorem closes_bind {program : Program Call Reply ε α} {next : α → Program Call Reply ε β}
    (first : program.Makes good) (rest : ∀ value, (next value).Closes good last) :
    (program >>= next).Closes good last :=
  closes_handle first rest fun _ => trivial

theorem closes_tryCatch {program : Program Call Reply ε α}
    {handler : ε → Program Call Reply ε' α}
    (first : program.Makes good) (rest : ∀ error, (handler error).Closes good last) :
    (program.tryCatch handler).Closes good last :=
  closes_handle first (fun _ => trivial) rest

end Program

instance : DecidablePred fun program : Program Call Reply ε α => program.Suspended
  | .pure _ => .isFalse id
  | .raise _ => .isFalse id
  | .call _ _ => .isTrue trivial

variable {machine : Machine State Role Call Reply Ambient Choice ε α}
  {allowed : Config State Role Call Reply ε α → Event Ambient Choice → Prop}
  {start config : Config State Role Call Reply ε α} {good last : Role → Call → Prop}

/-- Every thread of a run still has to close as its program does. -/
theorem Run.closes
    (run : Run machine allowed start config)
    (idle : start.threads = [])
    (programs : ∀ role, (machine.program role).Closes (good role) (last role)) :
    ∀ thread ∈ config.threads, thread.rest.Closes (good thread.role) (last thread.role) ∨
      ¬thread.rest.Suspended := by
  refine run.invariant (fun config => ∀ thread ∈ config.threads,
    thread.rest.Closes (good thread.role) (last thread.role) ∨ ¬thread.rest.Suspended) ?_ ?_
  · intro thread member
    rw [idle] at member
    cases member
  · intro config event after closes _ stepped
    cases stepped with
    | ambient action state acted => exact closes
    | spawn action state role acted =>
        intro thread member
        rcases List.mem_append.mp member with old | new
        · exact closes thread old
        · rw [List.mem_singleton.mp new]
          exact .inl (programs role)
    | kill index thread found alive =>
        exact forall_mem_set closes (closes thread (List.mem_of_getElem? found))
    | call index thread request resume choice reply state found alive rest executed =>
        refine forall_mem_set closes ?_
        rcases closes thread (List.mem_of_getElem? found) with closing | finished
        · rw [rest] at closing
          rcases closing with ⟨-, closing⟩ | ⟨-, finished⟩
          · exact .inl (closing reply)
          · exact .inr (finished reply)
        · rw [rest] at finished
          exact (finished trivial).elim

/-- A call that a thread is about to make is good, or a last one after which it is finished. -/
theorem Run.closes_next
    (run : Run machine allowed start config)
    (idle : start.threads = [])
    (programs : ∀ role, (machine.program role).Closes (good role) (last role))
    {thread : Thread Role Call Reply ε α} {request : Call}
    {resume : Reply request → Program Call Reply ε α}
    (member : thread ∈ config.threads)
    (rest : thread.rest = .call request resume) :
    good thread.role request ∨
      (last thread.role request ∧ ∀ reply, ¬(resume reply).Suspended) := by
  rcases run.closes idle programs thread member with closes | finished
  · rw [rest] at closes
    exact closes.imp And.left id
  · rw [rest] at finished
    exact (finished trivial).elim

end Resumption
