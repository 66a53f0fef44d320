import Mathlib.Data.List.Basic

/-!
# Resumable programs

A program is a tree of calls to a shared service. Each node holds one call and
a continuation indexed by its reply, so a suspended program is a value: it can
be stored, interleaved with others, or abandoned.

A service says which calls it accepts in a state and how it may answer them.
`Program.Meets` is the weakest precondition of a program against a service, and
it is computed by structural recursion, so the rules for sequencing and
exceptions are equivalences. A protocol is a service whose state is a phase
that every reply moves on deterministically.
-/

namespace Resumption

/-- A sequential program whose only effects are calls with typed replies. -/
inductive Program (Call : Type) (Reply : Call → Type) (ε α : Type)
  | pure (value : α)
  | raise (error : ε)
  | call (request : Call) (resume : Reply request → Program Call Reply ε α)

variable {State Phase Call : Type} {Reply : Call → Type} {ε ε' α β : Type}

namespace Program

/-- Continue after either way a program can end. -/
def handle
    (onValue : α → Program Call Reply ε' β)
    (onError : ε → Program Call Reply ε' β) :
    Program Call Reply ε α → Program Call Reply ε' β
  | .pure value => onValue value
  | .raise error => onError error
  | .call request resume =>
      .call request fun reply => (resume reply).handle onValue onError

/-- Sequencing passes values on and lets exceptions through. -/
def bind
    (program : Program Call Reply ε α)
    (next : α → Program Call Reply ε β) : Program Call Reply ε β :=
  program.handle next .raise

/-- Run a handler on the exceptions of a program. -/
def tryCatch
    (program : Program Call Reply ε α)
    (handler : ε → Program Call Reply ε' α) : Program Call Reply ε' α :=
  program.handle .pure handler

/-- Rename the exceptions of a program. -/
def mapError
    (rename : ε → ε')
    (program : Program Call Reply ε α) : Program Call Reply ε' α :=
  program.tryCatch fun error => .raise (rename error)

/-- The program that ends at once with a result. -/
def ofExcept : Except ε α → Program Call Reply ε α
  | .ok value => .pure value
  | .error error => .raise error

instance : Monad (Program Call Reply ε) where
  pure := .pure
  bind := Program.bind

/-- Run a program for each item in turn; the first exception ends the loop. -/
def forEach {γ : Type}
    (body : γ → Program Call Reply ε Unit) : List γ → Program Call Reply ε Unit
  | [] => .pure ()
  | item :: items => body item >>= fun _ => forEach body items

@[simp] theorem pure_eq (value : α) :
    (Pure.pure value : Program Call Reply ε α) = .pure value := rfl

@[simp] theorem bind_pure
    (value : α)
    (next : α → Program Call Reply ε β) :
    ((.pure value : Program Call Reply ε α) >>= next) = next value := rfl

@[simp] theorem bind_raise
    (error : ε)
    (next : α → Program Call Reply ε β) :
    ((.raise error : Program Call Reply ε α) >>= next) = .raise error := rfl

@[simp] theorem bind_call
    (request : Call)
    (resume : Reply request → Program Call Reply ε α)
    (next : α → Program Call Reply ε β) :
    ((.call request resume : Program Call Reply ε α) >>= next) =
      .call request fun reply => resume reply >>= next := rfl

/-- Sequencing is associative. -/
theorem bind_assoc {γ : Type}
    (program : Program Call Reply ε α)
    (first : α → Program Call Reply ε β)
    (second : β → Program Call Reply ε γ) :
    (program >>= first) >>= second = program >>= fun value => first value >>= second := by
  induction program with
  | pure value => rfl
  | raise error => rfl
  | call request resume inductionHypothesis =>
      rw [bind_call, bind_call, bind_call]
      congr 1
      funext reply
      exact inductionHypothesis reply

@[simp] theorem tryCatch_pure
    (value : α)
    (handler : ε → Program Call Reply ε' α) :
    (.pure value : Program Call Reply ε α).tryCatch handler = .pure value := rfl

@[simp] theorem tryCatch_raise
    (error : ε)
    (handler : ε → Program Call Reply ε' α) :
    (.raise error : Program Call Reply ε α).tryCatch handler =
      handler error := rfl

@[simp] theorem tryCatch_call
    (request : Call)
    (resume : Reply request → Program Call Reply ε α)
    (handler : ε → Program Call Reply ε' α) :
    (.call request resume : Program Call Reply ε α).tryCatch handler =
      .call request fun reply => (resume reply).tryCatch handler := rfl

@[simp] theorem mapError_pure (rename : ε → ε') (value : α) :
    (.pure value : Program Call Reply ε α).mapError rename = .pure value := rfl

@[simp] theorem mapError_raise (rename : ε → ε') (error : ε) :
    (.raise error : Program Call Reply ε α).mapError rename =
      .raise (rename error) := rfl

@[simp] theorem mapError_call
    (rename : ε → ε')
    (request : Call)
    (resume : Reply request → Program Call Reply ε α) :
    (.call request resume : Program Call Reply ε α).mapError rename =
      .call request fun reply => (resume reply).mapError rename := rfl

@[simp] theorem ofExcept_ok (value : α) :
    (ofExcept (.ok value) : Program Call Reply ε α) = .pure value := rfl

@[simp] theorem ofExcept_error (error : ε) :
    (ofExcept (.error error) : Program Call Reply ε α) = .raise error := rfl

/-- A program is suspended when it still has a call to make. -/
def Suspended : Program Call Reply ε α → Prop
  | .pure _ => False
  | .raise _ => False
  | .call _ _ => True

end Program

/-- A service as a single program sees it: which calls it accepts in a state,
and which replies and next states it may answer with. -/
structure Service (State Call : Type) (Reply : Call → Type) where
  /-- The calls accepted in a state. -/
  permits : State → Call → Prop
  /-- The replies to a call, each with the state it leaves. -/
  answers : State → (request : Call) → Reply request → State → Prop

namespace Program

/-- Weakest precondition: from `state` every call of the program is permitted,
whatever the answers, and `post` holds of the state and result it ends with. -/
def Meets
    (service : Service State Call Reply)
    (post : State → Except ε α → Prop) :
    State → Program Call Reply ε α → Prop
  | state, .pure value => post state (.ok value)
  | state, .raise error => post state (.error error)
  | state, .call request resume =>
      service.permits state request ∧
        ∀ reply next, service.answers state request reply next →
          (resume reply).Meets service post next

variable {service : Service State Call Reply}

@[simp] theorem meets_pure
    {post : State → Except ε α → Prop}
    {state : State} {value : α} :
    (.pure value : Program Call Reply ε α).Meets service post state ↔
      post state (.ok value) := Iff.rfl

@[simp] theorem meets_raise
    {post : State → Except ε α → Prop}
    {state : State} {error : ε} :
    (.raise error : Program Call Reply ε α).Meets service post state ↔
      post state (.error error) := Iff.rfl

@[simp] theorem meets_call
    {post : State → Except ε α → Prop}
    {state : State} {request : Call}
    {resume : Reply request → Program Call Reply ε α} :
    (.call request resume : Program Call Reply ε α).Meets service post state ↔
      service.permits state request ∧
        ∀ reply next, service.answers state request reply next →
          (resume reply).Meets service post next := Iff.rfl

/-- A handled program meets exactly what the program meets with the two
continuations as its postcondition. -/
theorem meets_handle
    {post : State → Except ε' β → Prop}
    {onValue : α → Program Call Reply ε' β}
    {onError : ε → Program Call Reply ε' β}
    {state : State}
    (program : Program Call Reply ε α) :
    (program.handle onValue onError).Meets service post state ↔
      program.Meets service (fun reached result =>
        match result with
        | .ok value => (onValue value).Meets service post reached
        | .error error => (onError error).Meets service post reached) state := by
  induction program generalizing state with
  | pure value => rfl
  | raise error => rfl
  | call request resume inductionHypothesis =>
      refine and_congr Iff.rfl (forall_congr' fun reply => forall_congr' fun next => ?_)
      exact imp_congr_right fun _ => inductionHypothesis reply

/-- The sequencing rule. -/
@[simp] theorem meets_bind
    {post : State → Except ε β → Prop}
    {program : Program Call Reply ε α}
    {next : α → Program Call Reply ε β}
    {state : State} :
    (program >>= next).Meets service post state ↔
      program.Meets service (fun reached result =>
        match result with
        | .ok value => (next value).Meets service post reached
        | .error error => post reached (.error error)) state :=
  meets_handle program

/-- The exception rule. -/
@[simp] theorem meets_tryCatch
    {post : State → Except ε' α → Prop}
    {program : Program Call Reply ε α}
    {handler : ε → Program Call Reply ε' α}
    {state : State} :
    (program.tryCatch handler).Meets service post state ↔
      program.Meets service (fun reached result =>
        match result with
        | .ok value => post reached (.ok value)
        | .error error => (handler error).Meets service post reached) state :=
  meets_handle program

/-- The renaming rule. -/
@[simp] theorem meets_mapError
    {post : State → Except ε' α → Prop}
    {program : Program Call Reply ε α}
    {rename : ε → ε'}
    {state : State} :
    (program.mapError rename).Meets service post state ↔
      program.Meets service (fun reached result =>
        post reached (result.mapError rename)) state := by
  unfold mapError
  rw [meets_tryCatch]
  have same : (fun reached (result : Except ε α) =>
      match result with
      | .ok value => post reached (.ok value)
      | .error error => (raise (rename error) :
          Program Call Reply ε' α).Meets service post reached) =
      fun reached result => post reached (result.mapError rename) := by
    funext reached result
    cases result <;> rfl
  rw [same]

/-- The consequence rule. -/
theorem Meets.mono
    {weak strong : State → Except ε α → Prop}
    {program : Program Call Reply ε α}
    {state : State}
    (meets : program.Meets service strong state)
    (implies : ∀ reached result, strong reached result → weak reached result) :
    program.Meets service weak state := by
  induction program generalizing state with
  | pure value => exact implies _ _ meets
  | raise error => exact implies _ _ meets
  | call request resume inductionHypothesis =>
      exact ⟨meets.1, fun reply next answered =>
        inductionHypothesis reply (meets.2 reply next answered)⟩

/-- A service that accepts every call accepts every program. -/
theorem meets_of_permits
    (accepts : ∀ state request, service.permits state request)
    (program : Program Call Reply ε α)
    (state : State) : program.Meets service (fun _ _ => True) state := by
  induction program generalizing state with
  | pure value => trivial
  | raise error => trivial
  | call request resume inductionHypothesis =>
      exact ⟨accepts state request, fun reply next _ => inductionHypothesis reply next⟩

/-- The loop rule: an invariant of the items still to come. -/
theorem meets_forEach {γ : Type}
    {body : γ → Program Call Reply ε Unit}
    {post : State → Except ε Unit → Prop}
    (invariant : List γ → State → Prop)
    (step : ∀ item items state, invariant (item :: items) state →
      (body item).Meets service (fun reached result =>
        match result with
        | .ok _ => invariant items reached
        | .error error => post reached (.error error)) state)
    (done : ∀ state, invariant [] state → post state (.ok ()))
    (items : List γ) (state : State) (initially : invariant items state) :
    (forEach body items).Meets service post state := by
  induction items generalizing state with
  | nil => exact done state initially
  | cons item items inductionHypothesis =>
      rw [forEach, meets_bind]
      refine (step item items state initially).mono ?_
      intro reached result ended
      cases result with
      | ok value => exact inductionHypothesis reached ended
      | error error => exact ended

/-- Every call that the program can make, whatever it is answered, is a good one. -/
def Makes (good : Call → Prop) : Program Call Reply ε α → Prop
  | .pure _ => True
  | .raise _ => True
  | .call request resume => good request ∧ ∀ reply, (resume reply).Makes good

section Makes

variable {good : Call → Prop} {program : Program Call Reply ε α}

theorem makes_handle
    {onValue : α → Program Call Reply ε' β}
    {onError : ε → Program Call Reply ε' β}
    (first : program.Makes good)
    (values : ∀ value, (onValue value).Makes good)
    (errors : ∀ error, (onError error).Makes good) :
    (program.handle onValue onError).Makes good := by
  induction program with
  | pure value => exact values value
  | raise error => exact errors error
  | call request resume inductionHypothesis =>
      exact ⟨first.1, fun reply => inductionHypothesis reply (first.2 reply)⟩

theorem makes_bind {next : α → Program Call Reply ε β}
    (first : program.Makes good) (second : ∀ value, (next value).Makes good) :
    (program >>= next).Makes good :=
  makes_handle first second fun _ => trivial

theorem makes_tryCatch {handler : ε → Program Call Reply ε' α}
    (first : program.Makes good) (second : ∀ error, (handler error).Makes good) :
    (program.tryCatch handler).Makes good :=
  makes_handle first (fun _ => trivial) second

theorem makes_mapError {rename : ε → ε'} (first : program.Makes good) :
    (program.mapError rename).Makes good :=
  makes_tryCatch first fun _ => trivial

theorem makes_ofExcept (result : Except ε α) :
    (ofExcept result : Program Call Reply ε α).Makes good := by
  cases result <;> trivial

theorem makes_forEach {γ : Type} {body : γ → Program Call Reply ε Unit} {items : List γ}
    (each : ∀ item ∈ items, (body item).Makes good) : (forEach body items).Makes good := by
  induction items with
  | nil => trivial
  | cons item items inductionHypothesis =>
      exact makes_bind (each item List.mem_cons_self) fun _ =>
        inductionHypothesis fun other later => each other (List.mem_cons_of_mem _ later)

/-- A program that makes good calls makes fair ones if every good call is fair. -/
theorem Makes.mono {fair : Call → Prop} (makes : program.Makes good)
    (implies : ∀ request, good request → fair request) : program.Makes fair := by
  induction program with
  | pure value => trivial
  | raise error => trivial
  | call request resume inductionHypothesis =>
      exact ⟨implies request makes.1, fun reply => inductionHypothesis reply (makes.2 reply)⟩

/-- A program keeps an invariant that every good call is accepted under and keeps. -/
theorem Makes.meets {inv : State → Prop} {state : State}
    (makes : program.Makes good)
    (keeps : ∀ state request, inv state → good request →
      service.permits state request ∧
        ∀ reply next, service.answers state request reply next → inv next)
    (initially : inv state) :
    program.Meets service (fun reached _ => inv reached) state := by
  induction program generalizing state with
  | pure value => exact initially
  | raise error => exact initially
  | call request resume inductionHypothesis =>
      obtain ⟨accepted, kept⟩ := keeps state request initially makes.1
      exact ⟨accepted, fun reply next answered =>
        inductionHypothesis reply (makes.2 reply) (kept reply next answered)⟩

end Makes

end Program

/-- A service that observes a program: it remembers a phase, says which calls
are permitted in it, and lets every possible reply move it on. -/
structure Protocol (Phase Call : Type) (Reply : Call → Type) where
  /-- The calls allowed in a phase. -/
  permits : Phase → Call → Prop
  /-- The replies that a call can get. -/
  possible : (request : Call) → Reply request → Prop
  /-- The phase after a call and its reply. -/
  advance : Phase → (request : Call) → Reply request → Phase

namespace Protocol

/-- A protocol answers with every possible reply. -/
def service (protocol : Protocol Phase Call Reply) : Service Phase Call Reply where
  permits := protocol.permits
  answers phase request reply next :=
    protocol.possible request reply ∧ next = protocol.advance phase request reply

/-- Meeting a protocol from a phase. -/
abbrev Allows
    (protocol : Protocol Phase Call Reply)
    (post : Phase → Except ε α → Prop)
    (phase : Phase)
    (program : Program Call Reply ε α) : Prop :=
  program.Meets protocol.service post phase

variable {protocol : Protocol Phase Call Reply} {phase : Phase}

@[simp] theorem service_permits {request : Call} :
    protocol.service.permits phase request ↔ protocol.permits phase request := Iff.rfl

@[simp] theorem service_answers {request : Call} {reply : Reply request}
    {next : Phase} :
    protocol.service.answers phase request reply next ↔
      protocol.possible request reply ∧
        next = protocol.advance phase request reply := Iff.rfl

end Protocol

end Resumption
