import Provisioner.Resumption.Interleaving

/-!
# Programs that write records

A program may write records between its calls, and each record is written under the current
value of a context variable. Binding the variable returns a token, which resets it to what it
was before. Records are for readers only: erasing them leaves a plain program, and a plain
thread that has come some way shows what its recorded program has written by then.

The rules for `Program.Meets` against the `observer` derive what is written, and under which
value, from the answers so far.
-/

namespace Resumption

variable {State Role Call Ambient Choice Value Record ε ε' α β : Type} {Reply : Call → Type}

/-- What a program with a context variable does. -/
inductive Act (Call Value Record : Type)
  | call (request : Call)
  /-- Set the variable. -/
  | bind (value : Value)
  /-- Set the variable to what it was when the token was handed out. -/
  | reset (token : Option Value)
  | write (record : Record)

/-- What an act returns: binding returns the token. -/
abbrev Act.Answer (Reply : Call → Type) : Act Call Value Record → Type
  | .call request => Reply request
  | .bind _ => Option Value
  | .reset _ => Unit
  | .write _ => Unit

/-- Programs that write records under a context variable. -/
abbrev Recorded (Call : Type) (Reply : Call → Type) (Value Record ε α : Type) : Type :=
  Program (Act Call Value Record) (Act.Answer Reply) ε α

/-- Handlers that only pass on change nothing. -/
theorem Program.handle_self (program : Program Call Reply ε α) :
    program.handle .pure .raise = program := by
  induction program with
  | pure value => rfl
  | raise error => rfl
  | call request resume inductionHypothesis =>
      exact congrArg (Program.call request) (funext inductionHypothesis)

namespace Recorded

/-- A plain program writes nothing. -/
def embed : Program Call Reply ε α → Recorded Call Reply Value Record ε α
  | .pure value => .pure value
  | .raise error => .raise error
  | .call request resume => .call (.call request) fun reply => embed (resume reply)

theorem embed_bind (program : Program Call Reply ε α) (next : α → Program Call Reply ε β) :
    (embed (program >>= next) : Recorded Call Reply Value Record ε β) =
      embed program >>= fun result => embed (next result) := by
  induction program with
  | pure result => rfl
  | raise error => rfl
  | call request resume inductionHypothesis =>
      exact congrArg (Program.call (Act.call request)) (funext inductionHypothesis)

/-- Write one record. -/
def write (record : Record) : Recorded Call Reply Value Record ε Unit :=
  .call (.write record) fun _ => .pure ()

/-- Run a body with the variable bound, and reset it on the way out, also when the body
raises. -/
def within (value : Value) (body : Recorded Call Reply Value Record ε α) :
    Recorded Call Reply Value Record ε α :=
  .call (.bind value) fun token =>
    body.handle (fun result => .call (.reset token) fun _ => .pure result)
      fun error => .call (.reset token) fun _ => .raise error

/-- The program without its records, started with this value of the variable. -/
def erase : Option Value → Recorded Call Reply Value Record ε α → Program Call Reply ε α
  | _, .pure value => .pure value
  | _, .raise error => .raise error
  | value, .call (.call request) resume => .call request fun reply => erase value (resume reply)
  | value, .call (.bind new) resume => erase (some new) (resume value)
  | _, .call (.reset token) resume => erase token (resume ())
  | value, .call (.write _) resume => erase value (resume ())

/-- Without its records the program is this one, whatever the variable was at the start. -/
def Erases (recorded : Recorded Call Reply Value Record ε α)
    (program : Program Call Reply ε α) : Prop :=
  ∀ value, erase value recorded = program

section Erases

variable {recorded : Recorded Call Reply Value Record ε α} {program : Program Call Reply ε α}

theorem erases_embed (program : Program Call Reply ε α) :
    (embed program : Recorded Call Reply Value Record ε α).Erases program := by
  intro value
  induction program with
  | pure result => rfl
  | raise error => rfl
  | call request resume inductionHypothesis =>
      exact congrArg (Program.call request) (funext inductionHypothesis)

theorem erases_handle {onValue : α → Recorded Call Reply Value Record ε' β}
    {onError : ε → Recorded Call Reply Value Record ε' β}
    {onValue' : α → Program Call Reply ε' β} {onError' : ε → Program Call Reply ε' β}
    (first : recorded.Erases program)
    (values : ∀ value, (onValue value).Erases (onValue' value))
    (errors : ∀ error, (onError error).Erases (onError' error)) :
    Erases (Program.handle onValue onError recorded) (program.handle onValue' onError') := by
  intro value
  rw [← first value]
  clear first
  induction recorded generalizing value with
  | pure result => exact values result value
  | raise error => exact errors error value
  | call act resume inductionHypothesis =>
      cases act with
      | call request =>
          exact congrArg (Program.call request)
            (funext fun reply => inductionHypothesis reply value)
      | bind new => exact inductionHypothesis value (some new)
      | reset token => exact inductionHypothesis () token
      | write record => exact inductionHypothesis () value

theorem erases_bind {next : α → Recorded Call Reply Value Record ε β}
    {next' : α → Program Call Reply ε β}
    (first : recorded.Erases program) (values : ∀ value, (next value).Erases (next' value)) :
    Erases (recorded >>= next) (program >>= next') :=
  erases_handle first values fun _ _ => rfl

theorem erases_tryCatch {handler : ε → Recorded Call Reply Value Record ε' α}
    {handler' : ε → Program Call Reply ε' α}
    (first : recorded.Erases program) (errors : ∀ error, (handler error).Erases (handler' error)) :
    Erases (Program.tryCatch recorded handler) (program.tryCatch handler') :=
  erases_handle first (fun _ _ => rfl) errors

theorem erases_mapError {rename : ε → ε'} (first : recorded.Erases program) :
    Erases (Program.mapError rename recorded) (program.mapError rename) :=
  erases_tryCatch first fun _ _ => rfl

theorem erases_forEach {γ : Type} {body : γ → Recorded Call Reply Value Record ε Unit}
    {body' : γ → Program Call Reply ε Unit} (each : ∀ item, (body item).Erases (body' item))
    (items : List γ) : Erases (Program.forEach body items) (Program.forEach body' items) := by
  induction items with
  | nil => exact fun _ => rfl
  | cons item items inductionHypothesis =>
      exact erases_bind (each item) fun _ => inductionHypothesis

/-- A record does not count. -/
theorem erases_write {record : Record} {next : Unit → Recorded Call Reply Value Record ε α}
    (rest : (next ()).Erases program) : Erases (write record >>= next) program :=
  rest

/-- Nor does a record at the end. -/
theorem erases_bind_write {record : Record} {recorded : Recorded Call Reply Value Record ε Unit}
    {program : Program Call Reply ε Unit} (first : recorded.Erases program) :
    Erases (recorded >>= fun _ => write record) program := by
  have kept : Erases (recorded >>= fun _ => write record) (program.handle .pure .raise) :=
    erases_handle first (fun _ _ => rfl) fun _ _ => rfl
  rw [program.handle_self] at kept
  exact kept

/-- Nor does a binding. -/
theorem erases_within {bound : Value} (body : recorded.Erases program) :
    (within bound recorded).Erases program := by
  intro value
  have passed : Erases (Program.handle
      (fun result => .call (.reset value) fun _ => .pure result)
      (fun error => .call (.reset value) fun _ => .raise error) recorded)
      (program.handle .pure .raise) :=
    erases_handle body (fun _ _ => rfl) fun _ _ => rfl
  rw [program.handle_self] at passed
  exact passed (some bound)

end Erases

/-! ## What a thread has written -/

/-- A recorded program on its way. -/
structure Position (Call : Type) (Reply : Call → Type) (Value Record ε α : Type) where
  /-- The records so far, each with the value it was written under. -/
  records : List (Option Value × Record)
  value : Option Value
  rest : Recorded Call Reply Value Record ε α

/-- The position after the answers of a trace, with all that is written before the next call;
`none` when these are not answers to the calls of the program. -/
def follow [DecidableEq Call] :
    Option Value → Recorded Call Reply Value Record ε α → List (Entry Reply) →
      Option (Position Call Reply Value Record ε α)
  | value, .pure result, [] => some ⟨[], value, .pure result⟩
  | _, .pure _, _ :: _ => none
  | value, .raise error, [] => some ⟨[], value, .raise error⟩
  | _, .raise _, _ :: _ => none
  | value, .call (.call request) resume, [] => some ⟨[], value, .call (.call request) resume⟩
  | value, .call (.call request) resume, entry :: trace =>
      if same : entry.request = request then follow value (resume (same ▸ entry.reply)) trace
      else none
  | value, .call (.bind new) resume, trace => follow (some new) (resume value) trace
  | _, .call (.reset token) resume, trace => follow token (resume ()) trace
  | value, .call (.write record) resume, trace =>
      (follow value (resume ()) trace).map fun position =>
        { position with records := (value, record) :: position.records }

end Recorded

/-- What is left of a program after the answers of a trace. -/
def Program.follow [DecidableEq Call] :
    Program Call Reply ε α → List (Entry Reply) → Option (Program Call Reply ε α)
  | program, [] => some program
  | .call request resume, entry :: trace =>
      if same : entry.request = request then (resume (same ▸ entry.reply)).follow trace else none
  | _, _ :: _ => none

section Follow

variable [DecidableEq Call]

theorem Program.follow_nil (program : Program Call Reply ε α) :
    program.follow [] = some program := by
  cases program <;> rfl

theorem Program.follow_append {program : Program Call Reply ε α} {trace : List (Entry Reply)}
    {request : Call} {resume : Reply request → Program Call Reply ε α} (reply : Reply request)
    (reached : program.follow trace = some (.call request resume)) :
    program.follow (trace ++ [⟨request, reply⟩]) = some (resume reply) := by
  induction trace generalizing program with
  | nil =>
      cases program with
      | call other next =>
          cases reached
          simp [Program.follow]
      | _ => cases reached
  | cons entry trace inductionHypothesis =>
      cases program with
      | call other next =>
          rw [List.cons_append]
          unfold Program.follow at reached ⊢
          split at reached
          · rename_i same
            rw [dif_pos same]
            exact inductionHypothesis reached
          · cases reached
      | _ => cases reached

/-- A thread of a run has come by its trace to where it is. -/
theorem Run.follows {machine : Machine State Role Call Reply Ambient Choice ε α}
    {allowed : Config State Role Call Reply ε α → Event Ambient Choice → Prop}
    {start config : Config State Role Call Reply ε α}
    (run : Run machine allowed start config) (idle : start.threads = []) :
    ∀ thread ∈ config.threads,
      (machine.program thread.role).follow thread.trace = some thread.rest := by
  refine run.invariant (fun config => ∀ thread ∈ config.threads,
    (machine.program thread.role).follow thread.trace = some thread.rest) ?_ ?_
  · intro thread member
    rw [idle] at member
    cases member
  · intro config event after follows _ stepped
    cases stepped with
    | ambient action state acted => exact follows
    | spawn action state role acted =>
        intro thread member
        rcases List.mem_append.mp member with old | new
        · exact follows thread old
        · rw [List.mem_singleton.mp new]
          exact Program.follow_nil _
    | kill index thread found alive =>
        exact forall_mem_set follows (follows thread (List.mem_of_getElem? found))
    | call index thread request resume choice reply state found alive rest executed =>
        refine forall_mem_set follows ?_
        have reached := follows thread (List.mem_of_getElem? found)
        rw [rest] at reached
        exact Program.follow_append reply reached

namespace Recorded

/-- Where the plain program has come by a trace, the recorded one has come, and what is left of
it is what is left of the plain one. -/
theorem exists_follow {value : Option Value} {recorded : Recorded Call Reply Value Record ε α}
    {trace : List (Entry Reply)} {rest : Program Call Reply ε α}
    (reached : (erase value recorded).follow trace = some rest) :
    ∃ position, follow value recorded trace = some position ∧
      erase position.value position.rest = rest := by
  induction recorded generalizing value trace with
  | pure result =>
      cases trace with
      | nil => cases reached; exact ⟨_, rfl, rfl⟩
      | cons entry trace => cases reached
  | raise error =>
      cases trace with
      | nil => cases reached; exact ⟨_, rfl, rfl⟩
      | cons entry trace => cases reached
  | call act resume inductionHypothesis =>
      cases act with
      | call request =>
          cases trace with
          | nil => cases reached; exact ⟨_, rfl, rfl⟩
          | cons entry trace =>
              unfold erase Program.follow at reached
              unfold follow
              split at reached
              · rename_i same
                rw [dif_pos same]
                exact inductionHypothesis _ reached
              · cases reached
      | bind new => exact inductionHypothesis value reached
      | reset token => exact inductionHypothesis () reached
      | write record =>
          obtain ⟨position, followed, same⟩ := inductionHypothesis () reached
          exact ⟨{ position with records := (value, record) :: position.records },
            congrArg (Option.map _) followed, same⟩

/-- When the plain program is over, the recorded one is. -/
theorem exists_result_of_follow {value : Option Value}
    {recorded : Recorded Call Reply Value Record ε α} {trace : List (Entry Reply)}
    {position : Position Call Reply Value Record ε α}
    (followed : follow value recorded trace = some position)
    (finished : ¬(erase position.value position.rest).Suspended) :
    ∃ result, position.rest = .ofExcept result := by
  induction recorded generalizing value trace position with
  | pure output =>
      cases trace with
      | nil => cases followed; exact ⟨.ok output, rfl⟩
      | cons entry trace => cases followed
  | raise error =>
      cases trace with
      | nil => cases followed; exact ⟨.error error, rfl⟩
      | cons entry trace => cases followed
  | call act resume inductionHypothesis =>
      cases act with
      | call request =>
          cases trace with
          | nil => cases followed; exact (finished trivial).elim
          | cons entry trace =>
              unfold follow at followed
              split at followed
              · exact inductionHypothesis _ followed finished
              · cases followed
      | bind new => exact inductionHypothesis value followed finished
      | reset token => exact inductionHypothesis () followed finished
      | write record =>
          obtain ⟨reached, onward, rfl⟩ := Option.map_eq_some_iff.mp followed
          obtain ⟨result, ended⟩ := inductionHypothesis () onward finished
          exact ⟨result, ended⟩

end Recorded

end Follow

namespace Recorded

/-! ## What may be written -/

/-- A service that watches what is written: its state is the trace so far and the value of the
variable. Calls may be answered in any way. -/
def observer (good : List (Entry Reply) → Option Value → Record → Prop) :
    Service (List (Entry Reply) × Option Value) (Act Call Value Record) (Act.Answer Reply) where
  permits state act :=
    match act with
    | .write record => good state.1 state.2 record
    | _ => True
  answers state act answer next :=
    match act, answer with
    | .call request, reply => next = (state.1 ++ [⟨request, reply⟩], state.2)
    | .bind value, token => token = state.2 ∧ next = (state.1, some value)
    | .reset token, _ => next = (state.1, token)
    | .write _, _ => next = state

variable {good : List (Entry Reply) → Option Value → Record → Prop}
  {trace : List (Entry Reply)} {value : Option Value}

theorem meets_write {record : Record}
    {post : List (Entry Reply) × Option Value → Except ε Unit → Prop}
    (fits : good trace value record) (ends : post (trace, value) (.ok ())) :
    (write record : Recorded Call Reply Value Record ε Unit).Meets (observer good) post
      (trace, value) := by
  refine ⟨fits, fun _ next answered => ?_⟩
  cases answered
  exact ends

/-- Within a binding the value is the bound one, and on the way out it is the old one. -/
theorem meets_within {bound : Value} {body : Recorded Call Reply Value Record ε α}
    {post : List (Entry Reply) × Option Value → Except ε α → Prop}
    (meets : body.Meets (observer good) (fun reached result => post (reached.1, value) result)
      (trace, some bound)) :
    (within bound body).Meets (observer good) post (trace, value) := by
  refine ⟨trivial, fun token next answered => ?_⟩
  obtain ⟨rfl, rfl⟩ := answered
  rw [Program.meets_handle]
  refine meets.mono fun reached result ends => ?_
  cases result with
  | ok result =>
      refine ⟨trivial, fun _ next answered => ?_⟩
      cases answered
      exact ends
  | error error =>
      refine ⟨trivial, fun _ next answered => ?_⟩
      cases answered
      exact ends

/-- A plain program keeps the value, and the trace gets longer. -/
theorem meets_embed {program : Program Call Reply ε α}
    {post : List (Entry Reply) × Option Value → Except ε α → Prop}
    (ends : ∀ more result, post (trace ++ more, value) result) :
    (embed program : Recorded Call Reply Value Record ε α).Meets (observer good) post
      (trace, value) := by
  induction program generalizing trace with
  | pure result =>
      have ended := ends [] (.ok result)
      rw [List.append_nil] at ended
      exact ended
  | raise error =>
      have ended := ends [] (.error error)
      rw [List.append_nil] at ended
      exact ended
  | call request resume inductionHypothesis =>
      refine ⟨trivial, fun reply next answered => ?_⟩
      cases answered
      refine inductionHypothesis reply fun more result => ?_
      rw [List.append_assoc]
      exact ends _ result

/-- What a program that meets the observer has written, it may write. -/
theorem good_of_follow [DecidableEq Call]
    (grows : ∀ trace more value record, good trace value record →
      good (trace ++ more) value record)
    {recorded : Recorded Call Reply Value Record ε α}
    {post : List (Entry Reply) × Option Value → Except ε α → Prop}
    (meets : recorded.Meets (observer good) post (trace, value))
    {more : List (Entry Reply)} {position : Position Call Reply Value Record ε α}
    (followed : follow value recorded more = some position) :
    (∀ record ∈ position.records, good (trace ++ more) record.1 record.2) ∧
      position.rest.Meets (observer good) post (trace ++ more, position.value) := by
  induction recorded generalizing value trace more position with
  | pure result =>
      cases more with
      | nil =>
          cases followed
          rw [List.append_nil]
          exact ⟨nofun, meets⟩
      | cons entry more => cases followed
  | raise error =>
      cases more with
      | nil =>
          cases followed
          rw [List.append_nil]
          exact ⟨nofun, meets⟩
      | cons entry more => cases followed
  | call act resume inductionHypothesis =>
      cases act with
      | call request =>
          cases more with
          | nil =>
              cases followed
              rw [List.append_nil]
              exact ⟨nofun, meets⟩
          | cons entry more =>
              unfold follow at followed
              split at followed
              · rename_i same
                obtain ⟨request', reply⟩ := entry
                cases same
                have later := inductionHypothesis reply (meets.2 reply _ rfl) followed
                rw [List.append_assoc] at later
                exact later
              · cases followed
      | bind new => exact inductionHypothesis value (meets.2 value _ ⟨rfl, rfl⟩) followed
      | reset token => exact inductionHypothesis () (meets.2 () _ rfl) followed
      | write record =>
          unfold follow at followed
          obtain ⟨reached, onward, rfl⟩ := Option.map_eq_some_iff.mp followed
          obtain ⟨rest, ends⟩ := inductionHypothesis () (meets.2 () _ rfl) onward
          refine ⟨fun written member => ?_, ends⟩
          rcases List.mem_cons.mp member with rfl | later
          · exact grows trace more value record meets.1
          · exact rest written later

/-! ## Programs that leave the variable as it was -/

/-- Whatever it is answered, the program writes what it may, leaves the variable as it was and
returns what it should. -/
def Keeps (good : List (Entry Reply) → Option Value → Record → Prop) (trace : List (Entry Reply))
    (value : Option Value) (returns : List (Entry Reply) → α → Prop)
    (recorded : Recorded Call Reply Value Record ε α) : Prop :=
  recorded.Meets (observer good) (fun reached result => trace ⊆ reached.1 ∧ reached.2 = value ∧
    ∀ output, result = .ok output → returns reached.1 output) (trace, value)

variable {recorded : Recorded Call Reply Value Record ε α}
  {middle : List (Entry Reply) → α → Prop} {returns : List (Entry Reply) → β → Prop}

theorem keeps_pure {output : β} (fits : returns trace output) :
    Keeps good trace value returns (.pure output : Recorded Call Reply Value Record ε β) := by
  refine ⟨fun _ present => present, rfl, fun other same => ?_⟩
  cases same
  exact fits

theorem keeps_raise {error : ε} :
    Keeps good trace value returns (.raise error : Recorded Call Reply Value Record ε β) :=
  ⟨fun _ present => present, rfl, nofun⟩

theorem keeps_handle {onValue : α → Recorded Call Reply Value Record ε' β}
    {onError : ε → Recorded Call Reply Value Record ε' β}
    (first : recorded.Keeps good trace value middle)
    (values : ∀ later output, trace ⊆ later → middle later output →
      (onValue output).Keeps good later value returns)
    (errors : ∀ later error, trace ⊆ later → (onError error).Keeps good later value returns) :
    Keeps good trace value returns (Program.handle onValue onError recorded) := by
  unfold Keeps
  rw [Program.meets_handle]
  refine first.mono fun reached result ends => ?_
  obtain ⟨later, value'⟩ := reached
  obtain ⟨longer, same, returned⟩ := ends
  cases same
  cases result with
  | ok output =>
      exact (values later output longer (returned output rfl)).mono fun _ _ ended =>
        ⟨fun _ present => ended.1 (longer present), ended.2⟩
  | error error =>
      exact (errors later error longer).mono fun _ _ ended =>
        ⟨fun _ present => ended.1 (longer present), ended.2⟩

theorem keeps_bind {next : α → Recorded Call Reply Value Record ε β}
    (first : recorded.Keeps good trace value middle)
    (rest : ∀ later output, trace ⊆ later → middle later output →
      (next output).Keeps good later value returns) :
    Keeps good trace value returns (recorded >>= next) :=
  keeps_handle first rest fun _ _ _ => keeps_raise

theorem keeps_tryCatch {recorded : Recorded Call Reply Value Record ε β}
    {handler : ε → Recorded Call Reply Value Record ε' β}
    (first : recorded.Keeps good trace value returns)
    (errors : ∀ later error, trace ⊆ later → (handler error).Keeps good later value returns) :
    Keeps good trace value returns (Program.tryCatch recorded handler) :=
  keeps_handle first (fun _ _ _ fits => keeps_pure fits) errors

theorem keeps_mapError {recorded : Recorded Call Reply Value Record ε β} {rename : ε → ε'}
    (first : recorded.Keeps good trace value returns) :
    Keeps good trace value returns (Program.mapError rename recorded) :=
  keeps_tryCatch first fun _ _ _ => keeps_raise

theorem keeps_embed (program : Program Call Reply ε α) :
    Keeps good trace value (fun _ _ => True)
      (embed program : Recorded Call Reply Value Record ε α) :=
  meets_embed fun _ _ => ⟨fun _ => List.mem_append_left _, rfl, fun _ _ => trivial⟩

theorem keeps_write {record : Record} (fits : good trace value record) :
    Keeps good trace value (fun _ _ => True)
      (write record : Recorded Call Reply Value Record ε Unit) :=
  meets_write fits ⟨fun _ present => present, rfl, fun _ _ => trivial⟩

theorem keeps_within {bound : Value} (body : recorded.Keeps good trace (some bound) middle) :
    Keeps good trace value middle (within bound recorded) :=
  meets_within (body.mono fun _ _ ended => ⟨ended.1, rfl, ended.2.2⟩)

theorem keeps_forEach {γ : Type} {body : γ → Recorded Call Reply Value Record ε Unit}
    {items : List γ}
    (each : ∀ item ∈ items, ∀ later, trace ⊆ later →
      (body item).Keeps good later value fun _ _ => True) :
    Keeps good trace value (fun _ _ => True) (Program.forEach body items) := by
  induction items generalizing trace with
  | nil => exact keeps_pure trivial
  | cons item items inductionHypothesis =>
      refine keeps_bind (each item List.mem_cons_self trace fun _ present => present)
        fun later _ longer _ => inductionHypothesis fun other member latest more => ?_
      exact each other (List.mem_cons_of_mem _ member) latest fun _ present =>
        more (longer present)

end Recorded

end Resumption
