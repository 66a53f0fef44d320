import Provisioner.Resumption.Interleaving
import Mathlib.Logic.Equiv.Defs

/-!
# Runs behind a mask

A mask hides a part of every call. If the service answers a call in the same way whatever the
hidden part is, then two machines whose programs look the same behind the mask have runs that
look the same: the schedules that are possible, the shared state, the threads and their
results. So what a program puts into the hidden part of its calls goes nowhere else.
-/

namespace Resumption

variable {State Role Call Ambient Choice ε ε' α β : Type} {Reply : Call → Type}

/-- A call behind the mask, which is answered as the call is. -/
structure Mask (Call : Type) (Reply : Call → Type) where
  hide : Call → Call
  answer : (request : Call) → Reply (hide request) ≃ Reply request

/-- An answered call behind the mask. -/
def Mask.entry (mask : Mask Call Reply) (entry : Entry Reply) : Entry Reply :=
  ⟨mask.hide entry.request, (mask.answer entry.request).symm entry.reply⟩

namespace Program

variable {mask : Mask Call Reply}

/-- The program behind the mask. -/
def masked (mask : Mask Call Reply) : Program Call Reply ε α → Program Call Reply ε α
  | .pure value => .pure value
  | .raise error => .raise error
  | .call request resume =>
      .call (mask.hide request) fun reply => (resume (mask.answer request reply)).masked mask

theorem masked_handle (mask : Mask Call Reply)
    (onValue : α → Program Call Reply ε' β) (onError : ε → Program Call Reply ε' β)
    (program : Program Call Reply ε α) :
    (program.handle onValue onError).masked mask =
      (program.masked mask).handle (fun value => (onValue value).masked mask)
        fun error => (onError error).masked mask := by
  induction program with
  | pure value => rfl
  | raise error => rfl
  | call request resume inductionHypothesis =>
      exact congrArg (Program.call (mask.hide request))
        (funext fun reply => inductionHypothesis (mask.answer request reply))

/-- Two programs that look the same behind the mask. -/
def Similar (mask : Mask Call Reply) (first second : Program Call Reply ε α) : Prop :=
  first.masked mask = second.masked mask

theorem Similar.handle {first second : Program Call Reply ε α}
    {onValue onValue' : α → Program Call Reply ε' β}
    {onError onError' : ε → Program Call Reply ε' β}
    (similar : first.Similar mask second)
    (values : ∀ value, (onValue value).Similar mask (onValue' value))
    (errors : ∀ error, (onError error).Similar mask (onError' error)) :
    (first.handle onValue onError).Similar mask (second.handle onValue' onError') := by
  unfold Similar at similar ⊢
  rw [masked_handle, masked_handle, similar]
  congr 1
  · exact funext values
  · exact funext errors

theorem Similar.bind {first second : Program Call Reply ε α}
    {next next' : α → Program Call Reply ε β}
    (similar : first.Similar mask second)
    (values : ∀ value, (next value).Similar mask (next' value)) :
    (first >>= next).Similar mask (second >>= next') :=
  similar.handle values fun _ => rfl

theorem Similar.tryCatch {first second : Program Call Reply ε α}
    {handler handler' : ε → Program Call Reply ε' α}
    (similar : first.Similar mask second)
    (errors : ∀ error, (handler error).Similar mask (handler' error)) :
    (first.tryCatch handler).Similar mask (second.tryCatch handler') :=
  similar.handle (fun _ => rfl) errors

theorem Similar.mapError {first second : Program Call Reply ε α} {rename : ε → ε'}
    (similar : first.Similar mask second) :
    (first.mapError rename).Similar mask (second.mapError rename) :=
  similar.tryCatch fun _ => rfl

end Program

/-- The thread behind the mask. -/
def Thread.masked (mask : Mask Call Reply) (thread : Thread Role Call Reply ε α) :
    Thread Role Call Reply ε α where
  role := thread.role
  trace := thread.trace.map mask.entry
  rest := thread.rest.masked mask
  live := thread.live

/-- The configuration behind the mask: the state is visible. -/
def Config.masked (mask : Mask Call Reply) (config : Config State Role Call Reply ε α) :
    Config State Role Call Reply ε α where
  state := config.state
  threads := config.threads.map (Thread.masked mask)

/-- The machine whose threads run behind the mask. -/
def Machine.masked (mask : Mask Call Reply)
    (machine : Machine State Role Call Reply Ambient Choice ε α) :
    Machine State Role Call Reply Ambient Choice ε α :=
  { machine with program := fun role => (machine.program role).masked mask }

/-- The service does not look behind the mask. -/
def Machine.Ignores (machine : Machine State Role Call Reply Ambient Choice ε α)
    (mask : Mask Call Reply) : Prop :=
  ∀ state request choice, machine.exec state (mask.hide request) choice =
    (machine.exec state request choice).map fun answered =>
      ((mask.answer request).symm answered.1, answered.2)

variable {machine machine' : Machine State Role Call Reply Ambient Choice ε α}
  {mask : Mask Call Reply}

theorem Config.masked_put (config : Config State Role Call Reply ε α) (state : State)
    (index : Nat) (thread : Thread Role Call Reply ε α) :
    (config.put state index thread).masked mask =
      (config.masked mask).put state index (thread.masked mask) := by
  unfold Config.put Config.masked
  rw [List.map_set]

theorem Thread.masked_answered (thread : Thread Role Call Reply ε α) (request : Call)
    (reply : Reply request) (rest : Program Call Reply ε α) :
    (thread.answered request reply rest).masked mask =
      (thread.masked mask).answered (mask.hide request) ((mask.answer request).symm reply)
        (rest.masked mask) := by
  unfold Thread.answered Thread.masked
  rw [List.map_append]
  rfl

/-- A thread makes its next call behind the mask as it does without. -/
theorem Config.masked_advanceThread (ignores : machine.Ignores mask)
    (config : Config State Role Call Reply ε α) (index : Nat)
    (thread : Thread Role Call Reply ε α) (choice : Choice) :
    (config.advanceThread machine index thread choice).map (Config.masked mask) =
      (config.masked mask).advanceThread (machine.masked mask) index (thread.masked mask)
        choice := by
  unfold Config.advanceThread
  cases rest : thread.rest with
  | pure value => simp only [Thread.masked, rest, Program.masked, Option.map_none]
  | raise error => simp only [Thread.masked, rest, Program.masked, Option.map_none]
  | call request resume =>
      have hidden : (thread.masked mask).rest = .call (mask.hide request) fun reply =>
          (resume (mask.answer request reply)).masked mask := by
        rw [Thread.masked, rest]
        rfl
      have answer : (machine.masked mask).exec (config.masked mask).state (mask.hide request)
          choice = _ := ignores config.state request choice
      simp only [hidden, answer]
      cases machine.exec config.state request choice with
      | none => rfl
      | some answered =>
          simp only [Option.map_some, Config.masked_put, Thread.masked_answered,
            Equiv.apply_symm_apply]

/-- A step behind the mask is the step without it. -/
theorem Config.masked_step (ignores : machine.Ignores mask)
    (config : Config State Role Call Reply ε α) (event : Event Ambient Choice) :
    (config.step machine event).map (Config.masked mask) =
      (config.masked mask).step (machine.masked mask) event := by
  have located : ∀ index, (config.masked mask).threads[index]? =
      config.threads[index]?.map (Thread.masked mask) := fun _ => List.getElem?_map
  cases event with
  | ambient action =>
      unfold Config.step
      have acts : (machine.masked mask).ambient (config.masked mask).state action =
          machine.ambient config.state action := rfl
      simp only [acts]
      rcases machine.ambient config.state action with _ | ⟨state, _ | role⟩
      · rfl
      · rfl
      · simp only [Option.map_some, Config.spawn, Config.masked, List.map_append]
        rfl
  | kill index =>
      unfold Config.step
      simp only [located]
      cases config.threads[index]? with
      | none => rfl
      | some thread =>
          have same : (thread.masked mask).live = thread.live := rfl
          simp only [Option.map_some, same]
          split
          · rw [Option.map_some, Config.masked_put]
            rfl
          · rfl
  | advance index choice =>
      unfold Config.step
      simp only [located]
      cases config.threads[index]? with
      | none => rfl
      | some thread =>
          have same : (thread.masked mask).live = thread.live := rfl
          simp only [Option.map_some, same]
          split
          · exact Config.masked_advanceThread ignores config index thread choice
          · rfl

/-- A run behind the mask is the run without it. -/
theorem Config.masked_run (ignores : machine.Ignores mask)
    (allowed : Config State Role Call Reply ε α → Event Ambient Choice → Prop)
    [∀ config event, Decidable (allowed config event)]
    (events : List (Event Ambient Choice)) (config : Config State Role Call Reply ε α) :
    (config.run machine (fun config event => allowed (config.masked mask) event) events).map
        (Config.masked mask) =
      (config.masked mask).run (machine.masked mask) allowed events := by
  induction events generalizing config with
  | nil => rfl
  | cons event events inductionHypothesis =>
      unfold Config.run
      split
      · rw [← Config.masked_step ignores]
        cases config.step machine event with
        | none => rfl
        | some next => exact inductionHypothesis next
      · rfl

/-- Machines that differ behind the mask only have the same runs, as far as the mask shows. -/
theorem Config.run_eq_of_similar (ignores : machine.Ignores mask)
    (exec : machine'.exec = machine.exec) (ambient : machine'.ambient = machine.ambient)
    (similar : ∀ role, (machine.program role).Similar mask (machine'.program role))
    (allowed : Config State Role Call Reply ε α → Event Ambient Choice → Prop)
    [∀ config event, Decidable (allowed config event)]
    (events : List (Event Ambient Choice)) (config : Config State Role Call Reply ε α) :
    (config.run machine (fun config event => allowed (config.masked mask) event) events).map
        (Config.masked mask) =
      (config.run machine' (fun config event => allowed (config.masked mask) event) events).map
        (Config.masked mask) := by
  have ignores' : machine'.Ignores mask := by
    intro state request choice
    rw [exec]
    exact ignores state request choice
  have same : machine.masked mask = machine'.masked mask := by
    unfold Machine.masked
    rw [exec, ambient]
    congr 1
    exact funext similar
  rw [Config.masked_run ignores, Config.masked_run ignores', same]

end Resumption
