import Provisioner.Resumption.Execution
import Mathlib.Tactic.Ring

/-!
# Interleaved programs over a shared state

A machine runs any number of threads, each a resumable program, over one shared
state. One step lets a single thread make its next call, lets the surroundings
act (and possibly start a thread), or kills a thread; the scheduler, the
environment's answers and the kills are all part of the event. Runs may be
restricted by a condition on the configuration before each step.

The file's main rules are `Run.meets`, which lifts a protocol proved of every
program to every thread of every reachable configuration, and two rules that
reduce an invariant of all runs to one obligation for each kind of step:
`Run.invariant_of_calls` for invariants of the whole configuration, and
`Run.invariant_of_sessions` for a state invariant together with one that each
thread keeps by itself.
-/

namespace Resumption

/-- A running program together with the calls it has made so far. -/
structure Thread (Role Call : Type) (Reply : Call → Type) (ε α : Type) where
  /-- What the thread was started for. -/
  role : Role
  /-- The answered calls, oldest first. -/
  trace : List (Entry Reply)
  /-- The rest of the program. -/
  rest : Program Call Reply ε α
  /-- A killed thread keeps its history but never moves again. -/
  live : Bool

/-- A shared state and the threads working on it. -/
structure Config (State Role Call : Type) (Reply : Call → Type) (ε α : Type) where
  /-- The shared state. -/
  state : State
  /-- All threads ever started, in the order they were started. -/
  threads : List (Thread Role Call Reply ε α)

/-- What can happen next. -/
inductive Event (Ambient Choice : Type)
  | ambient (action : Ambient)
  | advance (thread : Nat) (choice : Choice)
  | kill (thread : Nat)
  deriving DecidableEq

/-- The shared service, its surroundings and the program of each role. -/
structure Machine (State Role Call : Type) (Reply : Call → Type)
    (Ambient Choice ε α : Type) where
  /-- Answer a call in a state; `none` when this choice is not open. -/
  exec : State → (request : Call) → Choice → Option (Reply request × State)
  /-- An action of the surroundings, possibly starting a thread. -/
  ambient : State → Ambient → Option (State × Option Role)
  /-- The program a role runs. -/
  program : Role → Program Call Reply ε α

variable {State Role Phase Call Ambient Choice ε α : Type} {Reply : Call → Type}

namespace Thread

/-- A thread that has made no call yet. -/
def start
    (machine : Machine State Role Call Reply Ambient Choice ε α)
    (role : Role) : Thread Role Call Reply ε α where
  role := role
  trace := []
  rest := machine.program role
  live := true

/-- The thread after one more answered call. -/
def answered
    (thread : Thread Role Call Reply ε α)
    (request : Call)
    (reply : Reply request)
    (rest : Program Call Reply ε α) : Thread Role Call Reply ε α :=
  { thread with trace := thread.trace ++ [⟨request, reply⟩], rest := rest }

/-- The thread after it has been killed. -/
def killed (thread : Thread Role Call Reply ε α) : Thread Role Call Reply ε α :=
  { thread with live := false }

/-- The protocol phase a thread has reached, recomputed from its trace. -/
def phase
    (protocol : Protocol Phase Call Reply)
    (initial : Role → Phase)
    (thread : Thread Role Call Reply ε α) : Phase :=
  thread.trace.foldl
    (fun reached entry => protocol.advance reached entry.request entry.reply)
    (initial thread.role)

variable {protocol : Protocol Phase Call Reply} {initial : Role → Phase}

@[simp] theorem phase_start
    (machine : Machine State Role Call Reply Ambient Choice ε α)
    (role : Role) :
    (start machine role).phase protocol initial = initial role := rfl

@[simp] theorem phase_killed (thread : Thread Role Call Reply ε α) :
    thread.killed.phase protocol initial = thread.phase protocol initial := rfl

@[simp] theorem phase_answered
    (thread : Thread Role Call Reply ε α)
    (request : Call)
    (reply : Reply request)
    (rest : Program Call Reply ε α) :
    (thread.answered request reply rest).phase protocol initial =
      protocol.advance (thread.phase protocol initial) request reply := by
  simp [phase, answered]

@[simp] theorem live_start
    (machine : Machine State Role Call Reply Ambient Choice ε α)
    (role : Role) :
    (start machine role).live = true := rfl

@[simp] theorem live_killed (thread : Thread Role Call Reply ε α) :
    thread.killed.live = false := rfl

@[simp] theorem live_answered
    (thread : Thread Role Call Reply ε α)
    (request : Call)
    (reply : Reply request)
    (rest : Program Call Reply ε α) :
    (thread.answered request reply rest).live = thread.live := rfl

@[simp] theorem role_start
    (machine : Machine State Role Call Reply Ambient Choice ε α)
    (role : Role) :
    (start machine role).role = role := rfl

@[simp] theorem role_killed (thread : Thread Role Call Reply ε α) :
    thread.killed.role = thread.role := rfl

@[simp] theorem role_answered
    (thread : Thread Role Call Reply ε α)
    (request : Call)
    (reply : Reply request)
    (rest : Program Call Reply ε α) :
    (thread.answered request reply rest).role = thread.role := rfl

@[simp] theorem rest_answered
    (thread : Thread Role Call Reply ε α)
    (request : Call)
    (reply : Reply request)
    (rest : Program Call Reply ε α) :
    (thread.answered request reply rest).rest = rest := rfl

@[simp] theorem rest_killed (thread : Thread Role Call Reply ε α) :
    thread.killed.rest = thread.rest := rfl

@[simp] theorem rest_start
    (machine : Machine State Role Call Reply Ambient Choice ε α)
    (role : Role) :
    (start machine role).rest = machine.program role := rfl

/-- A thread can still act when it is alive and has a call to make. -/
def Active (thread : Thread Role Call Reply ε α) : Prop :=
  thread.live = true ∧ thread.rest.Suspended

end Thread

namespace Config

/-- Replace the state and one thread. -/
def put
    (config : Config State Role Call Reply ε α)
    (state : State)
    (index : Nat)
    (thread : Thread Role Call Reply ε α) : Config State Role Call Reply ε α where
  state := state
  threads := config.threads.set index thread

/-- Replace the state and start a thread. -/
def spawn
    (config : Config State Role Call Reply ε α)
    (state : State)
    (thread : Thread Role Call Reply ε α) : Config State Role Call Reply ε α where
  state := state
  threads := config.threads ++ [thread]

/-- One thread makes its next call. -/
def advanceThread
    (machine : Machine State Role Call Reply Ambient Choice ε α)
    (config : Config State Role Call Reply ε α)
    (index : Nat)
    (thread : Thread Role Call Reply ε α)
    (choice : Choice) : Option (Config State Role Call Reply ε α) :=
  match thread.rest with
  | .pure _ => none
  | .raise _ => none
  | .call request resume =>
      match machine.exec config.state request choice with
      | none => none
      | some (reply, state) =>
          some (config.put state index
            (thread.answered request reply (resume reply)))

/-- The step function of the interleaving. -/
def step
    (machine : Machine State Role Call Reply Ambient Choice ε α)
    (config : Config State Role Call Reply ε α) :
    Event Ambient Choice → Option (Config State Role Call Reply ε α)
  | .ambient action =>
      match machine.ambient config.state action with
      | none => none
      | some (state, none) => some { config with state := state }
      | some (state, some role) =>
          some (config.spawn state (Thread.start machine role))
  | .kill index =>
      match config.threads[index]? with
      | none => none
      | some thread =>
          if thread.live then some (config.put config.state index thread.killed)
          else none
  | .advance index choice =>
      match config.threads[index]? with
      | none => none
      | some thread =>
          if thread.live then config.advanceThread machine index thread choice
          else none

/-- The thread that an event lets make a call, and the call. -/
def turn
    (config : Config State Role Call Reply ε α) :
    Event Ambient Choice → Option (Thread Role Call Reply ε α × Call)
  | .advance index _ =>
      match config.threads[index]? with
      | none => none
      | some thread =>
          match thread.rest with
          | .call request _ => some (thread, request)
          | _ => none
  | _ => none

/-- Run a list of events; `none` when one of them is not possible or not
allowed. -/
def run
    (machine : Machine State Role Call Reply Ambient Choice ε α)
    (allowed : Config State Role Call Reply ε α → Event Ambient Choice → Prop)
    [∀ config event, Decidable (allowed config event)] :
    List (Event Ambient Choice) → Config State Role Call Reply ε α →
      Option (Config State Role Call Reply ε α)
  | [], config => some config
  | event :: events, config =>
      if allowed config event then
        match config.step machine event with
        | none => none
        | some next => run machine allowed events next
      else none

end Config

/-- The four kinds of step, with all that each of them does. -/
inductive Step
    (machine : Machine State Role Call Reply Ambient Choice ε α)
    (config : Config State Role Call Reply ε α) :
    Event Ambient Choice → Config State Role Call Reply ε α → Prop
  | ambient (action : Ambient) (state : State) :
      machine.ambient config.state action = some (state, none) →
      Step machine config (.ambient action) { config with state := state }
  | spawn (action : Ambient) (state : State) (role : Role) :
      machine.ambient config.state action = some (state, some role) →
      Step machine config (.ambient action)
        (config.spawn state (Thread.start machine role))
  | kill (index : Nat) (thread : Thread Role Call Reply ε α) :
      config.threads[index]? = some thread →
      thread.live = true →
      Step machine config (.kill index)
        (config.put config.state index thread.killed)
  | call (index : Nat) (thread : Thread Role Call Reply ε α)
      (request : Call) (resume : Reply request → Program Call Reply ε α)
      (choice : Choice) (reply : Reply request) (state : State) :
      config.threads[index]? = some thread →
      thread.live = true →
      thread.rest = .call request resume →
      machine.exec config.state request choice = some (reply, state) →
      Step machine config (.advance index choice)
        (config.put state index (thread.answered request reply (resume reply)))

variable {machine : Machine State Role Call Reply Ambient Choice ε α}

/-- The turn of a thread that is about to make a call. -/
theorem Config.turn_advance
    {config : Config State Role Call Reply ε α}
    {index : Nat} {thread : Thread Role Call Reply ε α} {choice : Choice}
    {request : Call} {resume : Reply request → Program Call Reply ε α}
    (found : config.threads[index]? = some thread)
    (rest : thread.rest = .call request resume) :
    config.turn (.advance index choice : Event Ambient Choice) =
      some (thread, request) := by
  unfold Config.turn
  simp only [found, rest]

/-- The step function is exactly the step relation. -/
theorem Config.step_eq_some_iff
    {config next : Config State Role Call Reply ε α}
    {event : Event Ambient Choice} :
    config.step machine event = some next ↔ Step machine config event next := by
  constructor
  · intro stepped
    cases event with
    | ambient action =>
        simp only [Config.step] at stepped
        split at stepped
        · cases stepped
        · rename_i state acted
          cases stepped
          exact .ambient action state acted
        · rename_i state role acted
          cases stepped
          exact .spawn action state role acted
    | kill index =>
        simp only [Config.step] at stepped
        split at stepped
        · cases stepped
        · rename_i thread found
          split at stepped
          · rename_i alive
            cases stepped
            exact .kill index thread found alive
          · cases stepped
    | advance index choice =>
        simp only [Config.step] at stepped
        split at stepped
        · cases stepped
        · rename_i thread found
          split at stepped
          · rename_i alive
            unfold Config.advanceThread at stepped
            split at stepped
            · cases stepped
            · cases stepped
            · rename_i request resume rest
              split at stepped
              · cases stepped
              · rename_i reply state executed
                cases stepped
                exact .call index thread request resume choice reply state
                  found alive rest executed
          · cases stepped
  · intro stepped
    cases stepped with
    | ambient action state acted => simp [Config.step, acted]
    | spawn action state role acted => simp [Config.step, acted]
    | kill index thread found alive => simp [Config.step, found, alive]
    | call index thread request resume choice reply state found alive rest
        executed =>
        unfold Config.step
        simp only [found, alive, if_true]
        unfold Config.advanceThread
        rw [rest]
        simp only [executed]

/-- Finite runs whose every step satisfies `allowed` in the configuration
before the step. -/
inductive Run
    (machine : Machine State Role Call Reply Ambient Choice ε α)
    (allowed : Config State Role Call Reply ε α → Event Ambient Choice → Prop)
    (start : Config State Role Call Reply ε α) :
    Config State Role Call Reply ε α → Prop
  | refl : Run machine allowed start start
  | next {config after : Config State Role Call Reply ε α}
      {event : Event Ambient Choice} :
      Run machine allowed start config →
      allowed config event →
      Step machine config event after →
      Run machine allowed start after

/-- A configuration some unrestricted run reaches. -/
abbrev Reachable
    (machine : Machine State Role Call Reply Ambient Choice ε α)
    (start config : Config State Role Call Reply ε α) : Prop :=
  Run machine (fun _ _ => True) start config

namespace Run

variable
  {allowed : Config State Role Call Reply ε α → Event Ambient Choice → Prop}
  {start config : Config State Role Call Reply ε α}

/-- Runs compose. -/
theorem trans
    {middle last : Config State Role Call Reply ε α}
    (first : Run machine allowed start middle)
    (second : Run machine allowed middle last) :
    Run machine allowed start last := by
  induction second with
  | refl => exact first
  | next _ permitted stepped inductionHypothesis =>
      exact inductionHypothesis.next permitted stepped

/-- A run under a stronger condition is a run under a weaker one. -/
theorem mono
    {weaker : Config State Role Call Reply ε α → Event Ambient Choice → Prop}
    (run : Run machine allowed start config)
    (implies : ∀ config event, allowed config event → weaker config event) :
    Run machine weaker start config := by
  induction run with
  | refl => exact .refl
  | next _ permitted stepped inductionHypothesis =>
      exact inductionHypothesis.next (implies _ _ permitted) stepped

/-- Every restricted run is a run. -/
theorem reachable (run : Run machine allowed start config) :
    Reachable machine start config :=
  run.mono fun _ _ _ => trivial

/-- Executing a list of events is a run. -/
theorem of_run
    [∀ config event, Decidable (allowed config event)]
    {events : List (Event Ambient Choice)}
    {config last : Config State Role Call Reply ε α}
    (executed : config.run machine allowed events = some last) :
    Run machine allowed config last := by
  induction events generalizing config with
  | nil =>
      cases executed
      exact .refl
  | cons event events inductionHypothesis =>
      unfold Config.run at executed
      split at executed
      · rename_i permitted
        split at executed
        · cases executed
        · rename_i next stepped
          have first : Run machine allowed config next :=
            Run.next .refl permitted (Config.step_eq_some_iff.mp stepped)
          exact first.trans (inductionHypothesis executed)
      · cases executed

/-- Executing one event more takes one step more. -/
theorem of_run_concat
    [∀ config event, Decidable (allowed config event)]
    {events : List (Event Ambient Choice)} {event : Event Ambient Choice}
    {config last : Config State Role Call Reply ε α}
    (executed : config.run machine allowed (events ++ [event]) = some last) :
    ∃ before, config.run machine allowed events = some before ∧
      allowed before event ∧ Step machine before event last := by
  induction events generalizing config with
  | nil =>
      rw [List.nil_append] at executed
      unfold Config.run at executed
      split at executed
      · rename_i permitted
        split at executed
        · cases executed
        · rename_i next stepped
          cases executed
          exact ⟨config, rfl, permitted, Config.step_eq_some_iff.mp stepped⟩
      · cases executed
  | cons first events inductionHypothesis =>
      rw [List.cons_append] at executed
      unfold Config.run at executed
      split at executed
      · rename_i permitted
        split at executed
        · cases executed
        · rename_i next stepped
          obtain ⟨before, ran, rest⟩ := inductionHypothesis executed
          refine ⟨before, ?_, rest⟩
          unfold Config.run
          rw [if_pos permitted, stepped]
          exact ran
      · cases executed

/-- What two executions, the second one event longer, show of their last
configurations is shown by a step of a run. -/
theorem exists_step
    [∀ config event, Decidable (allowed config event)]
    {events : List (Event Ambient Choice)} {event : Event Ambient Choice}
    {observe : Config State Role Call Reply ε α → β} {first second : β}
    (before : (start.run machine allowed events).map observe = some first)
    (after : (start.run machine allowed (events ++ [event])).map observe = some second) :
    ∃ config next, Run machine allowed start config ∧ allowed config event ∧
      Step machine config event next ∧ observe config = first ∧ observe next = second := by
  obtain ⟨next, executed, shown⟩ := Option.map_eq_some_iff.mp after
  obtain ⟨config, ran, permitted, stepped⟩ := of_run_concat executed
  rw [ran] at before
  exact ⟨config, next, of_run ran, permitted, stepped, Option.some.inj before, shown⟩

/-- What an execution shows of its last configuration is shown by a run. -/
theorem exists_run
    [∀ config event, Decidable (allowed config event)]
    {events : List (Event Ambient Choice)}
    {observe : Config State Role Call Reply ε α → β} {value : β}
    (shown : (start.run machine allowed events).map observe = some value) :
    ∃ config, Run machine allowed start config ∧ observe config = value := by
  obtain ⟨config, executed, seen⟩ := Option.map_eq_some_iff.mp shown
  exact ⟨config, of_run executed, seen⟩

/-- A property of the initial configuration that every allowed step preserves
holds throughout every allowed run. -/
theorem invariant
    (run : Run machine allowed start config)
    (holds : Config State Role Call Reply ε α → Prop)
    (initially : holds start)
    (preserved : ∀ config event after, holds config → allowed config event →
      Step machine config event after → holds after) :
    holds config := by
  induction run with
  | refl => exact initially
  | next _ permitted stepped inductionHypothesis =>
      exact preserved _ _ _ inductionHypothesis permitted stepped

end Run

/-- Membership in a list with one position replaced. -/
theorem forall_mem_set
    {items : List β} {index : Nat} {item : β} {holds : β → Prop}
    (others : ∀ other ∈ items, holds other)
    (replaced : holds item) :
    ∀ other ∈ items.set index item, holds other := by
  intro other present
  rcases List.mem_or_eq_of_mem_set present with old | rfl
  · exact others other old
  · exact replaced

/-- A sum over a list with one position replaced: the other summands stay. -/
theorem exists_sum_set {items : List β} {index : Nat} {old : β} (weight : β → Nat) (item : β)
    (found : items[index]? = some old) :
    ∃ others, (items.map weight).sum = others + weight old ∧
      ((items.set index item).map weight).sum = others + weight item := by
  induction items generalizing index with
  | nil => cases found
  | cons first items inductionHypothesis =>
      cases index with
      | zero =>
          cases found
          simp only [List.set_cons_zero, List.map_cons, List.sum_cons]
          exact ⟨(items.map weight).sum, by omega, by omega⟩
      | succ index =>
          obtain ⟨others, before, after⟩ := inductionHypothesis found
          simp only [List.set_cons_succ, List.map_cons, List.sum_cons]
          exact ⟨weight first + others, by omega, by omega⟩

/-- What every answer of a run satisfies, every recorded answer satisfies. -/
theorem Run.entries
    {allowed : Config State Role Call Reply ε α → Event Ambient Choice → Prop}
    {start config : Config State Role Call Reply ε α}
    (run : Run machine allowed start config)
    (idle : start.threads = [])
    (answered : Role → Entry Reply → Prop)
    (each : ∀ (config : Config State Role Call Reply ε α) event thread request choice
      reply state, Run machine allowed start config → allowed config event →
      config.turn event = some (thread, request) → thread ∈ config.threads →
      machine.exec config.state request choice = some (reply, state) →
      answered thread.role ⟨request, reply⟩) :
    ∀ thread ∈ config.threads, ∀ entry ∈ thread.trace, answered thread.role entry := by
  induction run with
  | refl =>
      intro thread present
      rw [idle] at present
      cases present
  | next ran permitted stepped inductionHypothesis =>
      cases stepped with
      | ambient action state acted => exact inductionHypothesis
      | spawn action state role acted =>
          intro thread present
          rcases List.mem_append.mp present with old | new
          · exact inductionHypothesis thread old
          · rw [List.mem_singleton.mp new]
            intro entry recorded
            cases recorded
      | kill index thread found alive =>
          exact forall_mem_set inductionHypothesis
            (inductionHypothesis thread (List.mem_of_getElem? found))
      | call index thread request resume choice reply state found alive rest executed =>
          have member := List.mem_of_getElem? found
          refine forall_mem_set inductionHypothesis fun entry recorded => ?_
          rcases List.mem_append.mp recorded with old | new
          · exact inductionHypothesis thread member entry old
          · rw [List.mem_singleton.mp new]
            exact each _ _ thread request choice reply state ran permitted
              (Config.turn_advance found rest) member executed

/-- The shared service as one thread sees it while no other thread moves and
every choice is one that `granted` allows. A call is permitted when it can be
answered at all, so meeting a postcondition includes coming to an end. -/
def Machine.service
    (machine : Machine State Role Call Reply Ambient Choice ε α)
    (granted : State → Call → Choice → Prop) : Service State Call Reply where
  permits state request := ∃ choice reply next, granted state request choice ∧
    machine.exec state request choice = some (reply, next)
  answers state request reply next := ∃ choice, granted state request choice ∧
    machine.exec state request choice = some (reply, next)

/-- Execute a program alone with these choices; `none` when they do not fit. -/
def Machine.execute
    (machine : Machine State Role Call Reply Ambient Choice ε α)
    (granted : State → Call → Choice → Prop)
    [∀ state request choice, Decidable (granted state request choice)] :
    List Choice → State → Program Call Reply ε α →
      Option (List (Entry Reply) × State × Except ε α)
  | [], state, .pure value => some ([], state, .ok value)
  | [], state, .raise error => some ([], state, .error error)
  | choice :: choices, state, .call request resume =>
      if granted state request choice then
        match machine.exec state request choice with
        | none => none
        | some (reply, next) =>
            (machine.execute granted choices next (resume reply)).map
              fun (trace, last, result) => (⟨request, reply⟩ :: trace, last, result)
      else none
  | _, _, _ => none

/-- Executing choices is an execution. -/
theorem Machine.executes_of_execute
    {granted : State → Call → Choice → Prop}
    [∀ state request choice, Decidable (granted state request choice)]
    {choices : List Choice} {state last : State}
    {program : Program Call Reply ε α}
    {trace : List (Entry Reply)} {result : Except ε α}
    (executed : machine.execute granted choices state program = some (trace, last, result)) :
    Executes (machine.service granted) state program trace last result := by
  induction choices generalizing state program trace with
  | nil =>
      cases program with
      | pure value =>
          cases executed
          exact .pure _ _
      | raise error =>
          cases executed
          exact .raise _ _
      | call request resume => cases executed
  | cons choice choices inductionHypothesis =>
      cases program with
      | pure value => cases executed
      | raise error => cases executed
      | call request resume =>
          simp only [Machine.execute] at executed
          split at executed
          · rename_i allowed
            split at executed
            · cases executed
            · rename_i reply next answered
              obtain ⟨rest, continued, same⟩ := Option.map_eq_some_iff.mp executed
              cases same
              exact .call _ _ _ _ _ _ _ _ ⟨choice, allowed, answered⟩
                (inductionHypothesis continued)
          · cases executed

/-- Putting an item where it stands changes nothing. -/
theorem set_self {α : Type} {items : List α} {index : Nat} {item : α}
    (found : items[index]? = some item) : items.set index item = items := by
  obtain ⟨inside, rfl⟩ := List.getElem?_eq_some_iff.mp found
  exact List.set_getElem_self inside

section Protocols

variable {protocol : Protocol Phase Call Reply} {initial : Role → Phase}
  {post : Role → Phase → Except ε α → Prop}

/-- The machine only gives replies that the protocol takes for possible. -/
def Protocol.Describes
    (protocol : Protocol Phase Call Reply)
    (machine : Machine State Role Call Reply Ambient Choice ε α) : Prop :=
  ∀ state request choice reply next,
    machine.exec state request choice = some (reply, next) →
    protocol.possible request reply

/-- Every thread keeps to the protocol for the rest of its program, and ends
as its role demands. -/
def Config.Meets
    (protocol : Protocol Phase Call Reply)
    (initial : Role → Phase)
    (post : Role → Phase → Except ε α → Prop)
    (config : Config State Role Call Reply ε α) : Prop :=
  ∀ thread ∈ config.threads,
    protocol.Allows (post thread.role) (thread.phase protocol initial) thread.rest

/-- One step preserves the protocol of all threads. -/
theorem Step.meets
    {config after : Config State Role Call Reply ε α}
    {event : Event Ambient Choice}
    (described : protocol.Describes machine)
    (programs : ∀ role,
      protocol.Allows (post role) (initial role) (machine.program role))
    (meets : config.Meets protocol initial post)
    (stepped : Step machine config event after) :
    after.Meets protocol initial post := by
  cases stepped with
  | ambient action state acted => exact meets
  | spawn action state role acted =>
      intro thread present
      rcases List.mem_append.mp present with old | new
      · exact meets thread old
      · rw [List.mem_singleton.mp new]
        exact programs role
  | kill index thread found alive =>
      refine forall_mem_set meets ?_
      exact meets thread (List.mem_of_getElem? found)
  | call index thread request resume choice reply state found alive rest
      executed =>
      refine forall_mem_set meets ?_
      have meetsCall := meets thread (List.mem_of_getElem? found)
      rw [rest] at meetsCall
      rw [Thread.phase_answered]
      exact meetsCall.2 reply _ ⟨described _ _ _ _ _ executed, rfl⟩

/-- A protocol met by every program is met by every thread of every run from a
configuration without threads. -/
theorem Run.meets
    {allowed : Config State Role Call Reply ε α → Event Ambient Choice → Prop}
    {start config : Config State Role Call Reply ε α}
    (run : Run machine allowed start config)
    (idle : start.threads = [])
    (described : protocol.Describes machine)
    (programs : ∀ role,
      protocol.Allows (post role) (initial role) (machine.program role)) :
    config.Meets protocol initial post := by
  refine run.invariant (Config.Meets protocol initial post) ?_ ?_
  · intro thread present
    rw [idle] at present
    cases present
  · intro config event after meets _ stepped
    exact stepped.meets described programs meets

/-- What an invariant of calls has to say about each kind of step. The call
rule may use that the protocol permits the call in the thread's phase. -/
structure Preserves
    (machine : Machine State Role Call Reply Ambient Choice ε α)
    (protocol : Protocol Phase Call Reply)
    (initial : Role → Phase)
    (allowed : Config State Role Call Reply ε α → Event Ambient Choice → Prop)
    (holds : Config State Role Call Reply ε α → Prop) : Prop where
  /-- The surroundings act without starting a thread. -/
  ambient : ∀ config action state, holds config →
    allowed config (.ambient action) →
    machine.ambient config.state action = some (state, none) →
    holds { config with state := state }
  /-- The surroundings start a thread. -/
  spawn : ∀ config action state role, holds config →
    allowed config (.ambient action) →
    machine.ambient config.state action = some (state, some role) →
    holds (config.spawn state (Thread.start machine role))
  /-- A thread is killed. -/
  kill : ∀ (config : Config State Role Call Reply ε α) index thread,
    holds config → allowed config (.kill index) →
    config.threads[index]? = some thread →
    thread.live = true →
    holds (config.put config.state index thread.killed)
  /-- A thread's call is answered. -/
  call : ∀ (config : Config State Role Call Reply ε α) index thread request
      (resume : Reply request → Program Call Reply ε α) choice reply state,
    holds config → allowed config (.advance index choice) →
    config.threads[index]? = some thread →
    thread.live = true →
    thread.rest = .call request resume →
    protocol.permits (thread.phase protocol initial) request →
    machine.exec config.state request choice = some (reply, state) →
    holds (config.put state index (thread.answered request reply (resume reply)))

/-- The invariant rule for machines whose programs meet a protocol. -/
theorem Run.invariant_of_calls
    {allowed : Config State Role Call Reply ε α → Event Ambient Choice → Prop}
    {start config : Config State Role Call Reply ε α}
    (run : Run machine allowed start config)
    (idle : start.threads = [])
    (described : protocol.Describes machine)
    (programs : ∀ role,
      protocol.Allows (post role) (initial role) (machine.program role))
    (holds : Config State Role Call Reply ε α → Prop)
    (initially : holds start)
    (preserves : Preserves machine protocol initial allowed holds) :
    holds config := by
  have both : config.Meets protocol initial post ∧ holds config := by
    refine run.invariant
      (fun config => config.Meets protocol initial post ∧ holds config) ?_ ?_
    · refine ⟨?_, initially⟩
      intro thread present
      rw [idle] at present
      cases present
    · rintro config event after ⟨meets, held⟩ permitted stepped
      refine ⟨stepped.meets described programs meets, ?_⟩
      cases stepped with
      | ambient action state acted =>
          exact preserves.ambient config action state held permitted acted
      | spawn action state role acted =>
          exact preserves.spawn config action state role held permitted acted
      | kill index thread found alive =>
          exact preserves.kill config index thread held permitted found alive
      | call index thread request resume choice reply state found alive rest
          executed =>
          have meetsCall := meets thread (List.mem_of_getElem? found)
          rw [rest] at meetsCall
          exact preserves.call config index thread request resume choice reply
            state held permitted found alive rest meetsCall.1 executed
  exact both.2

/-- A state invariant and an invariant of each thread's session. A session
depends on the thread's phase and on the state only through a relation that
every step of every thread respects, so threads cannot break each other's. -/
structure Sessions
    (machine : Machine State Role Call Reply Ambient Choice ε α)
    (protocol : Protocol Phase Call Reply)
    (initial : Role → Phase)
    (allowed : Config State Role Call Reply ε α → Event Ambient Choice → Prop)
    (sound : State → Prop)
    (session : State → Phase → Prop)
    (grows : State → State → Prop) : Prop where
  /-- A session survives the growth of the state. -/
  stable : ∀ state next phase, grows state next → session state phase →
    session next phase
  /-- The surroundings act. -/
  ambient : ∀ config action state spawned, sound config.state →
    allowed config (.ambient action) →
    machine.ambient config.state action = some (state, spawned) →
    sound state ∧ grows config.state state ∧
      ∀ role, spawned = some role → session state (initial role)
  /-- A thread's call is answered. -/
  call : ∀ (config : Config State Role Call Reply ε α) event
      (thread : Thread Role Call Reply ε α) request choice reply state,
    sound config.state →
    session config.state (thread.phase protocol initial) →
    allowed config event →
    config.turn event = some (thread, request) →
    protocol.permits (thread.phase protocol initial) request →
    machine.exec config.state request choice = some (reply, state) →
    sound state ∧ grows config.state state ∧
      session state (protocol.advance (thread.phase protocol initial) request reply)

/-- The state is sound and every thread's session holds. -/
structure Config.Sound
    (protocol : Protocol Phase Call Reply)
    (initial : Role → Phase)
    (sound : State → Prop)
    (session : State → Phase → Prop)
    (config : Config State Role Call Reply ε α) : Prop where
  /-- The state invariant. -/
  state : sound config.state
  /-- The session of every thread. -/
  sessions : ∀ thread ∈ config.threads,
    session config.state (thread.phase protocol initial)

/-- The invariant rule for sessions. -/
theorem Run.invariant_of_sessions
    {allowed : Config State Role Call Reply ε α → Event Ambient Choice → Prop}
    {start config : Config State Role Call Reply ε α}
    {sound : State → Prop}
    {session : State → Phase → Prop}
    {grows : State → State → Prop}
    (run : Run machine allowed start config)
    (idle : start.threads = [])
    (described : protocol.Describes machine)
    (programs : ∀ role,
      protocol.Allows (post role) (initial role) (machine.program role))
    (initially : sound start.state)
    (rules : Sessions machine protocol initial allowed sound session grows) :
    config.Sound protocol initial sound session := by
  refine run.invariant_of_calls idle described programs
    (Config.Sound protocol initial sound session) ?_ ?_
  · refine ⟨initially, ?_⟩
    intro thread present
    rw [idle] at present
    cases present
  · refine ⟨?_, ?_, ?_, ?_⟩
    · intro config action state held permitted acted
      obtain ⟨kept, grown, -⟩ :=
        rules.ambient config action state none held.state permitted acted
      exact ⟨kept, fun thread present =>
        rules.stable _ _ _ grown (held.sessions thread present)⟩
    · intro config action state role held permitted acted
      obtain ⟨kept, grown, opened⟩ :=
        rules.ambient config action state (some role) held.state permitted acted
      refine ⟨kept, fun thread present => ?_⟩
      rcases List.mem_append.mp present with old | new
      · exact rules.stable _ _ _ grown (held.sessions thread old)
      · rw [List.mem_singleton.mp new]
        exact opened role rfl
    · intro config index thread held _ found _
      refine ⟨held.state, forall_mem_set held.sessions ?_⟩
      exact held.sessions thread (List.mem_of_getElem? found)
    · intro config index thread request resume choice reply state held permitted
        found _ rest permits executed
      obtain ⟨kept, grown, moved⟩ := rules.call config (.advance index choice) thread
        request choice reply state held.state
        (held.sessions thread (List.mem_of_getElem? found)) permitted
        (Config.turn_advance found rest) permits executed
      refine ⟨kept, forall_mem_set (fun other present =>
        rules.stable _ _ _ grown (held.sessions other present)) ?_⟩
      rw [Thread.phase_answered]
      exact moved

end Protocols

end Resumption
