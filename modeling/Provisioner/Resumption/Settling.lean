import Provisioner.Resumption.Interleaving
import Mathlib.Logic.Hydra
import Mathlib.Tactic.Abel

/-!
# Machines that settle

A machine may keep roles waiting in its state, and its surroundings start them one by one.
If each call of a role lets only lesser roles wait, the work that is left, waiting roles and
the rests of started ones, descends in the multiset order with every answered call, every
start of a waiting role and every kill. So a run in which no new work comes from outside is
at work only finitely often, and where some step is always open it reaches its end.
-/

namespace Resumption

open Relation

variable {State Role Call Ambient Choice ε α : Type} {Reply : Call → Type}

/-- A program and what is left of it after one reply. -/
inductive Program.Remains : Program Call Reply ε α → Program Call Reply ε α → Prop
  | after (request : Call) (resume : Reply request → Program Call Reply ε α)
      (reply : Reply request) : Remains (resume reply) (.call request resume)

/-- Every program ends, whatever it is answered. -/
theorem Program.wellFounded_remains :
    WellFounded (@Program.Remains Call ε α Reply) := by
  refine ⟨fun program => ?_⟩
  induction program with
  | pure value => exact ⟨_, fun rest remains => by cases remains⟩
  | raise error => exact ⟨_, fun rest remains => by cases remains⟩
  | call request resume inductionHypothesis =>
      refine ⟨_, fun rest remains => ?_⟩
      cases remains with
      | after _ _ reply => exact inductionHypothesis reply

/-- A piece of work: a role that waits to be started, or the rest of a started one. -/
inductive Work (Role Call : Type) (Reply : Call → Type) (ε α : Type)
  | waiting (role : Role)
  | started (role : Role) (rest : Program Call Reply ε α)

namespace Work

variable (machine : Machine State Role Call Reply Ambient Choice ε α) (level : Role → Nat)

/-- The level of the role first, a waiting role above a started one; then the program. -/
def rank : Work Role Call Reply ε α → Nat × Program Call Reply ε α
  | waiting role => (2 * level role + 1, machine.program role)
  | started role rest => (2 * level role, rest)

/-- The order in which work descends. -/
def Less : Work Role Call Reply ε α → Work Role Call Reply ε α → Prop :=
  InvImage (Prod.Lex (· < ·) Program.Remains) (rank machine level)

variable {machine level}

theorem wellFounded_less : WellFounded (Less machine level) :=
  InvImage.wf _ (WellFounded.prod_lex wellFounded_lt Program.wellFounded_remains)

/-- A started role is less than a waiting one. -/
theorem started_less_waiting {role : Role} {rest : Program Call Reply ε α} :
    Less machine level (started role rest) (waiting role) :=
  .left _ _ (Nat.lt_succ_self _)

/-- A lesser role that waits is less than a started one. -/
theorem waiting_less_started {other role : Role} {rest : Program Call Reply ε α}
    (lesser : level other < level role) :
    Less machine level (waiting other) (started role rest) := by
  have below : 2 * level other + 1 < 2 * level role := by omega
  exact .left _ _ below

/-- The rest of a started role gets less with every reply. -/
theorem resume_less {role : Role} {request : Call}
    {resume : Reply request → Program Call Reply ε α} {reply : Reply request} :
    Less machine level (started role (resume reply)) (started role (.call request resume)) :=
  .right _ (.after request resume reply)

end Work

namespace Machine

variable (machine : Machine State Role Call Reply Ambient Choice ε α)
  (waiting : State → Multiset Role) (level : Role → Nat)

/-- A call of a role lets only lesser roles wait. -/
def Expends (role : Role) (request : Call) : Prop :=
  ∀ state choice reply next, machine.exec state request choice = some (reply, next) →
    ∃ added : Multiset Role, waiting next = waiting state + added ∧
      ∀ other ∈ added, level other < level role

/-- Every call of every role lets only lesser roles wait. -/
def Frugal : Prop :=
  ∀ role, (machine.program role).Makes (machine.Expends waiting level role)

/-- An action that brings no new work: the role that it starts was waiting. -/
def Serves (action : Ambient) : Prop :=
  ∀ state next spawned, machine.ambient state action = some (next, spawned) →
    waiting state = (spawned.toList : Multiset Role) + waiting next

end Machine

namespace Config

variable (waiting : State → Multiset Role)

/-- What a thread still has to do; a killed one has nothing to do. -/
def left (thread : Thread Role Call Reply ε α) : Multiset (Work Role Call Reply ε α) :=
  if thread.live then {.started thread.role thread.rest} else 0

/-- The work that is left. -/
def work (config : Config State Role Call Reply ε α) : Multiset (Work Role Call Reply ε α) :=
  (waiting config.state).map .waiting + (config.threads.map left).sum

/-- What the threads have left to do lets only lesser roles wait. -/
def Frugal (machine : Machine State Role Call Reply Ambient Choice ε α) (level : Role → Nat)
    (config : Config State Role Call Reply ε α) : Prop :=
  ∀ thread ∈ config.threads, thread.rest.Makes (machine.Expends waiting level thread.role)

end Config

/-- A sum over a list with one position replaced. -/
theorem sum_set_add {β γ : Type} [AddCommMonoid γ] (weight : β → γ) {items : List β}
    {index : Nat} {old : β} (found : items[index]? = some old) (item : β) :
    ((items.set index item).map weight).sum + weight old =
      (items.map weight).sum + weight item := by
  induction items generalizing index with
  | nil => cases found
  | cons head items inductionHypothesis =>
      cases index with
      | zero =>
          cases found
          rw [List.set_cons_zero, List.map_cons, List.map_cons, List.sum_cons, List.sum_cons]
          abel
      | succ index =>
          have found : items[index]? = some old := found
          have later := inductionHypothesis found
          rw [List.set_cons_succ, List.map_cons, List.map_cons, List.sum_cons, List.sum_cons,
            add_assoc, add_assoc, later]

variable {machine : Machine State Role Call Reply Ambient Choice ε α}
  {waiting : State → Multiset Role} {level : Role → Nat}
  {config next : Config State Role Call Reply ε α} {event : Event Ambient Choice}

/-- Threads stay frugal. -/
theorem Step.frugal (frugal : machine.Frugal waiting level)
    (held : config.Frugal waiting machine level)
    (stepped : Step machine config event next) : next.Frugal waiting machine level := by
  cases stepped with
  | ambient action state acted => exact held
  | spawn action state role acted =>
      intro thread member
      rcases List.mem_append.mp member with old | new
      · exact held thread old
      · rw [List.mem_singleton.mp new]
        exact frugal role
  | kill index thread found alive =>
      exact forall_mem_set held (held thread (List.mem_of_getElem? found))
  | call index thread request resume choice reply state found alive rest executed =>
      have makes := held thread (List.mem_of_getElem? found)
      rw [rest] at makes
      exact forall_mem_set held (makes.2 reply)

/-- A step that brings no new work is idle or leaves less work. -/
theorem Step.idle_or_less (held : config.Frugal waiting machine level)
    (serves : ∀ action, event = .ambient action → machine.Serves waiting action)
    (stepped : Step machine config event next) :
    ((∃ action, event = .ambient action) ∧ next.threads = config.threads ∧
        next.work waiting = config.work waiting) ∨
      CutExpand (Work.Less machine level) (next.work waiting) (config.work waiting) := by
  cases stepped with
  | ambient action state acted =>
      have same := serves action rfl config.state state none acted
      refine .inl ⟨⟨action, rfl⟩, rfl, ?_⟩
      unfold Config.work
      rw [same]
      simp
  | spawn action state role acted =>
      have same := serves action rfl config.state state (some role) acted
      refine .inr ⟨{.started role (machine.program role)}, .waiting role, ?_, ?_⟩
      · intro item member
        rw [Multiset.mem_singleton.mp member]
        exact Work.started_less_waiting
      · unfold Config.work Config.spawn
        rw [same, List.map_append, List.sum_append]
        simp only [Option.toList_some, Multiset.coe_singleton, Multiset.map_add,
          Multiset.map_singleton, List.map_cons, List.map_nil, List.sum_cons, List.sum_nil,
          add_zero, Config.left, Thread.live_start, if_true, Thread.role_start, Thread.rest_start]
        abel
  | kill index thread found alive =>
      refine .inr ⟨0, .started thread.role thread.rest, by simp, ?_⟩
      have sums := sum_set_add Config.left found thread.killed
      have before : Config.left thread = {.started thread.role thread.rest} := if_pos alive
      have after : Config.left thread.killed = 0 := rfl
      rw [before, after] at sums
      unfold Config.work Config.put
      rw [add_assoc, sums, add_assoc]
  | call index thread request resume choice reply state found alive rest executed =>
      have makes := held thread (List.mem_of_getElem? found)
      rw [rest] at makes
      obtain ⟨added, waits, lesser⟩ := makes.1 config.state choice reply state executed
      refine .inr ⟨added.map .waiting + {.started thread.role (resume reply)},
        .started thread.role (.call request resume), ?_, ?_⟩
      · intro item member
        rcases Multiset.mem_add.mp member with waits | goes
        · obtain ⟨other, present, rfl⟩ := Multiset.mem_map.mp waits
          exact Work.waiting_less_started (lesser other present)
        · rw [Multiset.mem_singleton.mp goes]
          exact Work.resume_less
      · have sums := sum_set_add Config.left found
          (thread.answered request reply (resume reply))
        have before : Config.left thread =
            {.started thread.role (.call request resume)} := by
          unfold Config.left
          rw [if_pos alive, rest]
        have after : Config.left (thread.answered request reply (resume reply)) =
            {.started thread.role (resume reply)} := if_pos alive
        rw [before, after] at sums
        unfold Config.work Config.put
        dsimp only
        rw [waits, Multiset.map_add, add_assoc, sums]
        abel

/-- In an infinite run that brings new work only finitely often, from some point on the
surroundings act and no thread moves. -/
theorem Config.comesToRest {configs : Nat → Config State Role Call Reply ε α}
    {events : Nat → Event Ambient Choice}
    (frugal : machine.Frugal waiting level)
    (initially : (configs 0).Frugal waiting machine level)
    (steps : ∀ n, Step machine (configs n) (events n) (configs (n + 1)))
    (start : Nat)
    (serves : ∀ n, start ≤ n → ∀ action, events n = .ambient action →
      machine.Serves waiting action) :
    ∃ rest, ∀ n, rest ≤ n →
      (∃ action, events n = .ambient action) ∧ (configs (n + 1)).threads = (configs n).threads := by
  have held : ∀ n, (configs n).Frugal waiting machine level := by
    intro n
    induction n with
    | zero => exact initially
    | succ n inductionHypothesis => exact (steps n).frugal frugal inductionHypothesis
  have wellFounded : WellFounded (Relation.TransGen (CutExpand (Work.Less machine level))) :=
    Work.wellFounded_less.cutExpand.transGen
  suffices atRest : ∀ work n, start ≤ n → (configs n).work waiting = work →
      ∃ rest, ∀ n, rest ≤ n → (∃ action, events n = .ambient action) ∧
        (configs (n + 1)).threads = (configs n).threads from
    atRest _ start (Nat.le_refl start) rfl
  intro work
  induction work using wellFounded.induction with
  | _ work inductionHypothesis =>
      rintro n late rfl
      have descends : ∀ m, n ≤ m → (configs m).work waiting = (configs n).work waiting ∨
          Relation.TransGen (CutExpand (Work.Less machine level))
            ((configs m).work waiting) ((configs n).work waiting) := by
        intro m later
        induction m, later using Nat.le_induction with
        | base => exact .inl rfl
        | succ m later before =>
            rcases (steps m).idle_or_less (held m) (serves m (late.trans later)) with
              ⟨-, -, same⟩ | less
            · rw [same]
              exact before
            · rcases before with same | greater
              · exact .inr (.single (same ▸ less))
              · exact .inr (.head less greater)
      -- Either all later steps are idle, or one of them leaves less work.
      by_cases idle : ∀ m, n ≤ m → (∃ action, events m = .ambient action) ∧
          (configs (m + 1)).threads = (configs m).threads
      · exact ⟨n, idle⟩
      · simp only [not_forall] at idle
        obtain ⟨m, later, works⟩ := idle
        have less := ((steps m).idle_or_less (held m) (serves m (late.trans later))).resolve_left
          fun idle => works ⟨idle.1, idle.2.1⟩
        refine inductionHypothesis _ ?_ (m + 1) (Nat.le_succ_of_le (late.trans later)) rfl
        rcases descends m later with same | greater
        · exact .single (same ▸ less)
        · exact .head less greater

/-- After an execution an event that is always possible can go on for ever. -/
theorem Run.exists_schedule
    {allowed : Config State Role Call Reply ε α → Event Ambient Choice → Prop}
    [∀ config event, Decidable (allowed config event)]
    {events : List (Event Ambient Choice)} {idle : Event Ambient Choice}
    {start last : Config State Role Call Reply ε α}
    (executed : start.run machine allowed events = some last)
    (goes : ∀ config, ∃ next, Step machine config idle next) :
    ∃ configs : Nat → Config State Role Call Reply ε α,
      configs 0 = start ∧ configs events.length = last ∧
        ∀ n, Step machine (configs n) (events[n]?.getD idle) (configs (n + 1)) := by
  induction events generalizing start with
  | nil =>
      cases executed
      choose next steps using goes
      refine ⟨fun n => next^[n] last, rfl, rfl, fun n => ?_⟩
      rw [List.getElem?_nil, Option.getD_none]
      change Step machine (next^[n] last) idle (next^[n + 1] last)
      rw [Function.iterate_succ_apply']
      exact steps _
  | cons event events inductionHypothesis =>
      unfold Config.run at executed
      split at executed
      · split at executed
        · cases executed
        · rename_i next stepped
          obtain ⟨configs, begins, ends, steps⟩ := inductionHypothesis executed
          refine ⟨fun | 0 => start | n + 1 => configs n, rfl, ends, fun n => ?_⟩
          cases n with
          | zero =>
              change Step machine start event (configs 0)
              rw [begins]
              exact Config.step_eq_some_iff.mp stepped
          | succ n => exact steps n
      · cases executed

/-- Where every configuration that is not done can go on to one with less work, every
configuration can be led to one that is done. -/
theorem Config.exists_done
    (waiting : State → Multiset Role) (level : Role → Nat)
    {allowed : Config State Role Call Reply ε α → Event Ambient Choice → Prop}
    (holds done : Config State Role Call Reply ε α → Prop)
    (progress : ∀ config, holds config → ¬done config → ∃ next,
      Run machine allowed config next ∧ holds next ∧
        CutExpand (Work.Less machine level) (next.work waiting) (config.work waiting))
    (initially : holds config) : ∃ last, Run machine allowed config last ∧ done last := by
  have wellFounded : WellFounded (CutExpand (Work.Less machine level)) :=
    Work.wellFounded_less.cutExpand
  generalize same : config.work waiting = work
  induction work using wellFounded.induction generalizing config with
  | _ work inductionHypothesis =>
      subst same
      by_cases ended : done config
      · exact ⟨config, .refl, ended⟩
      · obtain ⟨next, run, held, less⟩ := progress config initially ended
        obtain ⟨last, later, ends⟩ := inductionHypothesis _ less held rfl
        exact ⟨last, run.trans later, ends⟩

end Resumption
