import Provisioner.Resumption.Interleaving
import Mathlib.Logic.Function.Basic
import Mathlib.Order.Basic

/-!
# Answers from a script

Some choices of an execution may be given beforehand, in a script: each of the calls that
they are for moves on to a later place of the script and takes the choice that stands
there. No place is come to twice, so every execution follows some script.
-/

namespace Resumption

variable {State Role Call Ambient Choice Place ε ε' α β : Type} {Reply : Call → Type}

/-- The service of a machine that takes some choices from a script. The place in the script
is part of the state, and `move` leads to the next place for the calls that read it. -/
def Machine.scripted
    (machine : Machine State Role Call Reply Ambient Choice ε α)
    (granted : State → Call → Choice → Prop)
    (move : Place → Call → Option Place)
    (script : Place → Choice) : Service (State × Place) Call Reply where
  permits _ _ := True
  answers state request reply next :=
    ∃ choice, granted state.1 request choice ∧
      machine.exec state.1 request choice = some (reply, next.1) ∧
      next.2 = (move state.2 request).getD state.2 ∧
      ∀ place ∈ move state.2 request, choice = script place

section Scripts

variable {machine : Machine State Role Call Reply Ambient Choice ε α}
  {granted : State → Call → Choice → Prop} {move : Place → Call → Option Place}
  {program : Program Call Reply ε' β} {trace : List (Entry Reply)} {result : Except ε' β}
  [Preorder Place]

/-- Only the places to come matter. -/
theorem Executes.scripted_congr {script script' : Place → Choice} {state last : State × Place}
    (later : ∀ place request next, next ∈ move place request → place < next)
    (executed : Executes (machine.scripted granted move script) state program trace last result)
    (same : ∀ place, state.2 < place → script place = script' place) :
    Executes (machine.scripted granted move script') state program trace last result := by
  induction executed with
  | pure state value => exact .pure _ _
  | raise state error => exact .raise _ _
  | call state middle last request resume reply trace result answered continued
      inductionHypothesis =>
      obtain ⟨choice, allowed, executed, moved, taken⟩ := answered
      refine .call _ middle _ _ _ _ _ _ ⟨choice, allowed, executed, moved, fun place next => ?_⟩
        (inductionHypothesis fun place beyond => same place ?_)
      · exact (taken place next).trans (same place (later _ _ _ next))
      · cases moves : move state.2 request with
        | none =>
            rw [moved, moves] at beyond
            exact beyond
        | some next =>
            rw [moved, moves] at beyond
            exact (later _ _ _ moves).trans beyond

/-- Every execution follows a script. -/
theorem Executes.exists_script [DecidableEq Place] {state last : State}
    (later : ∀ place request next, next ∈ move place request → place < next)
    (fallback : Place → Choice)
    (executed : Executes (machine.service granted) state program trace last result)
    (place : Place) :
    ∃ script reached, Executes (machine.scripted granted move script) (state, place) program
      trace (last, reached) result := by
  induction executed generalizing place with
  | pure state value => exact ⟨fallback, place, .pure _ _⟩
  | raise state error => exact ⟨fallback, place, .raise _ _⟩
  | call state middle last request resume reply trace result answered continued
      inductionHypothesis =>
      obtain ⟨choice, allowed, executed⟩ := answered
      obtain ⟨script, reached, follows⟩ :=
        inductionHypothesis ((move place request).getD place)
      cases moves : move place request with
      | none =>
          rw [moves] at follows
          refine ⟨script, reached, .call _ (middle, place) _ _ _ _ _ _
            ⟨choice, allowed, executed, ?_, fun next member => ?_⟩ follows⟩
          · rw [moves]
            rfl
          · rw [moves] at member
            cases member
      | some next =>
          rw [moves] at follows
          -- The choice goes to a place that the rest of the execution does not come to.
          have rest : Executes (machine.scripted granted move (Function.update script next choice))
              (middle, next) (resume reply) trace (last, reached) result :=
            follows.scripted_congr later fun place beyond =>
              (Function.update_of_ne (ne_of_gt beyond) _ _).symm
          refine ⟨Function.update script next choice, reached, .call _ (middle, next) _ _ _ _ _ _
            ⟨choice, allowed, executed, ?_, fun other member => ?_⟩ rest⟩
          · rw [moves]
            rfl
          · rw [moves] at member
            cases member
            exact (Function.update_self next choice script).symm

end Scripts

end Resumption
