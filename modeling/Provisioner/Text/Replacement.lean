import Mathlib.Data.List.Basic

/-!
# Replacing the matches of a pattern

A text is read from left to right, and every match of a pattern is replaced; matches do not
overlap. A pattern is a function of the text that is left.
-/

namespace Text

variable {α : Type} {found : List α → Option (List α × Nat)}
  {front text piece replacement : List α} {item : α}

/-- Replace all matches behind the next `skipped` items. `found` says whether the pattern
matches at the start of a text, with the replacement and the length of the match, which is
not empty. -/
def replaceFrom (found : List α → Option (List α × Nat)) : Nat → List α → List α
  | _, [] => []
  | skipped + 1, _ :: text => replaceFrom found skipped text
  | 0, item :: text =>
      match found (item :: text) with
      | some (replacement, length) => replacement ++ replaceFrom found (length - 1) text
      | none => item :: replaceFrom found 0 text

/-- Replace all matches. -/
def replaceAll (found : List α → Option (List α × Nat)) (text : List α) : List α :=
  replaceFrom found 0 text

@[simp] theorem replaceAll_nil : replaceAll found [] = [] := rfl

theorem replaceFrom_length_append (front text : List α) :
    replaceFrom found front.length (front ++ text) = replaceAll found text := by
  induction front with
  | nil => rfl
  | cons item front inductionHypothesis => exact inductionHypothesis

/-- An item at which the pattern does not match stays. -/
theorem replaceAll_cons (none : found (item :: text) = none) :
    replaceAll found (item :: text) = item :: replaceAll found text := by
  unfold replaceAll
  rw [replaceFrom, none]

/-- A match is replaced, and reading goes on behind it. -/
theorem replaceAll_match
    (matched : found (item :: piece ++ text) = some (replacement, piece.length + 1)) :
    replaceAll found (item :: piece ++ text) = replacement ++ replaceAll found text := by
  unfold replaceAll
  rw [List.cons_append] at matched ⊢
  rw [replaceFrom, matched]
  exact congrArg (replacement ++ ·) (replaceFrom_length_append piece text)

/-- Items at which no match can start stay. -/
theorem replaceAll_append (inert : ∀ item ∈ front, ∀ rest, found (item :: rest) = none) :
    replaceAll found (front ++ text) = front ++ replaceAll found text := by
  induction front with
  | nil => rfl
  | cons item front inductionHypothesis =>
      obtain ⟨first, others⟩ := List.forall_mem_cons.mp inert
      rw [List.cons_append, replaceAll_cons (first _), inductionHypothesis others]
      rfl

/-- A text in which no match can start stays as it is. -/
theorem replaceAll_of_inert (inert : ∀ item ∈ text, ∀ rest, found (item :: rest) = none) :
    replaceAll found text = text := by
  have whole := @replaceAll_append α found text [] inert
  rwa [replaceAll_nil, List.append_nil] at whole

end Text
