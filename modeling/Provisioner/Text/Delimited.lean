import Mathlib.Data.List.DropRight
import Mathlib.Data.List.TakeWhile

/-!
# Delimited text

Items are stripped of padding at both ends, and a text is cut at the first occurrence of
a separator. The laws say what padding changes (nothing, for a trimmed text) and how a
text that was put together from two parts comes apart again.
-/

namespace Text

variable {α : Type} {drops : α → Bool} {text left right : List α}

/-- Drop the items at both ends that satisfy a predicate. -/
def strip (drops : α → Bool) (text : List α) : List α :=
  (text.dropWhile drops).rdropWhile drops

/-- Neither end of the text would be dropped. -/
structure Trimmed (drops : α → Bool) (text : List α) : Prop where
  head : ∀ item ∈ text.head?, drops item = false
  last : ∀ item ∈ text.getLast?, drops item = false

/-- All items are padding. -/
def Blank (drops : α → Bool) (text : List α) : Prop :=
  ∀ item ∈ text, drops item = true

/-- Padding at the end is dropped. -/
theorem rdropWhile_append (blank : Blank drops right) :
    (text ++ right).rdropWhile drops = text.rdropWhile drops := by
  unfold List.rdropWhile
  rw [List.reverse_append, List.dropWhile_append_of_pos]
  intro item member
  exact blank item (List.mem_reverse.mp member)

/-- A text with a last item that stays is not shortened at the end. -/
theorem rdropWhile_of_trimmed (last : ∀ item ∈ text.getLast?, drops item = false) :
    text.rdropWhile drops = text := by
  rw [List.rdropWhile_eq_self_iff]
  intro present
  rw [last _ (List.getLast?_eq_some_getLast present)]
  exact Bool.false_ne_true

/-- A text with a first item that stays is not shortened at the start. -/
theorem dropWhile_of_trimmed (head : ∀ item ∈ text.head?, drops item = false) :
    text.dropWhile drops = text := by
  cases text with
  | nil => rfl
  | cons item text =>
      rw [List.dropWhile_cons_of_neg]
      rw [head item rfl]
      exact Bool.false_ne_true

/-- Padding of a trimmed text is dropped, and nothing else. -/
theorem strip_pad (blankLeft : Blank drops left) (trimmed : Trimmed drops text)
    (blankRight : Blank drops right) : strip drops (left ++ text ++ right) = text := by
  unfold strip
  rw [List.append_assoc, List.dropWhile_append_of_pos blankLeft]
  by_cases empty : text = []
  · rw [empty, List.nil_append, List.dropWhile_eq_nil_iff.mpr blankRight]
    rfl
  · have kept : (text ++ right).dropWhile drops = text ++ right := by
      refine dropWhile_of_trimmed fun item member => trimmed.head item ?_
      rw [List.head?_append_of_ne_nil text empty] at member
      exact member
    rw [kept, rdropWhile_append blankRight, rdropWhile_of_trimmed trimmed.last]

/-- A trimmed text is its own stripped form. -/
theorem strip_of_trimmed (trimmed : Trimmed drops text) : strip drops text = text := by
  unfold strip
  rw [dropWhile_of_trimmed trimmed.head, rdropWhile_of_trimmed trimmed.last]

/-- Stripping leaves nothing of a blank text. -/
@[simp] theorem strip_eq_nil_iff : strip drops text = [] ↔ Blank drops text := by
  unfold strip
  constructor
  · intro none item member
    rw [← List.takeWhile_append_dropWhile (p := drops) (l := text)] at member
    rcases List.mem_append.mp member with early | late
    · exact List.mem_takeWhile_imp early
    · exact List.rdropWhile_eq_nil_iff.mp none item late
  · intro blank
    rw [List.dropWhile_eq_nil_iff.mpr blank]
    rfl

/-- A stripped text is trimmed. -/
theorem trimmed_strip (drops : α → Bool) (text : List α) : Trimmed drops (strip drops text) where
  head := by
    intro item member
    have shortened : strip drops text <+: text.dropWhile drops :=
      List.rdropWhile_prefix drops _
    obtain ⟨rest, whole⟩ := shortened
    have first : item ∈ (text.dropWhile drops).head? := by
      rw [← whole]
      cases same : strip drops text with
      | nil =>
          rw [same] at member
          cases member
      | cons other tail =>
          rw [same] at member
          exact member
    cases same : text.dropWhile drops with
    | nil =>
        rw [same] at first
        cases first
    | cons other tail =>
        rw [same] at first
        cases first
        have stays := List.dropWhile_get_zero_not text (p := drops)
          (by rw [same]; exact Nat.succ_pos _)
        simpa [same] using stays
  last := by
    intro item member
    have present : strip drops text ≠ [] := by
      rintro none
      rw [none] at member
      cases member
    rw [List.getLast?_eq_some_getLast present] at member
    cases member
    exact Bool.eq_false_iff.mpr (List.rdropWhile_last_not drops _ present)

section Partition

variable [DecidableEq α] {separator : α}

/-- What comes before the first separator, and what comes after it if there is one. -/
def partition (separator : α) : List α → List α × Option (List α)
  | [] => ([], none)
  | item :: text =>
      if item = separator then ([], some text)
      else
        let parts := partition separator text
        (item :: parts.1, parts.2)

/-- A text comes apart at its first separator. -/
theorem partition_append (absent : separator ∉ left) :
    partition separator (left ++ separator :: right) = (left, some right) := by
  induction left with
  | nil =>
      unfold partition
      rw [List.nil_append]
      exact if_pos rfl
  | cons item left inductionHypothesis =>
      have different : item ≠ separator := by
        rintro rfl
        exact absent List.mem_cons_self
      rw [List.cons_append]
      unfold partition
      rw [if_neg different,
        inductionHypothesis fun member => absent (List.mem_cons_of_mem _ member)]

/-- The first part has no separator, and with the second part it makes up the text. -/
theorem partition_spec (separator : α) (text : List α) :
    separator ∉ (partition separator text).1 ∧
      text = (partition separator text).1 ++
        ((partition separator text).2.elim [] fun rest => separator :: rest) := by
  induction text with
  | nil => exact ⟨List.not_mem_nil, rfl⟩
  | cons item text inductionHypothesis =>
      unfold partition
      split
      · rename_i same
        exact ⟨List.not_mem_nil, by rw [same]; rfl⟩
      · rename_i different
        obtain ⟨absent, whole⟩ := inductionHypothesis
        refine ⟨?_, ?_⟩
        · intro member
          rcases List.mem_cons.mp member with same | later
          · exact different same.symm
          · exact absent later
        · exact congrArg (item :: ·) whole

end Partition

end Text
