import Mathlib.Data.List.Sort
import Mathlib.Data.List.Perm.Basic

/-!
# Pages of a list that is ordered by a key

Rows are listed in descending order of a key, and rows with equal keys stand in any order,
which can be another one for every page that is cut from the list. The pages together are
the rows exactly when no boundary between two pages separates rows with equal keys.
-/

namespace Keyed
namespace Pages

variable {α κ : Type} [LinearOrder κ] {key : α → κ} {rows full other : List α}

/-- The rows in descending order of their keys. -/
structure Ranked (key : α → κ) (rows full : List α) : Prop where
  perm : full.Perm rows
  descending : full.Pairwise fun first second => key second ≤ key first

/-- The page of at most `limit` rows from an offset on. -/
def slice (limit offset : Nat) (full : List α) : List α :=
  (full.drop offset).take limit

/-- A boundary at this position separates rows with equal keys: fewer rows are above some
bound, and more are not below it. -/
def Straddled (key : α → κ) (rows : List α) (position : Nat) : Prop :=
  ∃ bound, (rows.countP fun row => bound < key row) < position ∧
    position < rows.countP fun row => bound ≤ key row

/-- The rows that are not below a bound are those above it and those on it. -/
theorem countP_le_eq (bound : κ) (rows : List α) :
    (rows.countP fun row => bound ≤ key row) =
      (rows.countP fun row => bound < key row) + (rows.map key).count bound := by
  induction rows with
  | nil => rfl
  | cons row rows inductionHypothesis =>
      rw [List.countP_cons, List.countP_cons, List.map_cons, List.count_cons,
        inductionHypothesis]
      rcases lt_trichotomy bound (key row) with below | equal | above
      · simp only [below, below.le, below.ne', beq_iff_eq, decide_true, if_true, if_false]
        omega
      · simp only [equal, le_refl, lt_irrefl, beq_iff_eq, decide_true, decide_false, if_true,
          Bool.false_eq_true, if_false]
        omega
      · simp only [above.not_ge, above.not_gt, above.ne, beq_iff_eq, decide_false,
          Bool.false_eq_true, if_false]
        omega

/-- Where all keys are different, no boundary separates equal ones. -/
theorem not_straddled (different : (rows.map key).Nodup) (position : Nat) :
    ¬Straddled key rows position := by
  rintro ⟨bound, low, high⟩
  have once := List.nodup_iff_count_le_one.mp different bound
  rw [countP_le_eq] at high
  omega

/-- Page after page from an offset on, until all rows have been read. Each page is cut from
an order of its own. -/
inductive Reading (key : α → κ) (rows : List α) (limit : Nat) : Nat → List (List α) → Prop
  | last (offset : Nat) (full : List α) :
      Ranked key rows full →
      rows.length ≤ offset + limit →
      Reading key rows limit offset [slice limit offset full]
  | more (offset : Nat) (full : List α) (pages : List (List α)) :
      Ranked key rows full →
      offset + limit < rows.length →
      Reading key rows limit (offset + limit) pages →
      Reading key rows limit offset (slice limit offset full :: pages)

theorem take_append_slice (limit offset : Nat) (full : List α) :
    full.take offset ++ slice limit offset full = full.take (offset + limit) := by
  rw [List.take_add]
  rfl

theorem length_slice (limit offset : Nat) (full : List α) :
    (slice limit offset full).length = min limit (full.length - offset) := by
  rw [slice, List.length_take, List.length_drop]

/-! ## Two orders of the same rows -/

/-- Two orders show the same keys. -/
theorem Ranked.map_key (ranked : Ranked key rows full) (ranked' : Ranked key rows other) :
    full.map key = other.map key := by
  have perm : (full.map key).Perm (other.map key) :=
    (ranked.perm.trans ranked'.perm.symm).map key
  refine perm.eq_of_pairwise (fun first second _ _ below above => le_antisymm above below)
    (List.pairwise_map.mpr ranked.descending) (List.pairwise_map.mpr ranked'.descending)

/-- The rows above a bound come first. -/
theorem Ranked.take_countP (ranked : Ranked key rows full) (bound : κ) :
    full.take (rows.countP fun row => bound ≤ key row) =
      full.filter fun row => bound ≤ key row := by
  rw [← ranked.perm.countP_eq]
  have descending := ranked.descending
  clear ranked
  induction full with
  | nil => rfl
  | cons row full inductionHypothesis =>
      obtain ⟨below, rest⟩ := List.pairwise_cons.mp descending
      by_cases above : bound ≤ key row
      · rw [List.countP_cons, if_pos (decide_eq_true above), List.take_succ_cons,
          inductionHypothesis rest, List.filter_cons, if_pos (decide_eq_true above)]
      · have none : ∀ other ∈ row :: full, ¬decide (bound ≤ key other) = true := by
          intro other present reaches
          rcases List.mem_cons.mp present with rfl | later
          · exact above (of_decide_eq_true reaches)
          · exact above ((of_decide_eq_true reaches).trans (below other later))
        rw [List.countP_eq_zero.mpr none, List.filter_eq_nil_iff.mpr none, List.take_zero]

section Split

variable {before after : List α} {row : α}

/-- What an order says about a row: the rows before it are above, those behind it below. -/
theorem Ranked.split (ranked : Ranked key rows (before ++ row :: after)) :
    (∀ earlier ∈ before, key row ≤ key earlier) ∧ ∀ later ∈ after, key later ≤ key row := by
  obtain ⟨-, tail, apart⟩ := List.pairwise_append.mp ranked.descending
  exact ⟨fun earlier present => apart earlier present row List.mem_cons_self,
    (List.pairwise_cons.mp tail).1⟩

variable {reaches : κ → Prop} [DecidablePred reaches]
  (upward : ∀ low high, reaches low → low ≤ high → reaches high)

include upward

/-- If a row reaches a level, so do the rows before it. -/
theorem Ranked.lt_countP (ranked : Ranked key rows (before ++ row :: after))
    (above : reaches (key row)) :
    before.length < rows.countP fun other => reaches (key other) := by
  have all : ∀ earlier ∈ before, decide (reaches (key earlier)) = true :=
    fun earlier present =>
      decide_eq_true (upward _ _ above (ranked.split.1 earlier present))
  rw [← ranked.perm.countP_eq, List.countP_append, List.countP_eq_length.mpr all,
    List.countP_cons, if_pos (decide_eq_true above)]
  omega

/-- If a row does not reach a level, neither do the rows behind it. -/
theorem Ranked.countP_le (ranked : Ranked key rows (before ++ row :: after))
    (below : ¬reaches (key row)) :
    (rows.countP fun other => reaches (key other)) ≤ before.length := by
  have none : ∀ later ∈ row :: after, ¬decide (reaches (key later)) = true := by
    intro later present above
    rcases List.mem_cons.mp present with rfl | behind
    · exact below (of_decide_eq_true above)
    · exact below (upward _ _ (of_decide_eq_true above) (ranked.split.2 later behind))
  rw [← ranked.perm.countP_eq, List.countP_append, List.countP_eq_zero.mpr none]
  exact List.countP_le_length

end Split

/-- Every position inside an order splits it. -/
theorem exists_split {position : Nat} (inside : position < full.length) :
    ∃ before row after, full = before ++ row :: after ∧ before.length = position :=
  ⟨full.take position, full[position], full.drop (position + 1),
    by rw [List.getElem_cons_drop, List.take_append_drop],
    List.length_take_of_le (Nat.le_of_lt inside)⟩

/-- A position that separates no equal keys cuts off all rows above a bound. -/
theorem exists_bound {position : Nat} (ranked : Ranked key rows full)
    (inside : position < rows.length) (whole : ¬Straddled key rows (position + 1)) :
    ∃ bound, (rows.countP fun row => bound ≤ key row) = position + 1 := by
  rw [← ranked.perm.length_eq] at inside
  obtain ⟨before, row, after, rfl, length⟩ := exists_split inside
  refine ⟨key row, ?_⟩
  have enough := ranked.lt_countP (fun _ _ => le_trans) (le_refl (key row))
  have few := ranked.countP_le (fun _ _ => lt_of_lt_of_le) (lt_irrefl (key row))
  rw [length] at enough few
  by_contra more
  exact whole ⟨key row, by omega, by omega⟩

/-- Up to such a position all orders show the same rows. -/
theorem Ranked.take_perm {position : Nat} (ranked : Ranked key rows full)
    (ranked' : Ranked key rows other) (whole : ¬Straddled key rows position) :
    (full.take position).Perm (other.take position) := by
  cases position with
  | zero => exact .refl _
  | succ position =>
      by_cases inside : position < rows.length
      · obtain ⟨bound, count⟩ := exists_bound ranked inside whole
        rw [← count, ranked.take_countP, ranked'.take_countP]
        exact (ranked.perm.trans ranked'.perm.symm).filter _
      · have long : full.length ≤ position + 1 := by
          rw [ranked.perm.length_eq]
          omega
        have long' : other.length ≤ position + 1 := by
          rw [ranked'.perm.length_eq]
          omega
        rw [List.take_of_length_le long, List.take_of_length_le long']
        exact ranked.perm.trans ranked'.perm.symm

/-! ## Readings -/

section Readings

variable {limit offset : Nat} {pages : List (List α)}

/-- The last page of an order is what is left of it. -/
theorem Ranked.slice_eq_drop (ranked : Ranked key rows full)
    (reaches : rows.length ≤ offset + limit) : slice limit offset full = full.drop offset := by
  apply List.take_of_length_le
  rw [List.length_drop, ranked.perm.length_eq]
  omega

/-- Every reading shows the keys of the rows in order. -/
theorem Reading.map_key (reading : Reading key rows limit offset pages)
    (ranked : Ranked key rows full) : pages.flatten.map key = (full.map key).drop offset := by
  induction reading with
  | last offset other ranked' reaches =>
      rw [List.flatten_singleton, ranked'.slice_eq_drop reaches, List.map_drop,
        ranked.map_key ranked']
  | more offset other pages ranked' short reading inductionHypothesis =>
      rw [List.flatten_cons, List.map_append, inductionHypothesis, slice, List.map_take,
        List.map_drop, ranked.map_key ranked', ← List.drop_drop, List.take_append_drop]

/-- Every reading from the start lists its rows in descending order of their keys. -/
theorem Reading.descending (reading : Reading key rows limit 0 pages)
    (ranked : Ranked key rows full) :
    pages.flatten.Pairwise fun first second => key second ≤ key first := by
  rw [← List.pairwise_map (R := fun first second => second ≤ first), reading.map_key ranked,
    List.drop_zero, List.pairwise_map]
  exact ranked.descending

/-- Where no boundary separates equal keys, what every order shows before a page and the
pages from there on are the rows. -/
theorem Reading.perm (whole : ∀ number, ¬Straddled key rows (number * limit))
    (reading : Reading key rows limit offset pages) (multiple : limit ∣ offset)
    (ranked : Ranked key rows full) : (full.take offset ++ pages.flatten).Perm rows := by
  have level : ∀ {offset}, limit ∣ offset → ¬Straddled key rows offset := by
    rintro _ ⟨number, rfl⟩
    rw [Nat.mul_comm]
    exact whole number
  induction reading generalizing full with
  | last offset other ranked' reaches =>
      rw [List.flatten_singleton]
      have same := (ranked.take_perm ranked' (level multiple)).append_right
        (slice limit offset other)
      rw [take_append_slice, List.take_of_length_le (ranked'.perm.length_eq.trans_le reaches)]
        at same
      exact same.trans ranked'.perm
  | more offset other pages ranked' short reading inductionHypothesis =>
      rw [List.flatten_cons, ← List.append_assoc]
      have same := (ranked.take_perm ranked' (level multiple)).append_right
        (slice limit offset other)
      rw [take_append_slice] at same
      exact (same.append_right _).trans
        (inductionHypothesis (Nat.dvd_add multiple (Nat.dvd_refl limit)) ranked')

/-- One order can be read to its end. -/
theorem Ranked.exists_reading (ranked : Ranked key rows full) (positive : 0 < limit)
    (offset : Nat) :
    ∃ pages, Reading key rows limit offset pages ∧ pages.flatten = full.drop offset := by
  by_cases reaches : rows.length ≤ offset + limit
  · exact ⟨_, .last offset full ranked reaches, by
      rw [List.flatten_singleton, ranked.slice_eq_drop reaches]⟩
  · obtain ⟨pages, reading, flatten⟩ := ranked.exists_reading positive (offset + limit)
    refine ⟨_, .more offset full pages ranked (by omega) reading, ?_⟩
    rw [List.flatten_cons, flatten, slice, ← List.drop_drop, List.take_append_drop]
termination_by rows.length - offset

/-- The pages before a reading can come from any order. -/
theorem Reading.exists_prepend {number : Nat} (ranked : Ranked key rows full)
    (inside : number * limit < rows.length)
    (reading : Reading key rows limit (number * limit) pages) :
    ∃ before, Reading key rows limit 0 before ∧
      before.flatten = full.take (number * limit) ++ pages.flatten := by
  induction number generalizing pages with
  | zero =>
      rw [Nat.zero_mul] at reading
      exact ⟨pages, reading, by rw [Nat.zero_mul, List.take_zero, List.nil_append]⟩
  | succ number inductionHypothesis =>
      rw [Nat.succ_mul] at inside reading
      obtain ⟨before, reading, flatten⟩ := inductionHypothesis (by omega)
        (.more (number * limit) full pages ranked inside reading)
      refine ⟨before, reading, ?_⟩
      rw [flatten, List.flatten_cons, ← List.append_assoc, take_append_slice, Nat.succ_mul]

/-- A boundary that separates equal keys separates two neighbours that can change places. -/
theorem Straddled.exists_swap {position : Nat} (straddled : Straddled key rows position)
    (ranked : Ranked key rows full) :
    ∃ before first second after, full = before ++ first :: second :: after ∧
      before.length + 1 = position ∧
      Ranked key rows (before ++ second :: first :: after) := by
  obtain ⟨bound, low, high⟩ := straddled
  obtain ⟨position, rfl⟩ : ∃ earlier, position = earlier + 1 := ⟨position - 1, by omega⟩
  have inside : position + 1 < full.length := by
    rw [ranked.perm.length_eq]
    exact Nat.lt_of_lt_of_le high List.countP_le_length
  obtain ⟨before, first, rest, rfl, length⟩ := exists_split (Nat.lt_of_succ_lt inside)
  cases rest with
  | nil =>
      rw [List.length_append, List.length_singleton] at inside
      omega
  | cons second after =>
      have upper : key first ≤ bound := by
        by_contra above
        have many := ranked.lt_countP (fun _ _ => lt_of_lt_of_le) (not_le.mp above)
        omega
      have lower : bound ≤ key second := by
        by_contra below
        have behind : Ranked key rows ((before ++ [first]) ++ second :: after) := by
          rwa [List.append_assoc]
        have few := behind.countP_le (fun _ _ => le_trans) below
        rw [List.length_append, List.length_singleton] at few
        omega
      refine ⟨before, first, second, after, rfl, by rw [length], ?_, ?_⟩
      · exact ((List.Perm.swap first second after).append_left before).trans ranked.perm
      · have descending := ranked.descending
        simp only [List.pairwise_append, List.pairwise_cons, List.forall_mem_cons]
          at descending ⊢
        obtain ⟨start, ⟨⟨-, one⟩, two, rest⟩, apart⟩ := descending
        exact ⟨start, ⟨⟨upper.trans lower, two⟩, one, rest⟩,
          fun earlier present => ⟨(apart earlier present).2.1, (apart earlier present).1,
            (apart earlier present).2.2⟩⟩

/-- Where a boundary separates equal keys, a reading loses a row. -/
theorem Straddled.exists_reading {number : Nat} (straddled : Straddled key rows (number * limit))
    (ranked : Ranked key rows full) (nodup : rows.Nodup) (positive : 0 < limit) :
    ∃ pages, Reading key rows limit 0 pages ∧ ¬pages.flatten.Perm rows := by
  obtain ⟨before, first, second, after, rfl, boundary, swapped⟩ := straddled.exists_swap ranked
  have inside : number * limit < rows.length := by
    obtain ⟨bound, -, high⟩ := straddled
    exact Nat.lt_of_lt_of_le high List.countP_le_length
  obtain ⟨behind, reading, tail⟩ := swapped.exists_reading positive (number * limit)
  obtain ⟨pages, reading, flatten⟩ := reading.exists_prepend ranked inside
  refine ⟨pages, reading, fun perm => ?_⟩
  have twice : pages.flatten = (before ++ [first]) ++ first :: after := by
    have length (row : α) : (before ++ [row]).length = number * limit := by
      rw [List.length_append, List.length_singleton, boundary]
    rw [flatten, tail, List.append_cons, List.take_left' (length first),
      List.append_cons before second, List.drop_left' (length second)]
  have nodup := perm.nodup_iff.mpr nodup
  rw [twice, List.nodup_append] at nodup
  exact nodup.2.2 first (List.mem_append_right _ (List.mem_singleton.mpr rfl)) first
    List.mem_cons_self rfl

end Readings

end Pages
end Keyed
