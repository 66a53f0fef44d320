import Mathlib.Data.List.Nodup
import Mathlib.Data.List.Count

/-!
# Tables with a primary key

A table is a list of records whose keys are distinct. The record type, the key
type and the key function are parameters. The operations are the ones a
relational store offers on a primary key: look up, insert, update in place and
delete. Every operation is described by what it does to look-ups and to the
number of records satisfying a predicate.
-/

namespace Keyed

/-- A finite list of records with pairwise distinct keys. -/
structure Table (κ ρ : Type) (key : ρ → κ) where
  /-- The records, in insertion order. -/
  rows : List ρ
  /-- No two records share a key. -/
  nodup : (rows.map key).Nodup

variable {κ ρ : Type} {key : ρ → κ}

namespace Table

/-- The table without records. -/
def empty : Table κ ρ key where
  rows := []
  nodup := List.nodup_nil

variable [DecidableEq κ]

/-- The record with a given key. -/
def find (table : Table κ ρ key) (wanted : κ) : Option ρ :=
  table.rows.find? fun row => key row = wanted

/-- Add a record under a new key. -/
def insert
    (table : Table κ ρ key)
    (row : ρ)
    (absent : table.find (key row) = none) : Table κ ρ key where
  rows := table.rows ++ [row]
  nodup := by
    rw [List.map_append, List.map_singleton, List.nodup_append]
    refine ⟨table.nodup, List.nodup_singleton _, ?_⟩
    intro old oldPresent new newPresent equal
    obtain ⟨found, present, rfl⟩ := List.mem_map.mp oldPresent
    rw [List.mem_singleton] at newPresent
    have missing := List.find?_eq_none.mp absent found present
    simp [equal, newPresent] at missing

/-- Change the record with a given key; the change keeps keys. -/
def update
    (table : Table κ ρ key)
    (wanted : κ)
    (change : ρ → ρ)
    (keeps : ∀ row, key (change row) = key row) : Table κ ρ key where
  rows := table.rows.map fun row => if key row = wanted then change row else row
  nodup := by
    have same : (table.rows.map fun row =>
        if key row = wanted then change row else row).map key =
        table.rows.map key := by
      rw [List.map_map]
      apply List.map_congr_left
      intro row _
      simp only [Function.comp_apply]
      split
      · exact keeps row
      · rfl
    rw [same]
    exact table.nodup

/-- Delete the record with a given key. -/
def erase (table : Table κ ρ key) (wanted : κ) : Table κ ρ key where
  rows := table.rows.filter fun row => key row ≠ wanted
  nodup := table.nodup.sublist (List.filter_sublist.map key)

variable {table : Table κ ρ key} {row : ρ} {wanted other : κ}

omit [DecidableEq κ] in
@[simp] theorem rows_empty : (empty : Table κ ρ key).rows = [] := rfl

@[simp] theorem find_empty : (empty : Table κ ρ key).find wanted = none := rfl

omit [DecidableEq κ] in
/-- Records with equal keys are equal. -/
theorem eq_of_key_eq {first second : ρ}
    (firstPresent : first ∈ table.rows)
    (secondPresent : second ∈ table.rows)
    (equal : key first = key second) : first = second :=
  List.inj_on_of_nodup_map table.nodup firstPresent secondPresent equal

/-- Looking up finds exactly the record with the key. -/
theorem find_eq_some_iff :
    table.find wanted = some row ↔ row ∈ table.rows ∧ key row = wanted := by
  constructor
  · intro found
    have matched := List.find?_some found
    exact ⟨List.mem_of_find?_eq_some found, by simpa using matched⟩
  · rintro ⟨present, rfl⟩
    have found : (table.find (key row)).isSome := by
      rw [find, List.find?_isSome]
      exact ⟨row, present, by simp⟩
    obtain ⟨hit, hit_eq⟩ := Option.isSome_iff_exists.mp found
    have matched := List.find?_some hit_eq
    have same : hit = row :=
      eq_of_key_eq (List.mem_of_find?_eq_some hit_eq) present (by simpa using matched)
    rw [hit_eq, same]

theorem find_eq_none_iff :
    table.find wanted = none ↔ ∀ row ∈ table.rows, key row ≠ wanted := by
  simp [find]

theorem mem_of_find (found : table.find wanted = some row) : row ∈ table.rows :=
  (find_eq_some_iff.mp found).1

theorem key_of_find (found : table.find wanted = some row) : key row = wanted :=
  (find_eq_some_iff.mp found).2

theorem find_of_mem (present : row ∈ table.rows) :
    table.find (key row) = some row :=
  find_eq_some_iff.mpr ⟨present, rfl⟩

theorem find_insert {absent : table.find (key row) = none} :
    (table.insert row absent).find wanted =
      if key row = wanted then some row else table.find wanted := by
  by_cases same : key row = wanted
  · subst same
    rw [if_pos rfl, find_eq_some_iff]
    exact ⟨by simp [insert], rfl⟩
  · rw [if_neg same]
    simp [find, insert, List.find?_append, same]

@[simp] theorem rows_insert {absent : table.find (key row) = none} :
    (table.insert row absent).rows = table.rows ++ [row] := rfl

theorem find_update {change : ρ → ρ} {keeps : ∀ row, key (change row) = key row} :
    (table.update wanted change keeps).find other =
      if other = wanted then (table.find other).map change
      else table.find other := by
  have compose : ((fun row => decide (key row = other)) ∘ fun row =>
      if key row = wanted then change row else row) =
      fun row => decide (key row = other) := by
    funext row
    simp only [Function.comp_apply]
    split
    · rw [keeps]
    · rfl
  rw [find, find, update, List.find?_map, compose]
  cases found : table.rows.find? fun row => decide (key row = other) with
  | none => simp
  | some hit =>
      have matched : key hit = other := by
        simpa using List.find?_some found
      by_cases same : other = wanted
      · simp [matched, same]
      · simp [matched, same]

theorem mem_update {change : ρ → ρ} {keeps : ∀ row, key (change row) = key row} :
    row ∈ (table.update wanted change keeps).rows ↔
      ∃ old ∈ table.rows, row = if key old = wanted then change old else old := by
  simp only [update, List.mem_map]
  exact ⟨fun ⟨old, present, equal⟩ => ⟨old, present, equal.symm⟩,
    fun ⟨old, present, equal⟩ => ⟨old, present, equal.symm⟩⟩

/-- Updating a key nobody has changes nothing. -/
theorem update_of_absent {change : ρ → ρ}
    {keeps : ∀ row, key (change row) = key row}
    (absent : table.find wanted = none) :
    table.update wanted change keeps = table := by
  have same : (table.update wanted change keeps).rows = table.rows := by
    unfold update
    conv_rhs => rw [← List.map_id table.rows]
    apply List.map_congr_left
    intro row present
    rw [if_neg (find_eq_none_iff.mp absent row present)]
    rfl
  cases table
  simpa [update] using same

theorem find_erase :
    (table.erase wanted).find other =
      if other = wanted then none else table.find other := by
  by_cases same : other = wanted
  · subst same
    rw [if_pos rfl, find_eq_none_iff]
    intro row present
    simp only [erase, List.mem_filter] at present
    simpa using present.2
  · rw [if_neg same]
    cases found : table.find other with
    | none =>
        rw [find_eq_none_iff] at found ⊢
        intro row present
        exact found row (List.mem_of_mem_filter present)
    | some hit =>
        rw [find_eq_some_iff] at found ⊢
        refine ⟨?_, found.2⟩
        simp only [erase, List.mem_filter]
        exact ⟨found.1, by simp [found.2, same]⟩

theorem mem_erase :
    row ∈ (table.erase wanted).rows ↔ row ∈ table.rows ∧ key row ≠ wanted := by
  simp [erase, List.mem_filter]

section Filter

variable {holds : ρ → Bool}

omit [DecidableEq κ] in
/-- Tables with the same records are the same. -/
theorem eq_of_rows {first second : Table κ ρ key} (same : first.rows = second.rows) :
    first = second := by
  cases first
  cases second
  cases same
  rfl

omit [DecidableEq κ] in
/-- The records with a property. -/
def filter (table : Table κ ρ key) (holds : ρ → Bool) : Table κ ρ key where
  rows := table.rows.filter holds
  nodup := table.nodup.sublist (List.filter_sublist.map key)

omit [DecidableEq κ] in
@[simp] theorem rows_filter : (table.filter holds).rows = table.rows.filter holds := rfl

theorem find_filter : (table.filter holds).find wanted = (table.find wanted).filter holds := by
  cases found : table.find wanted with
  | none =>
      rw [find_eq_none_iff] at found
      exact find_eq_none_iff.mpr fun row present => found row (List.mem_of_mem_filter present)
  | some row =>
      obtain ⟨present, own⟩ := find_eq_some_iff.mp found
      cases kept : holds row with
      | true =>
          rw [Option.filter_some_pos kept]
          exact find_eq_some_iff.mpr ⟨List.mem_filter.mpr ⟨present, kept⟩, own⟩
      | false =>
          rw [Option.filter_some_neg (by simp [kept])]
          refine find_eq_none_iff.mpr fun other selected same => ?_
          obtain ⟨member, holding⟩ := List.mem_filter.mp selected
          rw [eq_of_key_eq member present (same.trans own.symm), kept] at holding
          cases holding

/-- A record without the property does not show. -/
theorem filter_insert_of_neg (absent : table.find (key row) = none)
    (dropped : holds row = false) : (table.insert row absent).filter holds =
      table.filter holds := by
  apply eq_of_rows
  simp [dropped]

/-- A record with the property shows. -/
theorem filter_insert_of_pos (absent : table.find (key row) = none)
    (absent' : (table.filter holds).find (key row) = none) (kept : holds row = true) :
    (table.insert row absent).filter holds = (table.filter holds).insert row absent' := by
  apply eq_of_rows
  simp [kept]

/-- A change that keeps the property commutes with the selection. -/
theorem filter_update {change : ρ → ρ} (keeps : ∀ row, key (change row) = key row)
    (same : ∀ row, holds (change row) = holds row) :
    (table.update wanted change keeps).filter holds =
      (table.filter holds).update wanted change keeps := by
  apply eq_of_rows
  have kept : (holds ∘ fun row => if key row = wanted then change row else row) = holds := by
    funext row
    rw [Function.comp_apply]
    split
    · exact same row
    · rfl
  simp only [update, rows_filter, List.filter_map, kept]

/-- A change of a record without the property does not show. -/
theorem filter_update_of_neg {change : ρ → ρ} (keeps : ∀ row, key (change row) = key row)
    (same : ∀ row, holds (change row) = holds row)
    (still : ∀ row ∈ table.rows, key row = wanted → holds row = true → change row = row) :
    (table.update wanted change keeps).filter holds = table.filter holds := by
  rw [filter_update keeps same]
  apply eq_of_rows
  refine (List.map_congr_left fun row present => ?_).trans (List.map_id _)
  obtain ⟨member, kept⟩ := List.mem_filter.mp present
  split
  · rename_i chosen
    exact still row member chosen kept
  · rfl

end Filter

/-- Inserting adds one to the count of every predicate the record satisfies. -/
theorem countP_insert {absent : table.find (key row) = none} (holds : ρ → Bool) :
    (table.insert row absent).rows.countP holds =
      table.rows.countP holds + (holds row).toNat := by
  cases value : holds row <;> simp [List.countP_append, value]

omit [DecidableEq κ] in
private theorem countP_map_update [DecidableEq κ] (holds : ρ → Bool) (change : ρ → ρ) :
    ∀ rows : List ρ, (rows.map key).Nodup → row ∈ rows →
      (rows.map fun item => if key item = key row then change item else item).countP
          holds + (holds row).toNat =
        rows.countP holds + (holds (change row)).toNat := by
  intro rows
  induction rows with
  | nil => intro _ present; cases present
  | cons head tail inductionHypothesis =>
      intro nodup present
      simp only [List.map_cons, List.nodup_cons] at nodup
      rcases List.mem_cons.mp present with rfl | later
      · have untouched : (tail.map fun item =>
            if key item = key row then change item else item) = tail := by
          conv_rhs => rw [← List.map_id tail]
          apply List.map_congr_left
          intro item itemPresent
          have different : key item ≠ key row := fun equal =>
            nodup.1 (equal ▸ List.mem_map_of_mem itemPresent)
          simp [different]
        simp only [List.map_cons, if_true, untouched, List.countP_cons]
        cases holds row <;> cases holds (change row) <;> simp
      · have different : key head ≠ key row := fun equal =>
          nodup.1 (equal ▸ List.mem_map_of_mem later)
        have tailCount := inductionHypothesis nodup.2 later
        simp only [List.map_cons, different, if_false, List.countP_cons]
        omega

/-- An update moves the count of a predicate by what it does to one record. -/
theorem countP_update {change : ρ → ρ} {keeps : ∀ row, key (change row) = key row}
    (holds : ρ → Bool)
    (found : table.find wanted = some row) :
    (table.update wanted change keeps).rows.countP holds + (holds row).toNat =
      table.rows.countP holds + (holds (change row)).toNat := by
  obtain ⟨present, rfl⟩ := find_eq_some_iff.mp found
  exact countP_map_update holds change table.rows table.nodup present

end Table

end Keyed
