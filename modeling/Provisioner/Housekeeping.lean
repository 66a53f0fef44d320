import Provisioner.Alone

/-!
# What the database sweeps do

The exact effect of the reaper and of the staleness sweep on an arbitrary table
while the clock stands still: which rows change, what is written to them, which
teardowns are published, and what is reported. Each sweep is idempotent, and the
two commute.
-/

namespace Provisioner

open Resumption

namespace Environments

variable {db : Environments} {changes : List Change} {selected : List Environment}
  {change : Environment → Environment} {row row' : Environment}

/-- A transaction changes the table row by row. -/
theorem rows_writeAll :
    (db.writeAll changes).rows = db.rows.map fun row =>
      (changes.filter fun change => change.seen.id = row.id).foldl
        (fun row change => row.flush change.seen change.now) row := by
  induction changes generalizing db with
  | nil => simp
  | cons change changes inductionHypothesis =>
      rw [writeAll_cons, inductionHypothesis]
      unfold write Keyed.Table.update
      rw [List.map_map]
      apply List.map_congr_left
      intro row _
      by_cases same : row.id = change.seen.id
      · simp [same]
      · have different : ¬change.seen.id = row.id := fun equal => same equal.symm
        simp [same, different]

/-- The changes of selected rows change each of them once. -/
theorem foldl_selected
    (keeps : (change row).id = row.id)
    (only : ∀ other ∈ selected, other.id = row.id → other = row)
    (nodup : (selected.map Environment.id).Nodup) :
    ((selected.map fun row => (⟨row, change row⟩ : Change)).filter fun change =>
        change.seen.id = row.id).foldl
      (fun row change => row.flush change.seen change.now) row =
        if row ∈ selected then change row else row := by
  induction selected with
  | nil => rfl
  | cons first selected inductionHypothesis =>
      rw [List.forall_mem_cons] at only
      rw [List.map_cons, List.nodup_cons] at nodup
      by_cases same : first.id = row.id
      · have here := only.1 same
        subst here
        have none : (selected.map fun row => (⟨row, change row⟩ : Change)).filter
            (fun change => change.seen.id = first.id) = [] := by
          rw [List.filter_eq_nil_iff]
          intro written present
          obtain ⟨other, member, rfl⟩ := List.mem_map.mp present
          rw [decide_eq_true_eq]
          exact fun equal => nodup.1 (equal ▸ List.mem_map_of_mem member)
        rw [List.map_cons, List.filter_cons_of_pos (by simp), none, if_pos List.mem_cons_self]
        exact Environment.flush_fresh keeps
      · have other : row ≠ first := fun equal => same (congrArg Environment.id equal.symm)
        rw [List.map_cons, List.filter_cons_of_neg (by simpa using same),
          inductionHypothesis only.2 nodup.2]
        simp [other]

/-- Changing selected rows leaves all others as they are. -/
theorem rows_writeAll_selected
    (subset : ∀ row ∈ selected, row ∈ db.rows)
    (nodup : (selected.map Environment.id).Nodup)
    (keeps : ∀ row, (change row).id = row.id) :
    (db.writeAll (selected.map fun row => ⟨row, change row⟩)).rows =
      db.rows.map fun row => if row ∈ selected then change row else row := by
  rw [rows_writeAll]
  apply List.map_congr_left
  intro row present
  exact foldl_selected (keeps row)
    (fun other chosen equal => Keyed.Table.eq_of_key_eq (subset other chosen) present equal)
    nodup

/-- Changing selected rows of the table changes exactly these. -/
theorem mem_writeAll_selected
    (subset : ∀ row ∈ selected, row ∈ db.rows)
    (nodup : (selected.map Environment.id).Nodup)
    (keeps : ∀ row, (change row).id = row.id)
    (present : row' ∈ (db.writeAll (selected.map fun row => ⟨row, change row⟩)).rows) :
    ∃ row ∈ db.rows, (row ∈ selected ∧ row' = change row) ∨ (row ∉ selected ∧ row' = row) := by
  rw [rows_writeAll_selected subset nodup keeps, List.mem_map] at present
  obtain ⟨row, member, rfl⟩ := present
  refine ⟨row, member, ?_⟩
  by_cases chosen : row ∈ selected
  · exact .inl ⟨chosen, if_pos chosen⟩
  · exact .inr ⟨chosen, if_neg chosen⟩

/-- A query selects distinct rows. -/
theorem nodup_of_perm {rows : List Environment} {holds : Environment → Bool}
    (listed : rows.Perm (db.rows.filter holds)) : (rows.map Environment.id).Nodup :=
  (listed.map Environment.id).nodup_iff.mpr (db.nodup.sublist (List.filter_sublist.map _))

end Environments

namespace Housekeeping

variable {deployment : Deployment} {world : World} {now : Time}

/-- Setting statuses one by one reads the clock and changes nothing. -/
theorem changeAll_meets {granted : World → Call → Choice → Prop}
    (serves : ∀ world, granted world .now .ok)
    (safe : ∀ world choice, granted world .now choice → choice.succeeds = true)
    (change : Environment → Time → Environment)
    (rows : List Environment) :
    (Worker.changeAll change rows).Meets (lone deployment granted)
      (fun reached result => reached = world ∧
        result = .ok (rows.map fun row => ⟨row, change row world.clock⟩)) world := by
  induction rows with
  | nil => exact ⟨rfl, rfl⟩
  | cons row rows inductionHypothesis =>
      refine Program.meets_bind.mpr (Alone.meets_plain rfl (serves world) (safe world)
        fun now afterNow effect => ?_)
      cases effect with
      | read _ _ reads =>
      have current : now = world.clock := reads
      refine Program.meets_bind.mpr (inductionHypothesis.mono ?_)
      rintro reached result ⟨rfl, rfl⟩
      exact ⟨rfl, by rw [current]; rfl⟩

/-! ## The reaper -/

/-- The reaper selects the row. -/
def Expired (now : Time) (row : Environment) : Prop :=
  row.status = .running ∧ ∃ expiresAt ∈ row.expiresAt, expiresAt ≤ now

instance (row : Environment) : Decidable (Expired now row) :=
  inferInstanceAs (Decidable (_ ∧ _))

/-- The row as the reaper leaves it. -/
def reaped (now : Time) (row : Environment) : Environment :=
  if Expired now row then row.setStatus .stopping now else row

/-- The teardown that the reaper publishes for a row. -/
def teardownOf (now : Time) (row : Environment) : Message :=
  ⟨.teardown, row.id.str, 0, now⟩

/-- The world after some messages have been published. -/
def publishAll (world : World) (messages : List Message) : World :=
  { world with
    queue := world.queue ++ messages
    sent := world.sent ++ messages
    nextTask := world.nextTask + messages.length }

@[simp] theorem publishAll_nil : publishAll world [] = world := by
  simp [publishAll]

/-- Publishing one message before others. -/
theorem publishAll_publish (row : Environment) (messages : List Message) :
    publishAll (world.publish .teardown row.id.str 0 0) messages =
      publishAll world (teardownOf world.clock row :: messages) := by
  simp only [publishAll, World.publish, teardownOf, seconds, List.append_assoc,
    List.singleton_append, List.length_cons, Int.zero_mul, Int.add_zero]
  rw [Nat.add_assoc, Nat.add_comm 1]

/-- The table as the reaper leaves it. -/
theorem rows_reaped {db : Environments} {rows : List Environment}
    (selected : rows.Perm (db.expired now)) :
    (db.writeAll (rows.map fun row => ⟨row, row.setStatus .stopping now⟩)).rows =
      db.rows.map (reaped now) := by
  have written := Environments.rows_writeAll_selected
    (fun row listed => List.mem_of_mem_filter (selected.mem_iff.mp listed))
    (Environments.nodup_of_perm selected)
    fun row => (rfl : (row.setStatus .stopping now).id = row.id)
  rw [written]
  apply List.map_congr_left
  intro row present
  have chosen : row ∈ rows ↔ Expired now row := by
    rw [selected.mem_iff]
    simp [Environments.expired, Expired, present]
  unfold reaped
  by_cases expired : Expired now row
  · rw [if_pos expired, if_pos (chosen.mpr expired)]
  · rw [if_neg expired, if_neg (mt chosen.mp expired)]

/-- Without expired rows the table stays as it is. -/
theorem map_reaped {rows : List Environment} (none : ∀ row ∈ rows, ¬Expired now row) :
    rows.map (reaped now) = rows := by
  conv_rhs => rw [← List.map_id rows]
  apply List.map_congr_left
  intro row present
  exact if_neg (none row present)

/-- The loop that publishes a teardown for each claimed row. -/
theorem publishAll_meets (rows : List Environment) :
    (Program.forEach (fun env : Environment => do
      let _ ← perform (.publish .teardown env.id.str 0 0)
      pure ()) rows).Meets (lone deployment Reliable)
      (fun reached result => result = .ok () ∧
        reached = publishAll world (rows.map (teardownOf world.clock))) world := by
  induction rows generalizing world with
  | nil => exact ⟨rfl, publishAll_nil.symm⟩
  | cons row rows inductionHypothesis =>
      refine Program.meets_bind.mpr (Program.meets_bind.mpr
        (Alone.reliable_meets rfl fun task next effect => ?_))
      cases effect with
      | read _ _ reads => cases reads
      | published _ _ _ _ =>
      refine inductionHypothesis.mono ?_
      rintro reached result ⟨ended, rfl⟩
      exact ⟨ended, publishAll_publish row _⟩

/-- What a run of the reaper does: it moves the expired rows to STOPPING, publishes
one teardown for each of them, and does nothing else. -/
structure Reaps (world last : World) (result : Except Exn Answer) : Prop where
  rows : last.db.rows = world.db.rows.map (reaped world.clock)
  published : ∃ messages,
    messages.Perm ((world.db.rows.filter fun row => Expired world.clock row).map
      (teardownOf world.clock)) ∧
    last = { publishAll world messages with db := last.db }
  answer : result =
    .ok (.reaped (world.db.rows.countP fun row => Expired world.clock row))

/-- The exact effect of the reaper. -/
theorem reap_meets :
    Worker.reapExpiredEnvironments.Meets (lone deployment Reliable) (Reaps world) world := by
  unfold Worker.reapExpiredEnvironments
  refine Program.meets_bind.mpr (Alone.reliable_meets rfl fun now afterNow effect => ?_)
  cases effect with
  | read _ _ reads =>
  have current : now = world.clock := reads
  subst current
  refine Program.meets_bind.mpr (Alone.reliable_meets rfl fun rows afterSelect effect => ?_)
  cases effect with
  | read _ _ reads =>
  have selected : rows.Perm (world.db.expired world.clock) := reads
  have counted : rows.length = world.db.rows.countP fun row => Expired world.clock row := by
    rw [selected.length_eq, List.countP_eq_length_filter]
    rfl
  dsimp only
  split
  · rename_i empty
    have none : world.db.rows.filter (fun row => Expired world.clock row) = [] := by
      rw [List.isEmpty_iff.mp empty] at selected
      exact selected.nil_eq.symm
    refine ⟨(map_reaped fun row present => ?_).symm, ⟨[], ?_, ?_⟩, ?_⟩
    · simpa using List.filter_eq_nil_iff.mp none row present
    · rw [none]
      exact .refl _
    · simp [publishAll]
    · rw [List.countP_eq_length_filter, none]
      rfl
  · refine Program.meets_bind.mpr ((changeAll_meets (fun _ => rfl) (fun _ _ allowed => allowed)
      _ rows).mono ?_)
    rintro reached result ⟨rfl, rfl⟩
    refine Program.meets_bind.mpr (Alone.reliable_meets rfl fun done afterCommit effect => ?_)
    cases effect with
    | read _ _ reads => cases reads
    | committed _ =>
    refine Program.meets_bind.mpr ((publishAll_meets rows).mono ?_)
    rintro last result ⟨rfl, rfl⟩
    refine ⟨rows_reaped selected, ⟨_, selected.map _, rfl⟩, ?_⟩
    rw [← counted]

/-! ## The staleness sweep -/

/-- The sweep selects the row for a status and its timeout. -/
def Stale (now : Time) (status : EnvironmentStatus) (timeout : Int) (row : Environment) :
    Prop :=
  row.status = status ∧ ∃ changedAt ∈ row.statusChangedAt, changedAt ≤ now - seconds timeout

instance (status : EnvironmentStatus) (timeout : Int) (row : Environment) :
    Decidable (Stale now status timeout row) :=
  inferInstanceAs (Decidable (_ ∧ _))

/-- The row as the sweep leaves it after the query for one status. -/
def presumed (now : Time) (row : Environment) (entry : EnvironmentStatus × Int) :
    Environment :=
  if Stale now entry.1 entry.2 row then
    Worker.asFailed row (Worker.presumedDead entry.1 entry.2) now
  else row

/-- The row as the sweep leaves it. -/
def recovered (settings : Settings) (now : Time) (row : Environment) : Environment :=
  (Worker.transientTimeouts settings).foldl (presumed now) row

/-- The counts of the rows that the queries find, one after the other. -/
def tallies (now : Time) :
    List (EnvironmentStatus × Int) → List Environment → List (EnvironmentStatus × Nat)
  | [], _ => []
  | entry :: timeouts, rows =>
      let found := rows.countP fun row => Stale now entry.1 entry.2 row
      (if found = 0 then [] else [(entry.1, found)]) ++
        tallies now timeouts (rows.map fun row => presumed now row entry)

/-- The table after the query for one status. -/
theorem rows_presumed {db : Environments} {rows : List Environment}
    {status : EnvironmentStatus} {timeout : Int}
    (selected : rows.Perm (db.stale status (now - seconds timeout))) :
    (db.writeAll (rows.map fun row =>
      ⟨row, Worker.asFailed row (Worker.presumedDead status timeout) now⟩)).rows =
      db.rows.map fun row => presumed now row (status, timeout) := by
  have written := Environments.rows_writeAll_selected
    (fun row listed => List.mem_of_mem_filter (selected.mem_iff.mp listed))
    (Environments.nodup_of_perm selected)
    fun row =>
      (rfl : (Worker.asFailed row (Worker.presumedDead status timeout) now).id = row.id)
  rw [written]
  apply List.map_congr_left
  intro row present
  have chosen : row ∈ rows ↔ Stale now status timeout row := by
    rw [selected.mem_iff]
    simp [Environments.stale, Stale, present]
  unfold presumed
  by_cases stale : Stale now status timeout row
  · rw [if_pos stale, if_pos (chosen.mpr stale)]
  · rw [if_neg stale, if_neg (mt chosen.mp stale)]

/-- The loop over the timeouts changes the rows of the session's view one status
after the other. -/
theorem recoverTimeouts_meets (timeouts : List (EnvironmentStatus × Int))
    (changes : List Change) (counts : List (EnvironmentStatus × Nat)) :
    (Worker.recoverTimeouts world.clock timeouts changes counts).Meets
      (lone deployment Reliable)
      (fun reached result => reached = world ∧ ∃ changes', result =
          .ok (changes', counts ++ tallies world.clock timeouts (world.db.writeAll changes).rows) ∧
        (world.db.writeAll changes').rows = (world.db.writeAll changes).rows.map fun row =>
          timeouts.foldl (presumed world.clock) row) world := by
  induction timeouts generalizing changes counts with
  | nil => exact ⟨rfl, changes, by simp [tallies], by simp⟩
  | cons entry timeouts inductionHypothesis =>
      obtain ⟨status, timeout⟩ := entry
      unfold Worker.recoverTimeouts
      refine Program.meets_bind.mpr (Alone.reliable_meets rfl fun stale afterSelect effect => ?_)
      cases effect with
      | read _ _ reads =>
      have selected : stale.Perm
          ((world.db.writeAll changes).stale status (world.clock - seconds timeout)) := reads
      refine Program.meets_bind.mpr ((changeAll_meets (fun _ => rfl)
        (fun _ _ allowed => allowed) _ stale).mono ?_)
      rintro reached result ⟨rfl, rfl⟩
      refine (inductionHypothesis _ _).mono ?_
      rintro last result ⟨same, changes', rfl, rows⟩
      have view : (reached.db.writeAll (changes ++ stale.map fun row =>
          ⟨row, Worker.asFailed row (Worker.presumedDead status timeout) reached.clock⟩)).rows =
          (reached.db.writeAll changes).rows.map fun row =>
            presumed reached.clock row (status, timeout) := by
        have failed := rows_presumed selected
        unfold Environments.writeAll at failed ⊢
        rw [List.foldl_append]
        exact failed
      have found : stale.length = (reached.db.writeAll changes).rows.countP fun row =>
          Stale reached.clock status timeout row := by
        rw [selected.length_eq, List.countP_eq_length_filter]
        rfl
      refine ⟨same, changes', ?_, ?_⟩
      · rw [view]
        congr 2
        simp only [tallies, ← found]
        by_cases empty : stale.length = 0
        · simp [List.length_eq_zero_iff.mp empty]
        · have filled : stale.isEmpty = false := by
            rw [List.isEmpty_eq_false_iff]
            exact fun none => empty (by rw [none]; rfl)
          simp [empty, filled]
      · rw [rows, view, List.map_map]
        rfl

/-- Where the sweep finds nothing it changes nothing. -/
theorem map_presumed_of_tallies {timeouts : List (EnvironmentStatus × Int)}
    {rows : List Environment} (none : tallies now timeouts rows = []) :
    (rows.map fun row => timeouts.foldl (presumed now) row) = rows := by
  induction timeouts generalizing rows with
  | nil => exact List.map_id' rows
  | cons entry timeouts inductionHypothesis =>
      rw [tallies, List.append_eq_nil_iff] at none
      have idle : (rows.map fun row => presumed now row entry) = rows := by
        conv_rhs => rw [← List.map_id' rows]
        apply List.map_congr_left
        intro row present
        refine if_neg fun stale => ?_
        have found : rows.countP (fun row => Stale now entry.1 entry.2 row) = 0 := by
          by_contra some
          rw [if_neg some] at none
          cases none.1
        rw [List.countP_eq_zero] at found
        exact found row present (decide_eq_true stale)
      have later := inductionHypothesis none.2
      rw [idle] at later
      calc (rows.map fun row => timeouts.foldl (presumed now) (presumed now row entry))
          = (rows.map fun row => presumed now row entry).map
              fun row => timeouts.foldl (presumed now) row := by rw [List.map_map]; rfl
        _ = rows := by rw [idle, later]

/-- The row has been in transit for too long. -/
def Overdue (settings : Settings) (now : Time) (row : Environment) : Prop :=
  ∃ entry ∈ Worker.transientTimeouts settings, Stale now entry.1 entry.2 row

instance (settings : Settings) (row : Environment) : Decidable (Overdue settings now row) :=
  inferInstanceAs (Decidable (∃ entry ∈ Worker.transientTimeouts settings, _))

variable {settings : Settings} {row : Environment}

/-- A row that no query finds is left alone. -/
theorem foldl_presumed {timeouts : List (EnvironmentStatus × Int)}
    (fresh : ∀ entry ∈ timeouts, ¬Stale now entry.1 entry.2 row) :
    timeouts.foldl (presumed now) row = row := by
  induction timeouts with
  | nil => rfl
  | cons entry timeouts inductionHypothesis =>
      rw [List.forall_mem_cons] at fresh
      rw [List.foldl_cons, presumed, if_neg fresh.1]
      exact inductionHypothesis fresh.2

theorem recovered_of_not_overdue (fresh : ¬Overdue settings now row) :
    recovered settings now row = row :=
  foldl_presumed fun entry listed stale => fresh ⟨entry, listed, stale⟩

/-- The query for a row's own status fails it, and no later query finds it. -/
theorem foldl_presumed_of_stale {timeouts : List (EnvironmentStatus × Int)}
    {entry : EnvironmentStatus × Int}
    (distinct : (timeouts.map Prod.fst).Nodup)
    (transient : ∀ entry ∈ timeouts, entry.1 ≠ .failed)
    (listed : entry ∈ timeouts)
    (stale : Stale now entry.1 entry.2 row) :
    timeouts.foldl (presumed now) row =
      Worker.asFailed row (Worker.presumedDead entry.1 entry.2) now := by
  induction timeouts with
  | nil => cases listed
  | cons first timeouts inductionHypothesis =>
      rw [List.map_cons, List.nodup_cons] at distinct
      rw [List.forall_mem_cons] at transient
      rw [List.foldl_cons]
      rcases List.mem_cons.mp listed with rfl | later
      · rw [presumed, if_pos stale]
        exact foldl_presumed fun other member found => transient.2 other member found.1.symm
      · have other : ¬Stale now first.1 first.2 row := by
          intro found
          refine distinct.1 (List.mem_map.mpr ⟨entry, later, ?_⟩)
          rw [← stale.1, ← found.1]
        rw [presumed, if_neg other]
        exact inductionHypothesis distinct.2 transient.2 later

theorem distinct_transientTimeouts :
    ((Worker.transientTimeouts settings).map Prod.fst).Nodup := by
  simp [Worker.transientTimeouts]

theorem ne_failed_of_mem {entry : EnvironmentStatus × Int}
    (listed : entry ∈ Worker.transientTimeouts settings) : entry.1 ≠ .failed := by
  simp only [Worker.transientTimeouts, List.mem_cons, List.not_mem_nil, or_false] at listed
  intro failed
  rcases listed with rfl | rfl | rfl
  · cases failed
  · cases failed
  · cases failed

/-- An overdue row is failed with the message of its own status. -/
theorem recovered_of_stale {entry : EnvironmentStatus × Int}
    (listed : entry ∈ Worker.transientTimeouts settings)
    (stale : Stale now entry.1 entry.2 row) :
    recovered settings now row =
      Worker.asFailed row (Worker.presumedDead entry.1 entry.2) now :=
  foldl_presumed_of_stale distinct_transientTimeouts (fun _ => ne_failed_of_mem) listed stale

/-- A query for another status finds the same rows before and after. -/
theorem countP_presumed {rows : List Environment} {entry other : EnvironmentStatus × Int}
    (different : entry.1 ≠ other.1)
    (transient : other.1 ≠ .failed) :
    ((rows.map fun row => presumed now row entry).countP fun row =>
        Stale now other.1 other.2 row) =
      rows.countP fun row => Stale now other.1 other.2 row := by
  rw [List.countP_map]
  apply List.countP_congr
  intro row _
  rw [Function.comp_apply, decide_eq_true_eq, decide_eq_true_eq]
  unfold presumed
  split
  · rename_i stale
    exact ⟨fun found => (transient found.1.symm).elim,
      fun found => (different (stale.1.symm.trans found.1)).elim⟩
  · exact Iff.rfl

/-- Each tally counts the rows that its query finds in the table. -/
theorem tallies_eq {timeouts : List (EnvironmentStatus × Int)} {rows : List Environment}
    (distinct : (timeouts.map Prod.fst).Nodup)
    (transient : ∀ entry ∈ timeouts, entry.1 ≠ .failed) :
    tallies now timeouts rows =
      (timeouts.map fun entry =>
        (entry.1, rows.countP fun row => Stale now entry.1 entry.2 row)).filter
          fun tally => tally.2 ≠ 0 := by
  induction timeouts generalizing rows with
  | nil => rfl
  | cons entry timeouts inductionHypothesis =>
      rw [List.map_cons, List.nodup_cons] at distinct
      rw [List.forall_mem_cons] at transient
      have later : (timeouts.map fun other => (other.1,
            (rows.map fun row => presumed now row entry).countP fun row =>
              Stale now other.1 other.2 row)) =
          timeouts.map fun other => (other.1,
            rows.countP fun row => Stale now other.1 other.2 row) := by
        apply List.map_congr_left
        intro other member
        have different : entry.1 ≠ other.1 := fun same =>
          distinct.1 (List.mem_map.mpr ⟨other, member, same.symm⟩)
        rw [countP_presumed different (transient.2 other member)]
      rw [tallies, inductionHypothesis distinct.2 transient.2, later, List.map_cons,
        List.filter_cons]
      by_cases none : rows.countP (fun row => Stale now entry.1 entry.2 row) = 0
      · simp [none]
      · simp [none]

/-- What the sweep reports: how many rows it failed for each status that had any. -/
def counts (settings : Settings) (now : Time) (rows : List Environment) :
    List (EnvironmentStatus × Nat) :=
  ((Worker.transientTimeouts settings).map fun entry =>
    (entry.1, rows.countP fun row => Stale now entry.1 entry.2 row)).filter
      fun tally => tally.2 ≠ 0

/-- The counts of disjoint conditions add up. -/
theorem countP_or {rows : List Environment} {first second : Environment → Bool}
    (disjoint : ∀ row, first row = true → second row = false) :
    (rows.countP fun row => first row || second row) = rows.countP first + rows.countP second := by
  induction rows with
  | nil => rfl
  | cons row rows inductionHypothesis =>
      rw [List.countP_cons, List.countP_cons, List.countP_cons, inductionHypothesis]
      cases here : first row with
      | true => simp [disjoint row here]; omega
      | false =>
          rw [Bool.false_or, if_neg Bool.false_ne_true]
          omega

/-- The total of the report is the number of overdue rows. -/
theorem sum_counts (settings : Settings) (now : Time) (rows : List Environment) :
    ((counts settings now rows).map Prod.snd).sum =
      rows.countP fun row => Overdue settings now row := by
  have nonzero : ∀ tallies : List (EnvironmentStatus × Nat),
      ((tallies.filter fun tally => tally.2 ≠ 0).map Prod.snd).sum =
        (tallies.map Prod.snd).sum := by
    intro tallies
    induction tallies with
    | nil => rfl
    | cons tally tallies inductionHypothesis =>
        rw [List.filter_cons]
        by_cases none : tally.2 = 0
        · simpa [none] using inductionHypothesis
        · simpa [none] using inductionHypothesis
  have split : ∀ timeouts : List (EnvironmentStatus × Int), (timeouts.map Prod.fst).Nodup →
      (timeouts.map fun entry => rows.countP fun row => Stale now entry.1 entry.2 row).sum =
        rows.countP fun row => timeouts.any fun entry => Stale now entry.1 entry.2 row := by
    intro timeouts distinct
    induction timeouts with
    | nil => simp
    | cons entry timeouts inductionHypothesis =>
        rw [List.map_cons, List.nodup_cons] at distinct
        simp only [List.map_cons, List.sum_cons, List.any_cons]
        rw [inductionHypothesis distinct.2, countP_or]
        intro row stale
        rw [List.any_eq_false]
        intro other member found
        rw [decide_eq_true_eq] at stale found
        refine distinct.1 (List.mem_map.mpr ⟨other, member, ?_⟩)
        rw [← found.1, ← stale.1]
  rw [counts, nonzero, List.map_map]
  refine (split _ distinct_transientTimeouts).trans ?_
  apply List.countP_congr
  intro row _
  rw [List.any_eq_true, decide_eq_true_eq]
  simp only [decide_eq_true_eq]
  exact Iff.rfl

/-- An overdue row changes its status, the time of the change and the message, which
is at most 500 characters long. -/
theorem recovered_of_overdue (overdue : Overdue settings now row) :
    ∃ message : String, message.length ≤ 500 ∧
      recovered settings now row =
        { row with
          status := .failed
          statusChangedAt := some now
          errorMessage := some message } := by
  obtain ⟨entry, listed, stale⟩ := overdue
  refine ⟨Worker.truncated (Worker.presumedDead entry.1 entry.2), ?_, ?_⟩
  · simp [Worker.truncated]
  · exact recovered_of_stale listed stale

/-- What a run of the staleness sweep does: it fails the overdue rows, reports them
by status, and does nothing else. -/
structure Recovers (settings : Settings) (world last : World) (result : Except Exn Answer) :
    Prop where
  rows : last.db.rows = world.db.rows.map (recovered settings world.clock)
  overdue : ∀ row, Overdue settings world.clock row →
    ∃ message : String, message.length ≤ 500 ∧
      recovered settings world.clock row =
        { row with
          status := .failed
          statusChangedAt := some world.clock
          errorMessage := some message }
  kept : ∀ row, ¬Overdue settings world.clock row → recovered settings world.clock row = row
  others : last = { world with db := last.db }
  answer : result = .ok (.recovered (counts settings world.clock world.db.rows))
  total : ((counts settings world.clock world.db.rows).map Prod.snd).sum =
    world.db.rows.countP fun row => Overdue settings world.clock row

/-- The exact effect of the staleness sweep. -/
theorem recover_meets :
    (Worker.recoverStaleTransitions deployment).Meets (lone deployment Reliable)
      (Recovers deployment.settings world) world := by
  have tallied : tallies world.clock (Worker.transientTimeouts deployment.settings)
      world.db.rows = counts deployment.settings world.clock world.db.rows :=
    tallies_eq distinct_transientTimeouts fun _ => ne_failed_of_mem
  have finish : ∀ last : World,
      last.db.rows = world.db.rows.map (recovered deployment.settings world.clock) →
      last = { world with db := last.db } →
      Recovers deployment.settings world last
        (.ok (.recovered (counts deployment.settings world.clock world.db.rows))) :=
    fun last rows others => ⟨rows, fun _ => recovered_of_overdue,
      fun _ => recovered_of_not_overdue, others, rfl, sum_counts _ _ _⟩
  unfold Worker.recoverStaleTransitions
  refine Program.meets_bind.mpr (Alone.reliable_meets rfl fun now afterNow effect => ?_)
  cases effect with
  | read _ _ reads =>
  have current : now = world.clock := reads
  subst current
  refine Program.meets_bind.mpr ((recoverTimeouts_meets _ [] []).mono ?_)
  rintro reached result ⟨rfl, changes, rfl, rows⟩
  rw [Environments.writeAll_nil] at rows ⊢
  rw [List.nil_append, tallied]
  dsimp only
  split
  · rename_i empty
    have none := List.isEmpty_iff.mp empty
    exact finish _ (map_presumed_of_tallies (tallied.trans none)).symm rfl
  · refine Program.meets_bind.mpr (Alone.reliable_meets rfl fun done afterCommit effect => ?_)
    cases effect with
    | read _ _ reads => cases reads
    | committed _ => exact finish _ rows rfl

/-! ## Idempotence and commutation -/

/-- A failed row is in no transit. -/
theorem not_overdue_recovered (row : Environment) :
    ¬Overdue settings now (recovered settings now row) := by
  intro again
  by_cases overdue : Overdue settings now row
  · obtain ⟨message, -, same⟩ := recovered_of_overdue overdue
    obtain ⟨entry, listed, stale⟩ := again
    rw [same] at stale
    exact ne_failed_of_mem listed stale.1.symm
  · rw [recovered_of_not_overdue overdue] at again
    exact overdue again

/-- A claimed row is not RUNNING. -/
theorem not_expired_reaped (row : Environment) : ¬Expired now (reaped now row) := by
  unfold reaped
  split
  · exact fun again => nomatch again.1
  · assumption

/-- An expired row is in no transit. -/
theorem not_overdue_of_expired (expired : Expired now row) : ¬Overdue settings now row := by
  rintro ⟨entry, listed, stale⟩
  have status := expired.1.symm.trans stale.1
  simp only [Worker.transientTimeouts, List.mem_cons, List.not_mem_nil, or_false] at listed
  rcases listed with rfl | rfl | rfl
  · cases status
  · cases status
  · cases status

/-- The staleness sweep makes no row expired and keeps every expired row. -/
theorem expired_recovered : Expired now (recovered settings now row) ↔ Expired now row := by
  by_cases overdue : Overdue settings now row
  · obtain ⟨message, -, same⟩ := recovered_of_overdue overdue
    rw [same]
    exact ⟨fun expired => (nomatch expired.1), fun expired =>
      (not_overdue_of_expired expired overdue).elim⟩
  · rw [recovered_of_not_overdue overdue]

/-- A row that was claimed just now is not overdue. -/
theorem not_overdue_claimed
    (positive : ∀ entry ∈ Worker.transientTimeouts settings, 0 < entry.2) :
    ¬Overdue settings now (row.setStatus .stopping now) := by
  rintro ⟨entry, listed, -, changedAt, dated, past⟩
  cases dated
  have later : 0 < seconds entry.2 := Int.mul_pos (positive entry listed) (by decide)
  exact Int.not_le.mpr (Int.sub_lt_self now later) past

/-- On each row the two sweeps commute. -/
theorem recovered_reaped
    (positive : ∀ entry ∈ Worker.transientTimeouts settings, 0 < entry.2)
    (row : Environment) :
    recovered settings now (reaped now row) = reaped now (recovered settings now row) := by
  by_cases expired : Expired now row
  · rw [recovered_of_not_overdue (not_overdue_of_expired expired), reaped, if_pos expired]
    exact recovered_of_not_overdue (not_overdue_claimed positive)
  · rw [reaped, if_neg expired, reaped, if_neg (mt expired_recovered.mp expired)]

/-- A run of a sweep with the clock standing still and no other writer. -/
def Finishes (deployment : Deployment) (sweep : Sweep) (world last : World)
    (result : Except Exn Answer) : Prop :=
  ∃ trace, Executes (lone deployment Reliable) world (program deployment (.sweep sweep))
    trace last result

theorem recovers_of_finishes {last : World} {result : Except Exn Answer}
    (finishes : Finishes deployment .recoverStale world last result) :
    Recovers deployment.settings world last result := by
  obtain ⟨trace, executed⟩ := finishes
  exact executed.meets recover_meets

theorem reaps_of_finishes {last : World} {result : Except Exn Answer}
    (finishes : Finishes deployment .reapExpired world last result) :
    Reaps world last result := by
  obtain ⟨trace, executed⟩ := finishes
  exact executed.meets reap_meets

/-- Either sweep comes to its end. -/
theorem exists_finishes {post : World → Except Exn Answer → Prop} {sweep : Sweep}
    (met : (program deployment (.sweep sweep)).Meets (lone deployment Reliable) post world) :
    ∃ last result, Finishes deployment sweep world last result := by
  obtain ⟨trace, last, result, executed, -⟩ := Alone.exists_ends met
  exact ⟨last, result, trace, executed⟩

/-- After a run of the staleness sweep a second run changes nothing. -/
theorem recover_again {last last' : World} {result result' : Except Exn Answer}
    (first : Recovers settings world last result)
    (second : Recovers settings last last' result') :
    last' = last ∧ result' = .ok (.recovered []) := by
  have clock : last.clock = world.clock := by rw [first.others]
  have fresh : ∀ row ∈ last.db.rows, ¬Overdue settings last.clock row := by
    intro row present
    rw [first.rows, List.mem_map] at present
    obtain ⟨before, -, rfl⟩ := present
    rw [clock]
    exact not_overdue_recovered before
  have rows : last'.db.rows = last.db.rows := by
    rw [second.rows]
    conv_rhs => rw [← List.map_id' last.db.rows]
    apply List.map_congr_left
    intro row present
    exact recovered_of_not_overdue (fresh row present)
  refine ⟨?_, second.answer.trans ?_⟩
  · rw [second.others, Keyed.Table.eq_of_rows rows]
  · have none : counts settings last.clock last.db.rows = [] := by
      rw [counts, List.filter_eq_nil_iff]
      intro tally present
      obtain ⟨entry, listed, rfl⟩ := List.mem_map.mp present
      have empty : last.db.rows.countP (fun row => Stale last.clock entry.1 entry.2 row) = 0 := by
        rw [List.countP_eq_zero]
        intro row member stale
        exact fresh row member ⟨entry, listed, of_decide_eq_true stale⟩
      simp [empty]
    rw [none]

/-- After a run of the reaper a second run changes and publishes nothing. -/
theorem reap_again {last last' : World} {result result' : Except Exn Answer}
    (first : Reaps world last result)
    (second : Reaps last last' result') :
    last' = last ∧ result' = .ok (.reaped 0) := by
  have clock : last.clock = world.clock := by
    obtain ⟨messages, -, same⟩ := first.published
    rw [same]
    rfl
  have claimed : ∀ row ∈ last.db.rows, ¬Expired last.clock row := by
    intro row present
    rw [first.rows, List.mem_map] at present
    obtain ⟨before, -, rfl⟩ := present
    rw [clock]
    exact not_expired_reaped before
  have none : last.db.rows.filter (fun row => Expired last.clock row) = [] := by
    rw [List.filter_eq_nil_iff]
    intro row present expired
    exact claimed row present (of_decide_eq_true expired)
  obtain ⟨messages, permuted, same⟩ := second.published
  rw [none] at permuted
  cases permuted.eq_nil
  refine ⟨?_, ?_⟩
  · rw [same, publishAll_nil, Keyed.Table.eq_of_rows (second.rows.trans (map_reaped claimed))]
  · rw [second.answer, List.countP_eq_length_filter, none]
    rfl

/-- The two sweeps in either order leave the same table and publish the same
teardowns. -/
theorem sweeps_commute {middle last middle' last' : World}
    {first second first' second' : Except Exn Answer}
    (positive : ∀ entry ∈ Worker.transientTimeouts settings, 0 < entry.2)
    (recovers : Recovers settings world middle first)
    (reaps : Reaps middle last second)
    (reaps' : Reaps world middle' first')
    (recovers' : Recovers settings middle' last' second') :
    last.db = last'.db ∧ ∃ published published', last.sent = world.sent ++ published ∧
      last'.sent = world.sent ++ published' ∧ published.Perm published' := by
  have clock : middle.clock = world.clock := by rw [recovers.others]
  obtain ⟨published, permuted, same⟩ := reaps.published
  obtain ⟨published', permuted', same'⟩ := reaps'.published
  have clock' : middle'.clock = world.clock := by
    rw [same']
    rfl
  refine ⟨Keyed.Table.eq_of_rows ?_, published, published', ?_, ?_, ?_⟩
  · rw [reaps.rows, recovers.rows, recovers'.rows, reaps'.rows, clock, clock', List.map_map,
      List.map_map]
    apply List.map_congr_left
    intro row _
    exact (recovered_reaped positive row).symm
  · rw [same, recovers.others]
    rfl
  · rw [recovers'.others, same']
    rfl
  · refine permuted.trans (List.Perm.trans (.of_eq ?_) permuted'.symm)
    rw [recovers.rows, clock, List.filter_map, List.map_map]
    have kept : (fun row => decide (Expired world.clock row)) ∘ recovered settings world.clock =
        fun row => decide (Expired world.clock row) := by
      funext row
      exact decide_eq_decide.mpr expired_recovered
    rw [kept]
    apply List.map_congr_left
    intro row present
    have expired := of_decide_eq_true (List.mem_filter.mp present).2
    rw [Function.comp_apply, recovered_of_not_overdue (not_overdue_of_expired expired)]

/-- A table with a row that has been PENDING and one that has been RUNNING for a day. -/
def sampleWorld : World where
  db :=
    { rows :=
        [ .inserted (Sample.envId 1) "first" "alice" "webapp-postgres" 300 0,
          { Environment.inserted (Sample.envId 2) "second" "alice" "webapp-postgres" 300 0 with
            status := .running
            startedAt := some 0
            expiresAt := some (seconds 300) } ]
      nodup := by decide }
  docker := .empty true
  queue := []
  sent := []
  clock := seconds 86400
  issued := [Sample.envId 1, Sample.envId 2]
  nextTask := 0
  metrics := []

end Housekeeping

end Provisioner
