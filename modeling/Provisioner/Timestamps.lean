import Provisioner.Discovery
import Provisioner.Text.Replacement
import Provisioner.Text.Rfc3339

/-!
# The age of a resource

Docker reports the creation of a resource as a text. `_created_at` rewrites the text until
`datetime.fromisoformat`, which is a parameter here, can read it; a text that it cannot read
counts as brand new.
-/

namespace Provisioner

open Text Rfc3339

/-- A `datetime`: microseconds on the wall clock since 1970-01-01T00:00:00, and how far the
wall clock is ahead of universal time, if the object says so. -/
structure DateTime where
  wall : Int
  utcOffset : Option Int

namespace Timestamps

/-- `raw.replace("Z", "+00:00")` -/
def zulu : List Char → Option (List Char × Nat)
  | 'Z' :: _ => some ("+00:00".toList, 1)
  | _ => none

/-- `(\.\d{6})\d+`, replaced by its group. Digits of other scripts than ASCII, which `\d`
also matches, are left out. -/
def longFraction : List Char → Option (List Char × Nat)
  | '.' :: text =>
      let digits := text.takeWhile Char.isDigit
      if 6 < digits.length then some ('.' :: digits.take 6, digits.length + 1) else none
  | _ => none

/-- The text that `_created_at` parses. -/
def cleaned (raw : String) : String :=
  .ofList (replaceAll longFraction (replaceAll zulu raw.toList))

/-- `_created_at`, as an instant: a `datetime` without a zone is in universal time. The
clock is read only where the resource counts as brand new. -/
def createdAt
    (fromIsoFormat : String → Option DateTime)
    (raw : Option String)
    (now : Time) : Time :=
  match raw with
  | none => now
  | some raw =>
      if raw = "" then now
      else
        match fromIsoFormat (cleaned raw) with
        | none => now
        | some parsed => parsed.wall - parsed.utcOffset.getD 0

/-- `_created_at` treats the resource as brand new: it has no timestamp, or none that can be
read. -/
def BrandNew (fromIsoFormat : String → Option DateTime) (raw : Option String) : Prop :=
  ∀ text ∈ raw, text = "" ∨ fromIsoFormat (cleaned text) = none

/-- `datetime.fromisoformat` reads every timestamp with a numeric zone and up to six
fractional digits. -/
def Correct (fromIsoFormat : String → Option DateTime) : Prop :=
  ∀ stamp : Timestamp, stamp.zone ≠ .zulu → stamp.fraction.length ≤ 6 →
    ∃ parsed, fromIsoFormat stamp.text = some parsed ∧
      parsed.utcOffset = some stamp.zone.offset ∧ (parsed.wall : ℚ) = stamp.wall

/-! ## Cleaning -/

section Cleaning

variable {stamp : Timestamp}

/-- The zone that the replacement of `Z` leaves. -/
def numericZone : Zone → Zone
  | .zulu => .numeric false 0 0
  | zone => zone

/-- The timestamp whose text `_created_at` parses. -/
def truncated (stamp : Timestamp) : Timestamp :=
  { stamp with
    fraction := stamp.fraction.take 6
    zone := numericZone stamp.zone }

/-- A character that may stand before the fraction. -/
def Plain (char : Char) : Prop :=
  char ≠ 'Z' ∧ char ≠ '.'

theorem isDigit_digit (value : Fin 10) : (digit value).isDigit = true := by
  revert value
  decide

theorem plain_digit (value : Fin 10) : Plain (digit value) := by
  revert value
  unfold Plain
  decide

theorem plain_two (number : Nat) : ∀ char ∈ two number, Plain char := by
  intro char present
  rcases List.mem_pair.mp present with rfl | rfl <;> exact plain_digit _

theorem plain_front (stamp : Timestamp) : ∀ char ∈ stamp.front, Plain char := by
  have dash : Plain '-' := by unfold Plain; decide
  have colon : Plain ':' := by unfold Plain; decide
  have time : Plain 'T' := by unfold Plain; decide
  unfold Timestamp.front four
  simp only [List.forall_mem_append, List.forall_mem_cons]
  exact ⟨⟨⟨⟨⟨⟨plain_two _, plain_two _⟩, dash, plain_two _⟩, dash, plain_two _⟩, time,
    plain_two _⟩, colon, plain_two _⟩, colon, plain_two _⟩

theorem plain_numericZone (zone : Zone) : ∀ char ∈ (numericZone zone).text, Plain char := by
  have sign (behind : Bool) : Plain (if behind then '-' else '+') := by
    revert behind
    unfold Plain
    decide
  have colon : Plain ':' := by unfold Plain; decide
  have numeric (behind : Bool) (hours : Fin 24) (minutes : Fin 60) :
      ∀ char ∈ (Zone.numeric behind hours minutes).text, Plain char := by
    unfold Zone.text
    simp only [List.forall_mem_append, List.forall_mem_cons]
    exact ⟨⟨sign behind, plain_two _⟩, colon, plain_two _⟩
  cases zone with
  | zulu => exact numeric false 0 0
  | numeric behind hours minutes => exact numeric behind hours minutes

theorem zulu_of_plain {char : Char} (plain : char ≠ 'Z') (rest : List Char) :
    zulu (char :: rest) = none := by
  unfold zulu
  split
  · rename_i same
    exact absurd (List.cons.inj same).1 plain
  · rfl

theorem longFraction_of_plain {char : Char} (plain : char ≠ '.') (rest : List Char) :
    longFraction (char :: rest) = none := by
  unfold longFraction
  split
  · rename_i same
    exact absurd (List.cons.inj same).1 plain
  · rfl

/-- Only the zone can be `Z`. -/
theorem replaceAll_zulu (stamp : Timestamp) :
    replaceAll zulu (stamp.front ++ fractionText stamp.fraction ++ stamp.zone.text) =
      stamp.front ++ fractionText stamp.fraction ++ (numericZone stamp.zone).text := by
  have inert : ∀ char ∈ stamp.front ++ fractionText stamp.fraction, ∀ rest,
      zulu (char :: rest) = none := by
    intro char present rest
    apply zulu_of_plain
    rcases List.mem_append.mp present with front | fraction
    · exact (plain_front stamp char front).1
    · cases digits : stamp.fraction with
      | nil =>
          rw [digits] at fraction
          cases fraction
      | cons value values =>
          rw [digits] at fraction
          rcases List.mem_cons.mp fraction with rfl | later
          · decide
          · obtain ⟨value, -, rfl⟩ := List.mem_map.mp later
            exact (plain_digit value).1
  rw [replaceAll_append inert]
  cases zone : stamp.zone with
  | zulu => rfl
  | numeric behind hours minutes =>
      rw [replaceAll_of_inert]
      · rfl
      · exact fun char present rest =>
          zulu_of_plain (plain_numericZone (.numeric behind hours minutes) char present).1 rest

/-- A numeric zone begins with its sign. -/
theorem exists_sign (zone : Zone) :
    ∃ sign rest, (numericZone zone).text = sign :: rest ∧ sign.isDigit = false := by
  cases zone with
  | zulu => exact ⟨'+', _, rfl, rfl⟩
  | numeric behind hours minutes => cases behind <;> exact ⟨_, _, rfl, rfl⟩

/-- The digits of a fraction end where the zone begins. -/
theorem takeWhile_digits (fraction : List (Fin 10)) (zone : Zone) :
    (fraction.map digit ++ (numericZone zone).text).takeWhile Char.isDigit =
      fraction.map digit := by
  have digits : ∀ char ∈ fraction.map digit, char.isDigit = true := by
    intro char present
    obtain ⟨value, -, rfl⟩ := List.mem_map.mp present
    exact isDigit_digit value
  obtain ⟨sign, rest, text, other⟩ := exists_sign zone
  rw [List.takeWhile_append_of_pos digits, text, List.takeWhile_cons_of_neg, List.append_nil]
  rw [other]
  exact Bool.false_ne_true

/-- The fraction is cut after six digits. -/
theorem replaceAll_fraction (fraction : List (Fin 10)) (zone : Zone) :
    replaceAll longFraction (fractionText fraction ++ (numericZone zone).text) =
      fractionText (fraction.take 6) ++ (numericZone zone).text := by
  have inert : ∀ char ∈ (numericZone zone).text, ∀ rest, longFraction (char :: rest) = none :=
    fun char present => longFraction_of_plain (plain_numericZone zone char present).2
  cases fraction with
  | nil => exact replaceAll_of_inert inert
  | cons value values =>
      change replaceAll longFraction ('.' :: (value :: values).map digit ++ _) =
        '.' :: ((value :: values).take 6).map digit ++ _
      generalize value :: values = fraction
      have digits := takeWhile_digits fraction zone
      by_cases long : 6 < fraction.length
      · have matched : longFraction ('.' :: fraction.map digit ++ (numericZone zone).text) =
            some ('.' :: (fraction.map digit).take 6, (fraction.map digit).length + 1) := by
          rw [List.cons_append, longFraction, digits, List.length_map]
          exact if_pos long
        rw [replaceAll_match matched, replaceAll_of_inert inert, List.map_take]
      · have short : longFraction ('.' :: fraction.map digit ++ (numericZone zone).text) =
            none := by
          rw [List.cons_append, longFraction, digits, List.length_map]
          exact if_neg long
        have values : ∀ char ∈ fraction.map digit ++ (numericZone zone).text, ∀ rest,
            longFraction (char :: rest) = none := by
          intro char present rest
          rcases List.mem_append.mp present with here | behind
          · obtain ⟨value, -, rfl⟩ := List.mem_map.mp here
            exact longFraction_of_plain (plain_digit value).2 rest
          · exact inert char behind rest
        rw [List.cons_append] at short ⊢
        rw [replaceAll_cons short, replaceAll_of_inert values,
          List.take_of_length_le (Nat.le_of_not_lt long)]
        rfl

/-- What `_created_at` parses is the text of the truncated timestamp. -/
theorem cleaned_text (stamp : Timestamp) : cleaned stamp.text = (truncated stamp).text := by
  unfold cleaned Timestamp.text
  rw [String.toList_ofList, replaceAll_zulu, List.append_assoc, replaceAll_append,
    replaceAll_fraction, ← List.append_assoc]
  · rfl
  · exact fun char present => longFraction_of_plain (plain_front stamp char present).2

example : cleaned "2024-02-29T07:08:09.123456789Z" = "2024-02-29T07:08:09.123456+00:00" := by
  decide

end Cleaning

/-! ## The instant -/

variable {fromIsoFormat : String → Option DateTime}

/-- Truncating a timestamp rounds its instant down to the microsecond. -/
theorem denoted_truncated (stamp : Timestamp) :
    (truncated stamp).denoted = ⌊stamp.denoted⌋ := by
  have zone : (truncated stamp).zone.offset = stamp.zone.offset := by
    cases same : stamp.zone with
    | zulu => simp [truncated, numericZone, same, Zone.offset]
    | numeric behind hours minutes => simp [truncated, numericZone, same, Zone.offset]
  have places : (⌊fractionValue stamp.fraction * 1000000⌋ : ℚ) =
      fractionValue (stamp.fraction.take 6) * 1000000 := by
    have cut := floor_fractionValue stamp.fraction 6
    norm_num at cut
    exact cut
  have split : stamp.denoted = ((stamp.wallSeconds * 1000000 - stamp.zone.offset : ℤ) : ℚ) +
      fractionValue stamp.fraction * 1000000 := by
    unfold Timestamp.denoted Timestamp.wall
    push_cast
    ring
  rw [split, Int.floor_intCast_add, Int.cast_add, places, Timestamp.denoted, zone]
  unfold Timestamp.wall
  push_cast
  have same : (truncated stamp).wallSeconds = stamp.wallSeconds := rfl
  rw [same]
  change _ + fractionValue (stamp.fraction.take 6) * 1000000 - _ = _
  ring

/-- `datetime.fromisoformat` can read what `_created_at` hands to it. -/
theorem exists_parsed (correct : Correct fromIsoFormat) (stamp : Timestamp) :
    ∃ parsed, fromIsoFormat (cleaned stamp.text) = some parsed ∧
      parsed.wall - parsed.utcOffset.getD 0 = ⌊stamp.denoted⌋ := by
  have numeric : (truncated stamp).zone ≠ .zulu := by
    cases same : stamp.zone with
    | zulu => simp [truncated, numericZone, same]
    | numeric behind hours minutes => simp [truncated, numericZone, same]
  have short : (truncated stamp).fraction.length ≤ 6 := List.length_take_le 6 _
  obtain ⟨parsed, reads, offset, wall⟩ := correct (truncated stamp) numeric short
  refine ⟨parsed, by rw [cleaned_text, reads], ?_⟩
  have exact' : ((parsed.wall - parsed.utcOffset.getD 0 : ℤ) : ℚ) = ⌊stamp.denoted⌋ := by
    rw [offset, Option.getD_some, Int.cast_sub, wall, ← denoted_truncated]
    rfl
  exact_mod_cast exact'

theorem text_ne_empty (stamp : Timestamp) : stamp.text ≠ "" := by
  intro empty
  unfold Timestamp.text at empty
  rw [String.ofList_eq_empty_iff] at empty
  simp [Timestamp.front] at empty

theorem not_brandNew_text (correct : Correct fromIsoFormat) (stamp : Timestamp) :
    ¬BrandNew fromIsoFormat (some stamp.text) := by
  obtain ⟨parsed, reads, -⟩ := exists_parsed correct stamp
  intro brandNew
  rcases brandNew stamp.text rfl with empty | unread
  · exact text_ne_empty stamp empty
  · rw [reads] at unread
    cases unread

/-- The instant of a timestamp is read, rounded down. -/
theorem createdAt_text (correct : Correct fromIsoFormat) (stamp : Timestamp) (now : Time) :
    createdAt fromIsoFormat (some stamp.text) now = ⌊stamp.denoted⌋ := by
  obtain ⟨parsed, reads, instant⟩ := exists_parsed correct stamp
  unfold createdAt
  dsimp only
  rw [if_neg (text_ne_empty stamp), reads]
  exact instant

/-! ## Finding by age -/

/-- A container or a network of a listing, with the text of its `Created` attribute. -/
structure Listed where
  id : DockerId
  label : Option String
  created : Option String

/-- `find_labelled`, from two listings and the instant `now`. `again` says what the clock
shows when it is read once more for a resource that counts as brand new. -/
def findLabelled
    (fromIsoFormat : String → Option DateTime)
    (now : Time)
    (again : Resource → Time)
    (minAgeSeconds : Int)
    (containers networks : List Listed) : List (String × DockerManager.LabelledResources) :=
  let cutoff := now - seconds minAgeSeconds
  let found := containers.foldl (fun found container =>
    DockerManager.group container.label
      (createdAt fromIsoFormat container.created (again (.container container.id))) cutoff
      (fun resources =>
        { resources with containerIds := resources.containerIds ++ [container.id] })
      found) []
  networks.foldl (fun found network =>
    DockerManager.group network.label
      (createdAt fromIsoFormat network.created (again (.network network.id))) cutoff
      (fun resources =>
        { resources with networkIds := resources.networkIds ++ [network.id] })
      found) found

/-- The result has the resource in the entry of this label. -/
def Includes (found : List (String × DockerManager.LabelledResources)) (label : String)
    (resource : Resource) : Prop :=
  ∃ entry ∈ found, entry.1 = label ∧ resource ∈ entry.2.resources

/-- A listing has the resource with this label and this `Created` attribute. -/
def Lists (containers networks : List Listed) (label : String) (created : Option String) :
    Resource → Prop
  | .container id => ⟨id, some label, created⟩ ∈ containers
  | .network id => ⟨id, some label, created⟩ ∈ networks

section Finding

variable {now : Time} {again : Resource → Time} {minAgeSeconds : Int}
  {containers networks : List Listed} {label : String} {resource : Resource}

/-- The row of a container whose age has been read. -/
def containerRow (fromIsoFormat : String → Option DateTime) (again : Resource → Time)
    (container : Listed) : Container where
  id := container.id
  name := ""
  envLabel := container.label
  roleLabel := none
  network := none
  created := createdAt fromIsoFormat container.created (again (.container container.id))

/-- The row of a network whose age has been read. -/
def networkRow (fromIsoFormat : String → Option DateTime) (again : Resource → Time)
    (network : Listed) : Network where
  id := network.id
  name := ""
  envLabel := network.label
  created := createdAt fromIsoFormat network.created (again (.network network.id))

/-- Once ages are read, the listings are grouped as those of the daemon. -/
theorem findLabelled_eq_grouped :
    findLabelled fromIsoFormat now again minAgeSeconds containers networks =
      DockerManager.grouped (now - seconds minAgeSeconds)
        (containers.map (containerRow fromIsoFormat again))
        (networks.map (networkRow fromIsoFormat again)) := by
  unfold findLabelled DockerManager.grouped
  rw [List.foldl_map, List.foldl_map]
  rfl

/-- A reported item is listed with its label and old enough. -/
theorem listed_of_reported {items : List Listed} {item : Listed} {shown : Resource}
    {cutoff : Time} (listed : item ∈ items)
    (reported : Discovery.reported cutoff item.label
      (createdAt fromIsoFormat item.created (again shown)) shown = some (label, resource)) :
    label ≠ "" ∧ shown = resource ∧ ⟨item.id, some label, item.created⟩ ∈ items ∧
      createdAt fromIsoFormat item.created (again resource) ≤ cutoff := by
  obtain ⟨named, filled, old, rfl⟩ := Discovery.reported_eq_some.mp reported
  have same : item = ⟨item.id, some label, item.created⟩ := by
    rw [← named]
  exact ⟨filled, rfl, same ▸ listed, old⟩

/-- A resource is included exactly if it is listed with the label and old enough. -/
theorem includes_iff :
    Includes (findLabelled fromIsoFormat now again minAgeSeconds containers networks) label
        resource ↔
      label ≠ "" ∧ ∃ created, Lists containers networks label created resource ∧
        createdAt fromIsoFormat created (again resource) ≤ now - seconds minAgeSeconds := by
  have groups := Discovery.groups_grouped (now - seconds minAgeSeconds)
    (containers.map (containerRow fromIsoFormat again))
    (networks.map (networkRow fromIsoFormat again))
  rw [← findLabelled_eq_grouped] at groups
  have paired : Includes (findLabelled fromIsoFormat now again minAgeSeconds containers
      networks) label resource ↔ (label, resource) ∈ Discovery.pairs
        (findLabelled fromIsoFormat now again minAgeSeconds containers networks) := by
    constructor
    · rintro ⟨entry, present, rfl, member⟩
      exact Discovery.mem_pairs present member
    · intro member
      obtain ⟨entry, present, pair⟩ := List.mem_flatMap.mp member
      obtain ⟨other, inside, same⟩ := List.mem_map.mp pair
      cases same
      exact ⟨entry, present, rfl, inside⟩
  rw [paired, groups.pairs.mem_iff, List.mem_append, List.mem_filterMap, List.mem_filterMap]
  constructor
  · rintro (⟨row, present, shown⟩ | ⟨row, present, shown⟩)
    · obtain ⟨item, listed, rfl⟩ := List.mem_map.mp present
      obtain ⟨filled, rfl, listed, old⟩ := listed_of_reported listed shown
      exact ⟨filled, item.created, listed, old⟩
    · obtain ⟨item, listed, rfl⟩ := List.mem_map.mp present
      obtain ⟨filled, rfl, listed, old⟩ := listed_of_reported listed shown
      exact ⟨filled, item.created, listed, old⟩
  · rintro ⟨filled, created, listed, old⟩
    cases resource with
    | container id =>
        exact .inl ⟨_, List.mem_map_of_mem listed,
          Discovery.reported_eq_some.mpr ⟨rfl, filled, old, rfl⟩⟩
    | network id =>
        exact .inr ⟨_, List.mem_map_of_mem listed,
          Discovery.reported_eq_some.mpr ⟨rfl, filled, old, rfl⟩⟩

/-- What Docker reports of a row that it created at this instant. -/
structure Reports (id : DockerId) (label : Option String) (created : Time) (item : Listed) :
    Prop where
  id : item.id = id
  label : item.label = label
  created : ∃ stamp : Timestamp, item.created = some stamp.text ∧ ⌊stamp.denoted⌋ = created

/-- `find_labelled` over the texts that Docker reports is `find_labelled` over its rows. -/
theorem findLabelled_of_reports (correct : Correct fromIsoFormat) {rows : List Container}
    {others : List Network}
    (container : List.Forall₂ (fun row => Reports row.id row.envLabel row.created) rows
      containers)
    (network : List.Forall₂ (fun row => Reports row.id row.envLabel row.created) others
      networks) :
    findLabelled fromIsoFormat now again minAgeSeconds containers networks =
      DockerManager.grouped (now - seconds minAgeSeconds) rows others := by
  have age {id : DockerId} {label : Option String} {created : Time} {item : Listed}
      (reports : Reports id label created item) (now : Time) :
      createdAt fromIsoFormat item.created now = created := by
    obtain ⟨stamp, text, instant⟩ := reports.created
    rw [text, createdAt_text correct, instant]
  unfold findLabelled DockerManager.grouped
  refine (List.rel_foldl (P := Eq) ?_ (List.rel_foldl (P := Eq) ?_ rfl container) network).symm
  · rintro found _ rfl row item reports
    dsimp only
    rw [reports.id, reports.label, age reports]
  · rintro found _ rfl row item reports
    dsimp only
    rw [reports.id, reports.label, age reports]

end Finding

/-- The number that decimal digits denote. -/
def number (text : List Char) : Nat :=
  text.foldl (fun value char => 10 * value + (char.toNat - 48)) 0

/-- The number in `count` digits from a position on. -/
def field (start count : Nat) (text : List Char) : Nat :=
  number ((text.drop start).take count)

/-- A reader for timestamps with a numeric zone, which looks at fixed positions. -/
def readIso (text : String) : Option DateTime :=
  let chars := text.toList
  let body := chars.take (chars.length - 6)
  let zone := chars.drop (chars.length - 6)
  let digits := body.drop 20
  if zone.head? = some '+' ∨ zone.head? = some '-' then
    some
      { wall := (daysSinceEpoch (field 0 4 body) (field 5 2 body) (field 8 2 body) * 86400 +
          ((field 11 2 body * 60 + field 14 2 body) * 60 + field 17 2 body : Nat)) * 1000000 +
          (number digits * 10 ^ (6 - digits.length) : Nat)
        utcOffset := some ((if zone.head? = some '-' then -1 else 1) *
          (field 1 2 zone * 60 + field 4 2 zone) * 60 * 1000000) }
  else none

theorem toNat_digit (value : Fin 10) : (digit value).toNat - 48 = value := by
  revert value
  decide

theorem number_two {value : Nat} (small : value < 100) : number (two value) = value := by
  simp only [number, two, List.foldl_cons, List.foldl_nil, toNat_digit, Fin.val_ofNat]
  omega

theorem number_four {value : Nat} (small : value < 10000) : number (four value) = value := by
  simp only [number, four, two, List.cons_append, List.nil_append, List.foldl_cons,
    List.foldl_nil, toNat_digit, Fin.val_ofNat]
  omega

/-- Reading the digits of a fraction as a number shifts the point behind them. -/
theorem number_digits (digits : List (Fin 10)) :
    (number (digits.map digit) : ℚ) = fractionValue digits * 10 ^ digits.length := by
  have shift : ∀ value : Nat,
      (((digits.map digit).foldl (fun value char => 10 * value + (char.toNat - 48)) value : ℕ) :
        ℚ) = (value + fractionValue digits) * 10 ^ digits.length := by
    induction digits with
    | nil => simp [fractionValue]
    | cons head digits inductionHypothesis =>
        intro value
        rw [List.map_cons, List.foldl_cons, inductionHypothesis, toNat_digit, fractionValue,
          List.length_cons]
        push_cast
        ring
  have all := shift 0
  rwa [Nat.cast_zero, zero_add] at all

theorem drop_body (stamp : Timestamp) :
    (stamp.front ++ fractionText stamp.fraction).drop 20 = stamp.fraction.map digit := by
  cases same : stamp.fraction with
  | nil => rfl
  | cons value values => rfl

/-- The fields of a timestamp are read back from its text. -/
theorem wallSeconds_of_front (stamp : Timestamp) (rest : List Char) :
    daysSinceEpoch (field 0 4 (stamp.front ++ rest)) (field 5 2 (stamp.front ++ rest))
        (field 8 2 (stamp.front ++ rest)) * 86400 +
      ((field 11 2 (stamp.front ++ rest) * 60 + field 14 2 (stamp.front ++ rest)) * 60 +
        field 17 2 (stamp.front ++ rest) : Nat) = stamp.wallSeconds := by
  have year : field 0 4 (stamp.front ++ rest) = stamp.year :=
    number_four (Nat.lt_succ_of_le stamp.yearRange.2)
  have month : field 5 2 (stamp.front ++ rest) = stamp.month :=
    number_two (stamp.monthRange.2.trans_lt (by decide))
  have day : field 8 2 (stamp.front ++ rest) = stamp.day := by
    refine number_two (stamp.dayRange.2.trans_lt ?_)
    unfold daysInMonth
    split
    · split <;> decide
    · decide
    · decide
    · decide
    · decide
    · decide
  have hour : field 11 2 (stamp.front ++ rest) = stamp.hour :=
    number_two (stamp.hour.isLt.trans (by decide))
  have minute : field 14 2 (stamp.front ++ rest) = stamp.minute :=
    number_two (stamp.minute.isLt.trans (by decide))
  have second : field 17 2 (stamp.front ++ rest) = stamp.second :=
    number_two (stamp.second.isLt.trans (by decide))
  rw [year, month, day, hour, minute, second, Timestamp.wallSeconds]

theorem correct_readIso : Correct readIso := by
  intro stamp numeric short
  cases zone : stamp.zone with
  | zulu => exact absurd zone numeric
  | numeric behind hours minutes =>
      have hours' : field 1 2 (Zone.numeric behind hours minutes).text = hours :=
        number_two (hours.isLt.trans (by decide))
      have minutes' : field 4 2 (Zone.numeric behind hours minutes).text = minutes :=
        number_two (minutes.isLt.trans (by decide))
      have width : (stamp.front ++ fractionText stamp.fraction ++
          (Zone.numeric behind hours minutes).text).length - 6 =
            (stamp.front ++ fractionText stamp.fraction).length := by
        rw [List.length_append]
        rfl
      have signed : (Zone.numeric behind hours minutes).text.head? =
          some (if behind then '-' else '+') := rfl
      unfold readIso Timestamp.text
      rw [String.toList_ofList, zone]
      dsimp only
      rw [width, List.take_left, List.drop_left, drop_body, wallSeconds_of_front, hours',
        minutes', signed]
      have known : some (if behind then '-' else '+') = some '+' ∨
          some (if behind then '-' else '+') = some '-' := by
        cases behind <;> decide
      rw [if_pos known]
      refine ⟨_, rfl, ?_, ?_⟩
      · dsimp only
        rw [Zone.offset]
        cases behind <;> rfl
      · have places : (10 : ℚ) ^ stamp.fraction.length * 10 ^ (6 - stamp.fraction.length) =
            1000000 := by
          rw [← pow_add, Nat.add_sub_cancel' short]
          norm_num
        dsimp only
        push_cast
        rw [number_digits, List.length_map, mul_assoc, places, Timestamp.wall]

/-- A timestamp as Docker writes it. -/
def sample : Timestamp where
  year := 2024
  month := 2
  day := 29
  hour := 7
  minute := 8
  second := 9
  fraction := (List.finRange 10).tail
  zone := .zulu
  yearRange := by decide
  monthRange := by decide
  dayRange := by decide

end Timestamps

end Provisioner
