import Provisioner.Templates
import Provisioner.Text.Delimited

/-!
# API keys

The parser of `API_KEYS` and the check of the request header, from `api/auth.py`, with
the startup check of `api/main.py`. A string is a sequence of Unicode scalar values.
-/

namespace Provisioner

open Text

namespace Auth

/-- `API_KEY_HEADER` -/
def apiKeyHeader : String := "X-API-Key"

/-- `MIN_KEY_LENGTH` -/
def minKeyLength : Nat := 16

/-- `str.isspace` of one character. -/
def isSpace (char : Char) : Bool :=
  let code := char.toNat
  (9 ≤ code && code ≤ 13) || (28 ≤ code && code ≤ 32) || code = 0x85 || code = 0xa0 ||
    code = 0x1680 || (0x2000 ≤ code && code ≤ 0x200a) || code = 0x2028 || code = 0x2029 ||
    code = 0x202f || code = 0x205f || code = 0x3000

/-- The error for an entry without a key or a principal. -/
def malformedEntry (hasColon : Bool) : Exn :=
  ⟨.valueError, "API_KEYS entries must be 'key:principal'. Got an entry with " ++
    (if hasColon then "no principal" else "no colon") ++ "."⟩

/-- The error for a key that is too short. -/
def shortKey (key principal : List Char) : Exn :=
  ⟨.valueError, "API key for principal '" ++ .ofList principal ++ "' is " ++
    toString key.length ++ " characters; minimum is " ++ toString minKeyLength ++ "."⟩

/-- The error for a key that maps to two principals. -/
def duplicateKey (earlier : String) (principal : List Char) : Exn :=
  ⟨.valueError, "Duplicate API key maps to both '" ++ earlier ++ "' and '" ++
    .ofList principal ++ "'."⟩

/-- The loop of `_parse` over the comma-separated pairs. -/
def parsePairs :
    List (List Char) → List (String × String) → Except Exn (List (String × String))
  | [], keys => .ok keys
  | pair :: pairs, keys =>
      let pair := strip isSpace pair
      if pair = [] then parsePairs pairs keys
      else
        let (key, rest) := partition ':' pair
        let principal := strip isSpace (rest.getD [])
        if rest.isNone ∨ key = [] ∨ principal = [] then .error (malformedEntry rest.isSome)
        else if key.length < minKeyLength then .error (shortKey key principal)
        else
          match keys.lookup (.ofList key) with
          | some earlier => .error (duplicateKey earlier principal)
          | none => parsePairs pairs (keys ++ [(.ofList key, .ofList principal)])

/-- `_parse`; a dictionary is the list of its items in the order of insertion. -/
def parse (raw : String) : Except Exn (List (String × String)) :=
  parsePairs (raw.toList.splitOn ',') []

/-- `_principal_for`: every entry is compared, and the last match counts. -/
def principalFor (candidate : String) (keys : List (String × String)) : Option String :=
  keys.foldl (fun found entry =>
    if entry.1.toUTF8.data = candidate.toUTF8.data then some entry.2 else found) none

/-- The refusal of a request when no keys are configured. -/
def notConfigured : Exn :=
  ⟨.http 503, "API key authentication is not configured."⟩

/-- The refusal of a missing or wrong key. -/
def unauthorized : Exn :=
  ⟨.http 401, "Missing or invalid " ++ apiKeyHeader ++ " header."⟩

/-- `require_principal`, for this value of `settings.api_keys`. -/
def requirePrincipal (raw : String) (key : Option String) : Except Exn String :=
  match parse raw with
  | .error exc => .error exc
  | .ok keys =>
      if keys = [] then .error notConfigured
      else
        match key.bind fun key => if key = "" then none else principalFor key keys with
        | none => .error unauthorized
        | some principal => .ok principal

/-- `lifespan`, up to the point where the service starts: the number of principals. -/
def lifespan (raw : String) : Except Exn Nat :=
  match parse raw with
  | .error exc => .error exc
  | .ok keys =>
      if keys = [] then .error ⟨.runtimeError,
        "API_KEYS is empty. Set it to one or more 'key:principal' pairs before starting " ++
          "the API; see env.example."⟩
      else .ok (keys.map Prod.snd).eraseDups.length

/-! ## The grammar -/

/-- An entry: a key, and a principal if there is a colon. -/
structure Credential where
  key : String
  principal : Option String
  deriving DecidableEq

/-- What an entry says. -/
def credential (segment : List Char) : Credential where
  key := .ofList (partition ':' segment).1
  principal := (partition ':' segment).2.map fun rest => .ofList (strip isSpace rest)

/-- The segments that are not blank, without the whitespace around them. -/
def segments (pairs : List (List Char)) : List (List Char) :=
  (pairs.map (strip isSpace)).filter (· ≠ [])

/-- The entries of a configuration. -/
def entries (raw : String) : List Credential :=
  (segments (raw.toList.splitOn ',')).map credential

/-- The entry has no colon, an empty key or principal, or a key that is too short. -/
def Credential.Malformed (entry : Credential) : Prop :=
  entry.principal = none ∨ entry.key = "" ∨ entry.principal = some "" ∨
    entry.key.length < minKeyLength

instance (entry : Credential) : Decidable entry.Malformed :=
  inferInstanceAs (Decidable (_ ∨ _ ∨ _ ∨ _))

/-- The item of the dictionary that an entry stands for. -/
def Credential.item (entry : Credential) : Option (String × String) :=
  entry.principal.map fun principal => (entry.key, principal)

variable {raw : String} {pair : List Char} {pairs : List (List Char)}
  {keys result : List (String × String)}

/-- A blank segment is no entry. -/
theorem segments_blank (blank : strip isSpace pair = []) :
    segments (pair :: pairs) = segments pairs := by
  unfold segments
  rw [List.map_cons, List.filter_cons_of_neg]
  simpa using blank

/-- Any other segment is one. -/
theorem segments_entry (present : strip isSpace pair ≠ []) :
    segments (pair :: pairs) = strip isSpace pair :: segments pairs := by
  unfold segments
  rw [List.map_cons, List.filter_cons_of_pos]
  simpa using present

theorem parsePairs_blank (blank : strip isSpace pair = []) :
    parsePairs (pair :: pairs) keys = parsePairs pairs keys := by
  rw [parsePairs]
  exact if_pos blank

/-- A malformed entry is refused. -/
theorem parsePairs_malformed (present : strip isSpace pair ≠ [])
    (malformed : (credential (strip isSpace pair)).Malformed) :
    ∃ exc, parsePairs (pair :: pairs) keys = .error exc ∧ exc.cls = .valueError := by
  rw [parsePairs, if_neg present]
  unfold Credential.Malformed credential at malformed
  dsimp only at malformed ⊢
  generalize partition ':' (strip isSpace pair) = parts at malformed
  obtain ⟨key, rest⟩ := parts
  dsimp only at malformed ⊢
  split
  · exact ⟨_, rfl, rfl⟩
  · rename_i whole
    push Not at whole
    obtain ⟨colon, named, owned⟩ := whole
    split
    · exact ⟨_, rfl, rfl⟩
    · rename_i long
      cases rest with
      | none => exact (colon rfl).elim
      | some rest =>
          rcases malformed with none | empty | empty | short
          · cases none
          · exact (named (String.ofList_eq_empty_iff.mp empty)).elim
          · exact (owned (String.ofList_eq_empty_iff.mp (Option.some.inj empty))).elim
          · rw [String.length_ofList] at short
            exact (long short).elim

/-- A well-formed entry is added unless its key is there already. -/
theorem parsePairs_entry (present : strip isSpace pair ≠ [])
    (wellFormed : ¬(credential (strip isSpace pair)).Malformed) :
    ∃ principal, credential (strip isSpace pair) =
        ⟨(credential (strip isSpace pair)).key, some principal⟩ ∧
      if (credential (strip isSpace pair)).key ∈ keys.map Prod.fst then
        ∃ exc, parsePairs (pair :: pairs) keys = .error exc ∧ exc.cls = .valueError
      else parsePairs (pair :: pairs) keys =
        parsePairs pairs (keys ++ [((credential (strip isSpace pair)).key, principal)]) := by
  rw [parsePairs, if_neg present]
  unfold Credential.Malformed credential at wellFormed
  unfold credential
  dsimp only at wellFormed ⊢
  generalize partition ':' (strip isSpace pair) = parts at wellFormed
  obtain ⟨key, rest⟩ := parts
  dsimp only at wellFormed ⊢
  push Not at wellFormed
  obtain ⟨colon, named, owned, long⟩ := wellFormed
  cases rest with
  | none => exact (colon rfl).elim
  | some rest =>
      refine ⟨_, rfl, ?_⟩
      have whole : ¬(((some rest).isNone = true) ∨ key = [] ∨
          strip isSpace ((some rest).getD []) = []) := by
        rintro (none | empty | empty)
        · cases none
        · exact named (String.ofList_eq_empty_iff.mpr empty)
        · exact owned (congrArg some (String.ofList_eq_empty_iff.mpr empty))
      have enough : ¬key.length < minKeyLength := by
        rw [String.length_ofList] at long
        exact Nat.not_lt.mpr long
      rw [if_neg whole, if_neg enough]
      cases found : keys.lookup (.ofList key) with
      | none =>
          have absent : ¬(.ofList key : String) ∈ keys.map Prod.fst := by
            intro member
            obtain ⟨⟨other, principal⟩, item, rfl⟩ := List.mem_map.mp member
            have differs := List.lookup_eq_none_iff.mp found _ item
            rw [bne_self_eq_false] at differs
            cases differs
          rw [if_neg absent]
          rfl
      | some earlier =>
          have member : (.ofList key : String) ∈ keys.map Prod.fst := by
            obtain ⟨before, after, rfl, -⟩ := List.lookup_eq_some_iff.mp found
            simp
          rw [if_pos member]
          exact ⟨_, rfl, rfl⟩

/-- The parser only raises `ValueError`. -/
theorem isValueError_of_parsePairs {exc : Exn}
    (refused : parsePairs pairs keys = .error exc) : exc.cls = .valueError := by
  induction pairs generalizing keys with
  | nil => cases refused
  | cons pair pairs inductionHypothesis =>
      by_cases blank : strip isSpace pair = []
      · rw [parsePairs_blank blank] at refused
        exact inductionHypothesis refused
      · by_cases malformed : (credential (strip isSpace pair)).Malformed
        · obtain ⟨raised, same, cls⟩ :=
            @parsePairs_malformed pair pairs keys blank malformed
          rw [same] at refused
          cases refused
          exact cls
        · obtain ⟨principal, -, step⟩ :=
            @parsePairs_entry pair pairs keys blank malformed
          split at step
          · obtain ⟨raised, same, cls⟩ := step
            rw [same] at refused
            cases refused
            exact cls
          · rw [step] at refused
            exact inductionHypothesis refused

/-- The loop accepts exactly the well-formed entries with new keys, and adds their items in
order. -/
theorem parsePairs_iff (distinct : (keys.map Prod.fst).Nodup) :
    parsePairs pairs keys = .ok result ↔
      (∀ entry ∈ (segments pairs).map credential, ¬entry.Malformed) ∧
      (keys.map Prod.fst ++ ((segments pairs).map credential).map Credential.key).Nodup ∧
      result = keys ++ ((segments pairs).map credential).filterMap Credential.item := by
  induction pairs generalizing keys with
  | nil =>
      have none : segments [] = [] := rfl
      rw [none]
      constructor
      · intro accepted
        cases accepted
        refine ⟨fun entry member => ?_, ?_, ?_⟩
        · cases member
        · rw [List.map_nil, List.map_nil, List.append_nil]
          exact distinct
        · rw [List.map_nil, List.filterMap_nil, List.append_nil]
      · rintro ⟨-, -, rfl⟩
        rw [List.map_nil, List.filterMap_nil, List.append_nil]
        rfl
  | cons pair pairs inductionHypothesis =>
      by_cases blank : strip isSpace pair = []
      · rw [parsePairs_blank blank, segments_blank blank]
        exact inductionHypothesis distinct
      · rw [segments_entry blank, List.map_cons]
        by_cases malformed : (credential (strip isSpace pair)).Malformed
        · obtain ⟨raised, same, -⟩ :=
            @parsePairs_malformed pair pairs keys blank malformed
          rw [same]
          constructor
          · intro accepted
            cases accepted
          · rintro ⟨wellFormed, -, -⟩
            exact (wellFormed _ List.mem_cons_self malformed).elim
        · obtain ⟨principal, reads, step⟩ :=
            @parsePairs_entry pair pairs keys blank malformed
          generalize credential (strip isSpace pair) = entry at *
          have item : entry.item = some (entry.key, principal) := by
            rw [reads]
            rfl
          rw [List.map_cons, List.filterMap_cons_some item]
          split at step
          · rename_i taken
            obtain ⟨raised, same, -⟩ := step
            rw [same]
            constructor
            · intro accepted
              cases accepted
            · rintro ⟨-, fresh, -⟩
              exact (List.disjoint_of_nodup_append fresh taken List.mem_cons_self).elim
          · rename_i free
            have longer : ((keys ++ [(entry.key, principal)]).map Prod.fst).Nodup := by
              rw [List.map_append]
              refine distinct.append (List.nodup_singleton _) fun key member single => ?_
              cases List.mem_singleton.mp single
              exact free member
            rw [step, inductionHypothesis longer, List.map_append, List.append_assoc,
              List.append_assoc]
            refine and_congr ?_ Iff.rfl
            constructor
            · rintro wellFormed other member
              rcases List.mem_cons.mp member with rfl | later
              · exact malformed
              · exact wellFormed other later
            · exact fun wellFormed other later => wellFormed other (List.mem_cons_of_mem _ later)

/-- What the parser accepts. -/
theorem parse_iff : parse raw = .ok keys ↔
    (∀ entry ∈ entries raw, ¬entry.Malformed) ∧
      ((entries raw).map Credential.key).Nodup ∧
      keys = (entries raw).filterMap Credential.item :=
  parsePairs_iff List.nodup_nil

/-- The items of a dictionary are the entries that have a principal. -/
theorem mem_items {entries : List Credential} {key principal : String} :
    (key, principal) ∈ entries.filterMap Credential.item ↔
      ⟨key, some principal⟩ ∈ entries := by
  rw [List.mem_filterMap]
  constructor
  · rintro ⟨⟨other, found⟩, member, item⟩
    cases found with
    | none => cases item
    | some found =>
        cases item
        exact member
  · exact fun member => ⟨_, member, rfl⟩

/-- Comparing the encodings compares the strings. -/
theorem toUTF8_data_inj {left right : String} :
    left.toUTF8.data = right.toUTF8.data ↔ left = right :=
  ByteArray.ext_iff.symm.trans String.toByteArray_inj

/-- The scan returns the last match, or what it started with. -/
theorem foldl_match {candidate principal : String} (distinct : (keys.map Prod.fst).Nodup)
    (found : Option String) :
    keys.foldl (fun found entry =>
        if entry.1.toUTF8.data = candidate.toUTF8.data then some entry.2 else found) found =
        some principal ↔
      (candidate, principal) ∈ keys ∨
        (candidate ∉ keys.map Prod.fst ∧ found = some principal) := by
  induction keys generalizing found with
  | nil => simp
  | cons entry keys inductionHypothesis =>
      obtain ⟨key, owner⟩ := entry
      rw [List.map_cons, List.nodup_cons] at distinct
      obtain ⟨new, distinct⟩ := distinct
      rw [List.foldl_cons, inductionHypothesis distinct, List.mem_cons, List.map_cons,
        List.mem_cons]
      dsimp only
      by_cases same : key = candidate
      · subst same
        rw [if_pos rfl]
        have absent : (key, principal) ∉ keys := fun member =>
          new (List.mem_map.mpr ⟨_, member, rfl⟩)
        have swap : some owner = some principal ↔ (key, principal) = (key, owner) := by
          rw [Option.some.injEq, Prod.mk.injEq]
          exact ⟨fun same => ⟨rfl, same.symm⟩, fun same => same.2.symm⟩
        rw [swap]
        tauto
      · rw [if_neg (mt toUTF8_data_inj.mp same)]
        have other : (candidate, principal) ≠ (key, owner) := fun equal =>
          same (Prod.mk.inj equal).1.symm
        have different : candidate ≠ key := fun equal => same equal.symm
        tauto

/-- The scan finds the principal of a key. -/
theorem principalFor_iff {candidate principal : String} (distinct : (keys.map Prod.fst).Nodup) :
    principalFor candidate keys = some principal ↔ (candidate, principal) ∈ keys := by
  unfold principalFor
  rw [foldl_match distinct]
  simp

/-- The keys of the items are the keys of the entries. -/
theorem keys_of_items {entries : List Credential}
    (wellFormed : ∀ entry ∈ entries, ¬entry.Malformed) :
    (entries.filterMap Credential.item).map Prod.fst = entries.map Credential.key := by
  induction entries with
  | nil => rfl
  | cons entry entries inductionHypothesis =>
      obtain ⟨key, principal⟩ := entry
      cases principal with
      | none => exact (wellFormed _ List.mem_cons_self (.inl rfl)).elim
      | some principal =>
          have rest := inductionHypothesis fun entry member =>
            wellFormed entry (List.mem_cons_of_mem _ member)
          exact congrArg (key :: ·) rest

/-- How a request is decided when the configuration is accepted. -/
inductive Decides (entries : List Credential) (header : Option String) :
    Except Exn String → Prop
  | unconfigured : entries = [] → Decides entries header (.error notConfigured)
  | granted (key principal : String) :
      header = some key → ⟨key, some principal⟩ ∈ entries →
      Decides entries header (.ok principal)
  | refused :
      entries ≠ [] → (∀ key ∈ header, ∀ entry ∈ entries, entry.key ≠ key) →
      Decides entries header (.error unauthorized)

/-- Every request is decided by the entries. -/
theorem decides_of_parse (accepted : parse raw = .ok keys) (header : Option String) :
    Decides (entries raw) header (requirePrincipal raw header) := by
  obtain ⟨wellFormed, distinct, items⟩ := parse_iff.mp accepted
  have same := keys_of_items wellFormed
  rw [← items] at same
  rw [← same] at distinct
  unfold requirePrincipal
  rw [accepted]
  dsimp only
  split
  · rename_i none
    refine .unconfigured ?_
    rw [none, List.map_nil] at same
    exact List.map_eq_nil_iff.mp same.symm
  · rename_i some
    have present : entries raw ≠ [] := by
      intro none
      rw [none] at items
      exact some items
    cases header with
    | none =>
        refine .refused present fun key member => ?_
        cases member
    | some header =>
        dsimp only [Option.bind_some]
        by_cases empty : header = ""
        · rw [if_pos empty]
          refine .refused present fun key member entry configured matched => ?_
          cases member
          exact wellFormed entry configured (.inr (.inl (matched.trans empty)))
        · rw [if_neg empty]
          cases found : principalFor header keys with
          | none =>
              refine .refused present fun key member entry configured matched => ?_
              cases member
              obtain ⟨key, principal⟩ := entry
              cases matched
              cases principal with
              | none => exact wellFormed _ configured (.inl rfl)
              | some principal =>
                  have item := mem_items.mpr configured
                  rw [← items] at item
                  rw [(principalFor_iff distinct).mpr item] at found
                  cases found
          | some principal =>
              have item := (principalFor_iff distinct).mp found
              rw [items] at item
              exact .granted header principal rfl (mem_items.mp item)

/-- The entries leave no choice. -/
theorem Decides.unique {entries : List Credential} {header : Option String}
    {first second : Except Exn String}
    (distinct : (entries.map Credential.key).Nodup)
    (decides : Decides entries header first) (decides' : Decides entries header second) :
    first = second := by
  cases decides with
  | unconfigured none =>
      cases decides' with
      | unconfigured => rfl
      | granted key principal _ member =>
          rw [none] at member
          cases member
      | refused present => exact (present none).elim
  | granted key principal shown member =>
      cases decides' with
      | unconfigured none =>
          rw [none] at member
          cases member
      | granted key' principal' shown' member' =>
          rw [shown] at shown'
          cases shown'
          have same := List.inj_on_of_nodup_map distinct member member' rfl
          cases same
          rfl
      | refused _ unknown => exact (unknown key shown _ member rfl).elim
  | refused present unknown =>
      cases decides' with
      | unconfigured none => exact (present none).elim
      | granted key principal shown member => exact (unknown key shown _ member rfl).elim
      | refused => rfl

/-- A request is decided in the same way whatever the order of the entries. -/
theorem Decides.perm {entries others : List Credential} {header : Option String}
    {result : Except Exn String}
    (decides : Decides entries header result) (perm : entries.Perm others) :
    Decides others header result := by
  cases decides with
  | unconfigured none =>
      rw [none] at perm
      exact .unconfigured perm.nil_eq.symm
  | granted key principal shown member =>
      exact .granted key principal shown (perm.mem_iff.mp member)
  | refused present unknown =>
      refine .refused (fun none => ?_) fun key shown entry member => ?_
      · rw [none] at perm
        exact present perm.eq_nil
      · exact unknown key shown entry (perm.mem_iff.mpr member)

/-! ## What is accepted -/

/-- The parser refuses exactly the malformed entries and the repeated keys. -/
theorem parse_error_iff : (∃ exc, parse raw = .error exc) ↔
    (∃ entry ∈ entries raw, entry.Malformed) ∨
      ¬((entries raw).map Credential.key).Nodup := by
  constructor
  · rintro ⟨exc, refused⟩
    by_contra fine
    push Not at fine
    have accepted := parse_iff.mpr ⟨fine.1, fine.2, rfl⟩
    rw [accepted] at refused
    cases refused
  · intro bad
    cases same : parse raw with
    | error exc => exact ⟨exc, rfl⟩
    | ok keys =>
        obtain ⟨wellFormed, distinct, -⟩ := parse_iff.mp same
        rcases bad with ⟨entry, member, malformed⟩ | repeated
        · exact (wellFormed entry member malformed).elim
        · exact (repeated distinct).elim

/-- A request gets the answer that the entries give it. -/
theorem requirePrincipal_of_decides {header : Option String} {answer : Except Exn String}
    (accepted : parse raw = .ok keys) (decides : Decides (entries raw) header answer) :
    requirePrincipal raw header = answer := by
  obtain ⟨-, distinct, -⟩ := parse_iff.mp accepted
  exact (decides_of_parse accepted header).unique distinct decides

/-- A key is granted the principal of its entry. -/
theorem granted_iff {header principal : String} (accepted : parse raw = .ok keys) :
    requirePrincipal raw (some header) = .ok principal ↔
      ⟨header, some principal⟩ ∈ entries raw := by
  constructor
  · intro granted
    have decides := decides_of_parse accepted (some header)
    rw [granted] at decides
    cases decides with
    | granted key _ shown member =>
        cases shown
        exact member
  · intro member
    exact requirePrincipal_of_decides accepted (.granted header principal rfl member)

/-- Requests fail with 503 exactly if there are no entries. -/
theorem unconfigured_iff {header : Option String} (accepted : parse raw = .ok keys) :
    (∃ exc, requirePrincipal raw header = .error exc ∧ exc.cls = .http 503) ↔
      entries raw = [] := by
  constructor
  · rintro ⟨exc, refused, status⟩
    have decides := decides_of_parse accepted header
    rw [refused] at decides
    cases decides with
    | unconfigured none => exact none
    | refused => cases status
  · intro none
    exact ⟨notConfigured, requirePrincipal_of_decides accepted (.unconfigured none), rfl⟩

section Order

variable {other : String}

/-- Whether a configuration is accepted does not depend on the order of its entries. -/
theorem parse_error_perm (perm : (entries other).Perm (entries raw)) :
    (∃ exc, parse other = .error exc) ↔ ∃ exc, parse raw = .error exc := by
  rw [parse_error_iff, parse_error_iff, (perm.map Credential.key).nodup_iff]
  refine or_congr ?_ Iff.rfl
  exact exists_congr fun entry => and_congr_left fun _ => perm.mem_iff

/-- Nor does the answer to a request. -/
theorem requirePrincipal_perm (accepted : parse raw = .ok keys)
    (perm : (entries other).Perm (entries raw)) (header : Option String) :
    requirePrincipal other header = requirePrincipal raw header := by
  obtain ⟨wellFormed, distinct, -⟩ := parse_iff.mp accepted
  have accepted' := parse_iff.mpr ⟨fun entry member => wellFormed entry (perm.mem_iff.mp member),
    (perm.map Credential.key).nodup_iff.mpr distinct, rfl⟩
  exact requirePrincipal_of_decides accepted'
    ((decides_of_parse accepted header).perm perm.symm)

end Order

end Auth

end Provisioner
