import Provisioner.Auth

/-!
# Whitespace in a configuration of keys

The parser strips the segments and the principals, but not the keys: whitespace between a
key and its colon becomes a part of the key. A configuration that is written out with
whitespace anywhere else is read back exactly.
-/

namespace Provisioner

open Text

namespace Auth

/-- Whitespace between two parts of a configuration. -/
structure Space where
  text : List Char
  blank : Blank isSpace text

/-- A key and the principal that it is for. -/
structure Grant where
  key : String
  principal : String
  long : minKeyLength ≤ key.length
  plain : ∀ char ∈ key.toList, char ≠ ',' ∧ char ≠ ':' ∧ isSpace char = false
  named : principal ≠ ""
  trimmed : Trimmed isSpace principal.toList
  whole : ',' ∉ principal.toList

/-- What stands between two commas: nothing but whitespace, or a grant with whitespace at
four places. -/
inductive Piece
  | blank (space : Space)
  | grant (grant : Grant) (before beforeColon afterColon after : Space)

namespace Piece

/-- A piece as it is written. -/
def text : Piece → List Char
  | .blank space => space.text
  | .grant item before beforeColon afterColon after =>
      before.text ++ (item.key.toList ++ beforeColon.text ++
        ':' :: (afterColon.text ++ item.principal.toList)) ++ after.text

/-- The grant of a piece. -/
def granted : Piece → Option Grant
  | .blank _ => none
  | .grant item _ _ _ _ => some item

/-- No whitespace stands between the key and the colon. -/
def Close : Piece → Prop
  | .blank _ => True
  | .grant _ _ beforeColon _ _ => beforeColon.text = []

/-- What the parser makes of a piece. -/
def entry : Piece → Option Credential
  | .blank _ => none
  | .grant item _ beforeColon _ _ =>
      some ⟨.ofList (item.key.toList ++ beforeColon.text), some item.principal⟩

end Piece

/-- A configuration as it is written. -/
def render (pieces : List Piece) : String :=
  .ofList ([','].intercalate (pieces.map Piece.text))

/-- The dictionary that a configuration stands for. -/
def grants (pieces : List Piece) : List (String × String) :=
  (pieces.filterMap Piece.granted).map fun grant => (grant.key, grant.principal)

/-- No key is padded, padding does not count towards the length, and keys that differ in
padding only do not occur. -/
structure Unpadded (keys : List (String × String)) : Prop where
  trimmed : ∀ item ∈ keys, Trimmed isSpace item.1.toList
  long : ∀ item ∈ keys, minKeyLength ≤ (strip isSpace item.1.toList).length
  distinct : (keys.map fun item => strip isSpace item.1.toList).Nodup

/-- The text before the first colon does not end with whitespace. -/
def CloseKey (segment : List Char) : Prop :=
  ∀ char ∈ (partition ':' segment).1.getLast?, isSpace char = false

variable {raw : String} {keys : List (String × String)}

theorem Space.not_comma (space : Space) : ',' ∉ space.text := by
  intro member
  have blank := space.blank _ member
  revert blank
  decide

theorem Space.not_colon (space : Space) : ':' ∉ space.text := by
  intro member
  have blank := space.blank _ member
  revert blank
  decide

theorem Grant.key_ne_nil (grant : Grant) : grant.key.toList ≠ [] := by
  intro none
  have long := grant.long
  rw [← String.length_toList, none] at long
  exact absurd long (by decide)

theorem Grant.principal_ne_nil (grant : Grant) : grant.principal.toList ≠ [] := by
  intro none
  exact grant.named (String.toList_eq_nil_iff.mp none)

/-- No piece has a comma. -/
theorem Piece.not_comma (piece : Piece) : ',' ∉ piece.text := by
  cases piece with
  | blank space => exact space.not_comma
  | grant grant before beforeColon afterColon after =>
      intro member
      unfold text at member
      simp only [List.mem_append, List.mem_cons] at member
      rcases member with (padding | (key | padding) | colon | padding | principal) | padding
      · exact before.not_comma padding
      · exact (grant.plain _ key).1 rfl
      · exact beforeColon.not_comma padding
      · cases colon
      · exact afterColon.not_comma padding
      · exact grant.whole principal
      · exact after.not_comma padding

/-- Without the whitespace around it, a grant begins with its key and ends with its
principal. -/
theorem strip_grant (grant : Grant) (before beforeColon afterColon after : Space) :
    strip isSpace (Piece.grant grant before beforeColon afterColon after).text =
      grant.key.toList ++ beforeColon.text ++
        ':' :: (afterColon.text ++ grant.principal.toList) := by
  refine strip_pad before.blank ⟨fun char member => ?_, fun char member => ?_⟩ after.blank
  · rw [List.append_assoc, List.head?_append_of_ne_nil _ grant.key_ne_nil] at member
    exact (grant.plain char (List.mem_of_mem_head? member)).2.2
  · rw [List.getLast?_append_of_ne_nil _ (List.cons_ne_nil _ _), List.getLast?_cons,
      List.getLast?_append_of_ne_nil _ grant.principal_ne_nil,
      List.getLast?_eq_some_getLast grant.principal_ne_nil] at member
    exact grant.trimmed.last char
      ((List.getLast?_eq_some_getLast grant.principal_ne_nil).trans member)

/-- A grant is read as its key with the whitespace before the colon, and its principal. -/
theorem credential_grant (grant : Grant) (beforeColon afterColon : Space) :
    credential (grant.key.toList ++ beforeColon.text ++
      ':' :: (afterColon.text ++ grant.principal.toList)) =
      ⟨.ofList (grant.key.toList ++ beforeColon.text), some grant.principal⟩ := by
  have absent : ':' ∉ grant.key.toList ++ beforeColon.text := by
    intro member
    rcases List.mem_append.mp member with key | padding
    · exact (grant.plain _ key).2.1 rfl
    · exact beforeColon.not_colon padding
  have owner : strip isSpace (afterColon.text ++ grant.principal.toList) =
      grant.principal.toList := by
    have none : Blank isSpace [] := fun char member => absurd member List.not_mem_nil
    have stripped := strip_pad afterColon.blank grant.trimmed none
    rw [List.append_nil] at stripped
    exact stripped
  unfold credential
  rw [partition_append absent]
  dsimp only [Option.map_some]
  rw [owner, String.ofList_toList]

/-- The entries of a list of pieces. -/
theorem segments_pieces (pieces : List Piece) :
    (segments (pieces.map Piece.text)).map credential = pieces.filterMap Piece.entry := by
  induction pieces with
  | nil => rfl
  | cons piece pieces inductionHypothesis =>
      cases piece with
      | blank space =>
          have blank : strip isSpace (Piece.blank space).text = [] :=
            strip_eq_nil_iff.mpr space.blank
          rw [List.map_cons, segments_blank blank]
          exact inductionHypothesis
      | grant grant before beforeColon afterColon after =>
          have stripped := strip_grant grant before beforeColon afterColon after
          have present : strip isSpace
              (Piece.grant grant before beforeColon afterColon after).text ≠ [] := by
            rw [stripped]
            intro none
            exact grant.key_ne_nil
              (List.append_eq_nil_iff.mp (List.append_eq_nil_iff.mp none).1).1
          rw [List.map_cons, segments_entry present, stripped, List.map_cons,
            credential_grant, inductionHypothesis]
          rfl

/-- The entries of a written configuration. -/
theorem entries_render (pieces : List Piece) :
    entries (render pieces) = pieces.filterMap Piece.entry := by
  unfold entries render
  rw [String.toList_ofList]
  by_cases empty : pieces = []
  · rw [empty]
    rfl
  · rw [List.splitOn_intercalate, segments_pieces]
    · intro text member
      obtain ⟨piece, -, rfl⟩ := List.mem_map.mp member
      exact piece.not_comma
    · exact mt List.map_eq_nil_iff.mp empty

/-- No piece is malformed. -/
theorem wellFormed_pieces (pieces : List Piece) :
    ∀ entry ∈ pieces.filterMap Piece.entry, ¬entry.Malformed := by
  intro entry member
  obtain ⟨piece, -, reads⟩ := List.mem_filterMap.mp member
  cases piece with
  | blank space => cases reads
  | grant grant before beforeColon afterColon after =>
      cases reads
      rintro (none | empty | empty | short)
      · cases none
      · have none := String.ofList_eq_empty_iff.mp empty
        exact grant.key_ne_nil (List.append_eq_nil_iff.mp none).1
      · exact grant.named (Option.some.inj empty)
      · have long := grant.long
        rw [String.length_ofList, List.length_append, String.length_toList] at short
        omega

/-- The items are the grants exactly if no key is followed by whitespace. -/
theorem items_eq_grants_iff (pieces : List Piece) :
    (pieces.filterMap Piece.entry).filterMap Credential.item = grants pieces ↔
      ∀ piece ∈ pieces, piece.Close := by
  induction pieces with
  | nil => exact ⟨fun _ piece member => absurd member List.not_mem_nil, fun _ => rfl⟩
  | cons piece pieces inductionHypothesis =>
      rw [List.forall_mem_cons, ← inductionHypothesis]
      cases piece with
      | blank space => exact ⟨fun same => ⟨trivial, same⟩, fun same => same.2⟩
      | grant grant before beforeColon afterColon after =>
          have keys : (String.ofList (grant.key.toList ++ beforeColon.text) = grant.key) ↔
              beforeColon.text = [] := by
            rw [← String.toList_inj, String.toList_ofList]
            exact List.append_right_eq_self
          change (String.ofList (grant.key.toList ++ beforeColon.text), grant.principal) ::
              (pieces.filterMap Piece.entry).filterMap Credential.item =
            (grant.key, grant.principal) :: grants pieces ↔ _
          rw [List.cons_eq_cons, Prod.mk.injEq, keys]
          exact ⟨fun same => ⟨same.1.1, same.2⟩, fun same => ⟨⟨same.1, rfl⟩, same.2⟩⟩

/-- A key whose text does not end with whitespace is trimmed. -/
theorem trimmed_iff_closeKey {segment : List Char} (trimmed : Trimmed isSpace segment) :
    Trimmed isSpace (credential segment).key.toList ↔ CloseKey segment := by
  unfold credential CloseKey
  dsimp only
  rw [String.toList_ofList]
  constructor
  · exact fun key => key.last
  · refine fun close => ⟨fun char member => ?_, close⟩
    obtain ⟨-, whole⟩ := partition_spec ':' segment
    refine trimmed.head char ?_
    rw [whole]
    cases same : (partition ':' segment).1 with
    | nil =>
        rw [same] at member
        cases member
    | cons first rest =>
        rw [same] at member
        exact member

/-- A configuration is read back exactly if no whitespace stands between a key and its
colon. -/
theorem parse_render_iff {pieces : List Piece}
    (distinct : ((grants pieces).map Prod.fst).Nodup) :
    parse (render pieces) = .ok (grants pieces) ↔ ∀ piece ∈ pieces, piece.Close := by
  rw [parse_iff, entries_render, ← items_eq_grants_iff]
  constructor
  · exact fun accepted => accepted.2.2.symm
  · intro items
    have wellFormed := wellFormed_pieces pieces
    refine ⟨wellFormed, ?_, items.symm⟩
    rw [← keys_of_items wellFormed, items]
    exact distinct

/-- The keys of an accepted configuration are trimmed exactly if no whitespace stands before
a first colon. -/
theorem trimmed_keys_iff (accepted : parse raw = .ok keys) :
    (∀ item ∈ keys, Trimmed isSpace item.1.toList) ↔
      ∀ segment ∈ segments (raw.toList.splitOn ','), CloseKey segment := by
  obtain ⟨wellFormed, -, items⟩ := parse_iff.mp accepted
  have sameKeys := keys_of_items wellFormed
  rw [← items] at sameKeys
  have keyed : (∀ item ∈ keys, Trimmed isSpace item.1.toList) ↔
      ∀ key ∈ keys.map Prod.fst, Trimmed isSpace key.toList := by
    rw [List.forall_mem_map]
  rw [keyed, sameKeys, List.forall_mem_map]
  unfold entries
  rw [List.forall_mem_map]
  refine forall₂_congr fun segment member => trimmed_iff_closeKey ?_
  obtain ⟨pair, -, rfl⟩ := List.mem_map.mp (List.mem_filter.mp member).1
  exact trimmed_strip isSpace pair

/-- Trimmed keys are long enough and distinct as they are. -/
theorem unpadded_of_trimmed (accepted : parse raw = .ok keys)
    (trimmed : ∀ item ∈ keys, Trimmed isSpace item.1.toList) : Unpadded keys := by
  obtain ⟨wellFormed, distinct, items⟩ := parse_iff.mp accepted
  have sameKeys := keys_of_items wellFormed
  rw [← items] at sameKeys
  refine ⟨trimmed, fun item member => ?_, ?_⟩
  · rw [strip_of_trimmed (trimmed item member), String.length_toList]
    have key : item.1 ∈ (entries raw).map Credential.key := by
      rw [← sameKeys]
      exact List.mem_map.mpr ⟨item, member, rfl⟩
    obtain ⟨entry, configured, same⟩ := List.mem_map.mp key
    have fine := wellFormed entry configured
    rw [← same]
    by_contra short
    exact fine (.inr (.inr (.inr (Nat.lt_of_not_le short))))
  · have same : (keys.map fun item => strip isSpace item.1.toList) =
        (keys.map Prod.fst).map String.toList := by
      rw [List.map_map]
      exact List.map_congr_left fun item member => strip_of_trimmed (trimmed item member)
    rw [same, sameKeys]
    exact distinct.map fun first second equal => String.toList_inj.mp equal

/-- A configuration is read back exactly if no whitespace stands between a key and its
colon, and then, and only then, no key is padded. -/
theorem padding_iff (pieces : List Piece) (raw : String) (keys : List (String × String)) :
    (((grants pieces).map Prod.fst).Nodup →
      (parse (render pieces) = .ok (grants pieces) ↔ ∀ piece ∈ pieces, piece.Close)) ∧
    (parse raw = .ok keys →
      (Unpadded keys ↔ ∀ segment ∈ segments (raw.toList.splitOn ','), CloseKey segment)) := by
  refine ⟨parse_render_iff, fun accepted => ?_⟩
  rw [← trimmed_keys_iff accepted]
  exact ⟨fun unpadded => unpadded.trimmed, unpadded_of_trimmed accepted⟩

/-- One space. -/
def oneSpace : Space where
  text := [' ']
  blank := by
    intro char member
    cases List.mem_singleton.mp member
    rfl

/-- No whitespace. -/
def noSpace : Space where
  text := []
  blank := fun _ member => absurd member List.not_mem_nil

/-- A key of sixteen characters for alice. -/
def aliceKey : Grant where
  key := "kkkkkkkkkkkkkkkk"
  principal := "alice"
  long := by decide
  plain := by simp [isSpace]
  named := by decide
  trimmed := ⟨by simp [isSpace], by simp [isSpace]⟩
  whole := by decide

/-- Whitespace around the commas and after the colon is removed, and blank entries do not
count. -/
theorem padding_iff_of_close :
    parse " kkkkkkkkkkkkkkkk: alice , " = .ok [("kkkkkkkkkkkkkkkk", "alice")] ∧
    Unpadded [("kkkkkkkkkkkkkkkk", "alice")] := by
  have close : ∀ piece ∈ [Piece.grant aliceKey oneSpace noSpace oneSpace oneSpace,
      .blank oneSpace], piece.Close := by
    intro piece member
    rcases List.mem_cons.mp member with rfl | member
    · rfl
    · cases List.mem_singleton.mp member
      trivial
  have reads := (padding_iff _ "" []).1 (by decide) |>.mpr close
  have text : render [Piece.grant aliceKey oneSpace noSpace oneSpace oneSpace,
      .blank oneSpace] = " kkkkkkkkkkkkkkkk: alice , " := by
    decide
  rw [text] at reads
  refine ⟨reads, ((padding_iff [] _ _).2 reads).mpr fun segment member => ?_⟩
  have only : segments (" kkkkkkkkkkkkkkkk: alice , ".toList.splitOn ',') =
      ["kkkkkkkkkkkkkkkk: alice".toList] := by
    decide +kernel
  rw [only] at member
  cases List.mem_singleton.mp member
  have last : (partition ':' "kkkkkkkkkkkkkkkk: alice".toList).1.getLast? = some 'k' := by
    decide
  intro char ends
  rw [last] at ends
  cases ends
  rfl

/-- Whitespace before the colon becomes a part of the key: it counts towards the length,
and the same key can be configured twice. -/
theorem padding_kept :
    let pieces := [Piece.grant aliceKey noSpace oneSpace noSpace noSpace]
    ((grants pieces).map Prod.fst).Nodup ∧
    parse (render pieces) = .ok [("kkkkkkkkkkkkkkkk ", "alice")] ∧
    parse (render pieces) ≠ .ok (grants pieces) ∧
    parse "kkkkkkkkkkkkkkk :alice" = .ok [("kkkkkkkkkkkkkkk ", "alice")] ∧
    parse "kkkkkkkkkkkkkkkk:alice,kkkkkkkkkkkkkkkk :bob" =
      .ok [("kkkkkkkkkkkkkkkk", "alice"), ("kkkkkkkkkkkkkkkk ", "bob")] := by
  decide +kernel

example : parse " kkkkkkkkkkkkkkkk:\talice , , k:k" = .error (shortKey ['k'] ['k']) := by
  decide +kernel

end Auth

end Provisioner
