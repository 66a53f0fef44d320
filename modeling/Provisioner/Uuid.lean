import Mathlib.Data.List.Basic
import Mathlib.Tactic.IntervalCases
import Mathlib.Tactic.FinCases
import Mathlib.Tactic.Ring

/-!
# Environment identifiers and their text

Rows are keyed by 128-bit UUIDs, while Celery messages, container names and
Docker labels carry `str(id)`. This module models the two conversions of
Python's `uuid` module, and proves that the text of an identifier has 36
characters and parses back to the identifier. The digits are read by `int`, which
takes the decimal digits and the white space of any script (of Unicode 14, the
version of Python 3.11).
-/

namespace Provisioner

/-- A 128-bit identifier. -/
structure Uuid where
  /-- The identifier as an integer. -/
  value : Nat
  /-- It fits in 128 bits. -/
  bounded : value < 16 ^ 32
  deriving DecidableEq

namespace Uuid

/-- The lower-case hexadecimal digit of a number below sixteen. -/
def hexDigit (value : Nat) : Char :=
  ['0', '1', '2', '3', '4', '5', '6', '7', '8', '9',
    'a', 'b', 'c', 'd', 'e', 'f'].getD value '0'

/-- The value of a hexadecimal digit of either case. -/
def hexValue (digit : Char) : Option Nat :=
  if '0' ≤ digit ∧ digit ≤ '9' then some (digit.toNat - '0'.toNat)
  else if 'a' ≤ digit ∧ digit ≤ 'f' then some (digit.toNat - 'a'.toNat + 10)
  else if 'A' ≤ digit ∧ digit ≤ 'F' then some (digit.toNat - 'A'.toNat + 10)
  else none

/-- The last `count` hexadecimal digits of a number, most significant first. -/
def hexDigits : Nat → Nat → List Char
  | 0, _ => []
  | count + 1, value =>
      hexDigits count (value / 16) ++ [hexDigit (value % 16)]

/-- `UUID.hex` -/
def hex (id : Uuid) : List Char :=
  hexDigits 32 id.value

/-- `UUID.__str__`: five groups of digits joined by dashes. -/
def chars (id : Uuid) : List Char :=
  id.hex.take 8 ++ '-' :: ((id.hex.drop 8).take 4 ++ '-' ::
    ((id.hex.drop 12).take 4 ++ '-' :: ((id.hex.drop 16).take 4 ++ '-' ::
      id.hex.drop 20)))

/-- `str(id)` -/
def str (id : Uuid) : String :=
  String.ofList id.chars

/-- `text.replace(pattern, "")` for a nonempty pattern: after a match the rest
of the pattern is skipped. -/
def removeAll (pattern : List Char) : Nat → List Char → List Char
  | _, [] => []
  | 0, head :: tail =>
      if pattern.isPrefixOf (head :: tail) then
        removeAll pattern (pattern.length - 1) tail
      else head :: removeAll pattern 0 tail
  | skip + 1, _ :: tail => removeAll pattern skip tail

/-- `text.strip(...)` for a set of characters. -/
def stripChars (strips : Char → Bool) (text : List Char) : List Char :=
  ((text.dropWhile strips).reverse.dropWhile strips).reverse

/-- The zeros of the runs of ten decimal digits behind ASCII. -/
def decimalZeros : List Nat :=
  [0x660, 0x6f0, 0x7c0, 0x966, 0x9e6, 0xa66, 0xae6, 0xb66, 0xbe6, 0xc66, 0xce6, 0xd66, 0xde6,
    0xe50, 0xed0, 0xf20, 0x1040, 0x1090, 0x17e0, 0x1810, 0x1946, 0x19d0, 0x1a80, 0x1a90, 0x1b50,
    0x1bb0, 0x1c40, 0x1c50, 0xa620, 0xa8d0, 0xa900, 0xa9d0, 0xa9f0, 0xaa50, 0xabf0, 0xff10,
    0x104a0, 0x10d30, 0x11066, 0x110f0, 0x11136, 0x111d0, 0x112f0, 0x11450, 0x114d0, 0x11650,
    0x116c0, 0x11730, 0x118e0, 0x11950, 0x11c50, 0x11d50, 0x11da0, 0x16a60, 0x16ac0, 0x16b50,
    0x1d7ce, 0x1d7d8, 0x1d7e2, 0x1d7ec, 0x1d7f6, 0x1e140, 0x1e2f0, 0x1e950, 0x1fbf0]

/-- The white space behind ASCII. -/
def wideSpaces : List Nat :=
  [0x85, 0xa0, 0x1680, 0x2000, 0x2001, 0x2002, 0x2003, 0x2004, 0x2005, 0x2006, 0x2007, 0x2008,
    0x2009, 0x200a, 0x2028, 0x2029, 0x202f, 0x205f, 0x3000]

/-- `_PyUnicode_TransformDecimalAndSpaceToASCII` -/
def toAscii (char : Char) : Char :=
  if char.toNat < 127 then char
  else if char.toNat ∈ wideSpaces then ' '
  else
    match decimalZeros.find? fun first => first ≤ char.toNat && char.toNat < first + 10 with
    | some first => .ofNat ('0'.toNat + (char.toNat - first))
    | none => '?'

/-- Characters that `int` ignores around a number. -/
def isSpace (char : Char) : Bool :=
  char == ' ' || ('\t' ≤ char && char ≤ '\r')

/-- Digits of base sixteen with single underscores between them; the flag says
whether an underscore may come next. -/
def digitsValue : Bool → Nat → List Char → Option Nat
  | afterDigit, total, [] => if afterDigit then some total else none
  | afterDigit, total, head :: tail =>
      if head = '_' then
        if afterDigit then digitsValue false total tail else none
      else
        match hexValue head with
        | none => none
        | some digit => digitsValue true (total * 16 + digit) tail

/-- `int(text, 16)` without its sign: an optional `0x` prefix, then digits. -/
def unsignedValue (text : List Char) : Option Nat :=
  match text with
  | '0' :: 'x' :: '_' :: digits => digitsValue false 0 digits
  | '0' :: 'X' :: '_' :: digits => digitsValue false 0 digits
  | '0' :: 'x' :: digits => digitsValue false 0 digits
  | '0' :: 'X' :: digits => digitsValue false 0 digits
  | digits => digitsValue false 0 digits

/-- `int(text, 16)` -/
def parseInt (text : List Char) : Option Int :=
  match stripChars isSpace (text.map toAscii) with
  | '-' :: digits => (unsignedValue digits).map fun value => -(value : Int)
  | '+' :: digits => (unsignedValue digits).map Int.ofNat
  | digits => (unsignedValue digits).map Int.ofNat

/-- `uuid.UUID(text)`; `none` is its `ValueError`. -/
def parse (text : String) : Option Uuid :=
  let bare := removeAll "uuid:".toList 0 (removeAll "urn:".toList 0 text.toList)
  let digits := (stripChars (fun char => char == '{' || char == '}') bare).filter
    (· != '-')
  if digits.length = 32 then
    match parseInt digits with
    | none => none
    | some (.negSucc _) => none
    | some (.ofNat value) =>
        if bounded : value < 16 ^ 32 then some ⟨value, bounded⟩ else none
  else none

@[simp] theorem length_hexDigits (count value : Nat) :
    (hexDigits count value).length = count := by
  induction count generalizing value with
  | zero => rfl
  | succ count inductionHypothesis =>
      simp [hexDigits, inductionHypothesis]

/-- The characters that occur in a printed identifier. -/
def IsHexDigit (char : Char) : Prop :=
  char ∈ ['0', '1', '2', '3', '4', '5', '6', '7', '8', '9',
    'a', 'b', 'c', 'd', 'e', 'f']

theorem isHexDigit_hexDigit {value : Nat} (small : value < 16) :
    IsHexDigit (hexDigit value) := by
  unfold IsHexDigit hexDigit
  interval_cases value <;> decide

theorem hexValue_hexDigit {value : Nat} (small : value < 16) :
    hexValue (hexDigit value) = some value := by
  unfold hexDigit
  interval_cases value <;> decide

theorem isHexDigit_of_mem_hexDigits {count value : Nat} {char : Char}
    (present : char ∈ hexDigits count value) : IsHexDigit char := by
  induction count generalizing value with
  | zero => cases present
  | succ count inductionHypothesis =>
      simp only [hexDigits, List.mem_append, List.mem_singleton] at present
      rcases present with earlier | last
      · exact inductionHypothesis earlier
      · rw [last]
        exact isHexDigit_hexDigit (Nat.mod_lt _ (by decide))

/-- A hexadecimal digit is none of the characters that parsing treats
specially. -/
theorem IsHexDigit.plain {char : Char} (digit : IsHexDigit char) :
    char ≠ '-' ∧ char ≠ '_' ∧ char ≠ '+' ∧ char ≠ 'x' ∧ char ≠ 'X' ∧
      char ≠ 'u' ∧ char ≠ '{' ∧ char ≠ '}' ∧ isSpace char = false := by
  unfold IsHexDigit at digit
  fin_cases digit <;> decide

theorem IsHexDigit.ascii {char : Char} (digit : IsHexDigit char) : toAscii char = char := by
  refine if_pos ?_
  unfold IsHexDigit at digit
  fin_cases digit <;> decide

/-- Reading back printed digits yields the number modulo their range. -/
theorem digitsValue_hexDigits (count value total : Nat) (tail : List Char) :
    digitsValue true total (hexDigits count value ++ tail) =
      digitsValue true (total * 16 ^ count + value % 16 ^ count) tail := by
  induction count generalizing value tail with
  | zero => simp [hexDigits, Nat.mod_one]
  | succ count inductionHypothesis =>
      have small : value % 16 < 16 := Nat.mod_lt _ (by decide)
      have plain := (isHexDigit_hexDigit small).plain
      have value_eq :
          (total * 16 ^ count + value / 16 % 16 ^ count) * 16 + value % 16 =
            total * 16 ^ (count + 1) + value % 16 ^ (count + 1) := by
        have split : value % 16 ^ (count + 1) =
            value / 16 % 16 ^ count * 16 + value % 16 := by
          rw [pow_succ, Nat.mul_comm (16 ^ count) 16, Nat.mod_mul]
          ring
        rw [split, pow_succ]
        ring
      rw [hexDigits, List.append_assoc, inductionHypothesis]
      rw [List.singleton_append, digitsValue, if_neg plain.2.1,
        hexValue_hexDigit small]
      simp only [value_eq]

/-- The flag only matters in front of an underscore or at the end. -/
theorem digitsValue_false_eq_true {total : Nat} {head : Char} {tail : List Char}
    (digit : IsHexDigit head) :
    digitsValue false total (head :: tail) =
      digitsValue true total (head :: tail) := by
  rw [digitsValue, digitsValue, if_neg digit.plain.2.1, if_neg digit.plain.2.1]

theorem unsignedValue_of_digits {digits : List Char}
    (allDigits : ∀ char ∈ digits, IsHexDigit char) :
    unsignedValue digits = digitsValue false 0 digits := by
  unfold unsignedValue
  split
  · exact absurd rfl (allDigits 'x' (by simp)).plain.2.2.2.1
  · exact absurd rfl (allDigits 'X' (by simp)).plain.2.2.2.2.1
  · exact absurd rfl (allDigits 'x' (by simp)).plain.2.2.2.1
  · exact absurd rfl (allDigits 'X' (by simp)).plain.2.2.2.2.1
  · rfl

/-- Text without strippable characters is left alone by stripping. -/
theorem stripChars_eq_self {strips : Char → Bool} {text : List Char}
    (clean : ∀ char ∈ text, strips char = false) :
    stripChars strips text = text := by
  have dropWhile_eq : ∀ list : List Char, (∀ char ∈ list, strips char = false) →
      list.dropWhile strips = list := by
    intro list cleanList
    cases list with
    | nil => rfl
    | cons head tail => simp [cleanList head (by simp)]
  unfold stripChars
  rw [dropWhile_eq text clean, dropWhile_eq, List.reverse_reverse]
  intro char present
  exact clean char (List.mem_reverse.mp present)

/-- Text without the first character of a pattern has no occurrence of it. -/
theorem removeAll_eq_self {first : Char} {pattern text : List Char}
    (absent : first ∉ text) :
    removeAll (first :: pattern) 0 text = text := by
  induction text with
  | nil => rfl
  | cons head tail inductionHypothesis =>
      have different : first ≠ head := by
        intro equal
        exact absent (by simp [equal])
      have unmatched : (first :: pattern).isPrefixOf (head :: tail) = false := by
        simp [List.isPrefixOf, different]
      rw [removeAll, unmatched]
      simp only [Bool.false_eq_true, if_false]
      rw [inductionHypothesis fun present => absent (List.mem_cons_of_mem _ present)]

theorem isHexDigit_of_mem_hex {id : Uuid} {char : Char}
    (present : char ∈ id.hex) : IsHexDigit char :=
  isHexDigit_of_mem_hexDigits present

@[simp] theorem length_hex (id : Uuid) : id.hex.length = 32 :=
  length_hexDigits 32 id.value

/-- A printed identifier consists of hexadecimal digits and dashes. -/
theorem mem_chars {id : Uuid} {char : Char} (present : char ∈ id.chars) :
    char = '-' ∨ IsHexDigit char := by
  have taken : ∀ start count, char ∈ (id.hex.drop start).take count →
      IsHexDigit char := fun start count member =>
    isHexDigit_of_mem_hex (List.mem_of_mem_drop (List.mem_of_mem_take member))
  simp only [chars, List.mem_append, List.mem_cons] at present
  rcases present with first | dash | second | dash | third | dash | fourth |
    dash | last
  · exact .inr (isHexDigit_of_mem_hex (List.mem_of_mem_take first))
  · exact .inl dash
  · exact .inr (taken 8 4 second)
  · exact .inl dash
  · exact .inr (taken 12 4 third)
  · exact .inl dash
  · exact .inr (taken 16 4 fourth)
  · exact .inl dash
  · exact .inr (isHexDigit_of_mem_hex (List.mem_of_mem_drop last))

/-- Removing the dashes of a printed identifier leaves its digits. -/
theorem filter_chars (id : Uuid) :
    id.chars.filter (· != '-') = id.hex := by
  have keep : ∀ part : List Char, (∀ char ∈ part, IsHexDigit char) →
      part.filter (· != '-') = part := by
    intro part digits
    rw [List.filter_eq_self]
    intro char present
    simpa using (digits char present).plain.1
  have taken : ∀ start count, ∀ char ∈ (id.hex.drop start).take count,
      IsHexDigit char := fun start count char member =>
    isHexDigit_of_mem_hex (List.mem_of_mem_drop (List.mem_of_mem_take member))
  have regroup : id.hex = id.hex.take 8 ++ ((id.hex.drop 8).take 4 ++
      ((id.hex.drop 12).take 4 ++ ((id.hex.drop 16).take 4 ++
        id.hex.drop 20))) := by
    conv_lhs => rw [← List.take_append_drop 8 id.hex,
      ← List.take_append_drop 4 (id.hex.drop 8), List.drop_drop,
      ← List.take_append_drop 4 (id.hex.drop (8 + 4)), List.drop_drop,
      ← List.take_append_drop 4 (id.hex.drop (8 + 4 + 4)), List.drop_drop]
  unfold chars
  simp only [List.filter_append, List.filter_cons, bne_self_eq_false,
    Bool.false_eq_true, if_false]
  rw [keep _ (taken 8 4), keep _ (taken 12 4), keep _ (taken 16 4),
    keep (id.hex.drop 20) fun char member =>
      isHexDigit_of_mem_hex (List.mem_of_mem_drop member),
    keep (id.hex.take 8) fun char member =>
      isHexDigit_of_mem_hex (List.mem_of_mem_take member)]
  exact regroup.symm

/-- The digits of an identifier read back as its value. -/
theorem parseInt_hex (id : Uuid) : parseInt id.hex = some (.ofNat id.value) := by
  have digits : ∀ char ∈ id.hex, IsHexDigit char := fun _ =>
    isHexDigit_of_mem_hex
  have ascii : id.hex.map toAscii = id.hex := by
    rw [List.map_congr_left fun char present => (digits char present).ascii, List.map_id']
  have stripped : stripChars isSpace id.hex = id.hex :=
    stripChars_eq_self fun char present => (digits char present).plain.2.2.2.2.2.2.2.2
  have value_eq : unsignedValue id.hex = some id.value := by
    rw [unsignedValue_of_digits digits]
    have read := digitsValue_hexDigits 32 id.value 0 []
    rw [List.append_nil, Nat.mod_eq_of_lt id.bounded] at read
    have nonempty : id.hex ≠ [] := by
      intro empty
      have length := id.length_hex
      rw [empty] at length
      cases length
    obtain ⟨head, tail, split⟩ := List.exists_cons_of_ne_nil nonempty
    have headDigit : IsHexDigit head := digits head (by rw [split]; simp)
    rw [split, digitsValue_false_eq_true headDigit, ← split]
    unfold hex
    rw [read]
    simp [digitsValue]
  unfold parseInt
  rw [ascii, stripped]
  split
  · rename_i rest split
    exact absurd rfl (digits '-' (by rw [split]; simp)).plain.1
  · rename_i rest split
    exact absurd rfl (digits '+' (by rw [split]; simp)).plain.2.2.1
  · rw [value_eq]
    rfl

/-- `uuid.UUID(str(id)) == id` -/
@[simp] theorem parse_str (id : Uuid) : parse id.str = some id := by
  have absent : 'u' ∉ id.chars := by
    intro present
    rcases mem_chars present with dash | digit
    · exact absurd dash (by decide)
    · exact absurd rfl digit.plain.2.2.2.2.2.1
  have stripped :
      stripChars (fun char => char == '{' || char == '}') id.chars = id.chars := by
    refine stripChars_eq_self fun char present => ?_
    rcases mem_chars present with dash | digit
    · rw [dash]; decide
    · simp [digit.plain.2.2.2.2.2.2.1, digit.plain.2.2.2.2.2.2.2.1]
  have urn : "urn:".toList = 'u' :: "rn:".toList := by decide
  have uuid : "uuid:".toList = 'u' :: "uid:".toList := by decide
  unfold parse
  simp only [str, String.toList_ofList, urn, uuid, removeAll_eq_self absent,
    stripped, filter_chars, length_hex, if_true, parseInt_hex]
  exact dif_pos id.bounded

/-- Distinct identifiers have distinct texts. -/
theorem str_injective : Function.Injective str := by
  intro left right equal
  have parsed : parse left.str = parse right.str := congrArg parse equal
  simpa using parsed

@[simp] theorem str_inj {left right : Uuid} :
    left.str = right.str ↔ left = right :=
  str_injective.eq_iff

@[simp] theorem length_str (id : Uuid) : id.str.length = 36 := by
  rw [str, String.length_ofList]
  simp only [chars, List.length_append, List.length_cons, List.length_take,
    List.length_drop, length_hex]
  rfl

/-- The text of an identifier is not empty. -/
theorem str_ne_empty (id : Uuid) : id.str ≠ "" := by
  intro empty
  have length := length_str id
  rw [empty] at length
  cases length

example : parseInt "  \u0661\u0660_a".toList = some 266 := by
  decide

-- Programs branch on parsed text, so unfolding the parser there never helps.
attribute [irreducible] parse str

end Uuid

end Provisioner
