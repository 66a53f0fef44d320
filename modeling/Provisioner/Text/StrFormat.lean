import Mathlib.Data.List.Basic
import Mathlib.Data.List.Forall2
import Mathlib.Data.List.TakeWhile

/-!
# `str.format`

The grammar of format strings and the way `str.format` renders them when it is called with
keyword arguments only, all of them texts. What an attribute or an item of an object is, and
how an object is printed, are parameters, as is the class of every exception.
-/

namespace StrFormat

/-- What `!r`, `!s` and `!a` apply to an object. -/
inductive Conversion where
  | repr
  | str
  | ascii

/-- What stands in brackets: a number is an index. -/
inductive Key where
  | name (text : String)
  | index (position : Nat)

/-- What the interpreter knows of objects. -/
structure Objects (Obj ε : Type) where
  /-- A text as an object. -/
  text : String → Obj
  getattr : Obj → String → Except ε Obj
  getitem : Obj → Key → Except ε Obj
  convert : Conversion → Obj → Except ε Obj
  /-- `format(object, spec)` -/
  format : Obj → String → Except ε String
  /-- The value of a decimal digit of any script. -/
  decimal : Char → Option Nat

/-- The exceptions that format strings raise by themselves. -/
structure Errors (ε : Type) where
  valueError : String → ε
  keyError : String → ε
  indexError : String → ε

/-- What format strings are rendered with. -/
structure Runtime (Obj ε : Type) extends Objects Obj ε, Errors ε

/-! ## The grammar -/

/-- A replacement field: what stands between its braces before `!` and `:`, the character
behind `!`, and what stands behind `:`. -/
structure Field where
  name : List Char
  conversion : Option Char
  spec : Option (List Char)
  deriving DecidableEq

/-- What a format string consists of. Nothing is read behind a malformed place. -/
inductive Piece where
  | literal (char : Char)
  | field (field : Field)
  | malformed (message : String)
  deriving DecidableEq

/-- Where in a format string the scanner is, with what it has read of a field, reversed. -/
inductive Mode where
  | text
  | name (inBrackets : Bool) (read : List Char)
  | conversion (name : List Char)
  | converted (name : List Char) (char : Char)
  | spec (name : List Char) (conversion : Option Char) (depth : Nat) (read : List Char)

/-- `MarkupIterator_next` and `parse_field`, character by character. -/
def scan : Mode → List Char → List Piece
  | .text, [] => []
  | .text, '{' :: '{' :: rest => .literal '{' :: scan .text rest
  | .text, '}' :: '}' :: rest => .literal '}' :: scan .text rest
  | .text, ['{'] => [.malformed "Single '\x7b' encountered in format string"]
  | .text, '}' :: _ => [.malformed "Single '\x7d' encountered in format string"]
  | .text, '{' :: rest => scan (.name false []) rest
  | .text, char :: rest => .literal char :: scan .text rest
  | .name _ _, [] => [.malformed "expected '\x7d' before end of string"]
  -- A field name goes on behind the closing bracket.
  | .name true read, char :: rest => scan (.name (char ≠ ']') (char :: read)) rest
  | .name false _, '{' :: _ => [.malformed "unexpected '\x7b' in field name"]
  | .name false read, '[' :: rest => scan (.name true ('[' :: read)) rest
  | .name false read, '}' :: rest => .field ⟨read.reverse, none, none⟩ :: scan .text rest
  | .name false read, ':' :: rest => scan (.spec read.reverse none 1 []) rest
  | .name false read, '!' :: rest => scan (.conversion read.reverse) rest
  | .name false read, char :: rest => scan (.name false (char :: read)) rest
  | .conversion _, [] =>
      [.malformed "end of string while looking for conversion specifier"]
  | .conversion name, char :: rest => scan (.converted name char) rest
  | .converted name char, '}' :: rest => .field ⟨name, some char, none⟩ :: scan .text rest
  | .converted name char, ':' :: rest => scan (.spec name (some char) 1 []) rest
  | .converted _ _, [] => [.malformed "unmatched '\x7b' in format spec"]
  | .converted _ _, _ :: _ => [.malformed "expected ':' after conversion specifier"]
  | .spec _ _ _ _, [] => [.malformed "unmatched '\x7b' in format spec"]
  | .spec name conversion depth read, '{' :: rest =>
      scan (.spec name conversion (depth + 1) ('{' :: read)) rest
  | .spec name conversion depth read, '}' :: rest =>
      if depth = 1 then .field ⟨name, conversion, some read.reverse⟩ :: scan .text rest
      else scan (.spec name conversion (depth - 1) ('}' :: read)) rest
  | .spec name conversion depth read, char :: rest =>
      scan (.spec name conversion depth (char :: read)) rest

/-- The pieces of a format string. -/
def pieces (text : List Char) : List Piece :=
  scan .text text

/-- The conversion of a field, as it is written. -/
def conversionSource : Option Char → List Char
  | none => []
  | some char => ['!', char]

/-- The format spec of a field, as it is written. -/
def specSource : Option (List Char) → List Char
  | none => []
  | some spec => ':' :: spec

/-- A piece as it is written: a brace is doubled. -/
def Piece.source : Piece → List Char
  | .literal char => if char = '{' ∨ char = '}' then [char, char] else [char]
  | .field inner =>
      '{' :: inner.name ++ conversionSource inner.conversion ++ specSource inner.spec ++ ['}']
  | .malformed _ => []

/-- What the scanner has read of the piece that it is in. -/
def Mode.source : Mode → List Char
  | .text => []
  | .name _ read => '{' :: read.reverse
  | .conversion label => '{' :: label ++ ['!']
  | .converted label char => '{' :: label ++ ['!', char]
  | .spec label kind _ read => '{' :: label ++ conversionSource kind ++ ':' :: read.reverse

/-- The pieces of a well-formed string, written one after the other, are the string. -/
theorem scan_source (mode : Mode) (text : List Char)
    (wellFormed : ∀ message, Piece.malformed message ∉ scan mode text) :
    (scan mode text).flatMap Piece.source = mode.source ++ text := by
  fun_induction scan mode text <;>
    simp_all [Piece.source, Mode.source, conversionSource, specSource]

example : pieces "\x7b\x7b a\x7bb!r:>\x7bc\x7d\x7d".toList =
    [.literal '{', .literal ' ', .literal 'a',
      .field ⟨['b'], some 'r', some ">\x7bc\x7d".toList⟩] := by
  decide

/-! ## Rendering -/

/-- The largest index that a format string may give. -/
def maxSize : Nat := 9223372036854775807

/-- `get_integer`, after some digits: `none` for a text that is no number, an error for a
number that is too large. -/
def integerFrom (decimal : Char → Option Nat) (value : Nat) :
    List Char → Except Unit (Option Nat)
  | [] => .ok (some value)
  | char :: text =>
      match decimal char with
      | none => .ok none
      | some digit =>
          if (maxSize - digit) / 10 < value then .error ()
          else integerFrom decimal (value * 10 + digit) text

/-- `get_integer` -/
def integer (decimal : Char → Option Nat) (text : List Char) : Except Unit (Option Nat) :=
  if text = [] then .ok none else integerFrom decimal 0 text

/-- A character that begins an accessor. -/
def accessor (char : Char) : Bool :=
  char = '.' || char = '['

/-- The first part of a field name (`field_name_split`). -/
def Field.first (field : Field) : List Char :=
  field.name.takeWhile fun char => !accessor char

/-- The accessors of a field name. -/
def Field.accessors (field : Field) : List Char :=
  field.name.dropWhile fun char => !accessor char

/-- The format spec of a field: it is built itself if there is a field in it. -/
def Field.specText {ε : Type} (field : Field) (build : List Char → Except ε (List Char)) :
    Except ε (List Char) :=
  if '{' ∈ field.spec.getD [] then build (field.spec.getD []) else .ok (field.spec.getD [])

/-- Where in the accessors of a field name the reader is, with what it has read, reversed. -/
inductive Access where
  | start
  | dotted (read : List Char)
  | bracketed (read : List Char)

namespace Runtime

variable {Obj ε : Type} (runtime : Runtime Obj ε)

/-- The argument that the first part of a field name selects. There are no positional
arguments. -/
def argument (context : List (String × String)) (first : List Char) : Except ε Obj :=
  match integer runtime.decimal first with
  | .error () => .error (runtime.valueError "Too many decimal digits in format string")
  | .ok (some index) => .error (runtime.indexError ("Replacement index " ++ toString index ++
      " out of range for positional args tuple"))
  | .ok none =>
      if first = [] then
        .error (runtime.indexError
          "Replacement index 0 out of range for positional args tuple")
      else
        match context.lookup (.ofList first) with
        | some value => .ok (runtime.text value)
        | none => .error (runtime.keyError (.ofList first))

/-- `.name` -/
def attributeOf (object : Obj) (read : List Char) : Except ε Obj :=
  if read = [] then .error (runtime.valueError "Empty attribute in format string")
  else runtime.getattr object (.ofList read.reverse)

/-- `[key]` -/
def itemOf (object : Obj) (read : List Char) : Except ε Obj :=
  match integer runtime.decimal read.reverse with
  | .error () => .error (runtime.valueError "Too many decimal digits in format string")
  | .ok (some position) => runtime.getitem object (.index position)
  | .ok none =>
      if read = [] then .error (runtime.valueError "Empty attribute in format string")
      else runtime.getitem object (.name (.ofList read.reverse))

/-- The accessors of a field name, one after the other. -/
def access (object : Obj) : Access → List Char → Except ε Obj
  | .start, [] => .ok object
  | .start, '.' :: rest => access object (.dotted []) rest
  | .start, '[' :: rest => access object (.bracketed []) rest
  | .start, _ :: _ => .error (runtime.valueError
      "Only '.' or '[' may follow ']' in format field specifier")
  | .dotted read, [] => runtime.attributeOf object read
  | .dotted read, '.' :: rest =>
      match runtime.attributeOf object read with
      | .ok object => access object (.dotted []) rest
      | .error error => .error error
  | .dotted read, '[' :: rest =>
      match runtime.attributeOf object read with
      | .ok object => access object (.bracketed []) rest
      | .error error => .error error
  | .dotted read, char :: rest => access object (.dotted (char :: read)) rest
  | .bracketed _, [] => .error (runtime.valueError "Missing ']' in format string")
  | .bracketed read, ']' :: rest =>
      match runtime.itemOf object read with
      | .ok object => access object .start rest
      | .error error => .error error
  | .bracketed read, char :: rest => access object (.bracketed (char :: read)) rest

/-- How a message shows an unknown conversion. -/
def conversionText (char : Char) : String :=
  if 32 < char.toNat ∧ char.toNat < 127 then String.singleton char
  else "\\x" ++ .ofList (Nat.toDigits 16 char.toNat)

/-- `do_conversion`, which is not called when the conversion is the null character. -/
def converted (object : Obj) : Option Char → Except ε Obj
  | none => .ok object
  | some '\x00' => .ok object
  | some 'r' => runtime.convert .repr object
  | some 's' => runtime.convert .str object
  | some 'a' => runtime.convert .ascii object
  | some char => .error (runtime.valueError
      ("Unknown conversion specifier " ++ conversionText char))

/-- The object that a field prints. -/
def object (context : List (String × String)) (field : Field) : Except ε Obj := do
  let object ← runtime.argument context field.first
  let object ← runtime.access object .start field.accessors
  runtime.converted object field.conversion

/-- `output_markup`, with `build` for the format spec. -/
def markup
    (context : List (String × String))
    (build : List Char → Except ε (List Char))
    (field : Field) : Except ε (List Char) := do
  let object ← runtime.object context field
  let spec ← field.specText build
  (runtime.format object (.ofList spec)).map String.toList

/-- The text that a piece becomes, with `build` for the format specs. -/
def render
    (context : List (String × String))
    (build : List Char → Except ε (List Char)) : Piece → Except ε (List Char)
  | .literal char => .ok [char]
  | .field field => runtime.markup context build field
  | .malformed message => .error (runtime.valueError message)

/-- `build_string`: format specs may be nested to a depth. -/
def build (context : List (String × String)) : Nat → List Char → Except ε (List Char)
  | 0, _ => .error (runtime.valueError "Max string recursion exceeded")
  | depth + 1, text =>
      ((pieces text).mapM (runtime.render context (build context depth))).map List.flatten

/-- `text.format(**context)` -/
def strFormat (text : String) (context : List (String × String)) : Except ε String :=
  (runtime.build context 2 text.toList).map .ofList

end Runtime

/-! ## Which exceptions escape -/

section MapM

variable {α β ε : Type} {f : α → Except ε β} {items : List α}

theorem mapM_cons_error {item : α} {error : ε} (failed : f item = .error error) :
    (item :: items).mapM f = .error error := by
  rw [List.mapM_cons, failed]
  rfl

theorem mapM_cons_ok {item : α} {value : β} (mapped : f item = .ok value) :
    (item :: items).mapM f = (items.mapM f).map (value :: ·) := by
  rw [List.mapM_cons, mapped]
  cases items.mapM f <;> rfl

/-- The values of a list that is mapped are those of its items. -/
theorem forall₂_of_mapM {values : List β} (mapped : items.mapM f = .ok values) :
    List.Forall₂ (fun item value => f item = .ok value) items values := by
  induction items generalizing values with
  | nil =>
      cases mapped
      exact .nil
  | cons item items inductionHypothesis =>
      cases first : f item with
      | error error =>
          rw [mapM_cons_error first] at mapped
          cases mapped
      | ok value =>
          rw [mapM_cons_ok first] at mapped
          cases rest : items.mapM f with
          | error error =>
              rw [rest] at mapped
              cases mapped
          | ok others =>
              rw [rest] at mapped
              cases mapped
              exact .cons first (inductionHypothesis rest)

/-- A list is mapped if each of its items is. -/
theorem mapM_of_forall₂ {values : List β}
    (each : List.Forall₂ (fun item value => f item = .ok value) items values) :
    items.mapM f = .ok values := by
  induction each with
  | nil => rfl
  | cons first rest inductionHypothesis =>
      rw [mapM_cons_ok first, inductionHypothesis]
      rfl

theorem exists_of_mapM {values : List β} (mapped : items.mapM f = .ok values) {item : α}
    (present : item ∈ items) : ∃ value, f item = .ok value := by
  have each := forall₂_of_mapM mapped
  clear mapped
  induction each with
  | nil => cases present
  | cons first rest inductionHypothesis =>
      rcases List.mem_cons.mp present with rfl | later
      · exact ⟨_, first⟩
      · exact inductionHypothesis later

/-- A list is not mapped exactly if some item fails and all before it do not. -/
theorem mapM_error_iff {error : ε} :
    items.mapM f = .error error ↔
      ∃ before item after, items = before ++ item :: after ∧
        (∀ earlier ∈ before, ∃ value, f earlier = .ok value) ∧ f item = .error error := by
  constructor
  · intro failed
    induction items with
    | nil => cases failed
    | cons item items inductionHypothesis =>
        cases first : f item with
        | error other =>
            rw [mapM_cons_error first] at failed
            cases failed
            exact ⟨[], item, items, rfl, fun _ none => absurd none List.not_mem_nil, first⟩
        | ok value =>
            rw [mapM_cons_ok first] at failed
            cases rest : items.mapM f with
            | ok others =>
                rw [rest] at failed
                cases failed
            | error other =>
                rw [rest] at failed
                cases failed
                obtain ⟨before, bad, after, rfl, fine, fails⟩ := inductionHypothesis rest
                exact ⟨item :: before, bad, after, rfl,
                  List.forall_mem_cons.mpr ⟨⟨value, first⟩, fine⟩, fails⟩
  · rintro ⟨before, item, after, rfl, fine, fails⟩
    induction before with
    | nil => exact mapM_cons_error fails
    | cons earlier before inductionHypothesis =>
        obtain ⟨⟨value, mapped⟩, fine⟩ := List.forall_mem_cons.mp fine
        rw [List.cons_append, mapM_cons_ok mapped, inductionHypothesis fine]
        rfl

end MapM

section Escapes

variable {Obj ε : Type} (runtime : Runtime Obj ε) (context : List (String × String))
  (other : ε → Prop)

/-- The field selects a positional argument: its name begins with no name at all or with a
number. -/
def Positional (field : Field) : Prop :=
  field.first = [] ∨ ∃ position, integer runtime.decimal field.first = .ok (some position)

/-- Rendering the field, with `depth` levels for its format spec, raises an exception of the
`other` kind. -/
inductive Escapes : Nat → Field → Prop
  /-- There are no positional arguments. -/
  | positional (depth : Nat) (field : Field) :
      Positional runtime field → Escapes depth field
  /-- An accessor or the conversion raises. -/
  | object (depth : Nat) (field : Field) (argument : Obj) (error : ε) :
      runtime.argument context field.first = .ok argument →
      (do
        let object ← runtime.access argument .start field.accessors
        runtime.converted object field.conversion) = .error error →
      other error → Escapes depth field
  /-- A field in the format spec raises, and those before it do not. -/
  | spec (depth : Nat) (field nested : Field) (object : Obj) (before after : List Piece) :
      runtime.object context field = .ok object →
      '{' ∈ field.spec.getD [] →
      pieces (field.spec.getD []) = before ++ .field nested :: after →
      (∀ earlier ∈ before, ∃ text,
        runtime.render context (runtime.build context depth) earlier = .ok text) →
      Escapes depth nested → Escapes (depth + 1) field
  /-- Printing the object raises. -/
  | format (depth : Nat) (field : Field) (object : Obj) (spec : List Char) (error : ε) :
      runtime.object context field = .ok object →
      field.specText (runtime.build context depth) = .ok spec →
      runtime.format object (.ofList spec) = .error error →
      other error → Escapes depth field

/-- The exceptions that format strings raise by themselves: of these, only those for
positional fields are of the `other` kind. -/
structure Separates : Prop where
  value : ∀ message, ¬other (runtime.valueError message)
  key : ∀ name, ¬other (runtime.keyError name)
  index : ∀ message, other (runtime.indexError message)

/-- Rendering the text raises an exception of the `other` kind: a field does, and everything
before it can be rendered. -/
def TextEscapes (depth : Nat) (text : List Char) : Prop :=
  ∃ before field after, pieces text = before ++ .field field :: after ∧
    (∀ earlier ∈ before, ∃ text,
      runtime.render context (runtime.build context depth) earlier = .ok text) ∧
    Escapes runtime context other depth field

variable {runtime context other} {error : ε} {depth : Nat} {field : Field}

/-- There are no positional arguments. -/
theorem argument_of_positional (positional : Positional runtime field) :
    ∃ message, runtime.argument context field.first = .error (runtime.indexError message) := by
  unfold Runtime.argument
  rcases positional with empty | ⟨position, number⟩
  · rw [empty]
    exact ⟨_, rfl⟩
  · rw [number]
    exact ⟨_, rfl⟩

/-- If the first part of a field name raises an exception of the `other` kind, the field is
positional. -/
theorem positional_of_argument (separates : Separates runtime other)
    (failed : runtime.argument context field.first = .error error) (escapes : other error) :
    Positional runtime field := by
  unfold Runtime.argument at failed
  split at failed
  · cases failed
    exact absurd escapes (separates.value _)
  · rename_i position number
    exact .inr ⟨position, number⟩
  · split at failed
    · rename_i empty
      exact .inl empty
    · split at failed
      · cases failed
      · cases failed
        exact absurd escapes (separates.key _)

theorem object_eq {argument : Obj}
    (selected : runtime.argument context field.first = .ok argument) :
    runtime.object context field = (do
      let object ← runtime.access argument .start field.accessors
      runtime.converted object field.conversion) := by
  unfold Runtime.object
  rw [selected]
  rfl

/-- A field whose object cannot be reached raises what reaching it raises. -/
theorem markup_of_object {build : List Char → Except ε (List Char)}
    (failed : runtime.object context field = .error error) :
    runtime.markup context build field = .error error := by
  unfold Runtime.markup
  rw [failed]
  rfl

theorem markup_of_spec {build : List Char → Except ε (List Char)} {object : Obj}
    (reached : runtime.object context field = .ok object)
    (failed : field.specText build = .error error) :
    runtime.markup context build field = .error error := by
  unfold Runtime.markup
  rw [reached]
  change (field.specText build >>= _) = _
  rw [failed]
  rfl

theorem markup_eq {build : List Char → Except ε (List Char)} {object : Obj}
    {spec : List Char} (reached : runtime.object context field = .ok object)
    (built : field.specText build = .ok spec) :
    runtime.markup context build field =
      (runtime.format object (.ofList spec)).map String.toList := by
  unfold Runtime.markup
  rw [reached]
  change (field.specText build >>= _) = _
  rw [built]
  rfl

/-- What escapes from a text escapes from the first field that cannot be rendered. -/
theorem build_error {text : List Char}
    (each : ∀ inner, (∃ error, runtime.markup context (runtime.build context depth) inner =
      .error error ∧ other error) ↔ Escapes runtime context other depth inner)
    (separates : Separates runtime other) :
    (∃ error, runtime.build context (depth + 1) text = .error error ∧ other error) ↔
      TextEscapes runtime context other depth text := by
  unfold Runtime.build
  constructor
  · rintro ⟨error, failed, escapes⟩
    cases mapped : (pieces text).mapM
        (runtime.render context (runtime.build context depth)) with
    | ok values =>
        rw [mapped] at failed
        cases failed
    | error error' =>
        rw [mapped] at failed
        cases failed
        obtain ⟨before, piece, after, split, fine, fails⟩ := mapM_error_iff.mp mapped
        cases piece with
        | literal char => cases fails
        | field inner =>
            exact ⟨before, inner, after, split, fine, (each inner).mp ⟨_, fails, escapes⟩⟩
        | malformed message =>
            cases fails
            exact absurd escapes (separates.value _)
  · rintro ⟨before, inner, after, split, fine, escapes⟩
    obtain ⟨error, fails, other⟩ := (each inner).mpr escapes
    refine ⟨error, ?_, other⟩
    rw [mapM_error_iff.mpr ⟨before, .field inner, after, split, fine, fails⟩]
    rfl

/-- A format spec that is built raises what building it raises. -/
theorem specText_error {build : List Char → Except ε (List Char)} :
    field.specText build = .error error ↔
      '{' ∈ field.spec.getD [] ∧ build (field.spec.getD []) = .error error := by
  unfold Field.specText
  split
  · rename_i nested
    exact ⟨fun failed => ⟨nested, failed⟩, And.right⟩
  · rename_i plain
    refine ⟨fun failed => ?_, fun failed => absurd failed.1 plain⟩
    cases failed

/-- Forwards: where a field can fail. `nested` is about its format spec. -/
theorem escapes_of_markup (separates : Separates runtime other)
    (nested : ∀ error, runtime.build context depth (field.spec.getD []) = .error error →
      other error → ∀ object, runtime.object context field = .ok object →
      '{' ∈ field.spec.getD [] → Escapes runtime context other depth field)
    (failed : runtime.markup context (runtime.build context depth) field = .error error)
    (escapes : other error) : Escapes runtime context other depth field := by
  cases reached : runtime.object context field with
  | error error' =>
      rw [markup_of_object reached] at failed
      cases failed
      cases selected : runtime.argument context field.first with
      | error error' =>
          have same : error' = error := by
            unfold Runtime.object at reached
            rw [selected] at reached
            cases reached
            rfl
          exact .positional depth field
            (positional_of_argument separates selected (same ▸ escapes))
      | ok argument =>
          rw [object_eq selected] at reached
          exact .object depth field argument error selected reached escapes
  | ok object =>
      cases built : field.specText (runtime.build context depth) with
      | error error' =>
          rw [markup_of_spec reached built] at failed
          cases failed
          obtain ⟨within, fails⟩ := specText_error.mp built
          exact nested error fails escapes object reached within
      | ok spec =>
          rw [markup_eq reached built] at failed
          cases printed : runtime.format object (.ofList spec) with
          | ok text =>
              rw [printed] at failed
              cases failed
          | error error' =>
              rw [printed] at failed
              cases failed
              exact .format depth field object spec error reached built printed escapes

/-- Backwards: each way to escape makes the field fail. -/
theorem markup_of_escapes (separates : Separates runtime other)
    (escapes : Escapes runtime context other depth field) :
    ∃ error, runtime.markup context (runtime.build context depth) field = .error error ∧
      other error := by
  induction escapes with
  | positional depth field positional =>
      obtain ⟨message, failed⟩ := @argument_of_positional _ _ _ context _ positional
      have unreached : runtime.object context field = .error (runtime.indexError message) := by
        unfold Runtime.object
        rw [failed]
        rfl
      exact ⟨_, markup_of_object unreached, separates.index message⟩
  | object depth field argument error selected failed escapes =>
      rw [← object_eq selected] at failed
      exact ⟨error, markup_of_object failed, escapes⟩
  | spec depth field nested object before after reached within split fine escapes
      inductionHypothesis =>
      obtain ⟨error, failed, escapes⟩ := inductionHypothesis
      refine ⟨error, markup_of_spec reached (specText_error.mpr ⟨within, ?_⟩), escapes⟩
      unfold Runtime.build
      rw [mapM_error_iff.mpr ⟨before, .field nested, after, split, fine, failed⟩]
      rfl
  | format depth field object spec error reached built failed escapes =>
      refine ⟨error, ?_, escapes⟩
      rw [markup_eq reached built, failed]
      rfl

/-- A field raises an exception of the `other` kind exactly if it escapes. -/
theorem markup_error (separates : Separates runtime other) (depth : Nat) (field : Field) :
    (∃ error, runtime.markup context (runtime.build context depth) field = .error error ∧
      other error) ↔ Escapes runtime context other depth field := by
  refine ⟨?_, markup_of_escapes separates⟩
  rintro ⟨error, failed, escapes⟩
  induction depth generalizing field error with
  | zero =>
      refine escapes_of_markup separates (fun error' failed' escapes' => ?_) failed escapes
      cases failed'
      exact absurd escapes' (separates.value _)
  | succ depth inductionHypothesis =>
      have each : ∀ inner, (∃ error, runtime.markup context (runtime.build context depth) inner =
          .error error ∧ other error) ↔ Escapes runtime context other depth inner :=
        fun inner => ⟨fun ⟨error, failed, escapes⟩ =>
          inductionHypothesis inner error failed escapes, markup_of_escapes separates⟩
      refine escapes_of_markup separates
        (fun error' failed' escapes' object reached within => ?_) failed escapes
      obtain ⟨before, inner, after, split, fine, escapes⟩ :=
        (build_error each separates).mp ⟨error', failed', escapes'⟩
      exact .spec depth field inner object before after reached within split fine escapes

/-- What escapes from a whole text escapes from one of its fields. -/
theorem strFormat_error (separates : Separates runtime other) (text : String) :
    (∃ error, runtime.strFormat text context = .error error ∧ other error) ↔
      TextEscapes runtime context other 1 text.toList := by
  rw [← build_error (markup_error separates 1) separates]
  unfold Runtime.strFormat
  constructor
  · rintro ⟨error, failed, escapes⟩
    cases built : runtime.build context 2 text.toList with
    | ok value =>
        rw [built] at failed
        cases failed
    | error error' =>
        rw [built] at failed
        cases failed
        exact ⟨error, rfl, escapes⟩
  · rintro ⟨error, failed, escapes⟩
    rw [failed]
    exact ⟨error, rfl, escapes⟩

end Escapes

/-! ## What is rendered -/

section Rendered

variable {Obj ε : Type} (runtime : Runtime Obj ε) (context : List (String × String))

/-- The result is the text with every field replaced by its value and every doubled brace by
one brace. -/
structure Rendered (text result : List Char) : Prop where
  source : (pieces text).flatMap Piece.source = text
  values : ∃ values, List.Forall₂
    (fun piece value => runtime.render context (runtime.build context 1) piece = .ok value)
    (pieces text) values ∧ result = values.flatten

variable {runtime context}

/-- A text that is formatted is rendered. -/
theorem rendered_of_strFormat {text result : String}
    (formatted : runtime.strFormat text context = .ok result) :
    Rendered runtime context text.toList result.toList := by
  unfold Runtime.strFormat Runtime.build at formatted
  cases mapped : (pieces text.toList).mapM
      (runtime.render context (runtime.build context 1)) with
  | error error =>
      rw [mapped] at formatted
      cases formatted
  | ok values =>
      rw [mapped] at formatted
      cases formatted
      refine ⟨scan_source .text text.toList fun message present => ?_, values,
        forall₂_of_mapM mapped, String.toList_ofList⟩
      obtain ⟨value, fails⟩ := exists_of_mapM mapped present
      cases fails

/-- A name without accessors, conversion and format spec that is no number. -/
structure PlainName (decimal : Char → Option Nat) (name : List Char) : Prop where
  present : name ≠ []
  plain : ∀ char ∈ name, accessor char = false ∧ char ∉ ['{', '}', ':', '!']
  named : integer decimal name = .ok none

/-- A plain name is read up to its brace. -/
theorem scan_plain {name read rest : List Char}
    (plain : ∀ char ∈ name, accessor char = false ∧ char ∉ ['{', '}', ':', '!']) :
    scan (.name false read) (name ++ '}' :: rest) =
      .field ⟨read.reverse ++ name, none, none⟩ :: scan .text rest := by
  induction name generalizing read with
  | nil => rw [List.nil_append, List.append_nil, scan]
  | cons char name inductionHypothesis =>
      obtain ⟨⟨opens, special⟩, plain⟩ := List.forall_mem_cons.mp plain
      have step : scan (.name false read) (char :: (name ++ '}' :: rest)) =
          scan (.name false (char :: read)) (name ++ '}' :: rest) := by
        rw [scan]
        all_goals
          rintro rfl
          revert opens special
          decide
      rw [List.cons_append, step, inductionHypothesis plain, List.reverse_cons,
        List.append_assoc, List.singleton_append]

/-- A field that is a plain name has the value of the name. -/
theorem render_plain {build : List Char → Except ε (List Char)} {name : List Char}
    {value : String} (named : PlainName runtime.decimal name)
    (found : context.lookup (.ofList name) = some value)
    (prints : runtime.format (runtime.text value) "" = .ok value) :
    runtime.render context build (.field ⟨name, none, none⟩) = .ok value.toList := by
  have kept : ∀ char ∈ name, (!accessor char) = true := by
    intro char member
    rw [(named.plain char member).1]
    rfl
  have first : Field.first ⟨name, none, none⟩ = name := by
    unfold Field.first
    rw [List.takeWhile_eq_self_iff.mpr kept]
  have accessors : Field.accessors ⟨name, none, none⟩ = [] := by
    unfold Field.accessors
    rw [List.dropWhile_eq_nil_iff.mpr kept]
  have selected : runtime.argument context (Field.first ⟨name, none, none⟩) =
      .ok (runtime.text value) := by
    rw [first]
    unfold Runtime.argument
    rw [named.named]
    dsimp only
    rw [if_neg named.present, found]
  have reached : runtime.object context ⟨name, none, none⟩ = .ok (runtime.text value) := by
    rw [object_eq selected, accessors]
    rfl
  have built : Field.specText ⟨name, none, none⟩ build = .ok [] := rfl
  have printed : runtime.format (runtime.text value) (.ofList []) = .ok value := prints
  change runtime.markup context build ⟨name, none, none⟩ = _
  rw [markup_eq reached built, printed]
  rfl

end Rendered

end StrFormat
