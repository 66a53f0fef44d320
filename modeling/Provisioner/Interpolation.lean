import Provisioner.Templates
import Provisioner.Text.StrFormat

/-!
# Resolving the environment of a role

`resolve_environment` with the full `str.format`. Only a `KeyError` is translated: whatever
else a replacement field raises reaches `provision_environment` as it is, which retries
unless it is a `ValueError`.
-/

namespace Provisioner

open StrFormat

namespace Interpolation

variable {Obj : Type}

/-- The exceptions of format strings. -/
def errors : Errors Exn where
  valueError message := ⟨.valueError, message⟩
  keyError name := ⟨.keyError, pyRepr name⟩
  indexError message := ⟨.indexError, message⟩

/-- Format strings over the objects of an interpreter. -/
def runtime (objects : Objects Obj Exn) : Runtime Obj Exn where
  toObjects := objects
  toErrors := errors

/-- A deployment whose `str.format` is that of Python. -/
def interpreted (deployment : Deployment) (objects : Objects Obj Exn) : Deployment :=
  { deployment with strFormat := (runtime objects).strFormat }

/-- An exception that is neither a `ValueError` nor translated into one. -/
def Foreign (exc : Exn) : Prop :=
  exc.cls ≠ .valueError ∧ exc.cls ≠ .keyError

/-- A value of the block and what it is resolved to: a text is rendered, any other value is
kept. -/
def Filled (objects : Objects Obj Exn) (context : List (String × String))
    (entry resolved : String × EnvironmentValue) : Prop :=
  resolved.1 = entry.1 ∧
    match entry.2 with
    | .other value => resolved.2 = .other value
    | .text template => ∃ text, resolved.2 = .text text ∧
        Rendered (runtime objects) context template.toList text.toList

/-- The block is resolved, or a `ValueError` is raised, which `provision_environment` does
not retry. -/
def Resolves (deployment : Deployment) (objects : Objects Obj Exn) (envId : String)
    (spec : ContainerSpec) (roles : List String) : Prop :=
  match Compose.resolveEnvironment (interpreted deployment objects) envId spec roles with
  | .ok resolved => List.Forall₂ (Filled objects (Compose.formatContext envId roles))
      spec.environment resolved
  | .error exc => exc.isValueError = true

/-- The first field that cannot be rendered escapes: the texts before it can be formatted,
and so can everything before it in its own text. -/
def Mistaken (objects : Objects Obj Exn) (context : List (String × String))
    (environment : List (String × EnvironmentValue)) : Prop :=
  ∃ before key template after, environment = before ++ (key, .text template) :: after ∧
    (∀ earlier ∈ before, ∀ text, earlier.2 = .text text →
      ∃ formatted, (runtime objects).strFormat text context = .ok formatted) ∧
    TextEscapes (runtime objects) context Foreign 1 template.toList

variable {deployment : Deployment} {objects : Objects Obj Exn} {envId key template : String}
  {spec : ContainerSpec} {roles : List String} {context : List (String × String)}
  {entry resolved : String × EnvironmentValue} {exc : Exn}

theorem separates (objects : Objects Obj Exn) : Separates (runtime objects) Foreign where
  value _ foreign := foreign.1 rfl
  key _ foreign := foreign.2 rfl
  index _ := ⟨nofun, nofun⟩

/-- The body of the loop. -/
def resolveEntry (objects : Objects Obj Exn) (context : List (String × String))
    (entry : String × EnvironmentValue) : Except Exn (String × EnvironmentValue) :=
  match entry.2 with
  | .other value => .ok (entry.1, .other value)
  | .text value =>
      match (runtime objects).strFormat value context with
      | .ok resolved => .ok (entry.1, .text resolved)
      | .error exc =>
          if exc.cls = .keyError then
            .error ⟨.valueError, "Template placeholder " ++ exc.message ++ " in " ++
              pyRepr entry.1 ++ " matches no role in this template. Known: " ++
              Compose.knownNames context⟩
          else .error exc

theorem resolveEnvironment_eq :
    Compose.resolveEnvironment (interpreted deployment objects) envId spec roles =
      spec.environment.mapM (resolveEntry objects (Compose.formatContext envId roles)) := rfl

/-- What a resolved entry is. -/
theorem filled_of_resolveEntry (made : resolveEntry objects context entry = .ok resolved) :
    Filled objects context entry resolved := by
  obtain ⟨key, value⟩ := entry
  unfold resolveEntry at made
  cases value with
  | other value =>
      cases made
      exact ⟨rfl, rfl⟩
  | text template =>
      cases formatted : (runtime objects).strFormat template context with
      | ok text =>
          simp only [formatted] at made
          cases made
          exact ⟨rfl, text, rfl, rendered_of_strFormat formatted⟩
      | error error =>
          simp only [formatted] at made
          split at made <;> cases made

/-- An entry is resolved exactly if its text, if it is one, can be formatted. -/
theorem exists_resolveEntry :
    (∃ resolved, resolveEntry objects context entry = .ok resolved) ↔
      ∀ text, entry.2 = .text text →
        ∃ formatted, (runtime objects).strFormat text context = .ok formatted := by
  obtain ⟨key, value⟩ := entry
  unfold resolveEntry
  cases value with
  | other value =>
      refine iff_of_true ⟨_, rfl⟩ fun text same => ?_
      cases same
  | text template =>
      cases formatted : (runtime objects).strFormat template context with
      | ok result =>
          refine iff_of_true ⟨(key, .text result), by simp only [formatted]⟩ fun text same => ?_
          cases same
          exact ⟨result, formatted⟩
      | error error =>
          refine iff_of_false ?_ fun all => ?_
          · rintro ⟨resolved, made⟩
            simp only [formatted] at made
            split at made <;> cases made
          · obtain ⟨result, other⟩ := all template rfl
            rw [formatted] at other
            cases other

/-- An entry raises something other than a `ValueError` exactly if its text escapes. -/
theorem resolveEntry_error :
    (∃ exc, resolveEntry objects context entry = .error exc ∧ ¬exc.isValueError = true) ↔
      ∃ template, entry.2 = .text template ∧
        TextEscapes (runtime objects) context Foreign 1 template.toList := by
  obtain ⟨key, value⟩ := entry
  cases value with
  | other value =>
      refine iff_of_false ?_ ?_
      · rintro ⟨exc, failed, -⟩
        cases failed
      · rintro ⟨template, same, -⟩
        cases same
  | text template =>
      have raises := @strFormat_error _ _ (runtime objects) context _ (separates objects)
        template
      constructor
      · rintro ⟨exc, failed, foreign⟩
        refine ⟨template, rfl, raises.mp ?_⟩
        unfold resolveEntry at failed
        cases formatted : (runtime objects).strFormat template context with
        | ok result =>
            simp only [formatted] at failed
            cases failed
        | error error =>
            simp only [formatted] at failed
            split at failed
            · cases failed
              exact absurd rfl foreign
            · rename_i different
              cases failed
              refine ⟨_, rfl, fun same => foreign ?_, different⟩
              exact decide_eq_true same
      · rintro ⟨other, same, escapes⟩
        cases same
        obtain ⟨exc, failed, foreign⟩ := raises.mpr escapes
        refine ⟨exc, ?_, fun same => foreign.1 (of_decide_eq_true same)⟩
        unfold resolveEntry
        simp only [failed]
        exact if_neg foreign.2

/-- The block raises something other than a `ValueError` exactly if it is mistaken. -/
theorem mapM_resolveEntry_error {environment : List (String × EnvironmentValue)} :
    (∃ exc, environment.mapM (resolveEntry objects context) = .error exc ∧
      ¬exc.isValueError = true) ↔ Mistaken objects context environment := by
  constructor
  · rintro ⟨exc, failed, foreign⟩
    obtain ⟨before, ⟨key, value⟩, after, split, fine, fails⟩ := mapM_error_iff.mp failed
    obtain ⟨template, same, escapes⟩ := resolveEntry_error.mp ⟨exc, fails, foreign⟩
    cases same
    exact ⟨before, key, template, after, split,
      fun earlier present => exists_resolveEntry.mp (fine earlier present), escapes⟩
  · rintro ⟨before, key, template, after, split, fine, escapes⟩
    obtain ⟨exc, fails, foreign⟩ :=
      (@resolveEntry_error _ objects context (key, .text template)).mpr
        ⟨template, rfl, escapes⟩
    exact ⟨exc, mapM_error_iff.mpr ⟨before, _, after, split,
      fun earlier present => exists_resolveEntry.mpr (fine earlier present), fails⟩, foreign⟩

/-- For all objects, names and blocks, the block is resolved or a `ValueError` is raised
exactly if the block is not mistaken. -/
theorem resolves_iff (deployment : Deployment) (objects : Objects Obj Exn) (envId : String)
    (spec : ContainerSpec) (roles : List String) :
    Resolves deployment objects envId spec roles ↔
      ¬Mistaken objects (Compose.formatContext envId roles) spec.environment := by
  rw [← mapM_resolveEntry_error]
  unfold Resolves
  rw [resolveEnvironment_eq]
  cases mapped : spec.environment.mapM
      (resolveEntry objects (Compose.formatContext envId roles)) with
  | ok resolved =>
      refine iff_of_true ((forall₂_of_mapM mapped).imp fun _ _ => filled_of_resolveEntry) ?_
      rintro ⟨exc, failed, -⟩
      cases failed
  | error exc =>
      dsimp only
      constructor
      · rintro translated ⟨other, failed, foreign⟩
        cases failed
        exact foreign translated
      · intro caught
        by_contra foreign
        exact caught ⟨exc, rfl, foreign⟩

/-! ## Plain names -/

section Plain

/-- The context only gives plain names. -/
def PlainNames (objects : Objects Obj Exn) (context : List (String × String)) : Prop :=
  ∀ item ∈ context, PlainName objects.decimal item.1.toList

/-- A text that is formatted without a spec stays as it is. -/
def PrintsTexts (objects : Objects Obj Exn) : Prop :=
  ∀ value, objects.format (objects.text value) "" = .ok value

variable {chars read result : List Char} {build : List Char → Except Exn (List Char)}

theorem except_map_ok {α β : Type} {f : α → β} {made : Except Exn α} {value : β}
    (mapped : made.map f = .ok value) : ∃ first, made = .ok first ∧ f first = value := by
  cases made with
  | error exc => cases mapped
  | ok first =>
      cases mapped
      exact ⟨first, rfl, rfl⟩

/-- A field is read up to its brace, and its name stands in the context. -/
theorem formatChars_field
    (formatted : Compose.formatChars context (some read) chars = .ok result) :
    ∃ name rest value tail, chars = name ++ '}' :: rest ∧
      context.lookup (.ofList (read.reverse ++ name)) = some value ∧
      Compose.formatChars context none rest = .ok tail ∧ result = value.toList ++ tail := by
  induction chars generalizing read with
  | nil => cases formatted
  | cons char chars inductionHypothesis =>
      by_cases closes : char = '}'
      · subst closes
        rw [Compose.formatChars] at formatted
        cases found : context.lookup (.ofList read.reverse) with
        | none =>
            rw [found] at formatted
            cases formatted
        | some value =>
            rw [found] at formatted
            obtain ⟨tail, rest, rfl⟩ := except_map_ok formatted
            refine ⟨[], chars, value, tail, rfl, ?_, rest, rfl⟩
            rw [List.append_nil]
            exact found
      · rw [Compose.formatChars] at formatted
        · obtain ⟨name, rest, value, tail, rfl, found, continued, rfl⟩ :=
            inductionHypothesis formatted
          refine ⟨char :: name, rest, value, tail, rfl, ?_, continued, rfl⟩
          rw [List.reverse_cons, List.append_assoc] at found
          exact found
        · exact closes

theorem plainName_of_lookup {name : List Char} {value : String}
    (names : PlainNames objects context) (found : context.lookup (.ofList name) = some value) :
    PlainName objects.decimal name := by
  obtain ⟨before, after, rfl, -⟩ := List.lookup_eq_some_iff.mp found
  have named := names _ (List.mem_append_right _ List.mem_cons_self)
  rw [String.toList_ofList] at named
  exact named

/-- What `formatNamed` reads first: nothing, a character that is kept, or a plain name. -/
inductive Reads (context : List (String × String)) : List Char → List Char → Prop
  | done : Reads context [] []
  | literal (char : Char) (chars rest tail : List Char) :
      rest.length < chars.length →
      Compose.formatChars context none rest = .ok tail →
      pieces chars = .literal char :: pieces rest →
      Reads context chars (char :: tail)
  | field (name chars rest tail : List Char) (value : String) :
      rest.length < chars.length →
      Compose.formatChars context none rest = .ok tail →
      context.lookup (.ofList name) = some value →
      pieces chars = .field ⟨name, none, none⟩ :: pieces rest →
      Reads context chars (value.toList ++ tail)

/-- Behind a brace stands a second one or a name. -/
theorem reads_opened (names : PlainNames objects context)
    (formatted : Compose.formatChars context none ('{' :: chars) = .ok result) :
    Reads context ('{' :: chars) result := by
  cases chars with
  | nil => cases formatted
  | cons next rest =>
      by_cases doubled : next = '{'
      · subst doubled
        obtain ⟨tail, continued, rfl⟩ := except_map_ok formatted
        exact .literal _ _ rest _ (Nat.lt_succ_of_lt (Nat.lt_succ_self _)) continued rfl
      · have scanned : pieces ('{' :: next :: rest) = scan (.name false []) (next :: rest) := by
          rw [pieces, scan]
          all_goals simp [doubled]
        rw [Compose.formatChars] at formatted
        · obtain ⟨name, after, value, tail, same, found, continued, rfl⟩ :=
            formatChars_field formatted
          rw [List.reverse_nil, List.nil_append] at found
          have named := plainName_of_lookup names found
          rw [same, scan_plain named.plain, List.reverse_nil, List.nil_append] at scanned
          rw [same]
          refine .field name _ after _ value ?_ continued found scanned
          rw [List.length_cons, List.length_append, List.length_cons]
          omega
        · simp [doubled]

/-- Every text that is formatted is read in one of these ways. -/
theorem reads_of_formatChars (names : PlainNames objects context)
    (formatted : Compose.formatChars context none chars = .ok result) :
    Reads context chars result := by
  cases chars with
  | nil =>
      cases formatted
      exact .done
  | cons char rest =>
      by_cases opens : char = '{'
      · subst opens
        exact reads_opened names formatted
      · by_cases closes : char = '}'
        · subst closes
          cases rest with
          | nil => cases formatted
          | cons next rest =>
              by_cases doubled : next = '}'
              · subst doubled
                obtain ⟨tail, continued, rfl⟩ := except_map_ok formatted
                exact .literal _ _ rest _ (Nat.lt_succ_of_lt (Nat.lt_succ_self _)) continued rfl
              · rw [Compose.formatChars] at formatted
                · cases formatted
                · simp [doubled]
        · have scanned : pieces (char :: rest) = .literal char :: pieces rest := by
            rw [pieces, scan] <;> simp [opens, closes, pieces]
          rw [Compose.formatChars] at formatted
          · obtain ⟨tail, continued, rfl⟩ := except_map_ok formatted
            exact .literal _ _ rest _ (Nat.lt_succ_self _) continued scanned
          all_goals simp [opens, closes]

/-- The pieces of a text whose fields are plain names are rendered as `formatNamed` reads
it. -/
theorem mapM_of_formatChars (names : PlainNames objects context)
    (prints : PrintsTexts objects)
    (formatted : Compose.formatChars context none chars = .ok result) :
    ∃ values, (pieces chars).mapM ((runtime objects).render context build) = .ok values ∧
      result = values.flatten := by
  induction length : chars.length using Nat.strong_induction_on generalizing chars result with
  | _ count inductionHypothesis =>
      cases reads_of_formatChars names formatted with
      | done => exact ⟨[], rfl, rfl⟩
      | literal char _ rest tail shorter continued scanned =>
          obtain ⟨values, mapped, rfl⟩ :=
            inductionHypothesis _ (length ▸ shorter) continued rfl
          have rendered : (runtime objects).render context build (.literal char) =
              .ok [char] := rfl
          rw [scanned, mapM_cons_ok rendered, mapped]
          exact ⟨[char] :: values, rfl, rfl⟩
      | field name _ rest tail value shorter continued found scanned =>
          obtain ⟨values, mapped, rfl⟩ :=
            inductionHypothesis _ (length ▸ shorter) continued rfl
          have rendered : (runtime objects).render context build (.field ⟨name, none, none⟩) =
              .ok value.toList :=
            render_plain (plainName_of_lookup names found) found (prints value)
          rw [scanned, mapM_cons_ok rendered, mapped]
          exact ⟨value.toList :: values, rfl, rfl⟩

/-- What `formatNamed` makes of a text is what Python makes of it. -/
theorem strFormat_of_formatNamed {text formatted : String}
    (names : PlainNames objects context) (prints : PrintsTexts objects)
    (named : Compose.formatNamed text context = .ok formatted) :
    (runtime objects).strFormat text context = .ok formatted := by
  obtain ⟨chars, read, rfl⟩ := except_map_ok named
  obtain ⟨values, mapped, rfl⟩ := mapM_of_formatChars names prints read
  unfold Runtime.strFormat Runtime.build
  rw [mapped]
  rfl

/-- A block that is resolved with `formatNamed` is resolved to the same block by Python. -/
theorem resolveEnvironment_of_formatNamed {block : List (String × EnvironmentValue)}
    (names : PlainNames objects (Compose.formatContext envId roles))
    (prints : PrintsTexts objects)
    (plain : deployment.strFormat = Compose.formatNamed)
    (made : Compose.resolveEnvironment deployment envId spec roles = .ok block) :
    Compose.resolveEnvironment (interpreted deployment objects) envId spec roles =
      .ok block := by
  rw [resolveEnvironment_eq]
  unfold Compose.resolveEnvironment at made
  rw [plain] at made
  refine mapM_of_forall₂ ((forall₂_of_mapM made).imp fun entry filled read => ?_)
  obtain ⟨key, value⟩ := entry
  unfold resolveEntry
  cases value with
  | other value => exact read
  | text template =>
      cases formatted : Compose.formatNamed template (Compose.formatContext envId roles) with
      | ok result =>
          simp only [formatted] at read
          simp only [strFormat_of_formatNamed names prints formatted]
          exact read
      | error exc =>
          simp only [formatted] at read
          split at read <;> cases read

end Plain

/-- An interpreter in which every object is a text, without attributes and format specs. -/
def texts : Objects String Exn where
  text value := value
  getattr _ name := .error
    ⟨.attributeError, "'str' object has no attribute '" ++ name ++ "'"⟩
  getitem
    | value, .index position =>
        match value.toList[position]? with
        | some char => .ok (.singleton char)
        | none => .error ⟨.indexError, "string index out of range"⟩
    | _, .name _ => .error ⟨.typeError, "string indices must be integers, not 'str'"⟩
  convert
    | .str, value => .ok value
    | _, value => .ok (pyRepr value)
  format value spec :=
    if spec = "" then .ok value else .error ⟨.valueError, "Invalid format specifier"⟩
  decimal char := if char.isDigit then some (char.toNat - 48) else none

example : (runtime texts).strFormat "{{{db_host}:{env_id[0]!s}}}"
    [("env_id", "42"), ("db_host", "env-42-db")] = .ok "{env-42-db:4}" := by
  decide

/-- A role whose environment has a field without a name. -/
def unnamed : ContainerSpec where
  role := "app"
  image := "app:1"
  environment := [("URL", .text "{}")]

/-- The positional field of this block raises an `IndexError`. -/
theorem not_resolves_unnamed :
    ¬Resolves Compose.shipped texts "42" unnamed ["app"] ∧
      Compose.resolveEnvironment (interpreted Compose.shipped texts) "42" unnamed ["app"] =
        .error ⟨.indexError,
          "Replacement index 0 out of range for positional args tuple"⟩ := by
  have raised : Compose.resolveEnvironment (interpreted Compose.shipped texts) "42" unnamed
      ["app"] = .error ⟨.indexError,
        "Replacement index 0 out of range for positional args tuple"⟩ := by
    decide
  refine ⟨?_, raised⟩
  unfold Resolves
  rw [raised]
  decide

end Interpolation

end Provisioner
