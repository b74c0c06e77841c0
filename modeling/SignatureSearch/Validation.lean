/-
# `Validation` — from loose data to domain values

Data from outside is checked field by field, and every fault is reported, not
only the first.  So a check gives a value or a list of issues, and checks are
combined side by side (`<*>`), where the issues add up.  `Checked.andThen` is
for a check that needs the result of another one.

An issue says what is wrong, where, and with which input.  The readers are
lenient: a text that denotes an integer is read as one, and so on.
-/
import SignatureSearch.Json.Render
import SignatureSearch.Text.Numeral

namespace SignatureSearch.Validation

inductive Problem where
  /-- A field that has to be there is not. -/
  | missing
  | notText
  | notInteger
  /-- A text that denotes no integer. -/
  | unreadableInteger
  /-- A number with a fractional part where an integer is wanted. -/
  | fractional
  /-- A number or text that is too large to be taken as an integer. -/
  | tooLarge
  /-- An infinite number, or none at all. -/
  | notFinite
  | notBool
  /-- A text or a number that stands for no truth value. -/
  | unreadableBool
  | notList
  /-- A value that is none of the words of a choice. -/
  | notAmong (words : List String)
  /-- A value that is no record of the given name. -/
  | notRecord (name : String)
  /-- A value that is no record of any variant. -/
  | notVariant
  /-- A record without the field that names its variant. -/
  | noTag
  /-- A record of a variant that does not exist. -/
  | unknownTag (tag : String) (expected : List String)
  | belowLeast (least : Int)
  | aboveGreatest (greatest : Int)
  /-- A rule of the domain is broken. -/
  | refused (reason : String)
  /-- A record that may not change was to be changed. -/
  | frozen
deriving DecidableEq, Repr

namespace Problem

/-- The name of the field that tells the variants of a record apart. -/
def tagField : String := "kind"

def code : Problem → String
  | .missing => "missing"
  | .notText => "string_type"
  | .notInteger => "int_type"
  | .unreadableInteger => "int_parsing"
  | .fractional => "int_from_float"
  | .tooLarge => "int_parsing_size"
  | .notFinite => "finite_number"
  | .notBool => "bool_type"
  | .unreadableBool => "bool_parsing"
  | .notList => "list_type"
  | .notAmong _ => "literal_error"
  | .notRecord _ => "model_type"
  | .notVariant => "model_attributes_type"
  | .noTag => "union_tag_not_found"
  | .unknownTag _ _ => "union_tag_invalid"
  | .belowLeast _ => "greater_than_equal"
  | .aboveGreatest _ => "less_than_equal"
  | .refused _ => "value_error"
  | .frozen => "frozen_instance"

/-- Words in single quotes, with commas between them. -/
def quotedList (separator : String) (words : List String) : String :=
  separator.intercalate (words.map fun w => "'" ++ w ++ "'")

def message : Problem → String
  | .missing => "Field required"
  | .notText => "Input should be a valid string"
  | .notInteger => "Input should be a valid integer"
  | .unreadableInteger => "Input should be a valid integer, unable to parse string as an integer"
  | .fractional => "Input should be a valid integer, got a number with a fractional part"
  | .tooLarge => "Unable to parse input string as an integer, exceeded maximum size"
  | .notFinite => "Input should be a finite number"
  | .notBool => "Input should be a valid boolean"
  | .unreadableBool => "Input should be a valid boolean, unable to interpret input"
  | .notList => "Input should be a valid list"
  | .notAmong words => "Input should be " ++ quotedList " or " words
  | .notRecord name => s!"Input should be a valid dictionary or instance of {name}"
  | .notVariant => "Input should be a valid dictionary or object to extract fields from"
  | .noTag => s!"Unable to extract tag using discriminator '{tagField}'"
  | .unknownTag tag expected =>
    s!"Input tag '{tag}' found using '{tagField}' does not match any of the expected tags: "
      ++ quotedList ", " expected
  | .belowLeast least => s!"Input should be greater than or equal to {least}"
  | .aboveGreatest greatest => s!"Input should be less than or equal to {greatest}"
  | .refused reason => s!"Value error, {reason}"
  | .frozen => "Instance is frozen"

end Problem

/-- One step from a value to a part of it. -/
inductive Step where
  | field (name : String)
  | index (i : Nat)
deriving DecidableEq, Repr

/-- A step as data: a text or a number. -/
def Step.toJson : Step → Json
  | .field name => .str name
  | .index i => .int i

/-- Something that is wrong with a part of a value. -/
structure Issue where
  problem : Problem
  path : List Step
  input : Json
deriving DecidableEq, Repr

/-- The result of a check: a value, or what is wrong. -/
inductive Checked (α : Type) where
  | valid (a : α)
  | invalid (issues : List Issue)
deriving DecidableEq, Repr

namespace Checked

variable {α β : Type}

/-- Applies a function to a checked value. -/
def map (f : α → β) : Checked α → Checked β
  | .valid a => .valid (f a)
  | .invalid issues => .invalid issues

/-- Combines two checks; the issues of both are kept, in order. -/
def both (f : Checked (α → β)) (a : Checked α) : Checked β :=
  match f, a with
  | .valid f, .valid a => .valid (f a)
  | .valid _, .invalid issues => .invalid issues
  | .invalid issues, .valid _ => .invalid issues
  | .invalid issues, .invalid more => .invalid (issues ++ more)

instance : Functor Checked where
  map := map

instance : Applicative Checked where
  pure := .valid
  seq f a := both f (a ())

/-- A check of the result of another one. -/
def andThen (a : Checked α) (f : α → Checked β) : Checked β :=
  match a with
  | .valid a => f a
  | .invalid issues => .invalid issues

def issue (problem : Problem) (input : Json) : Checked α :=
  .invalid [⟨problem, [], input⟩]

/-- Places a check at a step from the value it belongs to. -/
def within (step : Step) : Checked α → Checked α
  | .valid a => .valid a
  | .invalid issues => .invalid (issues.map fun i => { i with path := step :: i.path })

def value? : Checked α → Option α
  | .valid a => some a
  | .invalid _ => none

/-- The check as a computation that stops with the issues. -/
def toExcept : Checked α → Except (List Issue) α
  | .valid a => .ok a
  | .invalid issues => .error issues

@[simp] theorem map_eq_valid {f : α → β} {a : Checked α} {b : β} :
    a.map f = .valid b ↔ ∃ c, a = .valid c ∧ f c = b := by
  cases a <;> simp [map]

@[simp] theorem seq_eq_valid {f : Checked (α → β)} {a : Checked α} {b : β} :
    f <*> a = .valid b ↔ ∃ g c, f = .valid g ∧ a = .valid c ∧ g c = b := by
  cases f <;> cases a <;> simp [Seq.seq, both]

@[simp] theorem within_eq_valid {step : Step} {a : Checked α} {c : α} :
    a.within step = .valid c ↔ a = .valid c := by
  cases a <;> simp [within]

@[simp] theorem andThen_eq_valid {a : Checked α} {f : α → Checked β} {b : β} :
    a.andThen f = .valid b ↔ ∃ c, a = .valid c ∧ f c = .valid b := by
  cases a <;> simp [andThen]

end Checked

/-- Reads a value of the domain from data. -/
abbrev Reader (α : Type) := Json → Checked α

open Checked

def text : Reader String
  | .str s => .valid s
  | v => issue .notText v

/-- The first positive integer that does not fit a signed machine word of 64 bits. -/
def wordRange : Int := Nat.pow 2 63

/-- An integer: a number without a fractional part, a truth value, or a text that denotes one. -/
def integer : Reader Int
  | .int n => .valid n
  | .bool b => .valid (if b then 1 else 0)
  | .float x =>
    match x.truncate?, x.toInt? with
    | some _, some n => if n.natAbs < wordRange then .valid n else issue .tooLarge (.float x)
    | some _, none => issue .fractional (.float x)
    | none, _ => issue .notFinite (.float x)
  | .str s =>
    match Text.readLenient s with
    | .ok n => .valid n
    | .error .malformed => issue .unreadableInteger (.str s)
    | .error .tooLong => issue .tooLarge (.str s)
  | v => issue .notInteger v

def boolWords : List (String × Bool) :=
  [("0", false), ("off", false), ("f", false), ("false", false), ("n", false), ("no", false),
   ("1", true), ("on", true), ("t", true), ("true", true), ("y", true), ("yes", true)]

/-- A truth value: one itself, the numbers 0 and 1, or a word for it in any case.  Other numbers
without a fractional part count as misread only if they fit a machine word. -/
def boolean : Reader Bool
  | .bool b => .valid b
  | .int n =>
    if n = 0 then .valid false else if n = 1 then .valid true
    else if -wordRange ≤ n && n < wordRange then issue .unreadableBool (.int n)
    else issue .notBool (.int n)
  | .float x =>
    match x.toInt? with
    | some 0 => .valid false
    | some 1 => .valid true
    | some n =>
      if n.natAbs < wordRange then issue .unreadableBool (.float x) else issue .notBool (.float x)
    | none => issue .notBool (.float x)
  | .str s =>
    match boolWords.lookup (String.ofList (s.toList.map Char.toLower)) with
    | some b => .valid b
    | none => issue .unreadableBool (.str s)
  | v => issue .notBool v

/-- Reads the items of a list from the given index on. -/
def itemsFrom {α : Type} (item : Reader α) (i : Nat) : List Json → Checked (List α)
  | [] => pure []
  | v :: rest => List.cons <$> (item v).within (.index i) <*> itemsFrom item (i + 1) rest

def list {α : Type} (item : Reader α) : Reader (List α)
  | .arr items => itemsFrom item 0 items
  | v => issue .notList v

/-- Null, or a value. -/
def nullable {α : Type} (read : Reader α) : Reader (Option α)
  | .null => .valid none
  | v => some <$> read v

def bounded (least greatest : Option Int) : Reader Int := fun v =>
  (integer v).andThen fun n =>
    match least.filter (n < ·), greatest.filter (· < n) with
    | some least, _ => issue (.belowLeast least) v
    | none, some greatest => issue (.aboveGreatest greatest) v
    | none, none => .valid n

theorem least_le_of_bounded {least n : Int} {greatest : Option Int} {v : Json}
    (h : bounded (some least) greatest v = .valid n) : least ≤ n := by
  obtain ⟨m, -, h⟩ := andThen_eq_valid.mp h
  by_cases hleast : m < least
  · simp [Option.filter_some, hleast, issue] at h
  · cases hgreatest : greatest.filter (· < m) <;>
      simp [Option.filter_some, hleast, hgreatest, issue] at h
    omega

/-- Checks a value that was read, against a rule of the domain. -/
def refine {α β : Type} (read : Reader α) (rule : α → Except String β) : Reader β := fun v =>
  (read v).andThen fun a =>
    match rule a with
    | .ok b => .valid b
    | .error reason => issue (.refused reason) v

def record (name : String) : Reader Fields
  | .obj fields => .valid fields
  | v => issue (.notRecord name) v

/-- A field that has to be there. -/
def required {α : Type} (fields : Fields) (name : String) (read : Reader α) : Checked α :=
  within (.field name) <|
    match Json.field? fields name with
    | some v => read v
    | none => issue .missing (.obj fields)

/-- A field that has a value of its own if it is not there. -/
def defaulted {α : Type} (fields : Fields) (name : String) (default : α) (read : Reader α) :
    Checked α :=
  within (.field name) <|
    match Json.field? fields name with
    | some v => read v
    | none => .valid default

/-- A field that may be absent or null. -/
def optional {α : Type} (fields : Fields) (name : String) (read : Reader α) :
    Checked (Option α) :=
  defaulted fields name none (nullable read)

/-- A record whose variant is named by one of its fields; issues are placed under the variant. -/
def variant {α : Type} (variants : List (String × (Fields → Checked α))) : Reader α
  | .obj fields =>
    match Json.field? fields Problem.tagField with
    | none => issue .noTag (.obj fields)
    | some tag =>
      match tag with
      | .str s =>
        match variants.lookup s with
        | some read => (read fields).within (.field s)
        | none => issue (.unknownTag s (variants.map (·.1))) (.obj fields)
      | tag => issue (.unknownTag tag.display (variants.map (·.1))) (.obj fields)
  | v => issue .notVariant v

def word (words : List String) : Reader String
  | .str s => if words.contains s then .valid s else issue (.notAmong words) (.str s)
  | v => issue (.notAmong words) v

end SignatureSearch.Validation
