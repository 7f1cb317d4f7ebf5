import CodeReview.Finding
import CodeReview.Json.Basic
import CodeReview.Text.LooseInteger

/-! # Checking values

    Values from outside are checked field by field.  All faults are
    collected, each with the place it was found at. -/

namespace CodeReview

/-- What can be wrong with a value. -/
inductive FaultKind where
  | missing
  | intType
  | intParsing
  | intParsingSize
  | intFromFloat
  | notFinite
  | lessThan (bound : Nat)
  | stringType
  | emptyMessage
  | blankMessage
  | setType
  | tupleType
  | mappingType
  | recordType (name : String)
  | unknownName (names : List String)
  /-- Anything that only values of other kinds can have. -/
  | other (code message : String)
deriving DecidableEq, Repr

namespace FaultKind

/-- The code of a fault. -/
def code : FaultKind → String
  | .missing => "missing"
  | .intType => "int_type"
  | .intParsing => "int_parsing"
  | .intParsingSize => "int_parsing_size"
  | .intFromFloat => "int_from_float"
  | .notFinite => "finite_number"
  | .lessThan _ => "greater_than_equal"
  | .stringType => "string_type"
  | .emptyMessage => "string_too_short"
  | .blankMessage => "value_error"
  | .setType => "frozen_set_type"
  | .tupleType => "tuple_type"
  | .mappingType => "dict_type"
  | .recordType _ => "model_type"
  | .unknownName _ => "literal_error"
  | .other code _ => code

/-- Names in quotes, with a comma between each two but an "or" before the
    last one. -/
def alternatives : List String → String
  | [] => ""
  | [name] => s!"'{name}'"
  | [name, last] => s!"'{name}' or '{last}'"
  | name :: rest => s!"'{name}', " ++ alternatives rest

/-- The wording of a fault. -/
def message : FaultKind → String
  | .missing => "Field required"
  | .intType => "Input should be a valid integer"
  | .intParsing =>
      "Input should be a valid integer, unable to parse string as an integer"
  | .intParsingSize =>
      "Unable to parse input string as an integer, exceeded maximum size"
  | .intFromFloat =>
      "Input should be a valid integer, got a number with a fractional part"
  | .notFinite => "Input should be a finite number"
  | .lessThan bound => s!"Input should be greater than or equal to {bound}"
  | .stringType => "Input should be a valid string"
  | .emptyMessage => Finding.Flaw.emptyMessage.message
  | .blankMessage => Finding.Flaw.blankMessage.message
  | .setType => "Input should be a valid frozenset"
  | .tupleType => "Input should be a valid tuple"
  | .mappingType => "Input should be a valid dictionary"
  | .recordType name => s!"Input should be a valid dictionary or instance of {name}"
  | .unknownName names => s!"Input should be {alternatives names}"
  | .other _ message => message

end FaultKind

/-- A fault and the place it was found at. -/
structure Fault where
  kind : FaultKind
  place : List String
deriving DecidableEq, Repr

/-- A checked value, or the faults that were found. -/
inductive Checked (α : Type) where
  | valid (value : α)
  | invalid (faults : List Fault)

namespace Checked

/-- The faults that were found. -/
def faults {α : Type} : Checked α → List Fault
  | valid _ => []
  | invalid fs => fs

/-- Two checks side by side: the faults of both are collected. -/
def both {α β : Type} (f : Checked (α → β)) (x : Checked α) : Checked β :=
  match f, x with
  | valid f, valid x => valid (f x)
  | f, x => invalid (f.faults ++ x.faults)

instance : Applicative Checked where
  pure := valid
  seq f x := both f (x ())

/-- A single fault at the place of the check itself. -/
def fault {α : Type} (kind : FaultKind) : Checked α := invalid [⟨kind, []⟩]

/-- The same check at a place further down. -/
def within {α : Type} (step : String) : Checked α → Checked α
  | valid a => valid a
  | invalid fs => invalid (fs.map fun f => { f with place := step :: f.place })

/-- Checks a list of values, each at the place of its index. -/
def listFrom {α β : Type} (check : α → Checked β) (index : Nat) :
    List α → Checked (List β)
  | [] => valid []
  | a :: rest =>
      both (both (valid List.cons) (within (toString index) (check a)))
        (listFrom check (index + 1) rest)

/-- Checks a list of values in order, without a place of their own. -/
def list {α β : Type} (check : α → Checked β) : List α → Checked (List β)
  | [] => valid []
  | a :: rest => both (both (valid List.cons) (check a)) (list check rest)

end Checked

namespace Check

/-- Numbers written with a point must be below this in size to count as
    integers. -/
def realBound : Nat := 0x8000000000000000

/-- The integer that a floating-point number equals. -/
def wholeReal : Floating → Checked Int
  | .finite x =>
      match x.toInt? with
      | some n => if n.natAbs < realBound then .valid n else .fault .intParsingSize
      | none => .fault .intFromFloat
  | _ => .fault .notFinite

/-- An integer: a whole number, a truth value, or a text that writes an
    integer. -/
def integer : Json → Checked Int
  | .int n => .valid n
  | .bool b => .valid (if b then 1 else 0)
  | .real x => wholeReal x
  | .str s =>
      match Text.looseInteger s.toList with
      | .ok n => .valid n
      | .error .tooLong => .fault .intParsingSize
      | .error .malformed => .fault .intParsing
  | _ => .fault .intType

/-- A checked integer that must not be below a bound. -/
def atLeast (bound : Nat) : Checked Int → Checked Nat
  | .valid n => if n < bound then .fault (.lessThan bound) else .valid n.toNat
  | .invalid fs => .invalid fs

/-- An integer that is not below a bound. -/
def natural (bound : Nat) (value : Json) : Checked Nat := atLeast bound (integer value)

/-- A text. -/
def string : Json → Checked String
  | .str s => .valid s
  | _ => .fault .stringType

/-- One of some names. -/
def named {α : Type} (ofName? : String → Option α) (names : List String)
    (value : Json) : Checked α :=
  match value with
  | .str s =>
      match ofName? s with
      | some a => .valid a
      | none => .fault (.unknownName names)
  | _ => .fault (.unknownName names)

/-- A category by its name. -/
def category : Json → Checked Category :=
  named Category.ofName? (Category.all.map Category.name)

/-- A severity by its name. -/
def severity : Json → Checked Severity :=
  named Severity.ofName? (Severity.all.map Severity.name)

/-- A message that is not blank. -/
def message (value : Json) : Checked String :=
  match string value with
  | .invalid fs => .invalid fs
  | .valid s =>
      match Finding.messageFlaw? s with
      | some .emptyMessage => .fault .emptyMessage
      | some _ => .fault .blankMessage
      | none => .valid s

/-- A list of values. -/
def tuple {α : Type} (check : Json → Checked α) : Json → Checked (List α)
  | .arr items => Checked.listFrom check 0 items
  | _ => .fault .tupleType

/-- A set of names. -/
def names : Json → Checked (List String)
  | .arr items => Checked.listFrom string 0 items
  | _ => .fault .setType

/-- A mapping; a fault of a key is marked as such. -/
def mapping {α β : Type} (key : Json → Checked α) (value : Json → Checked β) :
    Json → Checked (List (α × β))
  | .obj members =>
      Checked.list
        (fun (name, v) =>
          Checked.within name
            ((Prod.mk <$> Checked.within "[key]" (key (.str name))) <*> value v))
        members
  | _ => .fault .mappingType

/-- A field that must be present. -/
def required {α : Type} (record : Json) (name : String)
    (check : Json → Checked α) : Checked α :=
  Checked.within name
    (match record.member? name with
     | some value => check value
     | none => .fault .missing)

/-- A field that may be left out. -/
def optional {α : Type} (record : Json) (name : String) (fallback : α)
    (check : Json → Checked α) : Checked α :=
  Checked.within name
    (match record.member? name with
     | some value => check value
     | none => .valid fallback)

/-- A line number, or null. -/
def line : Json → Checked (Option Nat)
  | .null => .valid none
  | value => some <$> natural 1 value

/-- A finding. -/
def finding (record : Json) : Checked Finding :=
  match record with
  | .obj _ =>
      Finding.mk <$> required record "file" string
        <*> optional record "line" none line
        <*> required record "category" category
        <*> required record "severity" severity
        <*> required record "message" message
        <*> optional record "suggestion" "" string
  | _ => .fault (.recordType "Finding")

end Check

end CodeReview
