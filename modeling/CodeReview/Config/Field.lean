import CodeReview.Config.Basic
import CodeReview.Json.Shown
import CodeReview.Log
import CodeReview.Validation

/-! # Configuration values

    A configuration can be read from values of any kind that says what its
    values come to as integers and as names.  Each field is checked on its
    own.  Strict reading reports every fault; lenient reading drops a value
    with a fault, with a warning, and leaves the default in its place. -/

namespace CodeReview.Config

/-- The fields of the configuration. -/
inductive Field where
  | maxLineLength
  | maxMethodLength
  | maxFileSize
  | complexityThreshold
  | displayLimit
  | ignoreDirs
  | ignoreFiles
deriving DecidableEq, Repr

namespace Field

/-- Every field, in the order of declaration. -/
def all : List Field :=
  [.maxLineLength, .maxMethodLength, .maxFileSize, .complexityThreshold,
   .displayLimit, .ignoreDirs, .ignoreFiles]

/-- The name of a field. -/
def name : Field → String
  | .maxLineLength => "max_line_length"
  | .maxMethodLength => "max_method_length"
  | .maxFileSize => "max_file_size"
  | .complexityThreshold => "complexity_threshold"
  | .displayLimit => "display_limit"
  | .ignoreDirs => "ignore_dirs"
  | .ignoreFiles => "ignore_files"

/-- The field with a name. -/
def ofName? (s : String) : Option Field := all.find? (·.name == s)

/-- Whether a field holds a number. -/
def isNumber : Field → Bool
  | .ignoreDirs => false
  | .ignoreFiles => false
  | _ => true

/-- The least number that a field may hold. -/
def least : Field → Nat
  | .displayLimit => 0
  | _ => 1

/-- A field is found by its name. -/
theorem ofName?_name (field : Field) : ofName? field.name = some field := by
  cases field <;> decide

end Field

/-- What a field holds: a number, or names. -/
inductive FieldValue where
  | number (n : Nat)
  | names (names : List String)
deriving DecidableEq, Repr

/-- What a configuration holds in a field. -/
def get (config : Config) : Field → FieldValue
  | .maxLineLength => .number config.maxLineLength
  | .maxMethodLength => .number config.maxMethodLength
  | .maxFileSize => .number config.maxFileSize
  | .complexityThreshold => .number config.complexityThreshold
  | .displayLimit => .number config.displayLimit
  | .ignoreDirs => .names config.ignoreDirs
  | .ignoreFiles => .names config.ignoreFiles

/-- The configuration with another value in a field.  A value of the wrong
    kind changes nothing. -/
def set (config : Config) (field : Field) (value : FieldValue) : Config :=
  match field, value with
  | .maxLineLength, .number n => { config with maxLineLength := n }
  | .maxMethodLength, .number n => { config with maxMethodLength := n }
  | .maxFileSize, .number n => { config with maxFileSize := n }
  | .complexityThreshold, .number n => { config with complexityThreshold := n }
  | .displayLimit, .number n => { config with displayLimit := n }
  | .ignoreDirs, .names names => { config with ignoreDirs := names }
  | .ignoreFiles, .names names => { config with ignoreFiles := names }
  | _, _ => config

/-- Values that fields can be set to.  What a value is taken for is a matter
    of this value alone, and integers and names are taken for what they
    are. -/
class Setting (V : Type) where
  /-- Whether a value is given at all. -/
  isGiven : V → Bool
  /-- How a value reads in a message. -/
  shown : V → String
  /-- The integer that a value is taken for, or what is wrong with it. -/
  integer : V → Checked Int
  /-- The names that a value is taken for, or what is wrong with it. -/
  names : V → Checked (List String)
  /-- An integer as a value. -/
  ofInt : Int → V
  /-- Names as a value. -/
  ofNames : List String → V
  isGiven_ofInt (n : Int) : isGiven (ofInt n) = true
  isGiven_ofNames (ns : List String) : isGiven (ofNames ns) = true
  integer_ofInt (n : Int) : integer (ofInt n) = .valid n
  names_ofNames (ns : List String) : names (ofNames ns) = .valid ns

/-- Texts pass the check of a list of texts, whatever index they start
    at. -/
theorem listFrom_string (ns : List String) (index : Nat) :
    Checked.listFrom Check.string index (ns.map .str) = .valid ns := by
  induction ns generalizing index with
  | nil => rfl
  | cons n ns ih =>
      rw [List.map_cons, Checked.listFrom, ih]
      rfl

instance : Setting Json where
  isGiven
    | .null => false
    | _ => true
  shown := Json.shown
  integer := Check.integer
  names := Check.names
  ofInt := .int
  ofNames := Json.ofStrings
  isGiven_ofInt _ := rfl
  isGiven_ofNames _ := rfl
  integer_ofInt _ := rfl
  names_ofNames ns := listFrom_string ns 0

section Reading

variable {V : Type} [Setting V]

/-- Checks a value for a field. -/
def Field.check (field : Field) (value : V) : Checked FieldValue :=
  if field.isNumber then
    .number <$> Check.atLeast field.least (Setting.integer value)
  else (fun names => .names (nameSet names)) <$> Setting.names value

/-- The value that some members give for a name; the last one, if several
    do. -/
def member? {α : Type} (members : List (String × α)) (name : String) : Option α :=
  members.reverse.lookup name

/-- Takes the member for one field. -/
def takeMember (members : List (String × V)) (config : Checked Config)
    (field : Field) : Checked Config :=
  match member? members field.name with
  | none => config
  | some value =>
      (fun c v => c.set field v) <$> config
        <*> Checked.within field.name (field.check value)

/-- Strict reading: every field that has a member must be valid. -/
def ofMembers (members : List (String × V)) : Checked Config :=
  Field.all.foldl (takeMember members) (.valid {})

/-- Strict reading of a record. -/
def ofRecord (record : Json) : Checked Config :=
  match record with
  | .obj members => ofMembers members
  | _ => .fault (.recordType "Config")

/-- The warning about a name that no field has. -/
def warnUnknown (name : String) : Logged Unit :=
  .emit .warning s!"Ignoring unknown config key {Text.quote name}"

/-- The warning about a value with faults, with the wording of the first
    one. -/
def warnInvalid (name : String) (value : V) (faults : List Fault) :
    Logged Unit :=
  let reason := (faults.head?.map (·.kind.message)).getD ""
  .emit .warning
    s!"Invalid value {Setting.shown value} for {name}, using default: {reason}"

/-- Takes one value into a configuration, or leaves it with a warning. -/
def accept (config : Config) (name : String) (value : V) : Logged Config :=
  if !Setting.isGiven value then pure config
  else
    match Field.ofName? name with
    | none => do
        warnUnknown name
        return config
    | some field =>
        match field.check value with
        | .valid content => pure (config.set field content)
        | .invalid faults => do
            warnInvalid name value faults
            return config

/-- Takes values into a configuration one after the other. -/
def acceptAll (config : Config) : List (String × V) → Logged Config
  | [] => pure config
  | (name, value) :: rest => do
      let config ← config.accept name value
      acceptAll config rest

/-- Lenient reading of a mapping, from the defaults. -/
def ofMapping (values : List (String × V)) : Logged Config :=
  acceptAll {} values

end Reading

end CodeReview.Config
