import CodeReview.Config.Field
import CodeReview.Path

/-! # Command lines

    A command line names a command and gives its options and paths.  An
    option with a value takes it from behind an equals sign, from the rest
    of a short option's argument, or from the next argument, whatever that
    looks like; of several values the last one counts.  Two dashes end the
    options.  A request for help goes before whatever is wrong with the
    values and paths beside it. -/

namespace CodeReview.CommandLine

/-- The options of the commands. -/
inductive Opt where
  | diff
  | repository
  | pull
  | format
  | output
  | post
  | threshold (field : Config.Field)
  | ignoreDir
  | ignoreFile
  | workers
  | verbose
  | help
deriving DecidableEq, Repr

/-- Whether an option takes no value. -/
def Opt.isFlag : Opt → Bool
  | .post => true
  | .verbose => true
  | .help => true
  | _ => false

/-- The names of the options that a command has. -/
structure OptionTable where
  /-- The long names, with their dashes. -/
  long : List (String × Opt) := [("--help", .help)]
  /-- The letters of the short names. -/
  short : List (Char × Opt) := []

/-- The options of a review. -/
def OptionTable.review : OptionTable where
  long :=
    [("--diff", .diff), ("--repo", .repository), ("--pr", .pull),
     ("--format", .format), ("--output", .output), ("--post", .post),
     ("--max-line-length", .threshold .maxLineLength),
     ("--max-method-length", .threshold .maxMethodLength),
     ("--max-file-size", .threshold .maxFileSize),
     ("--complexity-threshold", .threshold .complexityThreshold),
     ("--display-limit", .threshold .displayLimit),
     ("--ignore-dir", .ignoreDir), ("--ignore-file", .ignoreFile),
     ("--workers", .workers), ("--verbose", .verbose), ("--help", .help)]
  short :=
    [('d', .diff), ('f', .format), ('o', .output), ('w', .workers),
     ('v', .verbose)]

/-- What an argument says: it is a path, or it sets flags and may name an
    option with a value, which can be attached. -/
inductive Word where
  | path (text : String)
  | options (flags : List Opt) (valued : Option (Opt × Option String))
deriving DecidableEq, Repr

namespace Word

/-- The part of an argument behind its first equals sign. -/
def attached? (arg : Text) : Option String :=
  match arg.dropWhile (· != '=') with
  | [] => none
  | _ :: value => some (String.ofList value)

/-- An argument with the long name of an option. -/
def long? (table : OptionTable) (arg : Text) : Option Word := do
  let option ← table.long.lookup (String.ofList (arg.takeWhile (· != '=')))
  match attached? arg, option.isFlag with
  | none, true => return .options [option] none
  | some _, true => none
  | value, false => return .options [] (some (option, value))

/-- An argument with the short names of options: flags, and then perhaps an
    option whose value is the rest. -/
def short? (table : OptionTable) : Text → Option Word
  | [] => some (.options [] none)
  | letter :: rest => do
      let option ← table.short.lookup letter
      if option.isFlag then
        match ← short? table rest with
        | .options flags valued => return .options (option :: flags) valued
        | .path _ => none
      else
        return .options []
          (some (option, if rest.isEmpty then none else some (String.ofList rest)))

/-- Reads an argument; a lone dash is a path. -/
def read? (table : OptionTable) (arg : String) : Option Word :=
  match arg.toList with
  | '-' :: '-' :: rest => long? table ('-' :: '-' :: rest)
  | '-' :: letter :: rest => short? table (letter :: rest)
  | _ => some (.path arg)

end Word

/-- One thing that a command line gives. -/
inductive Item where
  | path (text : String)
  | flag (option : Opt)
  | value (option : Opt) (text : String)
deriving DecidableEq, Repr

namespace Item

/-- What a command line gives, in order; nothing if it cannot be read. -/
def scan (table : OptionTable) : List String → Option (List Item)
  | [] => some []
  | arg :: rest =>
      if arg = "--" then some (rest.map .path)
      else
        match Word.read? table arg with
        | none => none
        | some (.path text) => (scan table rest).map (.path text :: ·)
        | some (.options flags none) =>
            (scan table rest).map (flags.map .flag ++ ·)
        | some (.options flags (some (option, some text))) =>
            (scan table rest).map (flags.map .flag ++ .value option text :: ·)
        | some (.options flags (some (option, none))) =>
            match rest with
            | [] => none
            | text :: more =>
                (scan table more).map
                  (flags.map .flag ++ .value option text :: ·)

/-- The paths among the items. -/
def paths (items : List Item) : List String :=
  items.filterMap fun
    | .path text => some text
    | _ => none

/-- The values of an option, in order. -/
def values (items : List Item) (option : Opt) : List String :=
  items.filterMap fun
    | .value o text => if o = option then some text else none
    | _ => none

/-- The value of an option that counts. -/
def value? (items : List Item) (option : Opt) : Option String :=
  (values items option).getLast?

/-- The value of an option that must be a number, if it is given. -/
def integer? (readNumber : String → Option Int) (items : List Item)
    (option : Opt) : Option (Option Int) :=
  match value? items option with
  | none => some none
  | some text => (readNumber text).map some

/-- Whether a flag is set. -/
def isSet (items : List Item) (option : Opt) : Bool := items.contains (.flag option)

end Item

/-- What a review is asked for. -/
structure ReviewOptions where
  paths : List String := []
  diff : Option String := none
  repository : Option String := none
  pull : Option Int := none
  formatName : String := "markdown"
  output : Option String := none
  post : Bool := false
  thresholds : List (Config.Field × Option Int) := []
  ignoreDirs : List String := []
  ignoreFiles : List String := []
  /-- How many files are looked at side by side; the result does not depend
      on it. -/
  workers : Int := 1
  verbose : Bool := false
deriving DecidableEq, Repr

namespace ReviewOptions

/-- The thresholds that options can set. -/
def thresholdFields : List Config.Field := Config.Field.all.filter Config.Field.isNumber

/-- The options that some items give; nothing if a number is malformed,
    there are no workers, or a path to be reviewed or written cannot be
    one. -/
def ofItems (readNumber : String → Option Int) (items : List Item) :
    Option ReviewOptions := do
  let paths := Item.paths items
  let output := Item.value? items .output
  let _ ← (paths ++ output.toList).mapM fun path => (Path.read path).toOption
  let pull ← Item.integer? readNumber items .pull
  let thresholds ← thresholdFields.mapM fun field => do
    return (field, ← Item.integer? readNumber items (.threshold field))
  let workers := (← Item.integer? readNumber items .workers).getD 1
  if workers < 1 then none
  return {
    paths := paths
    diff := Item.value? items .diff
    repository := Item.value? items .repository
    pull := pull
    formatName := (Item.value? items .format).getD "markdown"
    output := output
    post := Item.isSet items .post
    thresholds := thresholds
    ignoreDirs := Item.values items .ignoreDir
    ignoreFiles := Item.values items .ignoreFile
    workers := workers
    verbose := Item.isSet items .verbose }

end ReviewOptions

/-- What help can be about. -/
inductive HelpTopic where
  | program
  | review
  | languages
deriving DecidableEq, Repr

/-- A command with its options. -/
inductive Command where
  | review (options : ReviewOptions)
  | languages
  | help (topic : HelpTopic)
deriving DecidableEq, Repr

namespace Command

/-- Reads the arguments in front of the name of a command: whether they ask
    for help, and the arguments from the name on. -/
def front? : List String → Option (Bool × List String)
  | [] => some (false, [])
  | "--" :: rest => some (false, rest)
  | arg :: rest =>
      match Word.read? {} arg with
      | none => none
      | some (.path _) => some (false, arg :: rest)
      | some (.options _ _) => (front? rest).map fun (_, rest) => (true, rest)

/-- Reads the arguments of a review. -/
def review? (readNumber : String → Option Int) (args : List String) :
    Option Command := do
  let items ← Item.scan .review args
  if Item.isSet items .help then return .help .review
  return .review (← ReviewOptions.ofItems readNumber items)

/-- Reads the arguments of the command that lists the languages; it takes
    none but a request for help. -/
def languages? (args : List String) : Option Command := do
  let items ← Item.scan {} args
  if Item.isSet items .help then return .help .languages
  if items.isEmpty then return .languages else none

/-- Reads a command line, where numbers are read in a given way. -/
def read? (readNumber : String → Option Int) (args : List String) :
    Option Command := do
  let (asksForHelp, args) ← front? args
  if asksForHelp then return .help .program
  match args with
  | "review" :: rest => review? readNumber rest
  | "languages" :: rest => languages? rest
  | _ => none

end Command

end CodeReview.CommandLine
