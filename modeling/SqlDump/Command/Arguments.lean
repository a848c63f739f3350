import SqlDump.Text.Numeral

/-!
# Arguments

The reader of command lines: options with and without values, long and short, words in order, and
what can be wrong with them. The first fault from the left is reported, but one of a value only when
the next option or word is taken.
-/

namespace SqlDump.Command

open Text

/-- Why a command line was not accepted, or what was asked for instead of a command. -/
inductive UsageError where
  | displayHelp
  | displayVersion
  /-- Nothing was given at all. -/
  | nothingGiven
  | missingCommand
  | unknownCommand
  | unknownArgument
  /-- An option was given twice. -/
  | repeatedOption
  /-- A value is missing, empty or none of those allowed. -/
  | invalidValue
  /-- A value was given to an option that takes none. -/
  | unneededValue
  /-- A value could not be read. -/
  | unreadableValue
  | missingWord
  deriving DecidableEq, Repr

namespace UsageError

/-- The name of an error. -/
def name : UsageError → Text
  | displayHelp => "DisplayHelp"
  | displayVersion => "DisplayVersion"
  | nothingGiven => "DisplayHelpOnMissingArgumentOrSubcommand"
  | missingCommand => "MissingSubcommand"
  | unknownCommand => "InvalidSubcommand"
  | unknownArgument => "UnknownArgument"
  | repeatedOption => "ArgumentConflict"
  | invalidValue => "InvalidValue"
  | unneededValue => "TooManyValues"
  | unreadableValue => "ValueValidation"
  | missingWord => "MissingRequiredArgument"

/-- The exit status for an error. What was asked for is none. -/
def exit : UsageError → Nat
  | displayHelp | displayVersion => 0
  | _ => 2

end UsageError

/-- What may be given as a value. -/
inductive ValueKind where
  | text
  /-- Anything but nothing. -/
  | path
  /-- A natural number of 64 bits. -/
  | size
  /-- One of some names. -/
  | choice (names : List Text)
  deriving DecidableEq, Repr

/-- The number that a value stands for. -/
def size? (t : Text) : Option Nat := (numeral? 10 (unsigned t)).filter fun n => decide (n ≤ wordMax)

/-- Checks a value. -/
def ValueKind.check (k : ValueKind) (t : Text) : Except UsageError Unit :=
  match k with
  | .text => .ok ()
  | .path => if t.isEmpty then .error .invalidValue else .ok ()
  | .size => if (size? t).isSome then .ok () else .error .unreadableValue
  | .choice names => if names.contains t then .ok () else .error .invalidValue

/-- What an option does. -/
inductive OptionKind where
  /-- It is given or not. -/
  | flag
  /-- It is given any number of times. -/
  | counted
  | value (kind : ValueKind)
  | help
  | version
  deriving DecidableEq, Repr

/-- An option by its names. -/
structure OptionSpec where
  long : Text
  short : Option Char
  kind : OptionKind
  deriving DecidableEq, Repr

/-- Whether an option takes a value. -/
def OptionSpec.takesValue (spec : OptionSpec) : Bool :=
  match spec.kind with
  | .value _ => true
  | _ => false

/-- The options that a command knows. -/
abbrev OptionSpecs := List OptionSpec

/-- The options and words that were given. -/
structure Matches where
  /-- The options, under their long names, with their values. -/
  given : List (Text × Text) := []
  words : List Text := []
  deriving DecidableEq, Repr

namespace Matches

/-- Whether an option was given. -/
def has (m : Matches) (long : Text) : Bool := (m.given.lookup long).isSome

/-- The value of an option. -/
def value? (m : Matches) (long : Text) : Option Text := m.given.lookup long

/-- The options given, with one more. -/
def put (m : Matches) (long value : Text) : Except UsageError Matches :=
  if m.has long then .error .repeatedOption
  else .ok { m with given := m.given ++ [(long, value)] }

end Matches

/-- What was read last and is not taken yet. -/
inductive Pending where
  /-- An option, with its value once that is read. -/
  | option (spec : OptionSpec) (value : Option Text)
  | word (kind : ValueKind) (value : Text)
  deriving DecidableEq, Repr

/-- The state of a reader: what was taken, and what was read last. A fault of the latter shows when
it is taken, which the next option or word makes happen. -/
structure Reading where
  taken : Matches := {}
  pending : Option Pending := none
  deriving DecidableEq, Repr

namespace Reading

/-- The option that waits for its value. -/
def waiting? (r : Reading) : Option OptionSpec :=
  match r.pending with
  | some (.option spec none) => some spec
  | _ => none

/-- The number of words read. -/
def wordCount (r : Reading) : Nat :=
  match r.pending with
  | some (.word _ _) => r.taken.words.length + 1
  | _ => r.taken.words.length

/-- Takes an option with a value, which is empty for an option without. -/
def give (m : Matches) (spec : OptionSpec) (value : Text) : Except UsageError Matches := do
  let m ← m.put spec.long value
  match spec.kind with
  | .value kind => kind.check value
  | _ => .ok ()
  return m

/-- Takes what was read last. -/
def settle (r : Reading) : Except UsageError Matches :=
  match r.pending with
  | none => .ok r.taken
  | some (.option _ none) => .error .invalidValue
  | some (.option spec (some value)) => give r.taken spec value
  | some (.word kind value) => do
    kind.check value
    return { r.taken with words := r.taken.words ++ [value] }

/-- Reads an option without a value. -/
def mark (r : Reading) (spec : OptionSpec) : Except UsageError Reading := do
  let m ← r.settle
  match spec.kind with
  | .help => .error .displayHelp
  | .version => .error .displayVersion
  | .counted => return { taken := m }
  | _ => return { taken := ← give m spec [] }

/-- Reads an option with the value attached to it, or waits for one. -/
def await (r : Reading) (spec : OptionSpec) (attached : Option Text) :
    Except UsageError Reading := do
  let m ← r.settle
  match attached with
  | some value => return { taken := ← give m spec value }
  | none => return { taken := m, pending := some (.option spec none) }

/-- Reads an option by its long name, given from behind the dashes. -/
def long (specs : OptionSpecs) (r : Reading) (t : Text) : Except UsageError Reading :=
  let attached := match t.dropWhile (· != '=') with
    | _ :: value => some value
    | [] => none
  match specs.find? (·.long == t.takeWhile (· != '=')) with
  | none => .error .unknownArgument
  | some spec =>
    if spec.takesValue then r.await spec attached
    else if attached.isSome then .error .unneededValue
    else r.mark spec

/-- Reads options by their short names, given from behind the dash. What follows one that takes a
value is its value. -/
def short (specs : OptionSpecs) (r : Reading) : Text → Except UsageError Reading
  | [] => .ok r
  | c :: rest =>
    match specs.find? (·.short == some c) with
    | none => .error .unknownArgument
    | some spec =>
      if spec.takesValue then
        r.await spec (match rest with
          | [] => none
          | '=' :: value => some value
          | value => some value)
      else
        match r.mark spec with
        | .ok r => short specs r rest
        | .error e => .error e

/-- Reads an argument that begins with a dash, or the value that is waited for. Nothing for any
other. -/
def argument? (specs : OptionSpecs) (r : Reading) (t : Text) :
    Option (Except UsageError Reading) :=
  match t with
  | '-' :: '-' :: name => some (r.long specs name)
  | '-' :: c :: names => some (r.short specs (c :: names))
  | _ => r.waiting?.map fun spec => .ok { r with pending := some (.option spec (some t)) }

/-- Reads a word. -/
def word (words : List ValueKind) (r : Reading) (t : Text) : Except UsageError Reading :=
  match words[r.wordCount]? with
  | none => .error .unknownArgument
  | some kind => r.settle.map fun m => { taken := m, pending := some (.word kind t) }

end Reading

/-- The reading of a command's arguments: options anywhere, and words of the given kinds. `escaped`
says whether all that follow are words. -/
def readWords (specs : OptionSpecs) (words : List ValueKind) (escaped : Bool) (r : Reading) :
    List Text → Except UsageError Matches
  | [] =>
    match r.settle with
    | .error e => .error e
    | .ok m => if m.words.length < words.length then .error .missingWord else .ok m
  | t :: rest =>
    if t = ['-', '-'] ∧ !escaped then readWords specs words true r rest
    else
      match (if escaped then none else r.argument? specs t).getD (r.word words t) with
      | .ok r => readWords specs words escaped r rest
      | .error e => .error e

/-- The name of the command that is given, and the arguments behind it. `given` says whether options
came before. -/
def readCommand (specs : OptionSpecs) (commands : List Text) (given : Bool) :
    List Text → Except UsageError (Text × List Text)
  | [] => .error (if given then .missingCommand else .nothingGiven)
  | t :: rest =>
    if commands.contains t then .ok (t, rest)
    else if t = ['-', '-'] then
      match rest with
      | [] => .error (if given then .missingCommand else .nothingGiven)
      | name :: _ => .error (if commands.contains name then .unknownArgument else .unknownCommand)
    else
      match ({} : Reading).argument? specs t with
      | some (.ok _) => readCommand specs commands true rest
      | some (.error e) => .error e
      | none => .error .unknownCommand

end SqlDump.Command
