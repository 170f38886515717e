import LogicSignature.Number.Numeral
import LogicSignature.Output.Format

/-
What a command line may hold: options with their spellings, at most one operand, and the complaints
about a line that does not fit.
-/

namespace LogicSignature.CommandLine

/-- What an option is for. -/
inductive Purpose where
  | help
  | version
  | format
  | quiet
  | config
  | argument
  | langSpec
  | offset
deriving DecidableEq, Repr

/-- Whether an option is followed by a value. -/
def Purpose.takesValue : Purpose → Bool
  | .help | .version | .quiet => false
  | .format | .config | .argument | .langSpec | .offset => true

/-- An option: its spellings, and what it is for. -/
structure Switch where
  names : List Text
  purpose : Purpose
deriving DecidableEq, Repr

/-- The name of an option in messages. -/
def Switch.title (option : Switch) : Text := Text.join "/" option.names

/-- The operand of a command: none, a text, an integer, or the name of a subcommand with all that
follows. -/
inductive Operand where
  | absent
  | text (name : Text)
  | integer (name : Text)
  | command (name : Text) (choices : List Text)
deriving DecidableEq, Repr

/-- The form of the arguments of one command. -/
structure Grammar where
  name : Text
  usage : Text
  details : Text
  switches : List Switch
  operand : Operand

def Grammar.help (grammar : Grammar) : Text := grammar.usage ++ "\n" ++ grammar.details

/-- The spellings of all options, each with its option. -/
def Grammar.spellings (grammar : Grammar) : List (Text × Switch) :=
  grammar.switches.flatMap (fun option => option.names.map (fun name => (name, option)))

/-- The option of a spelling. -/
def Grammar.switch? (grammar : Grammar) (name : Text) : Option Switch :=
  grammar.spellings.lookup name

/-- The value of an option: a text, or nothing at all when only the end mark of the options is
attached to it. -/
inductive Argument where
  | text (content : Text)
  | blank
deriving DecidableEq, Repr

/-- What a command line asks for, apart from the command. There is no format or offset when a blank
value was given for it. -/
structure Given where
  format : Option Output.Format := some .json
  quiet : Bool := false
  config : Option Argument := none
  arguments : List Argument := []
  langSpec : Option Argument := none
  offset : Option Int := some 0
  text : Text := []
  number : Int := 0
deriving DecidableEq

/-- Why a command line is refused. -/
inductive Complaint where
  | ambiguous (option : Text) (names : List Text)
  | missingValue (argument : Text)
  | ignoredValue (argument given : Text)
  | invalidChoice (argument given : Text) (choices : List Text)
  | invalidInteger (argument given : Text)
  | required (argument : Text)
  | unrecognized (arguments : List Text)
deriving DecidableEq, Repr

def Complaint.message : Complaint → Text
  | .ambiguous option names =>
    "ambiguous option: " ++ option ++ " could match " ++ Text.join ", " names
  | .missingValue argument => "argument " ++ argument ++ ": expected one argument"
  | .ignoredValue argument given =>
    "argument " ++ argument ++ ": ignored explicit argument " ++ given.quoted
  | .invalidChoice argument given choices =>
    "argument " ++ argument ++ ": invalid choice: " ++ given.quoted ++ " (choose from "
      ++ Text.join ", " (choices.map Text.quoted) ++ ")"
  | .invalidInteger argument given =>
    "argument " ++ argument ++ ": invalid int value: " ++ given.quoted
  | .required argument => "the following arguments are required: " ++ argument
  | .unrecognized arguments => "unrecognized arguments: " ++ Text.join " " arguments

/-- What ends the reading of a command line before a command is found. -/
inductive Stop where
  | complaint (complaint : Complaint)
  | help
  | version
deriving DecidableEq, Repr

end LogicSignature.CommandLine
