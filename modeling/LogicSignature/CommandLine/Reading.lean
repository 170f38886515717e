import LogicSignature.CommandLine.Command
import LogicSignature.CommandLine.Piece

/-
The meaning of a command line: options and operands are taken one after the other, a subcommand
takes all that follows it, and what fits nowhere is left over and reported at the end.

Two rules are those of an older convention, which was changed later. A value that is `--` counts as
blank, where it is now kept as it is. And in `-qf=json` the value of `-f` is `=json`, where the mark
of equality is now left out as it is in `-f=json`.
-/

namespace LogicSignature.CommandLine

/-! ### Options -/

/-- How the last option written into an argument ends. -/
inductive Ending where
  | complete
  | value (switch : Switch) (text : Text)
  | awaiting (switch : Switch)
deriving DecidableEq, Repr

/-- An option without an attached value. -/
def alone (switch : Switch) : List Switch × Ending :=
  if switch.purpose.takesValue then ([], .awaiting switch) else ([switch], .complete)

/-- Takes apart what is written together with a one-letter option: the options without value, and
how the last one ends. Every letter behind an option without value must be an option, and all that
is left behind the letter of an option with a value is its value. -/
def unbundle (grammar : Grammar) : Switch → Text → Except Complaint (List Switch × Ending)
  | switch, [] =>
    if switch.purpose.takesValue then .ok ([], .value switch [])
    else .error (.ignoredValue switch.title [])
  | switch, letter :: rest =>
    if switch.purpose.takesValue then .ok ([], .value switch (letter :: rest))
    else
      match grammar.switch? [.char '-', letter] with
      | none => .error (.ignoredValue switch.title (letter :: rest))
      | some next =>
        if rest.isEmpty then
          let (others, ending) := alone next
          .ok (switch :: others, ending)
        else
          match unbundle grammar next rest with
          | .error complaint => .error complaint
          | .ok (others, ending) => .ok (switch :: others, ending)

/-- The options of an argument, and how the last one ends. -/
def optionsOf (grammar : Grammar) (switch : Switch) (short : Bool) (attached : Option Text) :
    Except Complaint (List Switch × Ending) :=
  match attached with
  | none => .ok (alone switch)
  | some value =>
    if short then unbundle grammar switch value
    else if switch.purpose.takesValue then .ok ([], .value switch value)
    else .error (.ignoredValue switch.title value)

/-- Takes an option without value. -/
def takeFlag (given : Given) (switch : Switch) : Except Stop Given :=
  match switch.purpose with
  | .help => .error .help
  | .version => .error .version
  | .quiet => .ok { given with quiet := true }
  | _ => .ok given

/-- The value that the text of an option stands for, by the older convention. -/
def argumentOf (text : Text) : Argument := if text == "--" then .blank else .text text

/-- Takes an option with a text as its value. -/
def takeText (given : Given) (switch : Switch) (text : Text) : Except Stop Given :=
  match switch.purpose with
  | .format =>
    match Output.Format.ofName? text with
    | some format => .ok { given with format := some format }
    | none =>
      .error (.complaint (.invalidChoice switch.title text (Output.Format.all.map (·.name))))
  | .offset =>
    match Numeral.parse text with
    | .ok offset => .ok { given with offset := some offset }
    | .error _ => .error (.complaint (.invalidInteger switch.title text))
  | .config => .ok { given with config := some (.text text) }
  | .argument => .ok { given with arguments := given.arguments ++ [.text text] }
  | .langSpec => .ok { given with langSpec := some (.text text) }
  | _ => .ok given

/-- Takes an option with a blank value. -/
def takeBlank (given : Given) (switch : Switch) : Given :=
  match switch.purpose with
  | .format => { given with format := none }
  | .offset => { given with offset := none }
  | .config => { given with config := some .blank }
  | .argument => { given with arguments := given.arguments ++ [.blank] }
  | .langSpec => { given with langSpec := some .blank }
  | _ => given

/-- Takes an option with its value. -/
def takeValue (given : Given) (switch : Switch) (text : Text) : Except Stop Given :=
  match argumentOf text with
  | .text content => takeText given switch content
  | .blank => .ok (takeBlank given switch)

def takeFlags (given : Given) : List Switch → Except Stop Given
  | [] => .ok given
  | switch :: rest =>
    match takeFlag given switch with
    | .error stop => .error stop
    | .ok next => takeFlags next rest

/-! ### One command -/

/-- What the next piece is looked at for: the value of an option that waits for it after others, a
terminator that belongs to the operand before, or the operand that a terminator belongs to. -/
inductive Expecting where
  | anything
  | value (flags : List Switch) (last : Switch)
  | afterOperand
  | afterTerminator
deriving DecidableEq, Repr

/-- What has been taken so far, whether the operand is still awaited, and what was left over. -/
structure Progress where
  given : Given
  awaited : Bool
  expecting : Expecting
  leftOver : List Text

/-- Where a piece leads: on to the next one, or to a subcommand. -/
inductive Step where
  | next (progress : Progress)
  | subcommand (word : Text)

/-- Leaves an argument over. -/
def leave (progress : Progress) (text : Text) : Progress :=
  { progress with expecting := .anything, leftOver := progress.leftOver ++ [text] }

/-- Takes options without value, then one with its value. -/
def takeOptions (given : Given) (flags : List Switch) (last : Switch) (text : Text) :
    Except Stop Given := do
  let flagged ← takeFlags given flags
  takeValue flagged last text

/-- Takes an option. -/
def takeOption (grammar : Grammar) (progress : Progress) (switch : Switch) (short : Bool)
    (attached : Option Text) : Except Stop Progress :=
  match optionsOf grammar switch short attached with
  | .error complaint => .error (.complaint complaint)
  | .ok (flags, .awaiting last) => .ok { progress with expecting := .value flags last }
  | .ok (flags, .complete) => do
    let given ← takeFlags progress.given flags
    return { progress with given, expecting := .anything }
  | .ok (flags, .value last text) => do
    let given ← takeOptions progress.given flags last text
    return { progress with given, expecting := .anything }

def takeOperand (operand : Operand) (given : Given) (text : Text) : Except Stop Given :=
  match operand with
  | .integer name =>
    match Numeral.parse text with
    | .ok number => .ok { given with number }
    | .error _ => .error (.complaint (.invalidInteger name text))
  | _ => .ok { given with text }

/-- Takes something that is no option. -/
def takeWord (grammar : Grammar) (progress : Progress) (text : Text) : Except Stop Step :=
  if progress.awaited then
    match grammar.operand with
    | .absent => .ok (.next (leave progress text))
    | .command name choices =>
      let word : Text := if progress.expecting = .afterTerminator then "--" else text
      if choices.contains word then .ok (.subcommand word)
      else .error (.complaint (.invalidChoice name word choices))
    | operand => do
      let given ← takeOperand operand progress.given text
      return .next { progress with given, awaited := false, expecting := .afterOperand }
  else .ok (.next (leave progress text))

/-- Takes a terminator: it belongs to an operand next to it, and is left over otherwise. -/
def takeTerminator (grammar : Grammar) (progress : Progress) : Progress :=
  if progress.expecting = .afterOperand then { progress with expecting := .anything }
  else if progress.awaited && grammar.operand != .absent then
    { progress with expecting := .afterTerminator }
  else leave progress "--"

/-- Takes one piece. -/
def takePiece (grammar : Grammar) (progress : Progress) (piece : Piece) : Except Stop Step :=
  match progress.expecting, piece with
  | .value flags last, .operand text => do
    let given ← takeOptions progress.given flags last text
    return .next { progress with given, expecting := .anything }
  | .value _ last, _ => .error (.complaint (.missingValue last.title))
  | _, .terminator => .ok (.next (takeTerminator grammar progress))
  | _, .operand text => takeWord grammar progress text
  | _, .unknown text => .ok (.next (leave progress text))
  | _, .option _ switch short attached => do
    let next ← takeOption grammar progress switch short attached
    return .next next

/-- The reading of the arguments of one command: what was given, what was left over, and the
subcommand with its arguments. -/
structure Reading where
  given : Given
  leftOver : List Text
  subcommand : Option (Text × List Text)

/-- The end of the arguments: no option may wait for its value, and a text or integer must have been
given. -/
def finish (grammar : Grammar) (progress : Progress) : Except Stop Reading :=
  let trailing :=
    if progress.expecting = .afterTerminator then (leave progress "--").leftOver
    else progress.leftOver
  let reading : Reading := ⟨progress.given, trailing, none⟩
  match progress.expecting, progress.awaited, grammar.operand with
  | .value _ last, _, _ => .error (.complaint (.missingValue last.title))
  | _, true, .text name => .error (.complaint (.required name))
  | _, true, .integer name => .error (.complaint (.required name))
  | _, _, _ => .ok reading

/-- Takes the pieces of one command, one after the other, up to a subcommand. -/
def takePieces (grammar : Grammar) : List Piece → Progress → Except Stop Reading
  | [], progress => finish grammar progress
  | piece :: rest, progress =>
    match takePiece grammar progress piece with
    | .error stop => .error stop
    | .ok (.next following) => takePieces grammar rest following
    | .ok (.subcommand word) =>
      .ok ⟨progress.given, progress.leftOver, some (word, rest.map Piece.text)⟩

/-- Reads the arguments of one command, on top of what was given before. -/
def readArguments (grammar : Grammar) (arguments : List Text) (given : Given) :
    Except Stop Reading :=
  match readPieces grammar arguments with
  | .error complaint => .error (.complaint complaint)
  | .ok pieces => takePieces grammar pieces ⟨given, true, .anything, []⟩

/-! ### The whole line -/

/-- A command with all that was given for it. -/
structure Request where
  command : Command
  given : Given
deriving DecidableEq

structure Halt where
  command : Command
  stop : Stop

def commandLevels : Nat := 3

/-- Reads the arguments of a command and of the subcommands below it, and collects what is left
over. -/
def descend : Nat → Command → List Text → Given → Except Halt (Request × List Text)
  | 0, command, arguments, given => .ok (⟨command, given⟩, arguments)
  | level + 1, command, arguments, given =>
    match readArguments command.grammar arguments given with
    | .error stop => .error ⟨command, stop⟩
    | .ok reading =>
      match reading.subcommand with
      | none => .ok (⟨command, reading.given⟩, reading.leftOver)
      | some (word, rest) =>
        match command.below.lookup word with
        | none => .ok (⟨command, reading.given⟩, reading.leftOver)
        | some next =>
          match descend level next rest reading.given with
          | .error halt => .error halt
          | .ok (request, leftOver) => .ok (request, reading.leftOver ++ leftOver)

/-- Reads a command line. Without a command, help is asked for. -/
def readLine (arguments : List Text) : Except Halt Request :=
  match descend commandLevels .root arguments {} with
  | .error halt => .error halt
  | .ok (request, []) =>
    if request.command = .root then .error ⟨.root, .help⟩ else .ok request
  | .ok (_, leftOver) => .error ⟨.root, .complaint (.unrecognized leftOver)⟩

end LogicSignature.CommandLine
