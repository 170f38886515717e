import LogicSignature.CommandLine.Grammar
import LogicSignature.Text.Digit

/-
The pieces of a command line. Each argument is an operand or an option, read by itself; after `--`
all are operands. Options may be shortened as long as they stay unique, may carry their value behind
`=`, and one-letter options may be written together.
-/

namespace LogicSignature.CommandLine

/-- An argument, as it was given, and what it was read as. -/
inductive Piece where
  | terminator
  | operand (text : Text)
  | unknown (text : Text)
  | option (text : Text) (switch : Switch) (short : Bool) (attached : Option Text)
deriving DecidableEq, Repr

/-- The argument that a piece was read from. -/
def Piece.text : Piece → Text
  | .terminator => "--"
  | .operand text => text
  | .unknown text => text
  | .option text _ _ _ => text

/-- The parts of a text before and after its first `=`. -/
def splitMark : Text → Text × Option Text
  | [] => ([], none)
  | point :: rest =>
    if point == '=' then ([], some rest)
    else
      let (before, after) := splitMark rest
      (point :: before, after)

def isDigit (point : CodePoint) : Bool := point.decimalDigit?.isSome

/-- Whether a text is digits, or digits with a point before the last ones. -/
def isPlainNumber (text : Text) : Bool :=
  match text.dropWhile isDigit with
  | [] => !text.isEmpty
  | .char '.' :: fraction => !fraction.isEmpty && fraction.all isDigit
  | _ => false

def withoutLineEnd (text : Text) : Text :=
  match text.reverse with
  | .char '\n' :: rest => rest.reverse
  | _ => text

/-- Whether an argument looks like a negative number. -/
def isNegativeNumber : Text → Bool
  | .char '-' :: rest => isPlainNumber (withoutLineEnd rest)
  | _ => false

/-- An option that an argument may stand for: the spelling meant, the option, and its value. -/
structure Candidate where
  name : Text
  switch : Switch
  attached : Option Text

/-- The options that a shortened spelling may stand for. -/
def longCandidates (grammar : Grammar) (argument : Text) : List Candidate :=
  let (before, after) := splitMark argument
  (grammar.spellings.filter (fun entry => before.isPrefixOf entry.1)).map
    (fun entry => ⟨entry.1, entry.2, after⟩)

/-- The one-letter options that an argument may start with. -/
def shortCandidates (grammar : Grammar) (argument : Text) : List Candidate :=
  (grammar.spellings.filter (fun entry => entry.1 == argument.take 2)).map
    (fun entry => ⟨entry.1, entry.2, some (argument.drop 2)⟩)

/-- Whether a spelling has one dash only. -/
def isShort : Text → Bool
  | .char '-' :: .char '-' :: _ => false
  | _ => true

def chooseCandidate (argument : Text) : List Candidate → Except Complaint Piece
  | [] =>
    if isNegativeNumber argument || argument.contains (.char ' ') then .ok (.operand argument)
    else .ok (.unknown argument)
  | [only] => .ok (.option argument only.switch (isShort only.name) only.attached)
  | several => .error (.ambiguous argument (several.map Candidate.name))

/-- Reads an argument that is not spelled like an option as a whole. -/
def readOther (grammar : Grammar) (argument : Text) : Except Complaint Piece :=
  if isShort argument then chooseCandidate argument (shortCandidates grammar argument)
  else chooseCandidate argument (longCandidates grammar argument)

/-- Reads an argument that starts with a dash and is no option as it stands. -/
def readDashed (grammar : Grammar) (argument : Text) : Except Complaint Piece :=
  match splitMark argument with
  | (before, some after) =>
    match grammar.switch? before with
    | some switch => .ok (.option argument switch (isShort before) (some after))
    | none => readOther grammar argument
  | (_, none) => readOther grammar argument

def readPiece (grammar : Grammar) (argument : Text) : Except Complaint Piece :=
  match argument with
  | .char '-' :: rest =>
    match grammar.switch? argument with
    | some switch => .ok (.option argument switch (isShort argument) none)
    | none => if rest.isEmpty then .ok (.operand argument) else readDashed grammar argument
  | _ => .ok (.operand argument)

def readPieces (grammar : Grammar) : List Text → Except Complaint (List Piece)
  | [] => .ok []
  | argument :: rest =>
    if argument == "--" then .ok (.terminator :: rest.map Piece.operand)
    else
      match readPiece grammar argument with
      | .error complaint => .error complaint
      | .ok piece =>
        match readPieces grammar rest with
        | .error complaint => .error complaint
        | .ok pieces => .ok (piece :: pieces)

end LogicSignature.CommandLine
