import OutlineServer.Text.Digit

/-!
# Options of the command line

Before any option is acted upon, every argument is given its role.  An argument that begins with a
hyphen is an option when it is the flag of one, the flag followed by `=` and a value, or the
beginning of exactly one long flag; more than one is an error whatever else is wrong.  Otherwise it
is an operand when it looks like a negative number or holds a space, and an unknown option when it
does not.  After `--` everything is an operand.
-/
namespace OutlineServer.CommandLine

inductive CommandOption where
  | help
  | workspaceRoot
  | dataDir
  | documentBytes
  | responseBytes
  | tokenStrategy
  | completionScope
deriving DecidableEq

namespace CommandOption

def flags : CommandOption → List Text
  | help => ["-h", "--help"]
  | workspaceRoot => ["--workspace-root"]
  | dataDir => ["--data-dir"]
  | documentBytes => ["--max-document-bytes"]
  | responseBytes => ["--max-total-bytes-per-response"]
  | tokenStrategy => ["--token-strategy"]
  | completionScope => ["--completion-scope"]

def all : List CommandOption :=
  [help, workspaceRoot, dataDir, documentBytes, responseBytes, tokenStrategy, completionScope]

def name (o : CommandOption) : Text := Text.join "/" o.flags

end CommandOption

def flagTable : List (Text × CommandOption) :=
  CommandOption.all.flatMap (fun o => o.flags.map (·, o))

structure Occurrence where
  option : CommandOption
  flag : Text
  /-- What stands in the same argument after the flag: after an equals sign, or directly after a
  flag of one letter. -/
  attached : Option Text := none
deriving DecidableEq

inductive Role where
  | operand
  /-- The argument `--`. -/
  | terminator
  | occurrence (o : Occurrence)
  | unknownOption
deriving DecidableEq

/-- An argument that is the beginning of several flags. -/
structure Ambiguity where
  argument : Text
  flags : List Text
deriving DecidableEq

def hyphen : CodePoint := '-'

def equalsSign : CodePoint := '='

/-- The text before the first equals sign, and the text after it if there is one. -/
def splitAtSign (t : Text) : Text × Option Text :=
  let isBefore : CodePoint → Bool := (· ≠ equalsSign)
  (t.takeWhile isBefore, (t.dropWhile isBefore).tail?)

def wholeFlag? (argument : Text) : Option Occurrence :=
  (flagTable.find? (fun entry => entry.1 = argument)).map (fun (flag, option) => { option, flag })

def wholeWithValue? (argument : Text) : Option Occurrence :=
  match splitAtSign argument with
  | (flag, some value) => (wholeFlag? flag).map ({ · with attached := some value })
  | (_, none) => none

/-- The options that an argument with two hyphens may abbreviate. -/
def longCandidates (argument : Text) : List Occurrence :=
  let (lead, value) := splitAtSign argument
  flagTable.filterMap (fun (flag, option) =>
    if flag.startsWith lead then some { option, flag, attached := value } else none)

/-- The options that an argument with one hyphen may stand for. -/
def shortCandidates (argument : Text) : List Occurrence :=
  flagTable.filterMap (fun (flag, option) =>
    if flag = argument.take 2 then
      some { option, flag, attached := some (argument.drop 2) }
    else if flag.startsWith argument then some { option, flag }
    else none)

def candidates (argument : Text) : List Occurrence :=
  if argument.startsWith "--" then longCandidates argument else shortCandidates argument

/-- Digits to the end of the text, at which a line feed may stand. -/
def isDigitsToEnd (t : Text) : Bool :=
  match t.dropWhile CodePoint.isDecimalDigit with
  | [] => true
  | rest => rest = [CodePoint.lineFeed]

def isDigits (t : Text) : Bool := t.head?.any CodePoint.isDecimalDigit && isDigitsToEnd t

/-- A hyphen and digits, with a point before the last of them or none. -/
def isNegativeNumber (t : Text) : Bool :=
  match t with
  | c :: rest =>
    c = hyphen
      && (isDigits rest
        || match (rest.dropWhile CodePoint.isDecimalDigit) with
          | p :: places => p = '.' && isDigits places
          | [] => false)
  | [] => false

/-- The role of an argument before `--`. -/
def roleOf (argument : Text) : Except Ambiguity Role :=
  if argument.head? ≠ some hyphen ∨ argument = [hyphen] then .ok .operand
  else
    match wholeFlag? argument <|> wholeWithValue? argument with
    | some o => .ok (.occurrence o)
    | none =>
      match candidates argument with
      | [o] => .ok (.occurrence o)
      | [] =>
        if isNegativeNumber argument ∨ argument.contains CodePoint.space then .ok .operand
        else .ok .unknownOption
      | several => .error ⟨argument, several.map Occurrence.flag⟩

def roles : List Text → Except Ambiguity (List (Text × Role))
  | [] => .ok []
  | argument :: rest =>
    if argument = [hyphen, hyphen] then
      .ok ((argument, .terminator) :: rest.map (·, .operand))
    else
      match roleOf argument with
      | .error e => .error e
      | .ok role => (roles rest).map ((argument, role) :: ·)

end OutlineServer.CommandLine
