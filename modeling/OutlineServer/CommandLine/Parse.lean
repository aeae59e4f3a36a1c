import OutlineServer.CommandLine.Integer
import OutlineServer.CommandLine.Options
import OutlineServer.Config.Basic
import OutlineServer.Text.Quoted

/-!
# Reading the command line

Arguments are taken from left to right, and the first fault is the one reported.  An option takes
the value attached to it, or else the next argument if that is an operand; the last of repeated
options counts.  Operands and unknown options are collected and reported at the end.

The argument `--` is never a value, as in older releases of the option parser, which take it out of the
values of an option; newer ones keep it where it is attached.  So an option that has it attached is
given and left empty: no check of its own refuses that, and the fault shows when the server is started.
-/
namespace OutlineServer.CommandLine

inductive Given (α : Type) where
  | empty
  | value (a : α)
deriving DecidableEq

structure Settings where
  workspaceRoot : Given Text := .value "."
  dataDir : Option (Given Text) := none
  documentBytes : Option (Given Int) := none
  responseBytes : Option (Given Int) := none
  strategy : Option (Given TokenStrategy) := none
  scope : Option (Given CompletionScope) := none

inductive UsageError where
  | ambiguous (ambiguity : Ambiguity)
  | valueMissing (option : CommandOption)
  | invalidNumber (option : CommandOption) (value : Text)
  | invalidChoice (option : CommandOption) (value : Text) (choices : List Text)
  /-- Help takes no value. -/
  | valueIgnored (option : CommandOption) (value : Text)
  | unrecognized (arguments : List Text)
deriving DecidableEq

inductive Command where
  | showHelp
  | run (settings : Settings)

namespace UsageError

def about (option : CommandOption) (message : Text) : Text :=
  ("argument " : Text) ++ option.name ++ (": " : Text) ++ message

def message : UsageError → Text
  | ambiguous ⟨argument, flags⟩ =>
    ("ambiguous option: " : Text) ++ argument ++ (" could match " : Text) ++ Text.join ", " flags
  | valueMissing option => about option "expected one argument"
  | invalidNumber option value => about option (("invalid int value: " : Text) ++ value.quoted)
  | invalidChoice option value choices =>
    about option (("invalid choice: " : Text) ++ value.quoted ++ (" (choose from " : Text)
      ++ Text.join ", " (choices.map Text.quoted) ++ (")" : Text))
  | valueIgnored option value =>
    about option (("ignored explicit argument " : Text) ++ value.quoted)
  | unrecognized arguments => ("unrecognized arguments: " : Text) ++ Text.join " " arguments

end UsageError

/-! ## Single options -/

def number (option : CommandOption) (value : Text) : Except UsageError Int :=
  match integer? value with
  | some n => .ok n
  | none => .error (.invalidNumber option value)

def choice {α : Type} (option : CommandOption) (value : Text) (all : List α) (name : α → Text) :
    Except UsageError α :=
  match all.find? (fun a => name a = value) with
  | some a => .ok a
  | none => .error (.invalidChoice option value (all.map name))

/-- What an option holds that is given a text, which `read` checks.  The text `--` is dropped unread,
the way of older releases of the option parser. -/
def given {α : Type} (text : Text) (read : Text → Except UsageError α) :
    Except UsageError (Given α) :=
  if text = [hyphen, hyphen] then .ok .empty else (read text).map .value

/-- Sets an option to a value.  Help has no value and changes nothing. -/
def Settings.set (s : Settings) (option : CommandOption) (value : Text) :
    Except UsageError Settings :=
  match option with
  | .help => .ok s
  | .workspaceRoot => (given value .ok).map (fun g => { s with workspaceRoot := g })
  | .dataDir => (given value .ok).map (fun g => { s with dataDir := some g })
  | .documentBytes =>
    (given value (number option)).map (fun g => { s with documentBytes := some g })
  | .responseBytes =>
    (given value (number option)).map (fun g => { s with responseBytes := some g })
  | .tokenStrategy =>
    (given value (fun t => choice option t TokenStrategy.all TokenStrategy.name)).map
      (fun g => { s with strategy := some g })
  | .completionScope =>
    (given value (fun t => choice option t CompletionScope.all CompletionScope.name)).map
      (fun g => { s with scope := some g })

/-- The value that is too much for help.  Letters `h` that are attached to the short flag ask for
help again; what follows them is too much, and so is an empty value. -/
def excess? (o : Occurrence) : Option Text :=
  let isHelpLetter : CodePoint → Bool := (· = 'h')
  match o.attached with
  | none => none
  | some value =>
    if o.flag.startsWith "--" ∨ value.isEmpty then some value
    else
      match value.dropWhile isHelpLetter with
      | [] => none
      | rest => some rest

/-! ## The whole line -/

/-- Acts on arguments in order; `extras` is the arguments passed over so far, last first. -/
def follow (s : Settings) (extras : List Text) : List (Text × Role) → Except UsageError Command
  | [] => if extras.isEmpty then .ok (.run s) else .error (.unrecognized extras.reverse)
  | (_, .occurrence o) :: rest =>
    if o.option = .help then
      match excess? o with
      | some value => .error (.valueIgnored o.option value)
      | none => .ok .showHelp
    else
      match o.attached with
      | some value =>
        match s.set o.option value with
        | .error e => .error e
        | .ok s => follow s extras rest
      | none =>
        match rest with
        | (value, .operand) :: rest =>
          match s.set o.option value with
          | .error e => .error e
          | .ok s => follow s extras rest
        | _ => .error (.valueMissing o.option)
  | (argument, _) :: rest => follow s (argument :: extras) rest

def parse (arguments : List Text) : Except UsageError Command :=
  match roles arguments with
  | .error e => .error (.ambiguous e)
  | .ok roles => follow {} [] roles

/-! ## Starting -/

/-- An option that names a path and was left empty. -/
structure EmptyPath where
  option : CommandOption
deriving DecidableEq

def EmptyPath.message (e : EmptyPath) : Text := UsageError.about e.option "expected a path"

def path (option : CommandOption) : Given Text → Except EmptyPath Text
  | .empty => .error ⟨option⟩
  | .value t => .ok t

/-- An override: null when the option was not given, and an empty list, which no setting accepts,
when it was left empty. -/
def override {α : Type} (toJson : α → Json) : Option (Given α) → Json
  | none => .null
  | some .empty => .arr []
  | some (.value a) => toJson a

structure Launch where
  workspaceRoot : Text
  overrides : Overrides

/-- The start that settings ask for.  Of two empty paths the data directory is reported. -/
def Settings.launch (s : Settings) : Except EmptyPath Launch := do
  let dataDir ← s.dataDir.mapM (path .dataDir)
  let workspaceRoot ← path .workspaceRoot s.workspaceRoot
  return {
    workspaceRoot
    overrides := {
      dataDir
      documentBytes := override .int s.documentBytes
      responseBytes := override .int s.responseBytes
      strategy := override (fun a => .str a.name) s.strategy
      scope := override (fun a => .str a.name) s.scope } }

/-! ## Texts -/

def programName : Text := "dgl-analyzer"

def UsageError.report (e : UsageError) : Text :=
  programName ++ (": error: " : Text) ++ e.message

def usage : Text := Text.join [CodePoint.lineFeed] [
  "usage: dgl-analyzer [-h] [--workspace-root WORKSPACE_ROOT]",
  "                    [--data-dir DATA_DIR]",
  "                    [--max-document-bytes MAX_DOCUMENT_BYTES]",
  "                    [--max-total-bytes-per-response MAX_TOTAL_BYTES_PER_RESPONSE]",
  "                    [--token-strategy \x7bannotation,declarations\x7d]",
  "                    [--completion-scope \x7bglobal,document\x7d]",
  ""]

def help : Text := usage ++ Text.join [CodePoint.lineFeed] [
  "",
  "options:",
  "  -h, --help            show this help message and exit",
  "  --workspace-root WORKSPACE_ROOT",
  "  --data-dir DATA_DIR",
  "  --max-document-bytes MAX_DOCUMENT_BYTES",
  "  --max-total-bytes-per-response MAX_TOTAL_BYTES_PER_RESPONSE",
  "  --token-strategy \x7bannotation,declarations\x7d",
  "  --completion-scope \x7bglobal,document\x7d",
  ""]

end OutlineServer.CommandLine
