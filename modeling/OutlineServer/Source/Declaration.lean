import OutlineServer.Source.Excerpt
import OutlineServer.Text.Blank
import OutlineServer.Text.Digit
import OutlineServer.Text.Word

/-!
# Declarations on a line

The language declares functions (`func name(` … `endfunc`), variables (`var name`, `var *name`) and
constants (`#constant NAME value`, `word NAME = value`, `byte NAME := value`).  Each form is
recognised from its keyword on, with nothing to undo on the way: blanks and identifiers are taken as
far as they go, because what may follow them is never a blank or a word character.

An identifier is a longest run of word characters whose first is no decimal digit.  A constant's
value is a longest run of characters other than blanks and `;` that stops before `//`; it does not
begin with a constant's keyword, so that keyword is left for the next declaration.
-/
namespace OutlineServer

/-- A declaration on a line: all of it, and the identifier that it declares. -/
structure Declaration where
  whole : Excerpt
  name : Excerpt
deriving DecidableEq

inductive ConstantValue where
  | absent
  /-- After `=` or `:=`. -/
  | assigned (value : Excerpt)
  /-- After blanks only. -/
  | spaced (value : Excerpt)
deriving DecidableEq

structure ConstantDeclaration extends Declaration where
  value : ConstantValue
deriving DecidableEq

namespace ConstantValue

def text : ConstantValue → Text
  | absent => []
  | assigned value => value.text
  | spaced value => value.text

/-- The column after the value, or after the name that ends at `nameStop` when there is none. -/
def stop (nameStop : Nat) : ConstantValue → Nat
  | absent => nameStop
  | assigned value => value.stop
  | spaced value => value.stop

end ConstantValue

namespace Declaration

def size (d : Declaration) : Nat := d.whole.text.length

end Declaration

namespace Source

def wordMayStart (before : Option CodePoint) : Bool := !before.any CodePoint.isWord

def wordStops (rest : Text) : Bool := !rest.head?.any CodePoint.isWord

def identifier? (t : Text) : Option Text :=
  match t.takeWhile CodePoint.isWord with
  | [] => none
  | c :: rest => if c.isDecimalDigit then none else some (c :: rest)

/-! ## Functions and variables -/

def functionKeyword : Text := "func"

def functionEndKeyword : Text := "endfunc"

def variableKeyword : Text := "var"

/-- The head of a function: keyword, blanks, name, blanks or none, and an opening parenthesis. -/
def functionHeadAt? : Recogniser Declaration := fun column before t => do
  guard (wordMayStart before)
  let rest ← Text.after? t functionKeyword
  let gap := rest.takeWhile CodePoint.isBlank
  guard (!gap.isEmpty)
  let rest := rest.dropWhile CodePoint.isBlank
  let name ← identifier? rest
  let rest := rest.drop name.length
  let pause := rest.takeWhile CodePoint.isBlank
  let _ ← Text.after? (rest.dropWhile CodePoint.isBlank) "("
  let nameOffset := functionKeyword.length + gap.length
  return {
    whole := ⟨column, t.take (nameOffset + name.length + pause.length + 1)⟩
    name := ⟨column + nameOffset, name⟩ }

def functionEndAt? : Recogniser Excerpt := fun column before t => do
  guard (wordMayStart before)
  let rest ← Text.after? t functionEndKeyword
  guard (wordStops rest)
  return ⟨column, functionEndKeyword⟩

/-- The length of the star at the front of a text, none being zero long, and what follows it. -/
def pastStar (t : Text) : Nat × Text :=
  match Text.after? t "*" with
  | some rest => (1, rest)
  | none => (0, t)

/-- A variable: keyword, blanks, a star or none, blanks or none, and a name. -/
def variableAt? : Recogniser Declaration := fun column before t => do
  guard (wordMayStart before)
  let rest ← Text.after? t variableKeyword
  let gap := rest.takeWhile CodePoint.isBlank
  guard (!gap.isEmpty)
  let (star, rest) := pastStar (rest.dropWhile CodePoint.isBlank)
  let pause := rest.takeWhile CodePoint.isBlank
  let name ← identifier? (rest.dropWhile CodePoint.isBlank)
  let nameOffset := variableKeyword.length + gap.length + star + pause.length
  return {
    whole := ⟨column, t.take (nameOffset + name.length)⟩
    name := ⟨column + nameOffset, name⟩ }

/-! ## Constants -/

def constantKeywords : List Text := ["#constant", "word", "byte"]

def constantKeyword? (t : Text) : Option Text :=
  constantKeywords.find? (fun keyword => Text.startsWith t keyword)

/-- The blanks within a constant declaration are spaces and tabs only. -/
def isGap (c : CodePoint) : Bool := c = CodePoint.space || c = CodePoint.tab

def startsConstant (t : Text) : Bool :=
  match constantKeyword? t with
  | some keyword => wordStops (t.drop keyword.length)
  | none => false

def valueRun : Text → Text
  | [] => []
  | c :: rest =>
    if c.isBlank || c = ';' || (c = '/' && Text.startsWith rest "/") then []
    else c :: valueRun rest

def value? (t : Text) : Option Text :=
  if startsConstant t then none
  else
    match valueRun t with
    | [] => none
    | run => some run

def assignment? (t : Text) : Option Text :=
  (["=", ":="] : List Text).find? (fun sign => Text.startsWith t sign)

/-- The value after an assignment sign, with its offset in `t`. -/
def assignedValue? (t : Text) : Option (Nat × Text) := do
  let gap := t.takeWhile isGap
  let rest := t.dropWhile isGap
  let sign ← assignment? rest
  let rest := rest.drop sign.length
  let pause := rest.takeWhile isGap
  let value ← value? (rest.dropWhile isGap)
  return (gap.length + sign.length + pause.length, value)

def spacedValue? (t : Text) : Option (Nat × Text) := do
  let gap := t.takeWhile isGap
  guard (!gap.isEmpty)
  let value ← value? (t.dropWhile isGap)
  return (gap.length, value)

/-- The value of a constant whose name ends at column `stop`, where `t` begins: after an assignment
sign if one leads to a value, else after blanks. -/
def constantValue (stop : Nat) (t : Text) : ConstantValue :=
  match assignedValue? t with
  | some (offset, value) => .assigned ⟨stop + offset, value⟩
  | none =>
    match spacedValue? t with
    | some (offset, value) => .spaced ⟨stop + offset, value⟩
    | none => .absent

/-- A constant: keyword, blanks, name, and a value or none. -/
def constantAt? : Recogniser ConstantDeclaration := fun column before t => do
  guard (wordMayStart before && before ≠ some (CodePoint.ofChar '#'))
  let keyword ← constantKeyword? t
  let rest := t.drop keyword.length
  let gap := rest.takeWhile isGap
  guard (!gap.isEmpty)
  let rest := rest.dropWhile isGap
  let name ← identifier? rest
  let nameOffset := keyword.length + gap.length
  let nameStop := column + nameOffset + name.length
  let value := constantValue nameStop (rest.drop name.length)
  return {
    whole := ⟨column, t.take (value.stop nameStop - column)⟩
    name := ⟨column + nameOffset, name⟩
    value }

/-! ## All declarations of a line -/

def functionHeads (line : Text) : List Declaration :=
  occurrences functionHeadAt? Declaration.size line

def functionEnds (line : Text) : List Excerpt :=
  occurrences functionEndAt? (fun e => e.text.length) line

def variableDeclarations (line : Text) : List Declaration :=
  occurrences variableAt? Declaration.size line

def constantDeclarations (line : Text) : List ConstantDeclaration :=
  occurrences constantAt? (fun d => d.toDeclaration.size) line

end Source

end OutlineServer
