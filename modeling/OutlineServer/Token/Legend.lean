import OutlineServer.Token.Span

/-!
# The legend and the relative encoding

A legend is agreed with the editor once: a type is sent as its place in the table of types, and a
set of modifiers as a mask with one bit per place in the table of modifiers.  Tables only ever grow
at the end, so what was encoded before keeps its meaning.  The name `notInLegend` stands two places
past the end of either table; any other name that is in no table is type zero, and no bit.

A list of spans is sent as five numbers a span, in order of position, where lines count from the
previous span and columns do so within one line.
-/
namespace OutlineServer

structure Legend where
  types : List Text
  modifiers : List Text
deriving DecidableEq

namespace Legend

def standard : Legend where
  types := ["comment", "string", "keyword", "number", "regexp", "operator", "namespace", "type",
    "struct", "class", "interface", "enum", "typeParameter", "function", "member", "macro",
    "variable", "parameter", "property", "label"]
  modifiers := ["declaration", "documentation", "readonly", "static", "abstract", "deprecated",
    "modification", "async"]

/-- The name that a host uses for what its legend lacks. -/
def outsideName : Text := "notInLegend"

/-- The place of a name in a table, two past its end for the name of what it lacks. -/
def place? (table : List Text) (name : Text) : Option Nat :=
  match table.idxOf? name with
  | some index => some index
  | none => if name = outsideName then some (table.length + 2) else none

def encodeType (legend : Legend) (type : Text) : Nat := (place? legend.types type).getD 0

def addModifier (legend : Legend) (mask : Nat) (modifier : Text) : Nat :=
  match place? legend.modifiers modifier with
  | some bit => mask ||| 1 <<< bit
  | none => mask

def encodeModifiers (legend : Legend) (modifiers : List Text) : Nat :=
  modifiers.foldl legend.addModifier 0

/-- The numbers of spans that follow a span at this line and column. -/
def encodeFrom (legend : Legend) (line start : Int) : List TokenSpan → List Int
  | [] => []
  | span :: rest =>
    let lines := span.line - line
    let columns := if lines = 0 then span.start - start else span.start
    lines :: columns :: span.length :: legend.encodeType span.type
      :: legend.encodeModifiers span.modifiers :: legend.encodeFrom span.line span.start rest

/-- The numbers of spans given in any order; spans at one place keep their order. -/
def encode (legend : Legend) (spans : List TokenSpan) : List Int :=
  legend.encodeFrom 0 0 (spans.mergeSort TokenSpan.notAfter)

def toJson (legend : Legend) : Json :=
  .object [
    ("token_types", .strings legend.types),
    ("token_modifiers", .strings legend.modifiers)]

end Legend

end OutlineServer
