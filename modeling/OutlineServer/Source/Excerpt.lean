import OutlineServer.Text.Basic

/-!
# Excerpts of a line and where they occur

A recogniser looks at one place of a line: it is given the column, the character before it and the
text from there on, and answers what begins there, if anything does.  `occurrences` tries every
column from left to right and resumes at the end of what it found, so the results never overlap
and the leftmost wins.  Looking back one character is all a recogniser may do, also across the end
of an earlier occurrence.
-/
namespace OutlineServer

/-- A piece of a line: the column where it starts, and its text. -/
structure Excerpt where
  start : Nat
  text : Text
deriving DecidableEq

namespace Excerpt

def stop (e : Excerpt) : Nat := e.start + e.text.length

end Excerpt

/-- What begins at a column, given the character before it and the text from it on. -/
abbrev Recogniser (α : Type) := (column : Nat) → (before : Option CodePoint) → Text → Option α

/-- The occurrences from a column on, where the first `skip` columns belong to what was found
before.  `size` is the length of an occurrence. -/
def occurrencesFrom {α : Type} (recognise : Recogniser α) (size : α → Nat) (column skip : Nat)
    (before : Option CodePoint) : Text → List α
  | [] => []
  | c :: rest =>
    match skip with
    | skip + 1 => occurrencesFrom recognise size (column + 1) skip (some c) rest
    | 0 =>
      match recognise column before (c :: rest) with
      | some found =>
        found :: occurrencesFrom recognise size (column + 1) (size found - 1) (some c) rest
      | none => occurrencesFrom recognise size (column + 1) 0 (some c) rest

/-- The occurrences on a line, leftmost first, without overlap. -/
def occurrences {α : Type} (recognise : Recogniser α) (size : α → Nat) (line : Text) : List α :=
  occurrencesFrom recognise size 0 0 none line

end OutlineServer
