import OutlineServer.Outline.Scan

/-!
# Reading the same lines under other numbers

The number of a line is written into the symbols of the line and used for nothing else.  So when the
lines of a document are read under other numbers, behind anything that has been found before, the same
is found with the new numbers in it, at every depth (`readLine_within`, `foldl_within`).  All that could
make a difference is the function that is open when the reading begins.
-/
namespace OutlineServer

def Position.renumber (f : Int → Int) (p : Position) : Position := { p with line := f p.line }

def Range.renumber (f : Int → Int) (r : Range) : Range := ⟨r.start.renumber f, r.stop.renumber f⟩

namespace Symbol

mutual

/-- The symbol with every line number replaced, also in the symbols inside it. -/
def renumber (f : Int → Int) : Symbol → Symbol
  | ⟨name, detail, kind, range, selection, children⟩ =>
    ⟨name, detail, kind, range.renumber f, selection.renumber f, renumberAll f children⟩

def renumberAll (f : Int → Int) : List Symbol → List Symbol
  | [] => []
  | symbol :: rest => symbol.renumber f :: renumberAll f rest

end

theorem renumberAll_eq_map (f : Int → Int) : ∀ symbols : List Symbol,
    renumberAll f symbols = symbols.map (renumber f)
  | [] => rfl
  | symbol :: rest => by rw [renumberAll, renumberAll_eq_map f rest, List.map_cons]

theorem renumber_eq (f : Int → Int) (x : Symbol) : x.renumber f =
    { x with
      range := x.range.renumber f
      selection := x.selection.renumber f
      children := x.children.map (renumber f) } := by
  cases x
  rw [renumber, renumberAll_eq_map]

end Symbol

def OpenFunction.renumber (f : Int → Int) (g : OpenFunction) : OpenFunction where
  name := g.name
  range := g.range.renumber f
  selection := g.selection.renumber f
  children := g.children.map (Symbol.renumber f)

theorem OpenFunction.renumber_close {f : Int → Int} {number number' : Nat} (h : f number = number')
    (g : OpenFunction) (column : Nat) :
    (g.renumber f).close ⟨number', column⟩ = (g.close ⟨number, column⟩).renumber f := by
  simp only [Symbol.renumber_eq, close, renumber, Range.renumber, Position.renumber, h,
    Array.toList_map]

namespace Outline

theorem renumber_excerptRange (f : Int → Int) (number : Nat) (e : Excerpt) :
    (excerptRange number e).renumber f = .onLine (f number) e.start e.stop := rfl

theorem renumber_variableSymbol {f : Int → Int} {number number' : Nat} (h : f number = number')
    (d : Declaration) : (variableSymbol number d).renumber f = variableSymbol number' d := by
  simp only [Symbol.renumber_eq, variableSymbol, renumber_excerptRange, h]
  rfl

theorem renumber_constantSymbol {f : Int → Int} {number number' : Nat} (h : f number = number')
    (d : ConstantDeclaration) : (constantSymbol number d).renumber f = constantSymbol number' d := by
  simp only [Symbol.renumber_eq, constantSymbol, renumber_excerptRange, h]
  rfl

theorem renumber_opened {f : Int → Int} {number number' : Nat} (h : f number = number') (line : Text)
    (head : Declaration) : (opened number line head).renumber f = opened number' line head := by
  simp only [OpenFunction.renumber, opened, renumber_excerptRange, h, Array.map_empty]
  simp only [Range.renumber, Range.onLine, Position.renumber, h, excerptRange]

namespace Progress

def within (before : Progress) (f : Int → Int) (p : Progress) : Progress where
  symbols := before.symbols ++ p.symbols.map (Symbol.renumber f)
  completions := before.completions ++ p.completions
  pending := p.pending.map (OpenFunction.renumber f)

variable {before : Progress} {f : Int → Int} {number number' : Nat}

theorem readHead_within (h : f number = number') (p : Progress) (line : Text) :
    (within before f p).readHead number' line = within before f (p.readHead number line) := by
  unfold readHead
  cases (Source.functionHeads line).head? with
  | none => rfl
  | some head => simp [within, renumber_opened h]

theorem readEnd_within (h : f number = number') (p : Progress) (line : Text) :
    (within before f p).readEnd number' line = within before f (p.readEnd number line) := by
  unfold readEnd
  cases hp : p.pending with
  | none => simp [within, hp]
  | some g =>
    by_cases hend : (Source.functionEnds line).isEmpty
    · simp [within, hp, hend]
    · simp [within, hp, hend, OpenFunction.renumber_close h]

theorem readVariables_within (h : f number = number') (p : Progress) (line : Text) :
    (within before f p).readVariables number' line
      = within before f (p.readVariables number line) := by
  have hfound : ((Source.variableDeclarations line).map (variableSymbol number)).map
      (Symbol.renumber f) = (Source.variableDeclarations line).map (variableSymbol number') := by
    rw [List.map_map]
    refine List.map_congr_left fun d _ => renumber_variableSymbol h d
  unfold readVariables
  cases hp : p.pending with
  | none => simp [within, hp, ← hfound, ← Array.toList_inj]
  | some g => simp [within, hp, ← hfound, ← Array.toList_inj, OpenFunction.renumber]

theorem readConstant_within (h : f number = number') (p : Progress) (line : Text) :
    (within before f p).readConstant number' line
      = within before f (p.readConstant number line) := by
  unfold readConstant
  cases (Source.constantDeclarations line).head? with
  | none => rfl
  | some d => simp [within, renumber_constantSymbol h]

/-- **A line under another number gives the same symbols with the other number in them.** -/
theorem readLine_within (h : f number = number') (p : Progress) (line : Text) :
    (within before f p).readLine (line, number') = within before f (p.readLine (line, number)) := by
  simp only [readLine, readHead_within h, readEnd_within h, readVariables_within h,
    readConstant_within h]

theorem foldl_within : ∀ (lines : List Text) (number number' : Nat) (p : Progress),
    (∀ i < lines.length, f ((number + i : Nat) : Int) = ((number' + i : Nat) : Int)) →
      (lines.zipIdx number').foldl readLine (within before f p)
        = within before f ((lines.zipIdx number).foldl readLine p)
  | [], _, _, _, _ => rfl
  | line :: lines, number, number', p, h => by
    have hfirst : f number = number' := h 0 (Nat.succ_pos _)
    rw [List.zipIdx_cons, List.zipIdx_cons, List.foldl_cons, List.foldl_cons, readLine_within hfirst]
    refine foldl_within lines (number + 1) (number' + 1) _ fun i hi => ?_
    rw [Nat.add_assoc, Nat.add_assoc, Nat.add_comm 1 i]
    exact h (i + 1) (Nat.succ_lt_succ hi)

end Progress

end Outline

end OutlineServer
