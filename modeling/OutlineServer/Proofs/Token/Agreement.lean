import OutlineServer.Proofs.Outline.Tree
import OutlineServer.Proofs.Token.Words

/-!
# The outline and the tokens of declared names agree

The outline looks for declarations line by line and keeps track of scopes; the tokens come from the
names of the whole document and the words of each line.  Still, every symbol of the outline, at any
depth, has a token on exactly the text that it selects, and the token's type is that of the name:
a variable before a constant before a function (`declared_tokens_cover_outline`).
-/
namespace OutlineServer.Token

/-! ## The kinds of names -/

namespace DeclaredNames

def ofKind (names : DeclaredNames) : SymbolKind → List Text
  | .func => names.functionNames
  | .var => names.variableNames
  | .const => names.constantNames

theorem kindOf?_of_mem {names : DeclaredNames} {word : Text} {symbolKind : SymbolKind}
    (h : word ∈ names.ofKind symbolKind) : ∃ kind, names.kindOf? word = some kind
      ∧ (kind = .var ↔ word ∈ names.variableNames)
      ∧ (kind = .property ↔ word ∈ names.constantNames ∧ word ∉ names.variableNames) := by
  unfold kindOf?
  by_cases hvar : word ∈ names.variableNames
  · exact ⟨.var, by simp [hvar], by simp [hvar], by simp [hvar]⟩
  by_cases hconst : word ∈ names.constantNames
  · exact ⟨.property, by simp [hvar, hconst], by simp [hvar], by simp [hvar, hconst]⟩
  have hfunc : word ∈ names.functionNames := by
    cases symbolKind with
    | func => exact h
    | var => exact absurd h hvar
    | const => exact absurd h hconst
  exact ⟨.func, by simp [hvar, hconst, hfunc], by simp [hvar], by simp [hconst]⟩

end DeclaredNames

theorem NameKind.name_inj {a b : NameKind} : a.name = b.name ↔ a = b := by
  cases a <;> cases b <;> decide

theorem mem_functionNames {lines : List Text} {line : Text} {d : Declaration} (hline : line ∈ lines)
    (h : d ∈ Source.functionHeads line) :
    d.name.text ∈ (DeclaredNames.ofLines lines).functionNames :=
  List.mem_flatMap.2 ⟨line, hline, List.mem_map.2 ⟨d, h, rfl⟩⟩

theorem mem_variableNames {lines : List Text} {line : Text} {d : Declaration} (hline : line ∈ lines)
    (h : d ∈ Source.variableDeclarations line) :
    d.name.text ∈ (DeclaredNames.ofLines lines).variableNames :=
  List.mem_flatMap.2 ⟨line, hline, List.mem_map.2 ⟨d, h, rfl⟩⟩

theorem mem_constantNames {lines : List Text} {line : Text} {d : ConstantDeclaration}
    (hline : line ∈ lines) (h : d ∈ Source.constantDeclarations line) :
    d.name.text ∈ (DeclaredNames.ofLines lines).constantNames :=
  List.mem_flatMap.2 ⟨line, hline, List.mem_map.2 ⟨d, h, rfl⟩⟩

/-! ## Symbols and words -/

/-- The symbol selects a word of line `i`, which is its name, and the name is declared in the way of
the symbol's kind. -/
def Selects (lines : List Text) (x : Symbol) (i : Nat) (e : Excerpt) : Prop :=
  (∃ line, lines[i]? = some line ∧ e ∈ words line) ∧ x.name = e.text
    ∧ x.selection = Outline.excerptRange i e ∧ x.name ∈ (DeclaredNames.ofLines lines).ofKind x.kind

theorem selects_of_mem_variablesOn {lines : List Text} {x : Symbol} {i : Nat}
    (h : x ∈ Outline.variablesOn lines i) : ∃ e, Selects lines x i e := by
  obtain ⟨line, hline, d, hd, rfl⟩ := Outline.mem_variablesOn.1 h
  exact ⟨d.name, ⟨line, hline, mem_words_of_variableDeclarations hd⟩, rfl, rfl,
    mem_variableNames (List.mem_of_getElem? hline) hd⟩

/-- **Every symbol of an outline selects a word**, whatever its kind and depth. -/
theorem selects_of_origin {lines : List Text} {x : Symbol} (h : Outline.Origin lines x) :
    ∃ i e, Selects lines x i e := by
  cases h with
  | @function j head hclose hhead =>
    obtain ⟨line, hline, hd⟩ := Outline.headOn_eq_some.1 hhead
    have hd := List.mem_of_head? hd
    exact ⟨_, head.name, ⟨line, hline, mem_words_of_functionHeads hd⟩, rfl, rfl,
      mem_functionNames (List.mem_of_getElem? hline) hd⟩
  | outerVariable _ hx => exact ⟨_, selects_of_mem_variablesOn hx⟩
  | innerVariable _ _ _ hx => exact ⟨_, selects_of_mem_variablesOn hx⟩
  | constant hx =>
    obtain ⟨line, hline, d, hd, rfl⟩ := Outline.constantOn_eq_some.1 hx
    have hd := List.mem_of_head? hd
    exact ⟨_, d.name, ⟨line, hline, mem_words_of_constantDeclarations hd⟩, rfl, rfl,
      mem_constantNames (List.mem_of_getElem? hline) hd⟩

theorem mem_classifyDeclared {text line : Text} {i : Nat} {e : Excerpt} {kind : NameKind}
    (hline : text.lines[i]? = some line) (he : e ∈ words line)
    (hkind : (DeclaredNames.ofLines text.lines).kindOf? e.text = some kind) :
    { line := i, start := e.start, length := e.text.length, type := kind.name }
      ∈ classifyDeclared text := by
  unfold classifyDeclared
  rw [List.mem_flatMap]
  refine ⟨(line, i), ?_, List.mem_filterMap.2 ⟨e, he, ?_⟩⟩
  · exact List.mk_mem_zipIdx_iff_getElem?.2 hline
  · rw [declaredSpan?, hkind, Option.map_some]

theorem mem_functionNames_of_completions {lines : List Text} {c : Completion}
    (h : c ∈ (Outline.ofLines lines).completions) :
    c.name ∈ (DeclaredNames.ofLines lines).functionNames := by
  rw [Outline.ofLines_completions, List.mem_filterMap] at h
  obtain ⟨i, -, hc⟩ := h
  obtain ⟨head, hhead, rfl⟩ := Option.map_eq_some_iff.1 hc
  obtain ⟨line, hline, hd⟩ := Outline.headOn_eq_some.1 hhead
  exact mem_functionNames (List.mem_of_getElem? hline) (List.mem_of_head? hd)

/-- **Every symbol of an outline has its token**: one on exactly the text that the symbol selects,
whose type says how the name is declared in the document, as a variable first and as a constant
next.  Every name that is offered for completion is declared as a function. -/
theorem declared_tokens_cover_outline (text : Text) :
    (∀ x : Symbol, x.OccursIn (Outline.scan text).symbols →
      ∃ span ∈ classifyDeclared text,
        x.selection = ⟨⟨span.line, span.start⟩, ⟨span.line, span.start + span.length⟩⟩
        ∧ (x.kind = .var → span.type = ("variable" : Text))
        ∧ (x.kind = .const → span.type = ("property" : Text) ∨ span.type = ("variable" : Text))
        ∧ (x.kind = .func → span.type = ("function" : Text) ∨ span.type = ("property" : Text)
            ∨ span.type = ("variable" : Text))
        ∧ (span.type = ("variable" : Text)
            ↔ x.name ∈ (DeclaredNames.ofLines text.lines).variableNames)
        ∧ (span.type = ("property" : Text)
            ↔ x.name ∈ (DeclaredNames.ofLines text.lines).constantNames
              ∧ x.name ∉ (DeclaredNames.ofLines text.lines).variableNames))
    ∧ ∀ c ∈ (Outline.scan text).completions,
        c.name ∈ (DeclaredNames.ofLines text.lines).functionNames := by
  refine ⟨fun x hx => ?_, fun c hc => mem_functionNames_of_completions hc⟩
  obtain ⟨i, e, ⟨line, hline, he⟩, hname, hselection, hdeclared⟩ :=
    selects_of_origin (Outline.occursIn_ofLines.1 hx)
  obtain ⟨kind, hkind, hvar, hproperty⟩ := DeclaredNames.kindOf?_of_mem hdeclared
  have hspan := mem_classifyDeclared hline he (hname ▸ hkind)
  refine ⟨_, hspan, ?_, ?_, ?_, ?_, ?_, ?_⟩
  · rw [hselection, Outline.excerptRange, Range.onLine, Excerpt.stop, Int.natCast_add]
  · intro hx
    rw [hx] at hdeclared
    rw [hvar.2 hdeclared]
    rfl
  · intro hx
    rw [hx] at hdeclared
    by_cases h : x.name ∈ (DeclaredNames.ofLines text.lines).variableNames
    · rw [hvar.2 h]
      exact .inr rfl
    · rw [hproperty.2 ⟨hdeclared, h⟩]
      exact .inl rfl
  · intro _
    cases kind with
    | func => exact .inl rfl
    | property => exact .inr (.inl rfl)
    | var => exact .inr (.inr rfl)
  · exact (@NameKind.name_inj kind .var).trans hvar
  · exact (@NameKind.name_inj kind .property).trans hproperty

end OutlineServer.Token
