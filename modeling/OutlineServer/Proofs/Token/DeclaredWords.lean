import Mathlib.Data.List.Nodup
import Mathlib.Logic.Equiv.Basic
import OutlineServer.Proofs.Source.DeclarationGrammar
import OutlineServer.Proofs.Token.Agreement
import OutlineServer.Proofs.Token.Layout

/-!
# The tokens of declared names are the declared words

Names are collected from the whole document and tokens are given out word by word, so a word is a token
wherever it stands as soon as any line declares it (`mem_classifyDeclared_iff`).  What it is shown as
depends on the set of lines only.  Two occurrences of a word are therefore treated alike, and lines that
change places take their tokens with them (`perm_classifyDeclared`).
-/
namespace OutlineServer.Token

open Source (WholeWord mem_words_iff)

/-! ## What a name is shown as -/

def NameKind.DeclaredOn (line name : Text) : NameKind → Prop
  | .func => ∃ d ∈ Source.functionHeads line, d.name.text = name
  | .property => ∃ d ∈ Source.constantDeclarations line, d.name.text = name
  | .var => ∃ d ∈ Source.variableDeclarations line, d.name.text = name

def NameKind.DeclaredIn (lines : List Text) (name : Text) (kind : NameKind) : Prop :=
  ∃ line ∈ lines, kind.DeclaredOn line name

/-- A name is shown as a variable before a constant, and as a constant before a function. -/
def ShownAs (lines : List Text) (name : Text) : NameKind → Prop
  | .var => NameKind.var.DeclaredIn lines name
  | .property => NameKind.property.DeclaredIn lines name ∧ ¬ NameKind.var.DeclaredIn lines name
  | .func => NameKind.func.DeclaredIn lines name ∧ ¬ NameKind.property.DeclaredIn lines name
      ∧ ¬ NameKind.var.DeclaredIn lines name

theorem mem_functionNames_iff {lines : List Text} {name : Text} :
    name ∈ (DeclaredNames.ofLines lines).functionNames ↔ NameKind.func.DeclaredIn lines name := by
  simp [DeclaredNames.ofLines, NameKind.DeclaredIn, NameKind.DeclaredOn]

theorem mem_constantNames_iff {lines : List Text} {name : Text} :
    name ∈ (DeclaredNames.ofLines lines).constantNames ↔ NameKind.property.DeclaredIn lines name := by
  simp [DeclaredNames.ofLines, NameKind.DeclaredIn, NameKind.DeclaredOn]

theorem mem_variableNames_iff {lines : List Text} {name : Text} :
    name ∈ (DeclaredNames.ofLines lines).variableNames ↔ NameKind.var.DeclaredIn lines name := by
  simp [DeclaredNames.ofLines, NameKind.DeclaredIn, NameKind.DeclaredOn]

theorem kindOf?_eq_some {lines : List Text} {name : Text} {kind : NameKind} :
    (DeclaredNames.ofLines lines).kindOf? name = some kind ↔ ShownAs lines name kind := by
  unfold DeclaredNames.kindOf?
  by_cases hvar : name ∈ (DeclaredNames.ofLines lines).variableNames
  · cases kind <;> simp [ShownAs, ← mem_variableNames_iff, hvar]
  by_cases hproperty : name ∈ (DeclaredNames.ofLines lines).constantNames
  · cases kind <;> simp [ShownAs, ← mem_variableNames_iff, ← mem_constantNames_iff, hvar, hproperty]
  · cases kind <;> simp [ShownAs, ← mem_variableNames_iff, ← mem_constantNames_iff,
      ← mem_functionNames_iff, hvar, hproperty]

theorem shownAs_congr {lines lines' : List Text} (h : ∀ line, line ∈ lines ↔ line ∈ lines')
    (name : Text) (kind : NameKind) : ShownAs lines name kind ↔ ShownAs lines' name kind := by
  have hdeclared : ∀ kind, NameKind.DeclaredIn lines name kind ↔ NameKind.DeclaredIn lines' name kind :=
    fun kind => exists_congr fun line => and_congr_left fun _ => h line
  cases kind <;> simp only [ShownAs, hdeclared]

/-! ## Tokens and words -/

def wordSpan (number : Nat) (e : Excerpt) (kind : NameKind) : TokenSpan :=
  { line := number, start := e.start, length := e.text.length, type := kind.name, modifiers := [] }

/-- **A token is a declared word**, wherever it stands. -/
theorem mem_classifyDeclared_iff {text : Text} {span : TokenSpan} : span ∈ classifyDeclared text ↔
    ∃ number line e kind, text.lines[number]? = some line ∧ WholeWord line e
      ∧ ShownAs text.lines e.text kind ∧ span = wordSpan number e kind := by
  constructor
  · intro h
    obtain ⟨⟨line, number⟩, hline, h⟩ := List.mem_flatMap.1 h
    obtain ⟨e, he, h⟩ := List.mem_filterMap.1 h
    obtain ⟨kind, hkind, rfl⟩ := Option.map_eq_some_iff.1 h
    exact ⟨number, line, e, kind, List.mk_mem_zipIdx_iff_getElem?.1 hline, mem_words_iff.1 he,
      kindOf?_eq_some.1 hkind, rfl⟩
  · rintro ⟨number, line, e, kind, hline, he, hkind, rfl⟩
    exact mem_classifyDeclared hline (mem_words_iff.2 he) (kindOf?_eq_some.2 hkind)

def IsToken (text : Text) (number : Nat) (e : Excerpt) (type : Text) : Prop :=
  ∃ span ∈ classifyDeclared text, span.line = number ∧ span.start = e.start ∧ span.type = type

theorem isToken_iff {text line : Text} {number : Nat} {e : Excerpt} {type : Text}
    (hline : text.lines[number]? = some line) (he : WholeWord line e) :
    IsToken text number e type ↔ ∃ kind, ShownAs text.lines e.text kind ∧ type = kind.name := by
  constructor
  · rintro ⟨span, hspan, hnumber, hstart, rfl⟩
    obtain ⟨number', line', e', kind, hline', he', hkind, rfl⟩ := mem_classifyDeclared_iff.1 hspan
    obtain rfl : number' = number := Int.natCast_inj.1 hnumber
    rw [hline, Option.some.injEq] at hline'
    subst hline'
    have heq := he'.eq_of_start he (Int.natCast_inj.1 hstart)
    exact ⟨kind, heq ▸ hkind, rfl⟩
  · rintro ⟨kind, hkind, rfl⟩
    exact ⟨wordSpan number e kind, mem_classifyDeclared_iff.2 ⟨number, line, e, kind, hline, he, hkind,
      rfl⟩, rfl, rfl, rfl⟩

/-! ## Lines that change places -/

/-- The same token on the line where its own line has gone. -/
def moveLine (σ : Equiv.Perm Nat) (span : TokenSpan) : TokenSpan :=
  { span with line := σ span.line.toNat }

theorem moveLine_wordSpan (σ : Equiv.Perm Nat) (number : Nat) (e : Excerpt) (kind : NameKind) :
    moveLine σ (wordSpan number e kind) = wordSpan (σ number) e kind := rfl

theorem nodup_classifyDeclared (text : Text) : (classifyDeclared text).Nodup := by
  refine (laidOut_classifyDeclared text).increasing.imp ?_
  rintro a b hlt rfl
  omega

theorem moveLine_inj {text : Text} {σ : Equiv.Perm Nat} : ∀ a ∈ classifyDeclared text,
    ∀ b ∈ classifyDeclared text, moveLine σ a = moveLine σ b → a = b := by
  intro a ha b hb heq
  obtain ⟨number, -, e, kind, -, -, -, rfl⟩ := mem_classifyDeclared_iff.1 ha
  obtain ⟨number', -, e', kind', -, -, -, rfl⟩ := mem_classifyDeclared_iff.1 hb
  rw [moveLine_wordSpan, moveLine_wordSpan] at heq
  simp only [wordSpan, TokenSpan.mk.injEq, Int.natCast_inj, σ.injective.eq_iff] at heq ⊢
  exact heq

section Permuted

variable {text other : Text} {σ : Equiv.Perm Nat} (h : ∀ i, other.lines[σ i]? = text.lines[i]?)
include h

theorem mem_lines_of_permuted (line : Text) : line ∈ text.lines ↔ line ∈ other.lines := by
  rw [List.mem_iff_getElem?, List.mem_iff_getElem?]
  constructor
  · rintro ⟨i, hi⟩
    exact ⟨σ i, (h i).trans hi⟩
  · rintro ⟨i, hi⟩
    refine ⟨σ.symm i, ?_⟩
    rw [← h, σ.apply_symm_apply, hi]

/-- **Lines that change places take their tokens with them.** -/
theorem perm_classifyDeclared :
    (classifyDeclared other).Perm ((classifyDeclared text).map (moveLine σ)) := by
  have hshown := shownAs_congr (mem_lines_of_permuted h)
  rw [List.perm_ext_iff_of_nodup (nodup_classifyDeclared other)
    (List.Nodup.map_on moveLine_inj (nodup_classifyDeclared text))]
  intro span
  rw [List.mem_map]
  constructor
  · intro hspan
    obtain ⟨number, line, e, kind, hline, he, hkind, rfl⟩ := mem_classifyDeclared_iff.1 hspan
    refine ⟨wordSpan (σ.symm number) e kind, mem_classifyDeclared_iff.2 ⟨_, line, e, kind, ?_, he,
      (hshown _ _).2 hkind, rfl⟩, ?_⟩
    · rw [← h, σ.apply_symm_apply, hline]
    · rw [moveLine_wordSpan, σ.apply_symm_apply]
  · rintro ⟨span, hspan, rfl⟩
    obtain ⟨number, line, e, kind, hline, he, hkind, rfl⟩ := mem_classifyDeclared_iff.1 hspan
    exact mem_classifyDeclared_iff.2 ⟨σ number, line, e, kind, (h number).trans hline, he,
      (hshown _ _).1 hkind, moveLine_wordSpan ..⟩

end Permuted

/-- **The tokens of declared names are the declared words**, one for each, from line to line and from
left to right.  Words that are alike are treated alike, and lines that change places take their tokens
with them. -/
theorem tokens_of_declared_words (text : Text) :
    (∀ span : TokenSpan, span ∈ classifyDeclared text ↔
      ∃ (number : Nat) (line : Text) (e : Excerpt) (kind : NameKind),
      text.lines[number]? = some line ∧ WholeWord line e ∧ ShownAs text.lines e.text kind
      ∧ span = { line := number, start := e.start, length := e.text.length, type := kind.name,
                 modifiers := [] })
    ∧ (classifyDeclared text).Pairwise
      (fun a b => a.line < b.line ∨ (a.line = b.line ∧ a.start < b.start))
    ∧ (∀ number line e number' line' e', text.lines[number]? = some line →
      text.lines[number']? = some line' → WholeWord line e → WholeWord line' e' → e.text = e'.text →
      ∀ type, IsToken text number e type ↔ IsToken text number' e' type)
    ∧ ∀ (other : Text) (σ : Equiv.Perm Nat), (∀ i, other.lines[σ i]? = text.lines[i]?) →
      (classifyDeclared other).Perm ((classifyDeclared text).map (moveLine σ)) := by
  refine ⟨fun span => mem_classifyDeclared_iff, (laidOut_classifyDeclared text).increasing, ?_,
    fun other σ h => perm_classifyDeclared h⟩
  intro number line e number' line' e' hline hline' he he' htext type
  rw [isToken_iff hline he, isToken_iff hline' he', htext]

/-- `x` is a token before the line that declares it and behind it, and `y` is none. -/
theorem tokens_of_declared_words_swapped :
    let text : Text := "x y\nvar x"
    let other : Text := "var x\nx y"
    classifyDeclared text = [⟨0, 0, 1, "variable", []⟩, ⟨1, 4, 1, "variable", []⟩]
    ∧ (classifyDeclared other).Perm ((classifyDeclared text).map (moveLine (Equiv.swap 0 1)))
    ∧ ∀ type, IsToken text 0 ⟨0, "x"⟩ type ↔ IsToken text 1 ⟨4, "x"⟩ type := by
  intro text other
  have hlines : text.lines = ["x y", "var x"] := by decide
  have hlines' : other.lines = ["var x", "x y"] := by decide
  obtain ⟨-, -, halike, hmoved⟩ := tokens_of_declared_words text
  refine ⟨by decide +kernel, hmoved other (Equiv.swap 0 1) ?_, ?_⟩
  · intro i
    rw [hlines, hlines']
    match i with
    | 0 => rfl
    | 1 => rfl
    | i + 2 => rw [Equiv.swap_apply_of_ne_of_ne (by omega) (by omega)]; rfl
  · exact halike 0 "x y" ⟨0, "x"⟩ 1 "var x" ⟨4, "x"⟩ (by rw [hlines]; rfl) (by rw [hlines]; rfl)
      (mem_words_iff.1 (by decide +kernel)) (mem_words_iff.1 (by decide +kernel)) rfl

end OutlineServer.Token
