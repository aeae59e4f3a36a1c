import OutlineServer.Proofs.Outline.Order
import OutlineServer.Proofs.Token.Layout

/-!
# Outlines are well formed

The symbols of an outline lie in the document, functions enclose their variables and share no line,
and no declaration is listed twice (`WellFormed`, `wellFormed_scan`).

A symbol is declared by a keyword of its kind, and its name is a word of its line
(`declaredOn_of_origin`).  Different words have no character in common, and a word at one place has
one keyword before it, so two symbols of different kinds never select the same text; of the same
kind, they are listed in the order of their places.
-/
namespace OutlineServer

/-! ## Positions and ranges -/

/-- The position is on a line of the document, at most right behind the line's last character. -/
def Position.LiesIn (lines : List Text) (p : Position) : Prop :=
  ∃ (number column : Nat) (line : Text), p = ⟨number, column⟩ ∧ lines[number]? = some line
    ∧ column ≤ line.length

namespace Range

/-- Whether a position lies in the range, whose end is no part of it. -/
def holds (r : Range) (p : Position) : Bool := r.start.notAfter p && p.before r.stop

def Disjoint (r other : Range) : Prop := ∀ p, ¬ (r.holds p = true ∧ other.holds p = true)

def textIn (lines : List Text) (r : Range) : Text :=
  ((lines[r.start.line.toNat]?.getD []).drop r.start.character.toNat).take
    (r.stop.character - r.start.character).toNat

theorem contains_iff {outer inner : Range} : outer.contains inner = true ↔
    outer.start.notAfter inner.start = true ∧ inner.stop.notAfter outer.stop = true := by
  simp [contains]

theorem contains_self (r : Range) : r.contains r = true := by
  simp [contains, Position.notAfter]

theorem Disjoint.symm {r other : Range} (h : r.Disjoint other) : other.Disjoint r :=
  fun p hp => h p hp.symm

theorem disjoint_of_notAfter {r other : Range} (h : r.stop.notAfter other.start = true) :
    r.Disjoint other := by
  rintro p ⟨hr, hother⟩
  simp only [holds, Bool.and_eq_true, Position.notAfter_iff, Position.before_iff] at h hr hother
  omega

end Range

namespace Outline

open OutlineServer.Symbol (preorder)

section

variable {lines : List Text}

/-! ## The name of a symbol -/

variable (lines) in
/-- The symbol selects its name `e` on line `i`, behind a keyword of its kind. -/
def DeclaredOn (x : Symbol) (i : Nat) (line : Text) (e : Excerpt) : Prop :=
  lines[i]? = some line ∧ x.selection = excerptRange i e ∧ x.name = e.text
    ∧ ∃ keyword ∈ x.kind.keywords, ∃ column, Source.NamesAfter keyword column (line.drop column) e

theorem declaredOn_of_mem_variablesOn {x : Symbol} {i : Nat} (h : x ∈ variablesOn lines i) :
    ∃ line e, DeclaredOn lines x i line e := by
  obtain ⟨line, hline, d, hd, rfl⟩ := mem_variablesOn.1 h
  obtain ⟨column, -, hat⟩ := mem_occurrences hd
  exact ⟨line, d.name, hline, rfl, rfl, _, List.mem_singleton_self _, column,
    Source.namesAfter_of_variableAt? hat⟩

/-- **Every symbol has been declared by a keyword of its kind.** -/
theorem declaredOn_of_origin {x : Symbol} (h : Origin lines x) :
    ∃ i line e, DeclaredOn lines x i line e := by
  cases h with
  | @function j head hclose hhead =>
    obtain ⟨line, hline, hd⟩ := headOn_eq_some.1 hhead
    obtain ⟨column, -, hat⟩ := mem_occurrences (List.mem_of_head? hd)
    exact ⟨_, line, head.name, hline, rfl, rfl, _, List.mem_singleton_self _, column,
      Source.namesAfter_of_functionHeadAt? hat⟩
  | outerVariable _ hx => exact ⟨_, declaredOn_of_mem_variablesOn hx⟩
  | innerVariable _ _ _ hx => exact ⟨_, declaredOn_of_mem_variablesOn hx⟩
  | @constant i _ hx =>
    obtain ⟨line, hline, d, hd, rfl⟩ := constantOn_eq_some.1 hx
    obtain ⟨column, -, hat⟩ := mem_occurrences (List.mem_of_head? hd)
    obtain ⟨keyword, hkeyword, hname⟩ := Source.namesAfter_of_constantAt? hat
    exact ⟨i, line, d.name, hline, rfl, rfl, keyword, hkeyword, column, hname⟩

theorem DeclaredOn.mem_words {x : Symbol} {i : Nat} {line : Text} {e : Excerpt}
    (h : DeclaredOn lines x i line e) : e ∈ Token.words line := by
  obtain ⟨-, -, -, _, -, _, hname⟩ := h
  exact Token.mem_words_of_namesAfter hname

theorem disjoint_of_start_ne {x y : Symbol} (hx : Origin lines x) (hy : Origin lines y)
    (hne : x.selection.start ≠ y.selection.start) : x.selection.Disjoint y.selection := by
  obtain ⟨i, line, e, hxd⟩ := declaredOn_of_origin hx
  obtain ⟨j, line', e', hyd⟩ := declaredOn_of_origin hy
  have hwords := hxd.mem_words
  have hwords' := hyd.mem_words
  obtain ⟨hline, hselection, -⟩ := hxd
  obtain ⟨hline', hselection', -⟩ := hyd
  rw [hselection, hselection'] at hne ⊢
  have happart : i < j ∨ j < i ∨ (i = j ∧ e.start < e'.start) ∨ (i = j ∧ e'.start < e.start) := by
    simp only [excerptRange, Range.onLine, ne_eq, Position.mk.injEq] at hne
    omega
  rcases happart with h | h | ⟨rfl, h⟩ | ⟨rfl, h⟩
  · refine Range.disjoint_of_notAfter (Position.notAfter_iff.2 (.inl ?_))
    simpa [excerptRange, Range.onLine] using h
  · refine (Range.disjoint_of_notAfter (Position.notAfter_iff.2 (.inl ?_))).symm
    simpa [excerptRange, Range.onLine] using h
  · rw [hline, Option.some.injEq] at hline'
    subst hline'
    have hapart := Token.words_apart hwords hwords' h
    refine Range.disjoint_of_notAfter (Position.notAfter_iff.2 (.inr ⟨rfl, ?_⟩))
    simp only [excerptRange, Range.onLine]
    omega
  · rw [hline, Option.some.injEq] at hline'
    subst hline'
    have hapart := Token.words_apart hwords' hwords h
    refine (Range.disjoint_of_notAfter (Position.notAfter_iff.2 (.inr ⟨rfl, ?_⟩))).symm
    simp only [excerptRange, Range.onLine]
    omega

theorem start_ne_of_kind_ne {x y : Symbol} (hx : Origin lines x) (hy : Origin lines y)
    (hkind : x.kind ≠ y.kind) : x.selection.start ≠ y.selection.start := by
  obtain ⟨i, line, e, hline, hselection, -, keyword, hkeyword, column, hname⟩ :=
    declaredOn_of_origin hx
  obtain ⟨j, line', e', hline', hselection', -, keyword', hkeyword', column', hname'⟩ :=
    declaredOn_of_origin hy
  intro heq
  rw [hselection, hselection'] at heq
  simp only [excerptRange, Range.onLine, Position.mk.injEq, Int.natCast_inj] at heq
  obtain ⟨rfl, hstart⟩ := heq
  rw [hline, Option.some.injEq] at hline'
  subst hline'
  exact hkind (Source.kind_of_namesAfter hkeyword hname hkeyword' hname' hstart)

/-! ## Well-formed outlines -/

/-- The symbol lies in the document and selects its name there, which is not empty. -/
structure Placed (lines : List Text) (x : Symbol) : Prop where
  start : x.range.start.LiesIn lines
  stop : x.range.stop.LiesIn lines
  selectionStart : x.selection.start.LiesIn lines
  selectionStop : x.selection.stop.LiesIn lines
  oneLine : x.selection.start.line = x.selection.stop.line
  nonEmpty : x.selection.start.before x.selection.stop = true
  contained : x.range.contains x.selection = true
  name : x.selection.textIn lines = x.name

/-- The symbol has symbols inside it only if it is a function, and these are variables within its
range, in order. -/
structure Encloses (x : Symbol) : Prop where
  kind : x.children ≠ [] → x.kind = .func
  children : ∀ child ∈ x.children, child.kind = .var ∧ x.range.contains child.range = true
  ordered : x.children.Pairwise (fun a b => a.range.start.before b.range.start = true)

/-- The outline of a document with these lines, the whole tree included.  Two functions have no line
in common and are listed in order, top-level symbols end in order, and what two symbols select is
disjoint. -/
structure WellFormed (lines : List Text) (symbols : List Symbol) : Prop where
  placed : ∀ x : Symbol, x.OccursIn symbols → Placed lines x
  encloses : ∀ x : Symbol, x.OccursIn symbols → Encloses x
  functionsApart : ((preorder symbols).filter (fun x => x.kind = .func)).Pairwise
    (fun f g => f.range.stop.line < g.range.start.line)
  endsOrdered : symbols.Pairwise (fun x y => x.range.stop.line ≤ y.range.stop.line)
  selectionsDisjoint : (preorder symbols).Pairwise (fun x y => x.selection.Disjoint y.selection)

theorem DeclaredOn.placed {x : Symbol} {i : Nat} {line : Text} {e : Excerpt}
    (h : DeclaredOn lines x i line e) (hstart : x.range.start.LiesIn lines)
    (hstop : x.range.stop.LiesIn lines) (hcontained : x.range.contains x.selection = true) :
    Placed lines x := by
  have hword := h.mem_words
  obtain ⟨hline, hselection, hname, -⟩ := h
  have hle := Token.stop_le_of_mem_words hword
  obtain ⟨-, hne, heq⟩ := Token.recognisedAt?_wordAt?_eq_some.1 (Token.mem_words.1 hword)
  have htext : (line.drop e.start).takeWhile CodePoint.isWord = e.text := by
    conv => rhs; rw [heq]
  have hpos : 0 < e.text.length := List.length_pos_iff.2 (htext ▸ hne)
  have htake : (line.drop e.start).take e.text.length = e.text := by
    have hprefix := List.takeWhile_prefix CodePoint.isWord (l := line.drop e.start)
    rw [htext] at hprefix
    exact (List.prefix_iff_eq_take.1 hprefix).symm
  unfold Excerpt.stop at hle
  have hleft : x.selection.start = ⟨i, e.start⟩ := by rw [hselection]; rfl
  have hright : x.selection.stop = ⟨i, (e.start + e.text.length : Nat)⟩ := by rw [hselection]; rfl
  refine ⟨hstart, hstop, ?_, ?_, ?_, ?_, hcontained, ?_⟩
  · exact ⟨i, e.start, line, hleft, hline, by omega⟩
  · exact ⟨i, _, line, hright, hline, hle⟩
  · rw [hleft, hright]
  · rw [hleft, hright, Position.before_iff]
    exact .inr ⟨rfl, by dsimp only; omega⟩
  · have hlength : (((e.start + e.text.length : Nat) : Int) - e.start).toNat = e.text.length := by
      omega
    unfold Range.textIn
    rw [hleft, hright, hname]
    simp only [Int.toNat_natCast, hline, Option.getD_some, hlength, htake]

theorem placed_of_range_eq {x : Symbol} (hx : Origin lines x) (hrange : x.range = x.selection) :
    Placed lines x := by
  obtain ⟨i, line, e, h⟩ := declaredOn_of_origin hx
  have hle := Token.stop_le_of_mem_words h.mem_words
  have hselection := h.2.1
  have hstart : e.start ≤ e.stop := Nat.le_add_right _ _
  refine h.placed ⟨i, e.start, line, ?_, h.1, by omega⟩ ⟨i, e.stop, line, ?_, h.1, hle⟩ ?_
  · rw [hrange, hselection]
    rfl
  · rw [hrange, hselection]
    rfl
  · rw [hrange]
    exact Range.contains_self _

theorem range_of_mem_variablesOn {i : Nat} {x : Symbol} (h : x ∈ variablesOn lines i) :
    x.range = x.selection := by
  obtain ⟨_, _, d, _, rfl⟩ := mem_variablesOn.1 h
  rfl

theorem exists_line_of_endOn {j : Nat} (h : endOn lines j = true) :
    ∃ line, lines[j]? = some line := by
  cases hline : lines[j]? with
  | none => simp [endOn, hline] at h
  | some line => exact ⟨line, rfl⟩

theorem placed_function {j : Nat} {head : Declaration} (hclose : ClosesOn lines j)
    (hhead : headOn lines (latestHead lines j) = some head) :
    Placed lines (functionSymbol lines (latestHead lines j) j head) := by
  obtain ⟨i, line, e, h⟩ := declaredOn_of_origin (.function hclose hhead)
  have hle := Token.stop_le_of_mem_words h.mem_words
  have hselection := h.2.1
  obtain ⟨lastLine, hlast⟩ := exists_line_of_endOn (closesOn_iff.1 hclose).2
  have hi : latestHead lines j = i := by
    have hline := congrArg (fun r => r.start.line) hselection
    exact Int.ofNat.inj hline
  have hij : latestHead lines j ≤ j := latestHead_le j
  refine h.placed ⟨i, 0, line, ?_, h.1, by omega⟩ ⟨j, lastLine.length, lastLine, ?_, hlast, ?_⟩ ?_
  · simp [functionSymbol, hi]
  · simp [functionSymbol, hlast]
  · exact Nat.le_refl _
  · rw [Range.contains_iff, hselection, Position.notAfter_iff, Position.notAfter_iff]
    simp only [functionSymbol, excerptRange, Range.onLine, hlast, Option.getD_some]
    refine ⟨by omega, ?_⟩
    -- the name ends on the line of the head, which may be the line of the end
    rcases Nat.lt_or_eq_of_le hij with hlt | heq
    · exact .inl (by omega)
    · rw [hi] at heq
      subst heq
      rw [h.1, Option.some.injEq] at hlast
      subst hlast
      exact .inr ⟨rfl, by omega⟩

theorem placed_of_origin {x : Symbol} (hx : Origin lines x) : Placed lines x := by
  cases hx with
  | function hclose hhead => exact placed_function hclose hhead
  | outerVariable hopen h =>
    exact placed_of_range_eq (.outerVariable hopen h) (range_of_mem_variablesOn h)
  | innerVariable hclose hle hlt h =>
    exact placed_of_range_eq (.innerVariable hclose hle hlt h) (range_of_mem_variablesOn h)
  | constant h =>
    refine placed_of_range_eq (.constant h) ?_
    obtain ⟨_, _, d, _, rfl⟩ := constantOn_eq_some.1 h
    rfl

theorem encloses_of_leaf {x : Symbol} (h : x.children = []) : Encloses x :=
  ⟨fun hne => absurd h hne, by simp [h], by simp [h]⟩

theorem encloses_of_origin {x : Symbol} (hx : Origin lines x) : Encloses x := by
  cases hx with
  | @function j head hclose hhead =>
    refine ⟨fun _ => rfl, fun child hchild => ?_, ?_⟩
    · obtain ⟨k, hle, hlt, hchild⟩ := mem_variablesFrom.1 hchild
      refine ⟨kind_of_mem_variablesOn hchild, ?_⟩
      obtain ⟨_, _, d, _, rfl⟩ := mem_variablesOn.1 hchild
      rw [Range.contains_iff, Position.notAfter_iff, Position.notAfter_iff]
      simp only [functionSymbol, variableSymbol, excerptRange, Range.onLine]
      omega
    · refine (pairwise_variablesFrom _ _).imp_of_mem (fun hx hy h => ?_)
      obtain ⟨_, -, -, hx⟩ := mem_variablesFrom.1 hx
      obtain ⟨_, -, -, hy⟩ := mem_variablesFrom.1 hy
      rwa [range_of_mem_variablesOn hx, range_of_mem_variablesOn hy]
  | outerVariable _ h => exact encloses_of_leaf (children_of_mem_variablesOn h)
  | innerVariable _ _ _ h => exact encloses_of_leaf (children_of_mem_variablesOn h)
  | constant h => exact encloses_of_leaf (children_of_constantOn h)

theorem Origin.eq_function {x : Symbol} (hx : Origin lines x) (hkind : x.kind = .func) :
    ∃ j head, ClosesOn lines j ∧ headOn lines (latestHead lines j) = some head
      ∧ x = functionSymbol lines (latestHead lines j) j head := by
  cases hx with
  | @function j head hclose hhead => exact ⟨j, head, hclose, hhead, rfl⟩
  | outerVariable _ h =>
    rw [kind_of_mem_variablesOn h] at hkind
    cases hkind
  | innerVariable _ _ _ h =>
    rw [kind_of_mem_variablesOn h] at hkind
    cases hkind
  | constant h =>
    rw [kind_of_constantOn h] at hkind
    cases hkind

/-- **A function that is listed behind another begins behind its end.** -/
theorem function_apart {f g : Symbol} (hf : Origin lines f) (hg : Origin lines g)
    (hfkind : f.kind = .func) (hgkind : g.kind = .func) (hordered : InOrder f g) :
    f.range.stop.line < g.range.start.line := by
  have hbefore := hordered (hfkind.trans hgkind.symm)
  obtain ⟨i, head, hclose, hhead, rfl⟩ := hf.eq_function hfkind
  obtain ⟨j, head', hclose', hhead', rfl⟩ := hg.eq_function hgkind
  rw [Position.before_iff] at hbefore
  simp only [functionSymbol, excerptRange, Range.onLine] at hbefore ⊢
  by_contra hle
  -- the later head is one that the earlier end would have found, so they are the same head
  have hlatest : latestHead lines j ≤ latestHead lines i :=
    le_latestHead (by omega) (by rw [hhead']; rfl)
  have heq : latestHead lines i = latestHead lines j := by omega
  rw [heq, hhead', Option.some.injEq] at hhead
  subst hhead
  omega

theorem stop_of_mem_symbolsOn {i : Nat} {x : Symbol} (h : x ∈ symbolsOn lines i) :
    x.range.stop.line = i := by
  rcases mem_symbolsOn.1 h with hf | ⟨-, hx⟩ | hx
  · obtain ⟨-, head, -, rfl⟩ := functionOn_eq_some.1 hf
    rfl
  · obtain ⟨_, _, d, _, rfl⟩ := mem_variablesOn.1 hx
    rfl
  · obtain ⟨_, _, d, _, rfl⟩ := constantOn_eq_some.1 hx
    rfl

theorem pairwise_stop (lines : List Text) : (ofLines lines).symbols.Pairwise
    (fun x y => x.range.stop.line ≤ y.range.stop.line) := by
  rw [ofLines_symbols, List.pairwise_flatMap]
  constructor
  · intro i _
    refine List.pairwise_of_forall_mem_list (fun x hx y hy => ?_)
    exact Int.le_of_eq ((stop_of_mem_symbolsOn hx).trans (stop_of_mem_symbolsOn hy).symm)
  · refine List.pairwise_lt_range.imp (fun {i j} hij x hx y hy => ?_)
    rw [stop_of_mem_symbolsOn hx, stop_of_mem_symbolsOn hy]
    omega

theorem origin_of_mem_preorder {x : Symbol} (h : x ∈ preorder (ofLines lines).symbols) :
    Origin lines x :=
  occursIn_ofLines.1 (Symbol.mem_preorder.1 h)

end

/-- **The outline of every document is well formed.** -/
theorem wellFormed_scan (text : Text) : WellFormed text.lines (scan text).symbols where
  placed _ hx := placed_of_origin (occursIn_ofLines.1 hx)
  encloses _ hx := encloses_of_origin (occursIn_ofLines.1 hx)
  functionsApart := by
    rw [List.pairwise_filter]
    refine (pairwise_inOrder text.lines).imp_of_mem (fun hf hg hordered hfkind hgkind => ?_)
    exact function_apart (origin_of_mem_preorder hf) (origin_of_mem_preorder hg)
      (of_decide_eq_true hfkind) (of_decide_eq_true hgkind) hordered
  endsOrdered := pairwise_stop text.lines
  selectionsDisjoint := by
    refine (pairwise_inOrder text.lines).imp_of_mem (fun {x y} hx hy hordered => ?_)
    have hx := origin_of_mem_preorder hx
    have hy := origin_of_mem_preorder hy
    refine disjoint_of_start_ne hx hy ?_
    by_cases hkind : x.kind = y.kind
    · -- of one kind, the order of the list is the order of the places
      intro heq
      have hbefore := hordered hkind
      rw [Position.before_iff, heq] at hbefore
      omega
    · exact start_ne_of_kind_ne hx hy hkind

end Outline

end OutlineServer
