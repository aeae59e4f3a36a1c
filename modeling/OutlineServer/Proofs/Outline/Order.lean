import OutlineServer.Proofs.Outline.Tree
import OutlineServer.Proofs.Source.Keywords

/-!
# The order of symbols

The whole tree of an outline is taken as one list, each symbol before those inside it
(`Symbol.preorder`), so that a statement about any two symbols of the tree is one about any two
places of the list.

A line contributes to the outline what is declared on it or, if it closes a function, the function
and its variables.  Those are declared behind the last line that left nothing open
(`lt_latestHead`); so the symbols of one kind are listed in the order of their places
(`pairwise_inOrder`).
-/
namespace OutlineServer

namespace Position

theorem before_iff {p q : Position} : p.before q = true ↔
    p.line < q.line ∨ (p.line = q.line ∧ p.character < q.character) := by
  simp [before]

theorem notAfter_iff {p q : Position} : p.notAfter q = true ↔
    p.line < q.line ∨ (p.line = q.line ∧ p.character ≤ q.character) := by
  obtain ⟨line, character⟩ := p
  obtain ⟨line', character'⟩ := q
  simp only [notAfter, Bool.or_eq_true, before_iff, decide_eq_true_eq, mk.injEq]
  omega

end Position

/-! ## The tree as a list -/

namespace Symbol

mutual

def withInner : Symbol → List Symbol
  | ⟨name, detail, kind, range, selection, children⟩ =>
    ⟨name, detail, kind, range, selection, children⟩ :: preorder children

/-- The symbols of a tree, each before those inside it. -/
def preorder : List Symbol → List Symbol
  | [] => []
  | symbol :: rest => symbol.withInner ++ preorder rest

end

theorem withInner_eq (x : Symbol) : x.withInner = x :: preorder x.children := by
  cases x
  rw [withInner]

theorem preorder_cons (x : Symbol) (rest : List Symbol) :
    preorder (x :: rest) = x :: (preorder x.children ++ preorder rest) := by
  rw [preorder, withInner_eq, List.cons_append]

theorem preorder_append : ∀ (l m : List Symbol), preorder (l ++ m) = preorder l ++ preorder m
  | [], m => by
    rw [preorder]
    rfl
  | x :: l, m => by
    rw [List.cons_append, preorder_cons, preorder_cons, preorder_append l m, List.cons_append,
      List.append_assoc]

theorem preorder_flatMap {α : Type} (f : α → List Symbol) : ∀ items : List α,
    preorder (items.flatMap f) = items.flatMap (fun item => preorder (f item))
  | [] => rfl
  | item :: items => by
    rw [List.flatMap_cons, List.flatMap_cons, preorder_append, preorder_flatMap f items]

theorem preorder_of_leaves : ∀ {l : List Symbol}, (∀ x ∈ l, x.children = []) → preorder l = l
  | [], _ => rfl
  | x :: l, h => by
    rw [List.forall_mem_cons] at h
    rw [preorder_cons, h.1, preorder_of_leaves h.2]
    rfl

theorem mem_preorder_of_mem {x : Symbol} {l : List Symbol} (h : x ∈ l) : x ∈ preorder l := by
  obtain ⟨front, rest, rfl⟩ := List.append_of_mem h
  simp [preorder_append, preorder_cons]

theorem mem_preorder_of_occursIn {x : Symbol} {l : List Symbol} (h : x.OccursIn l) :
    x ∈ preorder l := by
  induction h with
  | here hx => exact mem_preorder_of_mem hx
  | inside hparent _ ih =>
    obtain ⟨front, rest, rfl⟩ := List.append_of_mem hparent
    simp [preorder_append, preorder_cons, ih]

mutual

theorem occursIn_of_mem_withInner {x : Symbol} : ∀ y : Symbol, x ∈ y.withInner →
    x = y ∨ x.OccursIn y.children
  | ⟨_, _, _, _, _, children⟩, h => by
    rw [withInner, List.mem_cons] at h
    exact h.imp_right (occursIn_of_mem_preorder children)

theorem occursIn_of_mem_preorder {x : Symbol} : ∀ l : List Symbol, x ∈ preorder l → x.OccursIn l
  | [], h => by cases h
  | y :: rest, h => by
    rw [preorder, List.mem_append] at h
    rcases h with h | h
    · rcases occursIn_of_mem_withInner y h with rfl | h
      · exact .here List.mem_cons_self
      · exact .inside List.mem_cons_self h
    · rcases occursIn_of_mem_preorder rest h with hx | ⟨hparent, hx⟩
      · exact .here (List.mem_cons_of_mem _ hx)
      · exact .inside (List.mem_cons_of_mem _ hparent) hx

end

theorem mem_preorder {x : Symbol} {l : List Symbol} : x ∈ preorder l ↔ x.OccursIn l :=
  ⟨occursIn_of_mem_preorder l, mem_preorder_of_occursIn⟩

end Symbol

namespace Outline

open OutlineServer.Symbol (preorder)

section

variable {lines : List Text}

/-! ## The order of symbols -/

theorem children_of_functionOn {j : Nat} {f : Symbol} (h : functionOn lines j = some f) :
    f.children = variablesFrom lines (latestHead lines j) j := by
  obtain ⟨-, head, -, rfl⟩ := functionOn_eq_some.1 h
  rfl

theorem preorder_variablesFrom (s j : Nat) :
    preorder (variablesFrom lines s j) = variablesFrom lines s j := by
  refine Symbol.preorder_of_leaves (fun x hx => ?_)
  obtain ⟨k, -, -, hx⟩ := mem_variablesFrom.1 hx
  exact children_of_mem_variablesOn hx

variable (lines) in
/-- The variables whose place in the outline is settled by line `i`: those of the function that is
closed on it, and its own unless a function is open after it. -/
def variablesSettledOn (i : Nat) : List Symbol :=
  (if ClosesOn lines i then variablesFrom lines (latestHead lines i) i else [])
    ++ if OpenAfter lines i then [] else variablesOn lines i

theorem preorder_symbolsOn (i : Nat) :
    preorder (symbolsOn lines i) = (functionOn lines i).toList ++ variablesSettledOn lines i
      ++ (constantOn lines i).toList := by
  have hvariables : preorder (if OpenAfter lines i then [] else variablesOn lines i)
      = if OpenAfter lines i then [] else variablesOn lines i := by
    split
    · rfl
    · exact Symbol.preorder_of_leaves (fun x hx => children_of_mem_variablesOn hx)
  have hconstant : preorder (constantOn lines i).toList = (constantOn lines i).toList :=
    Symbol.preorder_of_leaves (fun x hx => children_of_constantOn (Option.mem_toList.1 hx))
  unfold symbolsOn variablesSettledOn
  rw [Symbol.preorder_append, Symbol.preorder_append, hvariables, hconstant]
  by_cases hclose : ClosesOn lines i
  · obtain ⟨head, -, hf⟩ := functionOn_of_closesOn hclose
    rw [hf, if_pos hclose, Option.toList_some, Symbol.preorder_cons, children_of_functionOn hf,
      preorder_variablesFrom]
    simp [Symbol.preorder]
  · have hf : functionOn lines i = none := if_neg hclose
    rw [hf, if_neg hclose]
    rfl

theorem not_openAfter_of_closesOn {i : Nat} (h : ClosesOn lines i) : ¬ OpenAfter lines i := by
  intro hopen
  have hend := (openAfter_iff.1 hopen).2
  rw [(closesOn_iff.1 h).2] at hend
  cases hend

/-- **A function begins behind every line that left nothing open**, if it is closed behind it. -/
theorem lt_latestHead {i j : Nat} (hopen : ¬ OpenAfter lines i) (hij : i < j)
    (hclose : ClosesOn lines j) : i < latestHead lines j := by
  obtain ⟨⟨s, hs, hhead, hend⟩, -⟩ := closesOn_iff.1 hclose
  have hlt : i < s := by
    by_contra hle
    exact hopen ⟨s, Nat.not_lt.1 hle, hhead, fun k h1 h2 => hend k h1 (Nat.lt_of_le_of_lt h2 hij)⟩
  exact Nat.lt_of_lt_of_le hlt (le_latestHead hs hhead)

theorem kind_of_mem_variablesOn {i : Nat} {x : Symbol} (h : x ∈ variablesOn lines i) :
    x.kind = .var := by
  obtain ⟨_, _, d, _, rfl⟩ := mem_variablesOn.1 h
  rfl

theorem mem_variablesSettledOn {i : Nat} {x : Symbol} (h : x ∈ variablesSettledOn lines i) :
    ¬ OpenAfter lines i ∧ ∃ k, x ∈ variablesOn lines k
      ∧ (k = i ∨ (k < i ∧ ClosesOn lines i ∧ latestHead lines i ≤ k)) := by
  rcases List.mem_append.1 h with h | h
  · split at h
    · rename_i hclose
      obtain ⟨k, hle, hlt, hx⟩ := mem_variablesFrom.1 h
      exact ⟨not_openAfter_of_closesOn hclose, k, hx, .inr ⟨hlt, hclose, hle⟩⟩
    · cases h
  · split at h
    · cases h
    · rename_i hopen
      exact ⟨hopen, i, h, .inl rfl⟩

theorem kind_of_mem_variablesSettledOn {i : Nat} {x : Symbol}
    (h : x ∈ variablesSettledOn lines i) : x.kind = .var := by
  obtain ⟨-, k, hx, -⟩ := mem_variablesSettledOn h
  exact kind_of_mem_variablesOn hx

theorem kind_of_functionOn {i : Nat} {x : Symbol} (h : functionOn lines i = some x) :
    x.kind = .func := by
  obtain ⟨-, head, -, rfl⟩ := functionOn_eq_some.1 h
  rfl

theorem kind_of_constantOn {i : Nat} {x : Symbol} (h : constantOn lines i = some x) :
    x.kind = .const := by
  obtain ⟨_, _, d, _, rfl⟩ := constantOn_eq_some.1 h
  rfl

theorem line_of_contributed {i : Nat} {x : Symbol} (h : x ∈ preorder (symbolsOn lines i)) :
    ∃ k : Nat, x.selection.start.line = k ∧ k ≤ i ∧ (x.kind = .const ∨ ¬ OpenAfter lines i)
      ∧ (k = i ∨ (x.kind ≠ .const ∧ ClosesOn lines i ∧ latestHead lines i ≤ k)) := by
  rw [preorder_symbolsOn] at h
  simp only [List.mem_append, Option.mem_toList] at h
  rcases h with (hf | hvar) | hconst
  · obtain ⟨hclose, head, -, rfl⟩ := functionOn_eq_some.1 hf
    exact ⟨_, rfl, latestHead_le i, .inr (not_openAfter_of_closesOn hclose),
      .inr ⟨by rintro ⟨⟩, hclose, Nat.le_refl _⟩⟩
  · have hkind : x.kind ≠ .const := by simp [kind_of_mem_variablesSettledOn hvar]
    obtain ⟨hopen, k, hx, rfl | ⟨hlt, hclose, hle⟩⟩ := mem_variablesSettledOn hvar
    · exact ⟨k, line_of_mem_variablesOn hx, Nat.le_refl k, .inr hopen, .inl rfl⟩
    · exact ⟨k, line_of_mem_variablesOn hx, Nat.le_of_lt hlt, .inr hopen,
        .inr ⟨hkind, hclose, hle⟩⟩
  · obtain ⟨_, _, d, _, rfl⟩ := constantOn_eq_some.1 hconst
    exact ⟨i, rfl, Nat.le_refl i, .inl rfl, .inl rfl⟩

/-- **Of one kind, later lines contribute symbols of later lines.** -/
theorem line_lt_of_contributed {i j : Nat} (hij : i < j) {x y : Symbol}
    (hx : x ∈ preorder (symbolsOn lines i)) (hy : y ∈ preorder (symbolsOn lines j))
    (hkind : x.kind = y.kind) : x.selection.start.line < y.selection.start.line := by
  obtain ⟨k, hk, hki, hopen, -⟩ := line_of_contributed hx
  obtain ⟨l, hl, -, -, hplace⟩ := line_of_contributed hy
  rw [hk, hl]
  rcases hplace with rfl | ⟨hconst, hclose, hle⟩
  · omega
  · have hopen : ¬ OpenAfter lines i := hopen.resolve_left (hkind ▸ hconst)
    have hlt := lt_latestHead hopen hij hclose
    omega

theorem pairwise_variablesOn (i : Nat) : (variablesOn lines i).Pairwise (fun x y =>
    x.selection.start.before y.selection.start = true) := by
  cases hline : lines[i]? with
  | none => simp [variablesOn, hline]
  | some line =>
    rw [variablesOn_of_line hline, List.pairwise_map]
    refine (Source.pairwise_variableNames line).imp (fun hlt => ?_)
    simpa [Position.before_iff, variableSymbol, excerptRange, Range.onLine] using hlt

theorem pairwise_variablesFrom (s j : Nat) : (variablesFrom lines s j).Pairwise (fun x y =>
    x.selection.start.before y.selection.start = true) := by
  unfold variablesFrom
  rw [List.pairwise_flatMap]
  refine ⟨fun i _ => pairwise_variablesOn i, ?_⟩
  refine (List.pairwise_lt_range' (s := s) (n := j - s)).imp ?_
  intro i k hlt x hx y hy
  rw [Position.before_iff, line_of_mem_variablesOn hx, line_of_mem_variablesOn hy]
  omega

theorem pairwise_variablesSettledOn (i : Nat) : (variablesSettledOn lines i).Pairwise (fun x y =>
    x.selection.start.before y.selection.start = true) := by
  unfold variablesSettledOn
  rw [List.pairwise_append]
  refine ⟨?_, ?_, ?_⟩
  · split
    · exact pairwise_variablesFrom _ _
    · exact List.Pairwise.nil
  · split
    · exact List.Pairwise.nil
    · exact pairwise_variablesOn i
  · intro x hx y hy
    split at hx
    · obtain ⟨k, -, hlt, hx⟩ := mem_variablesFrom.1 hx
      split at hy
      · cases hy
      · rw [Position.before_iff, line_of_mem_variablesOn hx, line_of_mem_variablesOn hy]
        omega
    · cases hx

def InOrder (x y : Symbol) : Prop :=
  x.kind = y.kind → x.selection.start.before y.selection.start = true

theorem pairwise_contributed (i : Nat) : (preorder (symbolsOn lines i)).Pairwise InOrder := by
  have hone : ∀ o : Option Symbol, o.toList.Pairwise InOrder := by
    intro o
    cases o <;> simp
  have hvariables : (variablesSettledOn lines i).Pairwise InOrder :=
    (pairwise_variablesSettledOn i).imp (fun h => fun _ => h)
  rw [preorder_symbolsOn, List.pairwise_append, List.pairwise_append]
  refine ⟨⟨hone _, hvariables, ?_⟩, hone _, ?_⟩
  · intro x hx y hy hkind
    rw [kind_of_functionOn (Option.mem_toList.1 hx), kind_of_mem_variablesSettledOn hy] at hkind
    cases hkind
  · intro x hx y hy hkind
    rw [kind_of_constantOn (Option.mem_toList.1 hy)] at hkind
    rcases List.mem_append.1 hx with hx | hx
    · rw [kind_of_functionOn (Option.mem_toList.1 hx)] at hkind
      cases hkind
    · rw [kind_of_mem_variablesSettledOn hx] at hkind
      cases hkind

/-- A relation holds between any two symbols of an outline, in their order, when it holds between
those of one line and between those of any two. -/
theorem pairwise_preorder {R : Symbol → Symbol → Prop}
    (hline : ∀ i, (preorder (symbolsOn lines i)).Pairwise R)
    (hlines : ∀ i j, i < j → ∀ x ∈ preorder (symbolsOn lines i),
      ∀ y ∈ preorder (symbolsOn lines j), R x y) :
    (preorder (ofLines lines).symbols).Pairwise R := by
  rw [ofLines_symbols, Symbol.preorder_flatMap, List.pairwise_flatMap]
  exact ⟨fun i _ => hline i, List.pairwise_lt_range.imp (fun {i j} hij => hlines i j hij)⟩

/-- **Of one kind, the symbols of an outline are listed in the order of their places.** -/
theorem pairwise_inOrder (lines : List Text) :
    (preorder (ofLines lines).symbols).Pairwise InOrder :=
  pairwise_preorder pairwise_contributed (fun _ _ hij _ hx _ hy hkind =>
    Position.before_iff.2 (.inl (line_lt_of_contributed hij hx hy hkind)))

end

end Outline

end OutlineServer
