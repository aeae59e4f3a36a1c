import OutlineServer.Proofs.Outline.ClosedForm

/-!
# Symbols at any depth

Where the symbols of an outline come from, those inside functions included: each is a function that
was closed, a variable outside of functions or inside one that was closed, or the constant of a line
(`occursIn_ofLines`).  A function that is replaced by a later head before an end, or that no end
follows, leaves neither a symbol of its own nor one for its variables (`Dropped`); its name is
offered for completion all the same.
-/
namespace OutlineServer

/-- A symbol stands in a list of symbols or, at any depth, inside one of them. -/
inductive Symbol.OccursIn (x : Symbol) : List Symbol → Prop
  | here {symbols : List Symbol} (h : x ∈ symbols) : OccursIn x symbols
  | inside {symbols : List Symbol} {parent : Symbol} (hparent : parent ∈ symbols)
      (h : OccursIn x parent.children) : OccursIn x symbols

namespace Outline

inductive Origin (lines : List Text) : Symbol → Prop
  | function {j : Nat} {head : Declaration} (hclose : ClosesOn lines j)
      (hhead : headOn lines (latestHead lines j) = some head) :
      Origin lines (functionSymbol lines (latestHead lines j) j head)
  | outerVariable {i : Nat} {x : Symbol} (hopen : ¬ OpenAfter lines i)
      (hx : x ∈ variablesOn lines i) : Origin lines x
  | innerVariable {i j : Nat} {x : Symbol} (hclose : ClosesOn lines j)
      (hle : latestHead lines j ≤ i) (hlt : i < j) (hx : x ∈ variablesOn lines i) : Origin lines x
  | constant {i : Nat} {x : Symbol} (hx : constantOn lines i = some x) : Origin lines x

section Origins

variable {lines : List Text}

theorem mem_variablesOn {i : Nat} {x : Symbol} : x ∈ variablesOn lines i ↔
    ∃ line, lines[i]? = some line ∧ ∃ d ∈ Source.variableDeclarations line, variableSymbol i d = x := by
  simp [variablesOn, List.mem_flatMap, Option.mem_toList]

theorem constantOn_eq_some {i : Nat} {x : Symbol} : constantOn lines i = some x ↔
    ∃ line, lines[i]? = some line
      ∧ ∃ d, (Source.constantDeclarations line).head? = some d ∧ constantSymbol i d = x := by
  simp [constantOn, Option.bind_eq_some_iff]

theorem headOn_eq_some {i : Nat} {head : Declaration} : headOn lines i = some head ↔
    ∃ line, lines[i]? = some line ∧ (Source.functionHeads line).head? = some head := by
  simp [headOn, Option.bind_eq_some_iff]

theorem mem_variablesFrom {s j : Nat} {x : Symbol} :
    x ∈ variablesFrom lines s j ↔ ∃ i, s ≤ i ∧ i < j ∧ x ∈ variablesOn lines i := by
  unfold variablesFrom
  rw [List.mem_flatMap]
  constructor
  · rintro ⟨i, hi, hx⟩
    rw [List.mem_range'_1] at hi
    exact ⟨i, hi.1, by omega, hx⟩
  · rintro ⟨i, h1, h2, hx⟩
    exact ⟨i, List.mem_range'_1.2 ⟨h1, by omega⟩, hx⟩

theorem functionOn_eq_some {j : Nat} {x : Symbol} : functionOn lines j = some x ↔
    ClosesOn lines j ∧ ∃ head, headOn lines (latestHead lines j) = some head
      ∧ functionSymbol lines (latestHead lines j) j head = x := by
  unfold functionOn
  by_cases h : ClosesOn lines j
  · rw [if_pos h, Option.map_eq_some_iff, and_iff_right h]
  · rw [if_neg h]
    simp [h]

theorem functionOn_of_closesOn {j : Nat} (h : ClosesOn lines j) :
    ∃ head, headOn lines (latestHead lines j) = some head
      ∧ functionOn lines j = some (functionSymbol lines (latestHead lines j) j head) := by
  obtain ⟨head, hhead⟩ := Option.isSome_iff_exists.1 (closesOn_iff.1 h).1.headOn_latestHead
  exact ⟨head, hhead, functionOn_eq_some.2 ⟨h, head, hhead, rfl⟩⟩

theorem mem_symbolsOn {i : Nat} {x : Symbol} : x ∈ symbolsOn lines i ↔
    functionOn lines i = some x ∨ (¬ OpenAfter lines i ∧ x ∈ variablesOn lines i)
      ∨ constantOn lines i = some x := by
  unfold symbolsOn
  rw [List.mem_append, List.mem_append, Option.mem_toList, Option.mem_toList, or_assoc]
  by_cases h : OpenAfter lines i <;> simp [h]

theorem mem_ofLines {x : Symbol} :
    x ∈ (ofLines lines).symbols ↔ ∃ i, i < lines.length ∧ x ∈ symbolsOn lines i := by
  rw [ofLines_symbols, List.mem_flatMap]
  simp only [List.mem_range]

theorem lt_length_of_mem_symbolsOn {i : Nat} {x : Symbol} (h : x ∈ symbolsOn lines i) :
    i < lines.length := by
  by_contra hlt
  have hnone : lines[i]? = none := List.getElem?_eq_none (Nat.not_lt.1 hlt)
  rcases mem_symbolsOn.1 h with hf | ⟨-, hv⟩ | hc
  · have hend := (closesOn_iff.1 (functionOn_eq_some.1 hf).1).2
    rw [endOn, hnone] at hend
    cases hend
  · obtain ⟨line, hline, -⟩ := mem_variablesOn.1 hv
    rw [hnone] at hline
    cases hline
  · obtain ⟨line, hline, -⟩ := constantOn_eq_some.1 hc
    rw [hnone] at hline
    cases hline

theorem occursIn_of_mem_symbolsOn {i : Nat} {x : Symbol} (h : x ∈ symbolsOn lines i) :
    x.OccursIn (ofLines lines).symbols :=
  .here (mem_ofLines.2 ⟨i, lt_length_of_mem_symbolsOn h, h⟩)

theorem children_of_mem_variablesOn {i : Nat} {x : Symbol} (h : x ∈ variablesOn lines i) :
    x.children = [] := by
  obtain ⟨_, _, d, _, rfl⟩ := mem_variablesOn.1 h
  rfl

theorem children_of_constantOn {i : Nat} {x : Symbol} (h : constantOn lines i = some x) :
    x.children = [] := by
  obtain ⟨_, _, d, _, rfl⟩ := constantOn_eq_some.1 h
  rfl

theorem not_occursIn_nil {x : Symbol} : ¬ x.OccursIn [] := by
  rintro (h | ⟨h, -⟩) <;> cases h

theorem Origin.of_mem_symbolsOn {i : Nat} {x : Symbol} (h : x ∈ symbolsOn lines i) :
    Origin lines x := by
  rcases mem_symbolsOn.1 h with hf | ⟨hopen, hx⟩ | hx
  · obtain ⟨hclose, head, hhead, rfl⟩ := functionOn_eq_some.1 hf
    exact .function hclose hhead
  · exact .outerVariable hopen hx
  · exact .constant hx

theorem Origin.of_child {i : Nat} {x parent : Symbol} (hparent : parent ∈ symbolsOn lines i)
    (h : x.OccursIn parent.children) : Origin lines x := by
  rcases mem_symbolsOn.1 hparent with hf | ⟨-, hv⟩ | hc
  · obtain ⟨hclose, head, -, rfl⟩ := functionOn_eq_some.1 hf
    cases h with
    | here hx =>
      obtain ⟨k, hle, hlt, hx⟩ := mem_variablesFrom.1 hx
      exact .innerVariable hclose hle hlt hx
    | inside hvar h =>
      obtain ⟨k, -, -, hvar⟩ := mem_variablesFrom.1 hvar
      rw [children_of_mem_variablesOn hvar] at h
      exact absurd h not_occursIn_nil
  · rw [children_of_mem_variablesOn hv] at h
    exact absurd h not_occursIn_nil
  · rw [children_of_constantOn hc] at h
    exact absurd h not_occursIn_nil

/-- **The symbols of an outline, at any depth, are those with an origin on its lines.** -/
theorem occursIn_ofLines {x : Symbol} :
    x.OccursIn (ofLines lines).symbols ↔ Origin lines x := by
  constructor
  · rintro (h | ⟨hparent, h⟩)
    · obtain ⟨i, -, h⟩ := mem_ofLines.1 h
      exact .of_mem_symbolsOn h
    · obtain ⟨i, -, hparent⟩ := mem_ofLines.1 hparent
      exact .of_child hparent h
  · intro h
    cases h with
    | function hclose hhead =>
      exact occursIn_of_mem_symbolsOn
        (mem_symbolsOn.2 (.inl (functionOn_eq_some.2 ⟨hclose, _, hhead, rfl⟩)))
    | outerVariable hopen hx =>
      exact occursIn_of_mem_symbolsOn (mem_symbolsOn.2 (.inr (.inl ⟨hopen, hx⟩)))
    | innerVariable hclose hle hlt hx =>
      obtain ⟨head, -, hf⟩ := functionOn_of_closesOn hclose
      have hmem := mem_symbolsOn.2 (.inl hf)
      exact .inside (mem_ofLines.2 ⟨_, lt_length_of_mem_symbolsOn hmem, hmem⟩)
        (.here (mem_variablesFrom.2 ⟨_, hle, hlt, hx⟩))
    | constant hx => exact occursIn_of_mem_symbolsOn (mem_symbolsOn.2 (.inr (.inr hx)))

/-! ## Functions that are dropped -/

variable (lines) in
/-- Line `s` has a head, and every end at or after it comes after a later head: the function is
replaced before it is closed, or never closed at all. -/
def Dropped (s : Nat) : Prop :=
  (headOn lines s).isSome ∧
    ∀ j, s ≤ j → endOn lines j → ∃ r, s < r ∧ r ≤ j ∧ (headOn lines r).isSome

theorem Dropped.latestHead_ne {s j : Nat} (h : Dropped lines s) (hclose : ClosesOn lines j) :
    latestHead lines j ≠ s := by
  rintro rfl
  obtain ⟨r, hlt, hle, hr⟩ := h.2 j (latestHead_le j) hclose.1
  exact absurd (le_latestHead hle hr) (Nat.not_le.2 hlt)

theorem Dropped.openAfter {s i : Nat} (h : Dropped lines s) (hi : s ≤ i)
    (hnext : ∀ r, s < r → r ≤ i → headOn lines r = none) : OpenAfter lines i := by
  refine ⟨s, hi, h.1, fun k hsk hki => ?_⟩
  by_contra hend
  obtain ⟨r, hlt, hle, hr⟩ := h.2 k hsk (by simpa using hend)
  rw [hnext r hlt (Nat.le_trans hle hki)] at hr
  cases hr

/-- A function that is closed after line `i`, and has its head at or before it, has the latest head
at or before it. -/
theorem latestHead_eq_of_between {i j : Nat} (hle : latestHead lines j ≤ i) (hlt : i < j)
    (hclose : ClosesOn lines j) : latestHead lines j = latestHead lines i := by
  have hhead := (closesOn_iff.1 hclose).1.headOn_latestHead
  have hij : latestHead lines i ≤ j := Nat.le_trans (latestHead_le i) (Nat.le_of_lt hlt)
  exact Nat.le_antisymm (le_latestHead hle hhead)
    (le_latestHead hij (headOn_latestHead hle hhead))

theorem latestHead_eq_of_no_later {s i : Nat} (hs : (headOn lines s).isSome) (hi : s ≤ i)
    (hnext : ∀ r, s < r → r ≤ i → headOn lines r = none) : latestHead lines i = s := by
  refine Nat.le_antisymm ?_ (le_latestHead hi hs)
  by_contra hlt
  have hsome := headOn_latestHead hi hs
  rw [hnext _ (Nat.not_le.1 hlt) (latestHead_le i)] at hsome
  cases hsome

theorem Dropped.function_ne {s : Nat} {x : Symbol} (h : Dropped lines s) (hx : Origin lines x)
    (hkind : x.kind = .func) : x.range.start.line ≠ s := by
  cases hx with
  | function hclose hhead =>
    intro heq
    exact h.latestHead_ne hclose (Int.ofNat.inj heq)
  | outerVariable _ hx =>
    obtain ⟨_, _, d, _, rfl⟩ := mem_variablesOn.1 hx
    cases hkind
  | innerVariable _ _ _ hx =>
    obtain ⟨_, _, d, _, rfl⟩ := mem_variablesOn.1 hx
    cases hkind
  | constant hx =>
    obtain ⟨_, _, d, _, rfl⟩ := constantOn_eq_some.1 hx
    cases hkind

theorem line_of_mem_variablesOn {i : Nat} {x : Symbol} (h : x ∈ variablesOn lines i) :
    x.selection.start.line = i := by
  obtain ⟨_, _, d, _, rfl⟩ := mem_variablesOn.1 h
  rfl

theorem Dropped.variable_ne {s i : Nat} {x : Symbol} (h : Dropped lines s) (hi : s ≤ i)
    (hnext : ∀ r, s < r → r ≤ i → headOn lines r = none) (hx : Origin lines x)
    (hkind : x.kind = .var) : x.selection.start.line ≠ i := by
  intro hline
  cases hx with
  | function => cases hkind
  | outerVariable hopen hx =>
    rw [line_of_mem_variablesOn hx] at hline
    obtain rfl := Int.ofNat.inj hline
    exact hopen (h.openAfter hi hnext)
  | innerVariable hclose hle hlt hx =>
    rw [line_of_mem_variablesOn hx] at hline
    obtain rfl := Int.ofNat.inj hline
    refine h.latestHead_ne hclose ?_
    rw [latestHead_eq_of_between hle hlt hclose, latestHead_eq_of_no_later h.1 hi hnext]
  | constant hx =>
    obtain ⟨_, _, d, _, rfl⟩ := constantOn_eq_some.1 hx
    cases hkind

theorem mem_completions_of_headOn {s : Nat} {head : Declaration} (h : headOn lines s = some head) :
    { name := head.name.text } ∈ (ofLines lines).completions := by
  obtain ⟨line, hline, -⟩ := headOn_eq_some.1 h
  obtain ⟨hlt, -⟩ := List.getElem?_eq_some_iff.1 hline
  rw [ofLines_completions, List.mem_filterMap]
  exact ⟨s, List.mem_range.2 hlt, by rw [completionOn, h, Option.map_some]⟩

end Origins

/-- **The outline of a document, line by line**: its symbols are what each line contributes given
which lines hold a head or an end, and its completions the first heads.  An end that closes a
function closes the one of the greatest line with a head; a function that is dropped leaves no
symbol at any depth, nor do the variables up to the next head, but its name is offered. -/
theorem scan_line_by_line (text : Text) :
    (scan text).symbols = (List.range text.lines.length).flatMap (symbolsOn text.lines)
    ∧ (scan text).completions
        = (List.range text.lines.length).filterMap (completionOn text.lines)
    ∧ (∀ j, ClosesOn text.lines j → ∃ s head, s ≤ j ∧ headOn text.lines s = some head
        ∧ (∀ r, r ≤ j → (headOn text.lines r).isSome → r ≤ s)
        ∧ functionOn text.lines j = some (functionSymbol text.lines s j head))
    ∧ ∀ s, Dropped text.lines s →
        (∀ x : Symbol, x.OccursIn (scan text).symbols → x.kind = .func → x.range.start.line ≠ s)
        ∧ (∀ i, s ≤ i → (∀ r, s < r → r ≤ i → headOn text.lines r = none) →
            ∀ x : Symbol, x.OccursIn (scan text).symbols → x.kind = .var →
              x.selection.start.line ≠ i)
        ∧ ∃ head, headOn text.lines s = some head
            ∧ { name := head.name.text } ∈ (scan text).completions := by
  refine ⟨ofLines_symbols _, ofLines_completions _, fun j hclose => ?_, fun s hs => ⟨?_, ?_, ?_⟩⟩
  · obtain ⟨head, hhead, hf⟩ := functionOn_of_closesOn hclose
    exact ⟨_, head, latestHead_le j, hhead, fun r hr => le_latestHead hr, hf⟩
  · intro x hx hkind
    exact hs.function_ne (occursIn_ofLines.1 hx) hkind
  · intro i hi hnext x hx hkind
    exact hs.variable_ne hi hnext (occursIn_ofLines.1 hx) hkind
  · obtain ⟨head, hhead⟩ := Option.isSome_iff_exists.1 hs.1
    exact ⟨head, hhead, mem_completions_of_headOn hhead⟩

end Outline

end OutlineServer
