import Mathlib.Data.Nat.Find
import OutlineServer.Outline.Scan

/-!
# The outline in closed form

Reading a document line by line with one open function as the state gives the same outline as asking
each line on its own what it contributes.  All that a line has to know of the others is which of them
hold a head and which an end: a function is open after line `i` when some head at or before `i` has
no end from its line to line `i` (`OpenAfter`), and the function that is open is that of the latest
head (`latestHead`).

`ofLines_symbols` and `ofLines_completions` are the two halves of the equality.  The invariant that
carries them, `ReachedAt`, ties the open function of the state to the lines read so far.
-/
namespace OutlineServer.Outline

section ClosedForm

variable (lines : List Text)

/-! ## What stands on a line -/

def headOn (i : Nat) : Option Declaration :=
  lines[i]?.bind (fun line => (Source.functionHeads line).head?)

def endOn (i : Nat) : Bool := lines[i]?.any (fun line => !(Source.functionEnds line).isEmpty)

def variablesOn (i : Nat) : List Symbol :=
  lines[i]?.toList.flatMap (fun line => (Source.variableDeclarations line).map (variableSymbol i))

def constantOn (i : Nat) : Option Symbol :=
  lines[i]?.bind (fun line => (Source.constantDeclarations line).head?.map (constantSymbol i))

def completionOn (i : Nat) : Option Completion :=
  (headOn lines i).map (fun head => { name := head.name.text })

/-! ## Which function is open -/

/-- Some head at or before line `i` has no end from its line to line `i`. -/
def OpenAfter (i : Nat) : Prop :=
  ∃ s, s ≤ i ∧ (headOn lines s).isSome ∧ ∀ k, s ≤ k → k ≤ i → endOn lines k = false

instance : DecidablePred (OpenAfter lines) := fun i =>
  inferInstanceAs (Decidable (∃ s, s ≤ i ∧ (headOn lines s).isSome
    ∧ ∀ k, s ≤ k → k ≤ i → endOn lines k = false))

/-- An end on line `j` finds a function to close: one that opens on this line, or one that was open
after the line before. -/
def ClosesOn (j : Nat) : Prop :=
  endOn lines j ∧ ((headOn lines j).isSome ∨ 0 < j ∧ OpenAfter lines (j - 1))

instance : DecidablePred (ClosesOn lines) := fun j =>
  inferInstanceAs (Decidable (endOn lines j
    ∧ ((headOn lines j).isSome ∨ 0 < j ∧ OpenAfter lines (j - 1))))

def latestHead (j : Nat) : Nat := Nat.findGreatest (fun s => (headOn lines s).isSome) j

/-! ## What a line contributes -/

def variablesFrom (s stop : Nat) : List Symbol :=
  (List.range' s (stop - s)).flatMap (variablesOn lines)

/-- The symbol of the function with this head on line `s` when it is closed on line `j`. -/
def functionSymbol (s j : Nat) (head : Declaration) : Symbol where
  name := head.name.text
  kind := .func
  range := ⟨⟨s, 0⟩, ⟨j, (lines[j]?.getD []).length⟩⟩
  selection := excerptRange s head.name
  children := variablesFrom lines s j

/-- The function that is closed on line `j`: that of the latest head. -/
def functionOn (j : Nat) : Option Symbol :=
  if ClosesOn lines j then
    (headOn lines (latestHead lines j)).map (functionSymbol lines (latestHead lines j) j)
  else none

def symbolsOn (i : Nat) : List Symbol :=
  (functionOn lines i).toList
    ++ (if OpenAfter lines i then [] else variablesOn lines i)
    ++ (constantOn lines i).toList

/-! ## Scopes -/

/-- A function is open on line `k` once the heads of the line have been seen. -/
def InScope (k : Nat) : Prop :=
  ∃ s, s ≤ k ∧ (headOn lines s).isSome ∧ ∀ i, s ≤ i → i < k → endOn lines i = false

instance : DecidablePred (InScope lines) := fun k =>
  inferInstanceAs (Decidable (∃ s, s ≤ k ∧ (headOn lines s).isSome
    ∧ ∀ i, s ≤ i → i < k → endOn lines i = false))

variable {lines}

theorem openAfter_iff {k : Nat} : OpenAfter lines k ↔ InScope lines k ∧ endOn lines k = false := by
  constructor
  · rintro ⟨s, hs, hhead, hend⟩
    exact ⟨⟨s, hs, hhead, fun i h1 h2 => hend i h1 (Nat.le_of_lt h2)⟩, hend k hs (Nat.le_refl k)⟩
  · rintro ⟨⟨s, hs, hhead, hend⟩, hk⟩
    refine ⟨s, hs, hhead, fun i h1 h2 => ?_⟩
    rcases Nat.lt_or_eq_of_le h2 with h | rfl
    · exact hend i h1 h
    · exact hk

theorem inScope_of_head {k : Nat} (h : (headOn lines k).isSome) : InScope lines k :=
  ⟨k, Nat.le_refl k, h, fun _ h1 h2 => absurd h2 (Nat.not_lt.2 h1)⟩

theorem inScope_succ_of_no_head {k : Nat} (h : headOn lines (k + 1) = none) :
    InScope lines (k + 1) ↔ OpenAfter lines k := by
  constructor
  · rintro ⟨s, hs, hhead, hend⟩
    have hne : s ≠ k + 1 := by
      rintro rfl
      rw [h] at hhead
      cases hhead
    exact ⟨s, by omega, hhead, fun i h1 h2 => hend i h1 (by omega)⟩
  · rintro ⟨s, hs, hhead, hend⟩
    exact ⟨s, by omega, hhead, fun i h1 h2 => hend i h1 (by omega)⟩

theorem not_inScope_zero (h : headOn lines 0 = none) : ¬ InScope lines 0 := by
  rintro ⟨s, hs, hhead, -⟩
  obtain rfl : s = 0 := by omega
  rw [h] at hhead
  cases hhead

/-- **An end closes a function exactly when it stands in the scope of one.** -/
theorem closesOn_iff {j : Nat} : ClosesOn lines j ↔ InScope lines j ∧ endOn lines j = true := by
  unfold ClosesOn
  rw [and_comm]
  refine and_congr_left fun _ => ?_
  cases hhead : headOn lines j with
  | some head => simpa using inScope_of_head (by rw [hhead]; rfl)
  | none =>
    cases j with
    | zero => simpa using not_inScope_zero hhead
    | succ k => simpa using (inScope_succ_of_no_head hhead).symm

/-! ## The latest head -/

theorem latestHead_le (j : Nat) : latestHead lines j ≤ j := Nat.findGreatest_le j

theorem le_latestHead {s j : Nat} (hs : s ≤ j) (h : (headOn lines s).isSome) :
    s ≤ latestHead lines j :=
  Nat.le_findGreatest hs h

theorem headOn_latestHead {s j : Nat} (hs : s ≤ j) (h : (headOn lines s).isSome) :
    (headOn lines (latestHead lines j)).isSome :=
  Nat.findGreatest_spec (P := fun s => (headOn lines s).isSome) hs h

theorem InScope.headOn_latestHead {j : Nat} (h : InScope lines j) :
    (headOn lines (latestHead lines j)).isSome := by
  obtain ⟨s, hs, hhead, -⟩ := h
  exact Outline.headOn_latestHead hs hhead

theorem latestHead_of_head {k : Nat} (h : (headOn lines k).isSome) : latestHead lines k = k :=
  Nat.le_antisymm (latestHead_le k) (le_latestHead (Nat.le_refl k) h)

theorem latestHead_succ_of_no_head {k : Nat} (h : headOn lines (k + 1) = none) :
    latestHead lines (k + 1) = latestHead lines k :=
  Nat.findGreatest_of_not (by simp [h])

/-! ## The state of a reading -/

variable (lines) in
/-- The function with this head on line `s`, with the variables up to and without line `stop`. -/
def functionSoFar (s stop : Nat) (head : Declaration) : OpenFunction :=
  { opened s (lines[s]?.getD []) head with children := (variablesFrom lines s stop).toArray }

variable (lines) in
def pendingBefore : Nat → Option OpenFunction
  | 0 => none
  | k + 1 =>
    if OpenAfter lines k then
      (headOn lines (latestHead lines k)).map (functionSoFar lines (latestHead lines k) (k + 1))
    else none

variable (lines) in
def scopeOn (k : Nat) : Option OpenFunction :=
  if InScope lines k then
    (headOn lines (latestHead lines k)).map (functionSoFar lines (latestHead lines k) k)
  else none

variable (lines) in
/-- What a reading has found when it comes to line `k`. -/
structure ReachedAt (k : Nat) (p : Progress) : Prop where
  symbols : p.symbols.toList = (List.range k).flatMap (symbolsOn lines)
  completions : p.completions.toList = (List.range k).filterMap (completionOn lines)
  pending : p.pending = pendingBefore lines k

theorem headOn_of_line {k : Nat} {line : Text} (h : lines[k]? = some line) :
    headOn lines k = (Source.functionHeads line).head? := by
  rw [headOn, h, Option.bind_some]

theorem endOn_of_line {k : Nat} {line : Text} (h : lines[k]? = some line) :
    endOn lines k = !(Source.functionEnds line).isEmpty := by
  rw [endOn, h, Option.any_some]

theorem variablesOn_of_line {k : Nat} {line : Text} (h : lines[k]? = some line) :
    variablesOn lines k = (Source.variableDeclarations line).map (variableSymbol k) := by
  rw [variablesOn, h, Option.toList_some, List.flatMap_singleton]

theorem constantOn_of_line {k : Nat} {line : Text} (h : lines[k]? = some line) :
    constantOn lines k = (Source.constantDeclarations line).head?.map (constantSymbol k) := by
  rw [constantOn, h, Option.bind_some]

theorem variablesFrom_self (s : Nat) : variablesFrom lines s s = [] := by
  rw [variablesFrom, Nat.sub_self]
  rfl

theorem variablesFrom_succ {s k : Nat} (h : s ≤ k) :
    variablesFrom lines s (k + 1) = variablesFrom lines s k ++ variablesOn lines k := by
  unfold variablesFrom
  have hlen : k + 1 - s = (k - s) + 1 := by omega
  rw [hlen, List.range'_concat, List.flatMap_append, List.flatMap_singleton]
  have hlast : s + 1 * (k - s) = k := by omega
  rw [hlast]

/-! ## One line -/

theorem pending_readHead {k : Nat} {line : Text} {p : Progress} (hline : lines[k]? = some line)
    (hp : p.pending = pendingBefore lines k) : (p.readHead k line).pending = scopeOn lines k := by
  unfold Progress.readHead scopeOn
  rw [← headOn_of_line hline]
  cases hhead : headOn lines k with
  | some head =>
    have hsome : (headOn lines k).isSome := by rw [hhead]; rfl
    rw [if_pos (inScope_of_head hsome), latestHead_of_head hsome, hhead]
    simp [functionSoFar, variablesFrom_self, hline, opened]
  | none =>
    simp only [hp]
    cases k with
    | zero => rw [if_neg (not_inScope_zero hhead)]; rfl
    | succ k =>
      rw [latestHead_succ_of_no_head hhead]
      simp only [pendingBefore, inScope_succ_of_no_head hhead]

theorem completions_readHead {k : Nat} {line : Text} (p : Progress) (hline : lines[k]? = some line) :
    (p.readHead k line).completions.toList
      = p.completions.toList ++ (completionOn lines k).toList := by
  unfold Progress.readHead completionOn
  rw [← headOn_of_line hline]
  cases headOn lines k <;> simp

theorem symbols_readHead (p : Progress) (k : Nat) (line : Text) :
    (p.readHead k line).symbols = p.symbols := by
  unfold Progress.readHead
  split <;> rfl

theorem functionOn_eq {k : Nat} {line : Text} (hline : lines[k]? = some line)
    (hend : endOn lines k = true) :
    functionOn lines k = (scopeOn lines k).map (fun f => f.close ⟨k, line.length⟩) := by
  unfold functionOn scopeOn
  by_cases hscope : InScope lines k
  · rw [if_pos (closesOn_iff.2 ⟨hscope, hend⟩), if_pos hscope, Option.map_map]
    congr 1
    funext head
    simp [functionSymbol, functionSoFar, OpenFunction.close, opened, Range.onLine, hline]
  · rw [if_neg (fun h => hscope (closesOn_iff.1 h).1), if_neg hscope]
    rfl

theorem functionOn_of_no_end {k : Nat} (hend : endOn lines k = false) :
    functionOn lines k = none := by
  unfold functionOn
  rw [if_neg]
  intro h
  rw [(closesOn_iff.1 h).2] at hend
  cases hend

theorem symbols_readEnd {k : Nat} {line : Text} {p : Progress} (hline : lines[k]? = some line)
    (hp : p.pending = scopeOn lines k) :
    (p.readEnd k line).symbols.toList = p.symbols.toList ++ (functionOn lines k).toList := by
  unfold Progress.readEnd
  cases hend : endOn lines k with
  | true =>
    rw [functionOn_eq hline hend, ← hp]
    rw [endOn_of_line hline, Bool.not_eq_true'] at hend
    cases p.pending <;> simp [hend]
  | false =>
    rw [functionOn_of_no_end hend]
    rw [endOn_of_line hline, Bool.not_eq_false'] at hend
    cases p.pending <;> simp [hend]

theorem pending_readEnd {k : Nat} {line : Text} (p : Progress) (hline : lines[k]? = some line) :
    (p.readEnd k line).pending = if endOn lines k then none else p.pending := by
  unfold Progress.readEnd
  rw [endOn_of_line hline]
  cases hp : p.pending with
  | none => simp [hp]
  | some f => cases (Source.functionEnds line).isEmpty <;> simp [hp]

theorem completions_readEnd (p : Progress) (k : Nat) (line : Text) :
    (p.readEnd k line).completions = p.completions := by
  unfold Progress.readEnd
  split
  · split <;> rfl
  · rfl

theorem scope_after_end (k : Nat) :
    (if endOn lines k then none else scopeOn lines k)
      = if OpenAfter lines k then
          (headOn lines (latestHead lines k)).map (functionSoFar lines (latestHead lines k) k)
        else none := by
  unfold scopeOn
  by_cases hend : endOn lines k = true <;> by_cases hscope : InScope lines k <;>
    simp [openAfter_iff, hend, hscope]

theorem pending_readVariables {k : Nat} {line : Text} {p : Progress}
    (hline : lines[k]? = some line)
    (hp : p.pending = if endOn lines k then none else scopeOn lines k) :
    (p.readVariables k line).pending = pendingBefore lines (k + 1) := by
  rw [scope_after_end] at hp
  unfold Progress.readVariables pendingBefore
  rw [← variablesOn_of_line hline, hp]
  by_cases hopen : OpenAfter lines k
  · obtain ⟨head, hhead⟩ := Option.isSome_iff_exists.1 (openAfter_iff.1 hopen).1.headOn_latestHead
    simp [hopen, hhead, functionSoFar, variablesFrom_succ (latestHead_le k)]
  · simp [hopen]

theorem symbols_readVariables {k : Nat} {line : Text} {p : Progress}
    (hline : lines[k]? = some line)
    (hp : p.pending = if endOn lines k then none else scopeOn lines k) :
    (p.readVariables k line).symbols.toList
      = p.symbols.toList ++ if OpenAfter lines k then [] else variablesOn lines k := by
  rw [scope_after_end] at hp
  unfold Progress.readVariables
  rw [← variablesOn_of_line hline, hp]
  by_cases hopen : OpenAfter lines k
  · obtain ⟨head, hhead⟩ := Option.isSome_iff_exists.1 (openAfter_iff.1 hopen).1.headOn_latestHead
    simp [hopen, hhead]
  · simp [hopen]

theorem completions_readVariables (p : Progress) (k : Nat) (line : Text) :
    (p.readVariables k line).completions = p.completions := by
  unfold Progress.readVariables
  simp only
  split <;> rfl

theorem symbols_readConstant {k : Nat} {line : Text} (p : Progress) (hline : lines[k]? = some line) :
    (p.readConstant k line).symbols.toList = p.symbols.toList ++ (constantOn lines k).toList := by
  unfold Progress.readConstant
  rw [constantOn_of_line hline]
  cases (Source.constantDeclarations line).head? <;> simp

theorem pending_readConstant (p : Progress) (k : Nat) (line : Text) :
    (p.readConstant k line).pending = p.pending := by
  unfold Progress.readConstant
  split <;> rfl

theorem completions_readConstant (p : Progress) (k : Nat) (line : Text) :
    (p.readConstant k line).completions = p.completions := by
  unfold Progress.readConstant
  split <;> rfl

/-- **Reading line `k` adds what line `k` contributes** and leaves open what is open after it. -/
theorem readLine_reached {k : Nat} {line : Text} {p : Progress} (hline : lines[k]? = some line)
    (h : ReachedAt lines k p) : ReachedAt lines (k + 1) (p.readLine (line, k)) := by
  have hscope := pending_readHead hline h.pending
  have hended : ((p.readHead k line).readEnd k line).pending
      = if endOn lines k then none else scopeOn lines k := by
    rw [pending_readEnd _ hline, hscope]
  unfold Progress.readLine
  refine ⟨?_, ?_, ?_⟩
  · simp only [symbols_readConstant _ hline, symbols_readVariables hline hended,
      symbols_readEnd hline hscope, symbols_readHead, h.symbols]
    rw [List.range_succ, List.flatMap_append, List.flatMap_singleton, symbolsOn]
    simp only [List.append_assoc]
  · simp only [completions_readConstant, completions_readVariables, completions_readEnd,
      completions_readHead _ hline, h.completions]
    rw [List.range_succ, List.filterMap_append]
    rfl
  · simp only [pending_readConstant, pending_readVariables hline hended]

/-! ## All lines -/

theorem reachedAt_zero : ReachedAt lines 0 {} := ⟨rfl, rfl, rfl⟩

/-- **Reading on from line `k` to the end keeps the invariant.** -/
theorem foldl_reached : ∀ (rest : List Text) (k : Nat) (p : Progress), lines.drop k = rest →
    ReachedAt lines k p →
      ReachedAt lines (k + rest.length) ((rest.zipIdx k).foldl Progress.readLine p)
  | [], _, _, _, h => h
  | line :: rest, k, p, hdrop, h => by
    have hline : lines[k]? = some line := by
      rw [← List.head?_drop, hdrop]
      rfl
    have hrest : lines.drop (k + 1) = rest := by
      rw [← List.tail_drop, hdrop]
      rfl
    have := foldl_reached rest (k + 1) _ hrest (readLine_reached hline h)
    rw [List.zipIdx_cons, List.foldl_cons, List.length_cons]
    rwa [show k + (rest.length + 1) = k + 1 + rest.length by omega]

theorem ofLines_reached (lines : List Text) :
    ReachedAt lines lines.length (lines.zipIdx.foldl Progress.readLine {}) := by
  have := foldl_reached lines 0 {} rfl (@reachedAt_zero lines)
  rwa [Nat.zero_add] at this

/-- **The symbols of a document are what its lines contribute, in order.** -/
theorem ofLines_symbols (lines : List Text) :
    (ofLines lines).symbols = (List.range lines.length).flatMap (symbolsOn lines) :=
  (ofLines_reached lines).symbols

theorem ofLines_completions (lines : List Text) :
    (ofLines lines).completions = (List.range lines.length).filterMap (completionOn lines) :=
  (ofLines_reached lines).completions

end ClosedForm

end OutlineServer.Outline
