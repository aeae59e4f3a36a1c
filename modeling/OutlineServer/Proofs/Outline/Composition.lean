import Mathlib.Data.List.Basic
import OutlineServer.Proofs.Outline.ClosedForm
import OutlineServer.Proofs.Outline.Renumbering
import OutlineServer.Proofs.Text.Parts

/-!
# Documents put together from two

When a text is continued on a new line, the completions of the whole are those of the two parts.  For
the symbols the first part must not leave a function open, since what follows would become part of it:
the symbols of the whole are then those of the first part and those of the second, with its lines
numbered on (`scan_compositional`).

A document leaves a function open unless it has no head, or an end on the line of its last head or on
a later one (`Closed`).  This is exactly when the reading has nothing open at the end
(`pending_eq_none_iff`), and an end put behind a document that leaves a function open shows that the
condition cannot be dropped.
-/
namespace OutlineServer.Outline

def Closed (lines : List Text) : Prop :=
  (∀ s < lines.length, headOn lines s = none)
  ∨ ∃ s < lines.length, (headOn lines s).isSome
    ∧ (∀ r < lines.length, s < r → headOn lines r = none)
    ∧ ∃ j < lines.length, s ≤ j ∧ endOn lines j = true

instance (lines : List Text) : Decidable (Closed lines) :=
  inferInstanceAs (Decidable ((∀ s < lines.length, headOn lines s = none)
    ∨ ∃ s < lines.length, (headOn lines s).isSome
      ∧ (∀ r < lines.length, s < r → headOn lines r = none)
      ∧ ∃ j < lines.length, s ≤ j ∧ endOn lines j = true))

section Lines

variable {lines : List Text}

theorem lt_length_of_headOn {s : Nat} (h : (headOn lines s).isSome) : s < lines.length := by
  by_contra hge
  rw [headOn, List.getElem?_eq_none (Nat.not_lt.1 hge)] at h
  cases h

theorem closed_iff {last : Nat} (hlast : lines.length = last + 1) :
    Closed lines ↔ ¬ OpenAfter lines last := by
  constructor
  · rintro (hnone | ⟨s, -, -, hlatest, j, hj, hsj, hend⟩) ⟨r, hr, hhead, hopen⟩
    · rw [hnone r (lt_length_of_headOn hhead)] at hhead
      cases hhead
    · have hle : r ≤ s := by
        by_contra hlt
        rw [hlatest r (lt_length_of_headOn hhead) (by omega)] at hhead
        cases hhead
      rw [hopen j (by omega) (by omega)] at hend
      cases hend
  · intro hopen
    by_cases hhead : ∃ s, (headOn lines s).isSome
    · obtain ⟨s, hs⟩ := hhead
      have hle : s ≤ last := by
        have := lt_length_of_headOn hs
        omega
      have hsome := headOn_latestHead hle hs
      refine .inr ⟨latestHead lines last, lt_length_of_headOn hsome, hsome, fun r hr hlt => ?_, ?_⟩
      · rw [← Option.not_isSome_iff_eq_none]
        intro hr'
        have := le_latestHead (show r ≤ last by omega) hr'
        omega
      · by_contra hend
        refine hopen ⟨latestHead lines last, latestHead_le last, hsome, fun j hj hjl => ?_⟩
        by_contra hj'
        exact hend ⟨j, by omega, hj, by simpa using hj'⟩
    · refine .inl fun s _ => ?_
      rw [← Option.not_isSome_iff_eq_none]
      exact fun hs => hhead ⟨s, hs⟩

theorem pending_eq_none_iff (lines : List Text) :
    (lines.zipIdx.foldl Progress.readLine {}).pending = none ↔ Closed lines := by
  rw [(ofLines_reached lines).pending]
  cases hlength : lines.length with
  | zero =>
    refine iff_of_true rfl (.inl fun s hs => ?_)
    omega
  | succ last =>
    rw [closed_iff hlength, pendingBefore]
    by_cases hopen : OpenAfter lines last
    · obtain ⟨head, hhead⟩ := Option.isSome_iff_exists.1 (openAfter_iff.1 hopen).1.headOn_latestHead
      simp [hopen, hhead]
    · simp [hopen]

end Lines

/-! ## Two parts -/

section Parts

variable (first second : List Text)

theorem completionOn_append_left {i : Nat} (h : i < first.length) :
    completionOn (first ++ second) i = completionOn first i := by
  unfold completionOn headOn
  rw [List.getElem?_append_left h]

theorem completionOn_append_right (i : Nat) :
    completionOn (first ++ second) (first.length + i) = completionOn second i := by
  unfold completionOn headOn
  rw [List.getElem?_append_right (Nat.le_add_right ..), Nat.add_sub_cancel_left]

theorem ofLines_completions_append : (ofLines (first ++ second)).completions
    = (ofLines first).completions ++ (ofLines second).completions := by
  simp only [ofLines_completions, List.length_append, List.range_add, List.filterMap_append,
    List.filterMap_map]
  congr 1
  · refine List.filterMap_congr fun i hi => ?_
    exact completionOn_append_left first second (List.mem_range.1 hi)
  · refine List.filterMap_congr fun i _ => ?_
    exact completionOn_append_right first second i

/-- **Behind a closed document the reading begins anew**, with the lines numbered on. -/
theorem ofLines_symbols_append (h : Closed first) : (ofLines (first ++ second)).symbols
    = (ofLines first).symbols
      ++ (ofLines second).symbols.map (Symbol.renumber (· + first.length)) := by
  have hpending := (pending_eq_none_iff first).2 h
  unfold ofLines
  rw [List.zipIdx_append, List.foldl_append]
  generalize first.zipIdx.foldl Progress.readLine {} = p at hpending
  have hbegin : p = Progress.within p (· + first.length) {} := by
    obtain ⟨symbols, completions, pending⟩ := p
    obtain rfl : pending = none := hpending
    simp [Progress.within]
  have hrun := @Progress.foldl_within p (· + first.length) second 0 first.length {} (fun i _ => by omega)
  rw [← hbegin] at hrun
  simp [hrun, Progress.within]

end Parts

/-! ## An end behind an open function -/

theorem readLine_functionEnd (p : Progress) (number : Nat) :
    p.readLine (Source.functionEndKeyword, number)
      = match p.pending with
        | some g =>
          { p with symbols := p.symbols.push (g.close ⟨number, 7⟩), pending := none }
        | none => p := by
  have hhead : Source.functionHeads Source.functionEndKeyword = [] := by decide
  have hend : (Source.functionEnds Source.functionEndKeyword).isEmpty = false := by decide
  have hvariable : Source.variableDeclarations Source.functionEndKeyword = [] := by decide
  have hconstant : Source.constantDeclarations Source.functionEndKeyword = [] := by decide
  have hlength : Source.functionEndKeyword.length = 7 := by decide
  obtain ⟨symbols, completions, pending⟩ := p
  cases pending <;>
    simp [Progress.readLine, Progress.readHead, Progress.readEnd, Progress.readVariables,
      Progress.readConstant, hhead, hend, hvariable, hconstant, hlength]

/-- **Without the condition the symbols need not go together**: an end behind a document that is not
closed closes a function of it. -/
theorem closed_of_symbols_append {first : List Text}
    (h : (ofLines (first ++ [Source.functionEndKeyword])).symbols = (ofLines first).symbols
      ++ (ofLines [Source.functionEndKeyword]).symbols.map (Symbol.renumber (· + first.length))) :
    Closed first := by
  rw [← pending_eq_none_iff]
  unfold ofLines at h
  rw [List.zipIdx_append, List.foldl_append] at h
  generalize first.zipIdx.foldl Progress.readLine {} = p at h
  simp only [List.zipIdx_singleton, List.foldl_cons, List.foldl_nil, readLine_functionEnd] at h
  cases hpending : p.pending with
  | none => rfl
  | some g =>
    have hlength := congrArg List.length h
    simp [hpending] at hlength

/-- **Scanning is compositional.**  When a text that does not end in a carriage return is continued
behind a line feed, the completions of the two parts are put together.  The symbols are put together,
with the lines of the second part numbered on at every depth, for whatever follows exactly when the
first part leaves no function open. -/
theorem scan_compositional (a : Text) (h : a.getLast? ≠ some CodePoint.carriageReturn) :
    (∀ b : Text, (scan (a ++ CodePoint.lineFeed :: b)).completions
      = (scan a).completions ++ (scan b).completions)
    ∧ (Closed a.lines ↔ ∀ b : Text, (scan (a ++ CodePoint.lineFeed :: b)).symbols
      = (scan a).symbols ++ (scan b).symbols.map (Symbol.renumber (· + a.lines.length))) := by
  have hscan : ∀ b : Text, scan (a ++ CodePoint.lineFeed :: b) = ofLines (a.lines ++ b.lines) :=
    fun b => by rw [scan, Text.lines_append_lineFeed h]
  refine ⟨fun b => ?_, fun hclosed b => ?_, fun hall => ?_⟩
  · rw [hscan]
    exact ofLines_completions_append a.lines b.lines
  · rw [hscan]
    exact ofLines_symbols_append a.lines b.lines hclosed
  · have hend := hall Source.functionEndKeyword
    rw [hscan] at hend
    exact closed_of_symbols_append hend

/-- A function whose end stands on its own line, and a document with a function behind it. -/
theorem scan_compositional_of_closed_head :
    (Text.ofString "func f( endfunc").getLast? ≠ some CodePoint.carriageReturn
    ∧ Closed (Text.ofString "func f( endfunc").lines
    ∧ (scan "func f( endfunc\nfunc g(\nvar x\nendfunc").symbols
      = (scan "func f( endfunc").symbols
        ++ (scan "func g(\nvar x\nendfunc").symbols.map (Symbol.renumber (· + 1)) := by
  have hend : (Text.ofString "func f( endfunc").getLast? ≠ some CodePoint.carriageReturn := by decide
  have hclosed : Closed (Text.ofString "func f( endfunc").lines := by decide
  have hall := (scan_compositional "func f( endfunc" hend).2.1 hclosed
  exact ⟨hend, hclosed, hall "func g(\nvar x\nendfunc"⟩

end OutlineServer.Outline
