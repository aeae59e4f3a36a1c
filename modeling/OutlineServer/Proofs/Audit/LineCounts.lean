import OutlineServer.Proofs.Audit.TextSummary
import OutlineServer.Proofs.Text.LineBreaks

/-!
# Two ways to count lines

The log counts the line feeds of a text, and the outline has its lines.  The two differ by the carriage
returns that no line feed follows (`bareReturns`): each of them ends a line and is not counted.
-/
namespace OutlineServer

namespace Text

/-- At this place stands a carriage return that no line feed follows. -/
def IsBareReturn (t : Text) (i : Nat) : Prop :=
  t[i]? = some CodePoint.carriageReturn ∧ t[i + 1]? ≠ some CodePoint.lineFeed

instance (t : Text) : DecidablePred t.IsBareReturn := fun i =>
  inferInstanceAs (Decidable (t[i]? = some CodePoint.carriageReturn
    ∧ t[i + 1]? ≠ some CodePoint.lineFeed))

def bareReturns (t : Text) : List Nat := (List.range t.length).filter t.IsBareReturn

theorem mem_bareReturns {t : Text} {i : Nat} : i ∈ t.bareReturns ↔ t.IsBareReturn i := by
  rw [bareReturns, List.mem_filter, List.mem_range, decide_eq_true_eq, and_iff_right_iff_imp]
  exact fun h => (List.getElem?_eq_some_iff.1 h.1).1

theorem bareReturns_eq_nil_iff {t : Text} : t.bareReturns = []
    ↔ ∀ i, t[i]? = some CodePoint.carriageReturn → t[i + 1]? = some CodePoint.lineFeed := by
  rw [List.eq_nil_iff_forall_not_mem]
  refine forall_congr' fun i => ?_
  rw [mem_bareReturns, IsBareReturn, not_and, not_not]

theorem isBareReturn_zero (c : CodePoint) (t : Text) : IsBareReturn (c :: t) 0
    ↔ c = CodePoint.carriageReturn ∧ t.head? ≠ some CodePoint.lineFeed := by
  simp [IsBareReturn, List.head?_eq_getElem?]

theorem length_bareReturns_cons (c : CodePoint) (t : Text) : (bareReturns (c :: t)).length
    = (if c = CodePoint.carriageReturn ∧ t.head? ≠ some CodePoint.lineFeed then 1 else 0)
      + t.bareReturns.length := by
  have hlater : ((List.range t.length).map Nat.succ).filter (IsBareReturn (c :: t))
      = t.bareReturns.map Nat.succ := List.filter_map
  unfold bareReturns at hlater ⊢
  rw [List.length_cons, List.range_succ_eq_map, List.filter_cons, hlater]
  simp only [decide_eq_true_eq, isBareReturn_zero]
  split
  · rw [List.length_cons, List.length_map, Nat.add_comm]
  · rw [List.length_map, Nat.zero_add]

theorem pairCount_add_bareReturns : ∀ t : Text,
    t.pairCount + t.bareReturns.length = t.count CodePoint.carriageReturn
  | [] => rfl
  | c :: t => by
    have ih := pairCount_add_bareReturns t
    rw [pairCount_cons, length_bareReturns_cons, List.count_cons]
    by_cases hreturn : c = CodePoint.carriageReturn
    · by_cases hfeed : t.head? = some CodePoint.lineFeed <;> simp [hreturn, hfeed] <;> omega
    · simp [hreturn]
      omega

/-- **There is one more line than line feeds and bare carriage returns.** -/
theorem length_lines_eq_feeds (t : Text) :
    t.lines.length = t.count CodePoint.lineFeed + 1 + t.bareReturns.length := by
  have hreturns := pairCount_add_bareReturns t
  rw [length_lines, breakCount]
  omega

end Text

namespace Argument

/-- **The lines that are recorded of a text, and the lines it has.**  They are of the same number exactly
when every carriage return of the text has a line feed behind it.  Otherwise fewer are recorded, by as
many as there are bare carriage returns. -/
theorem recorded_line_count {t : Text} (ht : t ≠ []) :
    ∃ recorded : Nat,
      Keyed.get? "text_line_count" (summary [("text", .json (.str t))]) = some (.nat recorded)
      ∧ (recorded = t.lines.length
        ↔ ∀ i, t[i]? = some CodePoint.carriageReturn → t[i + 1]? = some CodePoint.lineFeed)
      ∧ recorded + t.bareReturns.length = t.lines.length := by
  have hsorted : Keyed.IsSorted [(("text" : Text), Argument.json (.str t))] :=
    List.pairwise_singleton _ _
  have hfact : (("text_line_count" : Text),
      Json.nat (if t = [] then 0 else t.count CodePoint.lineFeed + 1)) ∈ textFacts t :=
    .tail _ (.tail _ (.head _))
  have hsummary := get?_summary hsorted rfl hfact
  rw [if_neg ht] at hsummary
  have hlines := t.length_lines_eq_feeds
  refine ⟨t.count CodePoint.lineFeed + 1, hsummary, ?_, hlines.symm⟩
  rw [← Text.bareReturns_eq_nil_iff, ← List.length_eq_zero_iff]
  omega

/-- Two pairs, a line feed and three bare carriage returns, two of them before a pair and one at the end:
seven lines, of which four are recorded. -/
theorem recorded_line_count_of_mixed :
    let t : Text := "a\r\nb\r\r\r\n\nc\r"
    t ≠ [] ∧ t.lines.length = 7 ∧ t.bareReturns = [4, 5, 10]
    ∧ ∃ recorded : Nat,
      Keyed.get? "text_line_count" (summary [("text", .json (.str t))]) = some (.nat recorded)
      ∧ recorded ≠ t.lines.length ∧ recorded + 3 = 7 := by
  intro t
  have ht : t ≠ [] := by decide
  have hlines : t.lines.length = 7 := by decide
  have hbare : t.bareReturns = [4, 5, 10] := by decide
  obtain ⟨recorded, hsummary, -, hcount⟩ := recorded_line_count ht
  rw [hbare, hlines] at hcount
  have hfour : recorded + 3 = 7 := hcount
  refine ⟨ht, hlines, hbare, recorded, hsummary, ?_, hfour⟩
  rw [hlines]
  omega

end Argument

end OutlineServer
