import Mathlib.Data.List.Pairwise
import OutlineServer.Proofs.Token.Stream

/-!
# Spans in any order

A legend puts spans in order of position before it writes them, and spans at one place keep the order in
which they came.  There is one such arrangement (`StablySorted.unique`), and the stream reads as that one
(`stream_of_spans_in_any_order`).  Lines, columns and lengths may be any integers here, and several spans
may begin at one place.
-/
namespace OutlineServer

namespace TokenSpan

def BeginsAt (line start : Int) (span : TokenSpan) : Prop := span.line = line ∧ span.start = start

instance (line start : Int) : DecidablePred (BeginsAt line start) :=
  fun span => inferInstanceAs (Decidable (span.line = line ∧ span.start = start))

def NotAfter (a b : TokenSpan) : Prop := a.line < b.line ∨ (a.line = b.line ∧ a.start ≤ b.start)

instance : DecidableRel NotAfter :=
  fun a b => inferInstanceAs (Decidable (a.line < b.line ∨ (a.line = b.line ∧ a.start ≤ b.start)))

theorem notAfter_iff {a b : TokenSpan} : notAfter a b = true ↔ NotAfter a b := by
  simp [notAfter, NotAfter]

theorem notAfter_trans (a b c : TokenSpan) (hab : notAfter a b = true) (hbc : notAfter b c = true) :
    notAfter a c = true := by
  rw [notAfter_iff, NotAfter] at *
  omega

theorem notAfter_total (a b : TokenSpan) : (notAfter a b || notAfter b a) = true := by
  rw [Bool.or_eq_true, notAfter_iff, notAfter_iff, NotAfter, NotAfter]
  omega

theorem NotAfter.refl (a : TokenSpan) : NotAfter a a := .inr ⟨rfl, Int.le_refl _⟩

theorem NotAfter.beginsAt {a b : TokenSpan} (hab : NotAfter a b) (hba : NotAfter b a) :
    BeginsAt a.line a.start b := by
  unfold NotAfter at hab hba
  unfold BeginsAt
  omega

end TokenSpan

open TokenSpan

/-! ## Sorting -/

/-- The spans in order of position, where those at one place keep their order. -/
structure StablySorted (spans sorted : List TokenSpan) : Prop where
  perm : sorted.Perm spans
  ordered : sorted.Pairwise NotAfter
  stable : ∀ line start, sorted.filter (BeginsAt line start) = spans.filter (BeginsAt line start)

theorem mem_filter_beginsAt {span : TokenSpan} {spans : List TokenSpan} :
    span ∈ spans.filter (BeginsAt span.line span.start) ↔ span ∈ spans := by
  simp [BeginsAt]

theorem head_notAfter {first span : TokenSpan} {rest : List TokenSpan}
    (h : (first :: rest).Pairwise NotAfter) (hmem : span ∈ first :: rest) : NotAfter first span := by
  rcases List.mem_cons.1 hmem with rfl | hmem
  · exact NotAfter.refl _
  · exact (List.pairwise_cons.1 h).1 span hmem

/-- **Lists in order of position with the same spans at every place are the same.** -/
theorem eq_of_filter_beginsAt : ∀ {sorted other : List TokenSpan}, sorted.Pairwise NotAfter →
    other.Pairwise NotAfter →
    (∀ line start, sorted.filter (BeginsAt line start) = other.filter (BeginsAt line start)) →
    sorted = other
  | [], [], _, _, _ => rfl
  | [], b :: other, _, _, h => by
    have hb := h b.line b.start
    simp [BeginsAt] at hb
  | a :: sorted, [], _, _, h => by
    have ha := h a.line a.start
    simp [BeginsAt] at ha
  | a :: sorted, b :: other, hsorted, hother, h => by
    have hmem : ∀ span, span ∈ a :: sorted ↔ span ∈ b :: other := by
      intro span
      rw [← mem_filter_beginsAt, h, mem_filter_beginsAt]
    -- both heads begin at the first place, where the filters begin with them
    have hb : BeginsAt a.line a.start b :=
      (head_notAfter hsorted ((hmem b).2 List.mem_cons_self)).beginsAt
        (head_notAfter hother ((hmem a).1 List.mem_cons_self))
    have hhead := h a.line a.start
    rw [List.filter_cons_of_pos (by simp [BeginsAt]), List.filter_cons_of_pos (by simpa using hb)]
      at hhead
    obtain ⟨rfl, -⟩ := List.cons.inj hhead
    have hrest : ∀ line start,
        sorted.filter (BeginsAt line start) = other.filter (BeginsAt line start) := by
      intro line start
      have hboth := h line start
      by_cases hat : BeginsAt line start a
      · rw [List.filter_cons_of_pos (by simpa using hat), List.filter_cons_of_pos (by simpa using hat)]
          at hboth
        exact (List.cons.inj hboth).2
      · rw [List.filter_cons_of_neg (by simpa using hat), List.filter_cons_of_neg (by simpa using hat)]
          at hboth
        exact hboth
    rw [eq_of_filter_beginsAt hsorted.of_cons hother.of_cons hrest]

theorem StablySorted.unique {spans sorted other : List TokenSpan} (h : StablySorted spans sorted)
    (h' : StablySorted spans other) : sorted = other :=
  eq_of_filter_beginsAt h.ordered h'.ordered
    (fun line start => (h.stable line start).trans (h'.stable line start).symm)

theorem stablySorted_mergeSort (spans : List TokenSpan) :
    StablySorted spans (spans.mergeSort notAfter) := by
  have hperm := List.mergeSort_perm spans notAfter
  refine ⟨hperm, ?_, fun line start => ?_⟩
  · exact (List.pairwise_mergeSort notAfter_trans notAfter_total spans).imp notAfter_iff.1
  · -- the spans at a place are in order already, so they are a sublist of what comes out
    have hplace : (spans.filter (BeginsAt line start)).Pairwise (fun a b => notAfter a b = true) := by
      refine List.pairwise_of_forall_mem_list fun a ha b hb => notAfter_iff.2 (.inr ?_)
      obtain ⟨hline, hstart⟩ := of_decide_eq_true (List.mem_filter.1 ha).2
      obtain ⟨hline', hstart'⟩ := of_decide_eq_true (List.mem_filter.1 hb).2
      omega
    have hsublist := List.sublist_mergeSort notAfter_trans notAfter_total hplace List.filter_sublist
    have hfilter := hsublist.filter (BeginsAt line start)
    simp only [List.filter_filter, Bool.and_self] at hfilter
    exact (hfilter.eq_of_length (hperm.filter _).length_eq.symm).symm

theorem mergeSort_eq_of_perm {spans other : List TokenSpan}
    (hplaces : spans.Pairwise (fun a b => ¬ BeginsAt a.line a.start b)) (hperm : other.Perm spans) :
    other.mergeSort notAfter = spans.mergeSort notAfter := by
  have h := stablySorted_mergeSort spans
  have h' := stablySorted_mergeSort other
  refine List.Perm.eq_of_pairwise ?_ h'.ordered h.ordered
    (h'.perm.trans (hperm.trans h.perm.symm))
  intro a b ha hb hab hba
  by_contra hne
  have hsymm : Std.Symm (fun x y : TokenSpan => ¬ BeginsAt x.line x.start y) :=
    ⟨fun x y hxy hyx => hxy ⟨hyx.1.symm, hyx.2.symm⟩⟩
  have hmem : a ∈ spans := hperm.subset (h'.perm.subset ha)
  exact hplaces.forall hmem (h.perm.subset hb) hne (hab.beginsAt hba)

/-! ## Relative places -/

theorem Legend.steps_nonneg (legend : Legend) : ∀ (spans : List TokenSpan) (line start : Int),
    (∀ span ∈ spans, line < span.line ∨ (line = span.line ∧ start ≤ span.start)) →
    spans.Pairwise NotAfter → (∀ span ∈ spans, 0 ≤ span.start) → ∀ (k : Nat) (n : Int),
      (legend.encodeFrom line start spans)[5 * k]? = some n
        ∨ (legend.encodeFrom line start spans)[5 * k + 1]? = some n → 0 ≤ n
  | [], _, _, _, _, _, k, n, h => by simp [encodeFrom] at h
  | span :: rest, line, start, hfrom, hordered, hstart, 0, n, h => by
    have hspan := hfrom span List.mem_cons_self
    have hcolumn := hstart span List.mem_cons_self
    simp only [encodeFrom, Nat.mul_zero, Nat.zero_add, List.getElem?_cons_zero, List.getElem?_cons_succ,
      Option.some.injEq] at h
    split at h <;> omega
  | span :: rest, line, start, hfrom, hordered, hstart, k + 1, n, h => by
    obtain ⟨hhead, hrest⟩ := List.pairwise_cons.1 hordered
    refine steps_nonneg legend rest span.line span.start hhead hrest
      (fun later hlater => hstart later (List.mem_cons_of_mem _ hlater)) k n ?_
    rw [Nat.mul_succ, Nat.add_right_comm] at h
    exact h

/-- **The stream of spans in any order is that of their one stable arrangement**: it reads as the spans
in order of position, it has five numbers for each, and it steps back nowhere unless a span stands
before the origin.  Spans at places of their own give the same stream in whatever order they come. -/
theorem stream_of_spans_in_any_order (legend : Legend) (spans : List TokenSpan) :
    (∃! sorted, StablySorted spans sorted)
    ∧ (∀ sorted, StablySorted spans sorted →
      Legend.decode (legend.encode spans) = sorted.map legend.sent)
    ∧ (legend.encode spans).length = 5 * spans.length
    ∧ (Legend.decode (legend.encode spans)).Perm (spans.map legend.sent)
    ∧ ((∀ span ∈ spans, 0 ≤ span.line ∧ 0 ≤ span.start) → ∀ (k : Nat) (n : Int),
      (legend.encode spans)[5 * k]? = some n ∨ (legend.encode spans)[5 * k + 1]? = some n → 0 ≤ n)
    ∧ (spans.Pairwise (fun a b => ¬ (b.line = a.line ∧ b.start = a.start)) →
      ∀ other, other.Perm spans → legend.encode other = legend.encode spans) := by
  have h := stablySorted_mergeSort spans
  have hread : Legend.decode (legend.encode spans)
      = (spans.mergeSort notAfter).map legend.sent := legend.decodeFrom_encodeFrom _ 0 0
  refine ⟨⟨_, h, fun other h' => h'.unique h⟩, fun sorted h' => ?_, ?_, ?_, fun hpositive => ?_,
    fun hplaces other hperm => ?_⟩
  · rw [hread, h'.unique h]
  · rw [Legend.encode, Legend.length_encodeFrom, List.length_mergeSort]
  · rw [hread]
    exact h.perm.map _
  · have hsorted : ∀ span ∈ spans.mergeSort notAfter, 0 ≤ span.line ∧ 0 ≤ span.start :=
      fun span hspan => hpositive span (h.perm.subset hspan)
    refine legend.steps_nonneg _ 0 0 (fun span hspan => ?_) h.ordered
      (fun span hspan => (hsorted span hspan).2)
    have hspan := hsorted span hspan
    omega
  · rw [Legend.encode, mergeSort_eq_of_perm hplaces hperm]
    rfl

/-- Two of three spans begin at one place, and one has a negative length; without it the order does not
matter. -/
theorem stream_of_spans_in_any_order_three :
    let first : TokenSpan := ⟨1, 2, -3, "variable", []⟩
    let second : TokenSpan := ⟨0, 4, 1, "type", ["static"]⟩
    let third : TokenSpan := ⟨1, 2, 5, "function", []⟩
    StablySorted [first, second, third] [second, first, third]
    ∧ Legend.decode (Legend.standard.encode [first, second, third])
      = [⟨0, 4, 1, 7, 8⟩, ⟨1, 2, -3, 16, 0⟩, ⟨1, 2, 5, 13, 0⟩]
    ∧ (∀ (k : Nat) (n : Int), (Legend.standard.encode [first, second, third])[5 * k]? = some n
        ∨ (Legend.standard.encode [first, second, third])[5 * k + 1]? = some n → 0 ≤ n)
    ∧ Legend.standard.encode [second, third] = Legend.standard.encode [third, second] := by
  intro first second third
  have hsorted : StablySorted [first, second, third] [second, first, third] := by
    refine ⟨List.Perm.swap .., by decide, fun line start => ?_⟩
    by_cases hfirst : BeginsAt line start first
    · have hsecond : ¬ BeginsAt line start second := by
        rintro ⟨hline, -⟩
        exact absurd (hfirst.1.trans hline.symm) (by decide)
      simp [List.filter_cons, hfirst, hsecond]
    · simp [List.filter_cons, hfirst]
  obtain ⟨-, hread, -, -, hsteps, -⟩ :=
    stream_of_spans_in_any_order Legend.standard [first, second, third]
  obtain ⟨-, -, -, -, -, hany⟩ := stream_of_spans_in_any_order Legend.standard [third, second]
  refine ⟨hsorted, (hread _ hsorted).trans (by decide), hsteps (by decide), ?_⟩
  exact hany (by decide) _ (List.Perm.swap ..)

end OutlineServer
