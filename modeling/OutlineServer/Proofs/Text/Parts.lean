import OutlineServer.Text.Lines

/-!
# Parts of a text

What a text begins with, what is left of it without the blanks at its ends, and its lines.  A text
that ends with a line feed, or is empty, is complete: whatever is added to it only adds lines
(`lines_append`).  So does what is added behind a line feed, unless a carriage return before it makes
one break of the two (`lines_append_lineFeed`).
-/
namespace OutlineServer.Text

theorem after?_eq_some : ∀ {t lead rest : Text}, after? t lead = some rest ↔ t = lead ++ rest
  | t, [], rest => by simp [after?]
  | [], l :: lead, rest => by simp [after?]
  | c :: t, l :: lead, rest => by
    unfold after?
    by_cases h : c = l
    · rw [if_pos h, after?_eq_some, h, List.cons_append, List.cons.injEq, and_iff_right rfl]
    · rw [if_neg h, List.cons_append, List.cons.injEq]
      simp [h]

theorem strip_of_ends {first last : CodePoint} (hfirst : first.isBlank = false)
    (hlast : last.isBlank = false) (inner : Text) :
    strip (first :: (inner ++ [last])) = first :: (inner ++ [last]) := by
  unfold strip
  rw [List.dropWhile_cons_of_neg (by simp [hfirst]), ← List.cons_append, List.reverse_append,
    List.reverse_singleton, List.singleton_append, List.dropWhile_cons_of_neg (by simp [hlast]),
    List.reverse_cons, List.reverse_reverse]

/-! ## Lines -/

namespace LineBuffer

/-- The lines that are done are out of reach of what is read later. -/
theorem foldl_push (u : Text) (b : LineBuffer) (done : List Text) :
    u.foldl push { b with done := b.done ++ done }
      = { u.foldl push b with done := (u.foldl push b).done ++ done } := by
  induction u generalizing b with
  | nil => rfl
  | cons c u ih =>
    have hpush : push { b with done := b.done ++ done } c
        = { b.push c with done := (b.push c).done ++ done } := by
      unfold push close
      split
      · split <;> simp
      · split <;> simp
    rw [List.foldl_cons, List.foldl_cons, hpush, ih]

/-- Right after a carriage return no line has begun. -/
def Fresh (b : LineBuffer) : Prop := b.afterReturn = true → b.current = []

theorem fresh_push (b : LineBuffer) (c : CodePoint) : (b.push c).Fresh := by
  unfold push close Fresh
  split
  · split <;> simp
  · split <;> simp

theorem fresh_foldl (t : Text) {b : LineBuffer} (h : b.Fresh) : (t.foldl push b).Fresh := by
  induction t generalizing b with
  | nil => exact h
  | cons c t ih => exact ih (fresh_push b c)

theorem push_lineFeed {b : LineBuffer} (h : b.Fresh) :
    ∃ done, b.push CodePoint.lineFeed = { done, current := [], afterReturn := false } := by
  unfold push
  rw [if_pos rfl]
  split
  · rename_i hafter
    refine ⟨b.done, ?_⟩
    rw [← h hafter]
  · exact ⟨_, rfl⟩

end LineBuffer

/-- A text whose last line is complete: it is empty or ends with a line feed. -/
def EndsLine (t : Text) : Prop := t = [] ∨ ∃ body, t = body ++ [CodePoint.lineFeed]

theorem endsLine_append {t u : Text} (ht : t.EndsLine) (hu : u.EndsLine) : (t ++ u).EndsLine := by
  rcases hu with rfl | ⟨body, rfl⟩
  · rw [List.append_nil]
    exact ht
  · exact .inr ⟨t ++ body, (List.append_assoc ..).symm⟩

/-- **The lines of a text that is added to a complete one are added to its lines.** -/
theorem lines_append {t : Text} (ht : t.EndsLine) :
    ∃ done, t.lines = done ++ [[]] ∧ ∀ u : Text, (t ++ u).lines = done ++ u.lines := by
  rcases ht with rfl | ⟨body, rfl⟩
  · exact ⟨[], rfl, fun u => rfl⟩
  · have hfresh : (body.foldl LineBuffer.push {}).Fresh :=
      LineBuffer.fresh_foldl body (by rintro ⟨⟩)
    obtain ⟨done, hdone⟩ := LineBuffer.push_lineFeed hfresh
    refine ⟨done.reverse, ?_, fun u => ?_⟩
    · unfold lines
      rw [List.foldl_append, List.foldl_cons, List.foldl_nil, hdone]
      exact List.reverse_cons
    · have hrest := LineBuffer.foldl_push u {} done
      unfold lines
      rw [List.foldl_append, List.foldl_append, List.foldl_cons, List.foldl_nil, hdone]
      dsimp only [List.nil_append] at hrest
      rw [hrest]
      simp [LineBuffer.toLines]

theorem afterReturn_push (b : LineBuffer) (c : CodePoint) :
    (b.push c).afterReturn = decide (c = CodePoint.carriageReturn) := by
  unfold LineBuffer.push LineBuffer.close
  by_cases hfeed : c = CodePoint.lineFeed
  · subst hfeed
    rw [if_pos rfl]
    split <;> rfl
  · rw [if_neg hfeed]
    by_cases hreturn : c = CodePoint.carriageReturn
    · rw [if_pos hreturn, decide_eq_true hreturn]
    · rw [if_neg hreturn, decide_eq_false hreturn]

/-- **A line feed between two texts ends the last line of the first**, unless it is the second half of
a break. -/
theorem lines_append_lineFeed {t : Text} (h : t.getLast? ≠ some CodePoint.carriageReturn) (u : Text) :
    (t ++ CodePoint.lineFeed :: u).lines = t.lines ++ u.lines := by
  have hafter : (t.foldl LineBuffer.push {}).afterReturn = false := by
    rcases List.eq_nil_or_concat t with rfl | ⟨front, c, rfl⟩
    · rfl
    · rw [List.concat_eq_append, List.getLast?_concat, ne_eq, Option.some.injEq] at h
      rw [List.concat_eq_append, List.foldl_append, List.foldl_cons, List.foldl_nil, afterReturn_push]
      simp [h]
  unfold lines
  rw [List.foldl_append, List.foldl_cons]
  generalize t.foldl LineBuffer.push {} = b at hafter
  have hpush : b.push CodePoint.lineFeed = { done := b.current.reverse :: b.done } := by
    simp [LineBuffer.push, LineBuffer.close, hafter]
  have hrest := LineBuffer.foldl_push u {} (b.current.reverse :: b.done)
  dsimp only [List.nil_append] at hrest
  rw [hpush, hrest]
  simp [LineBuffer.toLines]

theorem foldl_push_of_no_break : ∀ {line : Text}, CodePoint.lineFeed ∉ line →
    CodePoint.carriageReturn ∉ line → ∀ current : Text,
    line.foldl LineBuffer.push { current }
      = { current := line.reverse ++ current }
  | [], _, _, _ => rfl
  | c :: line, hfeed, hreturn, current => by
    rw [List.mem_cons, not_or] at hfeed hreturn
    have hpush : LineBuffer.push { current } c = { current := c :: current } := by
      unfold LineBuffer.push
      rw [if_neg (Ne.symm hfeed.1), if_neg (Ne.symm hreturn.1)]
    rw [List.foldl_cons, hpush, foldl_push_of_no_break hfeed.2 hreturn.2, List.reverse_cons,
      List.append_assoc]
    rfl

theorem lines_of_no_break {line : Text} (hfeed : CodePoint.lineFeed ∉ line)
    (hreturn : CodePoint.carriageReturn ∉ line) :
    (line ++ [CodePoint.lineFeed]).lines = [line, []] := by
  unfold lines
  rw [List.foldl_append, foldl_push_of_no_break hfeed hreturn]
  simp [LineBuffer.push, LineBuffer.close, LineBuffer.toLines]

end OutlineServer.Text
