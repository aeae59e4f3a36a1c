import OutlineServer.Proofs.Source.Occurrences

/-!
# Leftmost first

Which of the things that may begin at the columns of a line are taken when the leftmost is always taken
first and the search resumes where it ends (`LeftmostFrom`).  The relation says nothing of how the
columns are tried, and it determines the list when at most one thing begins at a column
(`LeftmostFrom.unique`).  The occurrences of a recogniser are that list (`leftmost_occurrences`).

What begins at a column and is not taken has its column inside something that is
(`LeftmostFrom.mem_or_covered`).
-/
namespace OutlineServer

variable {α : Type}

inductive LeftmostFrom (At : Nat → α → Prop) (size : α → Nat) : Nat → List α → Prop
  | done {start : Nat} (h : ∀ column a, start ≤ column → ¬ At column a) : LeftmostFrom At size start []
  | next {start column : Nat} {a : α} {rest : List α} (hle : start ≤ column) (hat : At column a)
      (hfirst : ∀ i b, start ≤ i → i < column → ¬ At i b)
      (hrest : LeftmostFrom At size (column + size a) rest) : LeftmostFrom At size start (a :: rest)

namespace LeftmostFrom

variable {At : Nat → α → Prop} {size : α → Nat} {start : Nat}

theorem of_succ {found : List α} (h : LeftmostFrom At size (start + 1) found)
    (hno : ∀ a, ¬ At start a) : LeftmostFrom At size start found := by
  cases h with
  | done h =>
    refine .done fun column a hle => ?_
    rcases Nat.eq_or_lt_of_le hle with rfl | hlt
    · exact hno a
    · exact h column a hlt
  | next hle hat hfirst hrest =>
    refine .next (by omega) hat (fun i b hi hlt => ?_) hrest
    rcases Nat.eq_or_lt_of_le hi with rfl | hlt'
    · exact hno b
    · exact hfirst i b hlt' hlt

/-- **The leftmost-first choice is unique.** -/
theorem unique (hsame : ∀ column a b, At column a → At column b → a = b) :
    ∀ {start : Nat} {found other : List α}, LeftmostFrom At size start found →
      LeftmostFrom At size start other → found = other
  | _, _, _, .done _, .done _ => rfl
  | _, _, _, .done h, .next hle hat _ _ => absurd hat (h _ _ hle)
  | _, _, _, .next hle hat _ _, .done h => absurd hat (h _ _ hle)
  | _, _, _, @next _ _ _ _ column a _ hle hat hfirst hrest,
      @next _ _ _ _ column' b _ hle' hat' hfirst' hrest' => by
    obtain rfl : column = column' := by
      rcases Nat.lt_trichotomy column column' with hlt | heq | hlt
      · exact absurd hat (hfirst' _ _ hle hlt)
      · exact heq
      · exact absurd hat' (hfirst _ _ hle' hlt)
    obtain rfl := hsame _ _ _ hat hat'
    rw [unique hsame hrest hrest']

/-- **What is not taken begins inside something that is.** -/
theorem mem_or_covered (hsame : ∀ column a b, At column a → At column b → a = b) {found : List α}
    {a : α} {column : Nat} (h : LeftmostFrom At size start found) (hle : start ≤ column)
    (hat : At column a) :
    a ∈ found ∨ ∃ b ∈ found, ∃ i, At i b ∧ i < column ∧ column < i + size b := by
  induction h with
  | done h => exact absurd hat (h _ _ hle)
  | @next _ first b rest _ hatb hfirst hrest ih =>
    rcases Nat.lt_trichotomy column first with hlt | rfl | hlt
    · exact absurd hat (hfirst _ _ hle hlt)
    · exact .inl (List.mem_cons.2 (.inl (hsame _ _ _ hat hatb)))
    by_cases hin : column < first + size b
    · exact .inr ⟨b, List.mem_cons_self, first, hatb, hlt, hin⟩
    · rcases ih (by omega) with hmem | ⟨c, hc, hcovered⟩
      · exact .inl (List.mem_cons_of_mem _ hmem)
      · exact .inr ⟨c, List.mem_cons_of_mem _ hc, hcovered⟩

end LeftmostFrom

/-! ## Occurrences -/

section Occurrences

variable {recognise : Recogniser α} {size : α → Nat}

-- The search stands behind `done`, with `skip` columns of the last occurrence still before it.
theorem leftmost_occurrencesFrom {line : Text}
    (hsize : ∀ column a, recognisedAt? recognise line column = some a → 0 < size a)
    (hend : ∀ column, line.length ≤ column → recognisedAt? recognise line column = none) :
    ∀ (t done : Text) (skip : Nat), done ++ t = line →
      LeftmostFrom (fun column a => recognisedAt? recognise line column = some a) size
        (done.length + skip) (occurrencesFrom recognise size done.length skip done.getLast? t)
  | [], done, skip, hline => by
    rw [List.append_nil] at hline
    subst hline
    refine .done fun column a hle hat => ?_
    rw [hend column (by omega)] at hat
    cases hat
  | c :: t, done, skip, hline => by
    have ih := fun skip => leftmost_occurrencesFrom hsize hend t (done ++ [c]) skip
      (by rw [← hline, List.append_assoc, List.singleton_append])
    simp only [List.length_append, List.length_singleton, List.getLast?_concat] at ih
    have hhere : recognisedAt? recognise line done.length
        = recognise done.length done.getLast? (c :: t) := by
      rw [← hline, recognisedAt?_length_append]
    unfold occurrencesFrom
    split
    · rename_i skip
      rw [show done.length + Nat.succ skip = done.length + 1 + skip by omega]
      exact ih skip
    split
    · rename_i found hfound
      rw [hfound] at hhere
      have hpos := hsize _ _ hhere
      refine .next (Nat.le_refl _) hhere (fun i b hle hlt => ?_) ?_
      · omega
      · rw [show done.length + 0 + size found = done.length + 1 + (size found - 1) by omega]
        exact ih (size found - 1)
    · rename_i hnone
      refine (ih 0).of_succ fun a hat => ?_
      rw [hhere, hnone] at hat
      cases hat

/-- **Occurrences are taken leftmost first.** -/
theorem leftmost_occurrences {line : Text}
    (hsize : ∀ column a, recognisedAt? recognise line column = some a → 0 < size a)
    (hend : ∀ column, line.length ≤ column → recognisedAt? recognise line column = none) :
    LeftmostFrom (fun column a => recognisedAt? recognise line column = some a) size 0
      (occurrences recognise size line) :=
  leftmost_occurrencesFrom hsize hend line [] 0 rfl

end Occurrences

end OutlineServer
