import OutlineServer.Source.Excerpt

/-!
# What the occurrences on a line are

A recogniser that is asked at every column of a line finds what begins there.  The occurrences are
among these findings (`mem_occurrences`), and a finding is missing from them only when its column
lies inside an occurrence that began earlier (`mem_occurrences_or_covered`).  An occurrence begins
where the one before it has ended, or further right (`pairwise_occurrences`).

The recursion is followed with the part of the line that lies behind it, whose length is the column
and whose last character is the one before.
-/
namespace OutlineServer

variable {α : Type}

def recognisedAt? (recognise : Recogniser α) (line : Text) (column : Nat) : Option α :=
  recognise column (line.take column).getLast? (line.drop column)

theorem recognisedAt?_length_append (recognise : Recogniser α) (done t : Text) :
    recognisedAt? recognise (done ++ t) done.length = recognise done.length done.getLast? t := by
  unfold recognisedAt?
  rw [List.take_left, List.drop_left]

section Step

variable {recognise : Recogniser α} {size : α → Nat}

theorem mem_occurrencesFrom (found : α) : ∀ (t done : Text) (skip : Nat),
    found ∈ occurrencesFrom recognise size done.length skip done.getLast? t →
      ∃ column, done.length + skip ≤ column ∧ column < (done ++ t).length
        ∧ recognisedAt? recognise (done ++ t) column = some found
  | [], _, _, h => by cases h
  | c :: rest, done, skip, h => by
    have hstep : ∀ skip, found ∈ occurrencesFrom recognise size (done.length + 1) skip (some c) rest →
        ∃ column, done.length + 1 + skip ≤ column ∧ column < (done ++ c :: rest).length
          ∧ recognisedAt? recognise (done ++ c :: rest) column = some found := by
      intro skip h
      have ih := mem_occurrencesFrom found rest (done ++ [c]) skip
      rw [List.length_append, List.length_singleton, List.getLast?_concat, List.append_assoc,
        List.singleton_append] at ih
      exact ih h
    unfold occurrencesFrom at h
    split at h
    · obtain ⟨column, hle, hrest⟩ := hstep _ h
      exact ⟨column, by omega, hrest⟩
    · split at h
      · rename_i first hfirst
        rcases List.mem_cons.1 h with rfl | h
        · refine ⟨done.length, Nat.le_refl _, ?_, ?_⟩
          · rw [List.length_append, List.length_cons]; omega
          · rw [recognisedAt?_length_append, hfirst]
        · obtain ⟨column, hle, hrest⟩ := hstep _ h
          exact ⟨column, by omega, hrest⟩
      · obtain ⟨column, hle, hrest⟩ := hstep _ h
        exact ⟨column, by omega, hrest⟩

theorem pairwise_occurrencesFrom : ∀ (t done : Text) (skip : Nat),
    (occurrencesFrom recognise size done.length skip done.getLast? t).Pairwise (fun a b =>
      ∃ i j, recognisedAt? recognise (done ++ t) i = some a
        ∧ recognisedAt? recognise (done ++ t) j = some b ∧ i < j ∧ i + size a ≤ j)
  | [], _, _ => List.Pairwise.nil
  | c :: rest, done, skip => by
    have hstep := fun skip => pairwise_occurrencesFrom rest (done ++ [c]) skip
    have hmem := fun found skip => @mem_occurrencesFrom α recognise size found rest (done ++ [c]) skip
    simp only [List.length_append, List.length_singleton, List.getLast?_concat, List.append_assoc,
      List.singleton_append] at hstep hmem
    unfold occurrencesFrom
    split
    · exact hstep _
    · split
      · rename_i first hfirst
        refine List.pairwise_cons.2 ⟨fun later hlater => ?_, hstep _⟩
        obtain ⟨column, hle, -, hat⟩ := hmem later _ hlater
        refine ⟨done.length, column, ?_, hat, by omega, by omega⟩
        rw [recognisedAt?_length_append, hfirst]
      · exact hstep _

/-- **What is recognised is found**, unless its column lies inside something found earlier. -/
theorem mem_occurrencesFrom_or_covered (found : α) (column : Nat) :
    ∀ (t done : Text) (skip : Nat),
    done.length + skip ≤ column → column < (done ++ t).length →
    recognisedAt? recognise (done ++ t) column = some found →
      found ∈ occurrencesFrom recognise size done.length skip done.getLast? t
      ∨ ∃ earlier start, start < column ∧ column < start + size earlier
          ∧ recognisedAt? recognise (done ++ t) start = some earlier
  | [], done, skip, hle, hlt, _ => by
    rw [List.append_nil] at hlt
    omega
  | c :: rest, done, skip, hle, hlt, hfound => by
    have hstep : ∀ skip, done.length + 1 + skip ≤ column →
        found ∈ occurrencesFrom recognise size (done.length + 1) skip (some c) rest
        ∨ ∃ earlier start, start < column ∧ column < start + size earlier
            ∧ recognisedAt? recognise (done ++ c :: rest) start = some earlier := by
      intro skip h
      have ih := mem_occurrencesFrom_or_covered found column rest (done ++ [c]) skip
      rw [List.length_append, List.length_singleton, List.getLast?_concat, List.append_assoc,
        List.singleton_append] at ih
      exact ih h hlt hfound
    unfold occurrencesFrom
    split
    · rename_i skip
      exact hstep skip (by omega)
    · have hhere : recognisedAt? recognise (done ++ c :: rest) done.length
          = recognise done.length done.getLast? (c :: rest) := recognisedAt?_length_append ..
      split
      · rename_i first hfirst
        rw [hfirst] at hhere
        -- the column is here, inside what begins here, or behind it
        by_cases heq : column = done.length
        · rw [heq, hhere, Option.some.injEq] at hfound
          exact .inl (List.mem_cons.2 (.inl hfound.symm))
        by_cases hin : column < done.length + size first
        · exact .inr ⟨first, done.length, by omega, hin, hhere⟩
        · exact (hstep (size first - 1) (by omega)).imp_left (List.mem_cons_of_mem _)
      · rename_i hnone
        rw [hnone] at hhere
        have hne : column ≠ done.length := by
          rintro rfl
          rw [hhere] at hfound
          cases hfound
        exact hstep 0 (by omega)

end Step

theorem mem_occurrences {recognise : Recogniser α} {size : α → Nat} {line : Text} {found : α}
    (h : found ∈ occurrences recognise size line) :
    ∃ column, column < line.length ∧ recognisedAt? recognise line column = some found := by
  obtain ⟨column, -, hrest⟩ := mem_occurrencesFrom found line [] 0 h
  exact ⟨column, hrest⟩

theorem pairwise_occurrences (recognise : Recogniser α) (size : α → Nat) (line : Text) :
    (occurrences recognise size line).Pairwise (fun a b =>
      ∃ i j, recognisedAt? recognise line i = some a ∧ recognisedAt? recognise line j = some b
        ∧ i < j ∧ i + size a ≤ j) :=
  pairwise_occurrencesFrom line [] 0

theorem mem_occurrences_or_covered {recognise : Recogniser α} (size : α → Nat) {line : Text}
    {found : α} {column : Nat} (hlt : column < line.length)
    (h : recognisedAt? recognise line column = some found) :
    found ∈ occurrences recognise size line
    ∨ ∃ earlier start, start < column ∧ column < start + size earlier
        ∧ recognisedAt? recognise line start = some earlier :=
  mem_occurrencesFrom_or_covered found column line [] 0 (Nat.zero_le _) hlt h

end OutlineServer
