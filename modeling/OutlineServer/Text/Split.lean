import OutlineServer.Text.Basic

/-!
# The pieces of a text

To split a text is to cut it at every separator.  No piece has a separator (`not_mem_of_mem_splitOn`),
and the pieces put together again are the text (`join_splitOn`).
-/
namespace OutlineServer.Text

theorem splitOn_separator (c : CodePoint) (t : Text) :
    splitOn c (c :: t) = [] :: splitOn c t := if_pos rfl

theorem splitOn_other {separator c : CodePoint} (hc : c ≠ separator) (t : Text) :
    splitOn separator (c :: t)
      = (c :: (splitOn separator t).headD []) :: (splitOn separator t).tail := by
  cases hsplit : splitOn separator t <;>
  · unfold splitOn at hsplit ⊢
    rw [List.foldr_cons, if_neg hc, hsplit]
    rfl

theorem subset_of_mem_splitOn {separator : CodePoint} : ∀ {t piece : Text},
    piece ∈ splitOn separator t → piece ⊆ t
  | [], piece, h => by
    cases List.mem_singleton.1 h
    exact List.Subset.refl _
  | c :: t, piece, h => by
    have ih : ∀ {piece : Text}, piece ∈ splitOn separator t → piece ⊆ c :: t := fun h =>
      List.subset_cons_of_subset c (subset_of_mem_splitOn h)
    by_cases hc : c = separator
    · subst hc
      rw [splitOn_separator] at h
      rcases List.mem_cons.1 h with rfl | h
      · exact List.nil_subset _
      · exact ih h
    · rw [splitOn_other hc] at h
      rcases List.mem_cons.1 h with rfl | h
      · refine List.cons_subset.2 ⟨List.mem_cons_self, ?_⟩
        cases hsplit : splitOn separator t with
        | nil => exact List.nil_subset _
        | cons first rest =>
          rw [hsplit] at ih
          exact ih List.mem_cons_self
      · exact ih (List.mem_of_mem_tail h)

theorem splitOn_ne_nil (separator : CodePoint) : ∀ t : Text, splitOn separator t ≠ []
  | [] => List.cons_ne_nil _ _
  | c :: t => by
    by_cases hc : c = separator
    · rw [hc, splitOn_separator]
      exact List.cons_ne_nil _ _
    · rw [splitOn_other hc]
      exact List.cons_ne_nil _ _

theorem join_splitOn (separator : CodePoint) : ∀ t : Text, join [separator] (splitOn separator t) = t
  | [] => rfl
  | c :: t => by
    have ih := join_splitOn separator t
    obtain ⟨first, rest, hsplit⟩ := List.exists_cons_of_ne_nil (splitOn_ne_nil separator t)
    rw [hsplit] at ih
    by_cases hc : c = separator
    · rw [hc, splitOn_separator, hsplit]
      exact congrArg (separator :: ·) ih
    · rw [splitOn_other hc, hsplit]
      cases rest <;> exact congrArg (c :: ·) ih

theorem not_mem_of_mem_splitOn {separator : CodePoint} : ∀ {t piece : Text},
    piece ∈ splitOn separator t → separator ∉ piece
  | [], piece, h => by
    cases List.mem_singleton.1 h
    exact List.not_mem_nil
  | c :: t, piece, h => by
    obtain ⟨first, rest, hsplit⟩ := List.exists_cons_of_ne_nil (splitOn_ne_nil separator t)
    have ih : ∀ {piece : Text}, piece ∈ first :: rest → separator ∉ piece := by
      intro piece hpiece
      rw [← hsplit] at hpiece
      exact not_mem_of_mem_splitOn hpiece
    by_cases hc : c = separator
    · rw [hc, splitOn_separator, hsplit] at h
      rcases List.mem_cons.1 h with rfl | h
      · exact List.not_mem_nil
      · exact ih h
    · rw [splitOn_other hc, hsplit] at h
      rcases List.mem_cons.1 h with rfl | h
      · exact List.not_mem_cons_of_ne_of_not_mem (Ne.symm hc) (ih List.mem_cons_self)
      · exact ih (List.mem_cons_of_mem _ h)

theorem splitOn_append {separator : CodePoint} : ∀ {front : Text}, separator ∉ front → ∀ t : Text,
    splitOn separator (front ++ t)
      = (front ++ (splitOn separator t).headD []) :: (splitOn separator t).tail
  | [], _, t => by
    obtain ⟨first, rest, hsplit⟩ := List.exists_cons_of_ne_nil (splitOn_ne_nil separator t)
    rw [List.nil_append, hsplit]
    rfl
  | c :: front, h, t => by
    have hc : c ≠ separator := fun heq => h (heq ▸ List.mem_cons_self)
    have ih := splitOn_append (fun hmem => h (List.mem_cons_of_mem _ hmem)) t
    rw [List.cons_append, splitOn_other hc, ih]
    rfl

theorem splitOn_flatMap {separator : CodePoint} : ∀ {pieces : List Text},
    (∀ piece ∈ pieces, separator ∉ piece) →
    splitOn separator (pieces.flatMap (separator :: ·)) = [] :: pieces
  | [], _ => rfl
  | piece :: pieces, h => by
    obtain ⟨hpiece, hpieces⟩ := List.forall_mem_cons.1 h
    rw [List.flatMap_cons, List.cons_append, splitOn_separator, splitOn_append hpiece,
      splitOn_flatMap hpieces]
    simp

end OutlineServer.Text
