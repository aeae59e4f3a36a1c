import Mathlib.Data.List.TakeWhile
import Mathlib.Data.Option.Basic
import OutlineServer.Proofs.Source.Occurrences
import OutlineServer.Proofs.Text.Classes
import OutlineServer.Proofs.Text.Parts
import OutlineServer.Source.Declaration

/-!
# Where declared names stand

Each of the three kinds of declaration is a keyword, something between that is no part of a word, and
the name (`NamesAfter`).  That is all that the places of names depend on: what follows the name, or
how the filling between keyword and name is made up, does not matter for them.
-/
namespace OutlineServer

namespace Source

/-- The text begins with the keyword, characters that are in no word, and the name. -/
def NamesAfter (keyword : Text) (column : Nat) (t : Text) (name : Excerpt) : Prop :=
  ∃ filling rest, t = keyword ++ filling ++ rest ∧ filling ≠ []
    ∧ (∀ c ∈ filling, c.isWord = false) ∧ identifier? rest = some name.text
    ∧ name.start = column + keyword.length + filling.length

theorem isWord_of_mem_blanks {t : Text} {c : CodePoint} (h : c ∈ t.takeWhile CodePoint.isBlank) :
    c.isWord = false :=
  CodePoint.isWord_of_isBlank (List.mem_takeWhile_imp h)

theorem isWord_of_isGap {c : CodePoint} (h : isGap c = true) : c.isWord = false := by
  simp only [isGap, Bool.or_eq_true, decide_eq_true_eq] at h
  rcases h with rfl | rfl <;> decide

theorem namesAfter_of_functionHeadAt? {column : Nat} {before : Option CodePoint} {t : Text}
    {d : Declaration} (h : functionHeadAt? column before t = some d) :
    NamesAfter functionKeyword column t d.name := by
  unfold functionHeadAt? at h
  simp only [bind, Option.bind_eq_some_iff, Option.guard_eq_some'] at h
  obtain ⟨_, -, rest, hrest, _, hgap, name, hname, _, -, hd⟩ := h
  cases hd
  refine ⟨rest.takeWhile CodePoint.isBlank, rest.dropWhile CodePoint.isBlank, ?_, ?_, ?_, hname, ?_⟩
  · rw [List.append_assoc, List.takeWhile_append_dropWhile]
    exact Text.after?_eq_some.1 hrest
  · simpa using hgap
  · intro c hc
    exact isWord_of_mem_blanks hc
  · exact (Nat.add_assoc ..).symm

theorem pastStar_split (t : Text) : ∃ star : Text, (star = [] ∨ star = Text.ofString "*") ∧
    (pastStar t).1 = star.length ∧ t = star ++ (pastStar t).2 := by
  unfold pastStar
  cases hstar : Text.after? t "*" with
  | none => exact ⟨[], .inl rfl, rfl, rfl⟩
  | some rest => exact ⟨"*", .inr rfl, rfl, Text.after?_eq_some.1 hstar⟩

theorem isWord_of_mem_star {star : Text} (h : star = [] ∨ star = Text.ofString "*") {c : CodePoint}
    (hc : c ∈ star) : c.isWord = false := by
  have hall : ∀ c ∈ Text.ofString "*", c.isWord = false := by decide
  rcases h with rfl | rfl
  · cases hc
  · exact hall c hc

theorem namesAfter_of_variableAt? {column : Nat} {before : Option CodePoint} {t : Text}
    {d : Declaration} (h : variableAt? column before t = some d) :
    NamesAfter variableKeyword column t d.name := by
  unfold variableAt? at h
  simp only [bind, Option.bind_eq_some_iff, Option.guard_eq_some'] at h
  obtain ⟨_, -, rest, hrest, _, hgap, name, hname, hd⟩ := h
  cases hd
  obtain ⟨star, hstar, hlength, hsplit⟩ := pastStar_split (rest.dropWhile CodePoint.isBlank)
  generalize pastStar (rest.dropWhile CodePoint.isBlank) = split at hname hlength hsplit ⊢
  refine ⟨rest.takeWhile CodePoint.isBlank ++ star ++ split.2.takeWhile CodePoint.isBlank,
    split.2.dropWhile CodePoint.isBlank, ?_, ?_, ?_, hname, ?_⟩
  · rw [Text.after?_eq_some.1 hrest]
    simp only [List.append_assoc, List.takeWhile_append_dropWhile, ← hsplit]
  · simp only [ne_eq, List.append_eq_nil_iff, not_and]
    intro hnil
    simp [hnil] at hgap
  · intro c hc
    rcases List.mem_append.1 hc with hc | hc
    · rcases List.mem_append.1 hc with hc | hc
      · exact isWord_of_mem_blanks hc
      · exact isWord_of_mem_star hstar hc
    · exact isWord_of_mem_blanks hc
  · simp only [List.length_append, hlength]
    omega

theorem namesAfter_of_constantAt? {column : Nat} {before : Option CodePoint} {t : Text}
    {d : ConstantDeclaration} (h : constantAt? column before t = some d) :
    ∃ keyword ∈ constantKeywords, NamesAfter keyword column t d.name := by
  unfold constantAt? at h
  simp only [bind, Option.bind_eq_some_iff, Option.guard_eq_some'] at h
  obtain ⟨_, -, keyword, hkeyword, _, hgap, name, hname, hd⟩ := h
  cases hd
  have hstarts := List.find?_some hkeyword
  obtain ⟨rest, hrest⟩ := Option.isSome_iff_exists.1 hstarts
  rw [Text.after?_eq_some] at hrest
  subst hrest
  rw [List.drop_left] at hgap hname
  refine ⟨keyword, List.mem_of_find?_eq_some hkeyword, rest.takeWhile isGap, rest.dropWhile isGap,
    ?_, ?_, ?_, hname, ?_⟩
  · rw [List.append_assoc, List.takeWhile_append_dropWhile]
  · simpa using hgap
  · intro c hc
    exact isWord_of_isGap (List.mem_takeWhile_imp hc)
  · rw [List.drop_left]
    exact (Nat.add_assoc ..).symm

end Source

end OutlineServer
