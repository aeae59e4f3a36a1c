import OutlineServer.Text.Blank
import OutlineServer.Text.Word

/-!
# How the classes of characters lie to each other

The classes are tables of ranges, so that two of them have no character in common is a comparison of
the ends of their ranges (`Ranges.not_contains_of_apart`).  Blanks and word characters are apart,
which is why a name that follows a blank begins a word.
-/
namespace OutlineServer

namespace Ranges

theorem exists_of_contains : ∀ {ranges : Ranges} {n : Nat}, ranges.contains n = true →
    ∃ r ∈ ranges, r.1 ≤ n ∧ n ≤ r.2
  | [], _, h => by cases h
  | (low, high) :: rest, n, h => by
    unfold contains find? at h
    split at h
    · cases h
    rename_i hlow
    split at h
    · rename_i hhigh
      exact ⟨(low, high), List.mem_cons_self, by omega, hhigh⟩
    · obtain ⟨r, hr, hn⟩ := @exists_of_contains rest n h
      exact ⟨r, List.mem_cons_of_mem _ hr, hn⟩

def Apart (a b : Ranges) : Prop := ∀ p ∈ a, ∀ q ∈ b, p.2 < q.1 ∨ q.2 < p.1

instance (a b : Ranges) : Decidable (Apart a b) :=
  inferInstanceAs (Decidable (∀ p ∈ a, ∀ q ∈ b, p.2 < q.1 ∨ q.2 < p.1))

theorem not_contains_of_apart {a b : Ranges} (h : Apart a b) {n : Nat} (hn : a.contains n = true) :
    b.contains n = false := by
  cases hb : b.contains n with
  | false => rfl
  | true =>
    obtain ⟨p, hp, hp1, hp2⟩ := exists_of_contains hn
    obtain ⟨q, hq, hq1, hq2⟩ := exists_of_contains hb
    have := h p hp q hq
    omega

end Ranges

theorem blank_apart_word : Ranges.Apart blankRanges wordRanges := by decide +kernel

namespace CodePoint

theorem isWord_of_isBlank {c : CodePoint} (h : c.isBlank = true) : c.isWord = false :=
  Ranges.not_contains_of_apart blank_apart_word h

end CodePoint

end OutlineServer
