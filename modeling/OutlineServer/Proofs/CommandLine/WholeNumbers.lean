import OutlineServer.CommandLine.Integer
import OutlineServer.Proofs.Text.Classes
import OutlineServer.Proofs.Text.Digits

/-!
# Whole numbers as they are written

The command line takes whole numbers in many spellings.  The one in which numbers are written is among
them and is read as the number (`integer?_ofInt`).
-/
namespace OutlineServer

theorem CodePoint.decimalDigit?_of_isDigit {c : CodePoint} (h : c.isDigit = true) :
    c.decimalDigit? = some (c.val - 0x30) := by
  obtain ⟨hlow, hhigh⟩ := isDigit_iff.1 h
  have hrange : decimalDigitRanges.find? c.val = some (0x30, 0x39) := by
    unfold decimalDigitRanges Ranges.find?
    rw [if_neg (by omega), if_pos hhigh]
  have hsmall : (c.val - 0x30) % 10 = c.val - 0x30 := Nat.mod_eq_of_lt (by omega)
  rw [decimalDigit?, hrange, Option.map_some, hsmall]

namespace CommandLine

theorem isNumberBlank_of_visible {c : CodePoint} (hlow : 0x21 ≤ c.val) (hhigh : c.val ≤ 0x7E) :
    isNumberBlank c = false := by
  have hapart : Ranges.Apart [(0x21, 0x7E)] blankRanges := by decide
  have hvisible : Ranges.contains [(0x21, 0x7E)] c.val = true := by
    simp [Ranges.contains, Ranges.find?, Nat.not_lt.2 hlow, hhigh]
  have hblank : c.isBlank = false := Ranges.not_contains_of_apart hapart hvisible
  rw [isNumberBlank, hblank, Bool.false_and]

theorem dropWhile_isNumberBlank {t : Text} (h : ∀ c ∈ t, isNumberBlank c = false) :
    t.dropWhile isNumberBlank = t := by
  cases t with
  | nil => rfl
  | cons c t => exact List.dropWhile_cons_of_neg (by simp [h c List.mem_cons_self])

theorem readDigits_true : ∀ {t : Text}, t.IsDigits → ∀ n : Nat,
    readDigits true n t = some (t.foldl (fun n c => 10 * n + (c.val - 0x30)) n)
  | [], _, _ => rfl
  | c :: t, h, n => by
    obtain ⟨hc, ht⟩ := Text.isDigits_cons.1 h
    rw [readDigits, CodePoint.decimalDigit?_of_isDigit hc]
    exact readDigits_true ht _

theorem readDigits_ofNat (n : Nat) : readDigits false 0 (Text.ofNat n) = some n := by
  have hdigits := Text.isDigits_ofNat n
  have hvalue := Text.decimalValue_ofNat n
  cases htext : Text.ofNat n with
  | nil => exact absurd htext (Text.ofNat_ne_nil n)
  | cons c t =>
    rw [htext] at hdigits hvalue
    obtain ⟨hc, ht⟩ := Text.isDigits_cons.1 hdigits
    rw [readDigits, CodePoint.decimalDigit?_of_isDigit hc]
    exact (readDigits_true ht _).trans (congrArg some hvalue)

theorem isNumberBlank_ofInt (n : Int) : ∀ c ∈ Text.ofInt n, isNumberBlank c = false := by
  have hdigits : ∀ m : Nat, ∀ c ∈ Text.ofNat m, isNumberBlank c = false := by
    intro m c hc
    have hdigit := CodePoint.isDigit_iff.1 (Text.isDigits_ofNat m c hc)
    exact isNumberBlank_of_visible (by omega) (by omega)
  cases n with
  | ofNat n => exact hdigits n
  | negSucc n => exact List.forall_mem_cons.2 ⟨by decide, hdigits (n + 1)⟩

/-- **A number as it is written is read as the number.** -/
theorem integer?_ofInt (n : Int) : integer? (Text.ofInt n) = some n := by
  have hplain := isNumberBlank_ofInt n
  have hstripped : (((Text.ofInt n).dropWhile isNumberBlank).reverse.dropWhile isNumberBlank).reverse
      = Text.ofInt n := by
    rw [dropWhile_isNumberBlank hplain,
      dropWhile_isNumberBlank (fun c hc => hplain c (List.mem_reverse.1 hc)), List.reverse_reverse]
  unfold integer?
  rw [hstripped]
  cases n with
  | negSucc n =>
    simp only [Text.ofInt, if_true, readDigits_ofNat, Option.map_some]
    rfl
  | ofNat n =>
    have hread := readDigits_ofNat n
    have hdigits := Text.isDigits_ofNat n
    simp only [Text.ofInt]
    cases htext : Text.ofNat n with
    | nil => exact absurd htext (Text.ofNat_ne_nil n)
    | cons c t =>
      rw [htext] at hread hdigits
      obtain ⟨hlow, -⟩ := CodePoint.isDigit_iff.1 (Text.isDigits_cons.1 hdigits).1
      have hminus : c ≠ CodePoint.ofChar '-' := by
        rintro rfl
        exact absurd hlow (by decide)
      have hplus : c ≠ CodePoint.ofChar '+' := by
        rintro rfl
        exact absurd hlow (by decide)
      simp only [if_neg hminus, if_neg hplus, hread, Option.map_some]

end CommandLine

end OutlineServer
