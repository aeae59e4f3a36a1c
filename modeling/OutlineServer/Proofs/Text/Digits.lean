import Mathlib.Algebra.Ring.Nat
import OutlineServer.Text.Basic

/-!
# Decimal digits and their value

The digits of a number are read as the number (`decimalValue_ofNat`), and they begin with a zero only
when they are that zero (`not_leadingZero_ofNat`).  The value of digits side by side is that of the
two runs, the front one moved up (`decimalValue_append`).
-/
namespace OutlineServer

namespace CodePoint

theorem isDigit_iff {c : CodePoint} : c.isDigit = true ↔ 0x30 ≤ c.val ∧ c.val ≤ 0x39 := by
  simp [isDigit]

theorem isDigit_ofChar {c : Char} (h : c.isDigit = true) : (ofChar c).isDigit = true := by
  simp only [Char.isDigit, Bool.and_eq_true, decide_eq_true_eq, ge_iff_le] at h
  exact isDigit_iff.2 ⟨h.1, h.2⟩

end CodePoint

namespace Text

def IsDigits (t : Text) : Prop := ∀ c ∈ t, c.isDigit = true

theorem isDigits_append {t u : Text} : IsDigits (t ++ u) ↔ IsDigits t ∧ IsDigits u :=
  List.forall_mem_append

theorem isDigits_cons {c : CodePoint} {t : Text} :
    IsDigits (c :: t) ↔ c.isDigit = true ∧ IsDigits t := List.forall_mem_cons

theorem isDigits_zeros (n : Nat) : IsDigits (List.replicate n (CodePoint.ofChar '0')) := by
  intro c hc
  rw [List.eq_of_mem_replicate hc]
  decide

theorem isDigits_ofNat (n : Nat) : IsDigits (ofNat n) := by
  intro c hc
  obtain ⟨digit, hdigit, rfl⟩ := List.mem_map.1 hc
  exact CodePoint.isDigit_ofChar (Nat.isDigit_of_mem_toDigits (by omega) (by omega) hdigit)

theorem isDigits_take {t : Text} (h : IsDigits t) (n : Nat) : IsDigits (t.take n) :=
  fun _ hc => h _ (List.mem_of_mem_take hc)

theorem isDigits_drop {t : Text} (h : IsDigits t) (n : Nat) : IsDigits (t.drop n) :=
  fun _ hc => h _ (List.mem_of_mem_drop hc)

theorem ofNat_ne_nil (n : Nat) : ofNat n ≠ [] := by
  unfold ofNat
  rw [Ne, List.map_eq_nil_iff]
  exact Nat.toDigits_ne_nil

theorem length_ofNat (n : Nat) : (ofNat n).length = (Nat.toDigits 10 n).length := List.length_map ..

/-! ## Values -/

theorem decimalValue_ofNat (n : Nat) : decimalValue (ofNat n) = n := by
  have hvalue : decimalValue (ofNat n) = Nat.ofDigitChars 10 (Nat.toDigits 10 n) 0 := by
    unfold decimalValue ofNat
    rw [List.foldl_map]
    rfl
  rw [hvalue, Nat.ofDigitChars_toDigits (by omega) (by omega)]

theorem foldl_decimal : ∀ (t : Text) (n : Nat),
    t.foldl (fun n c => 10 * n + (c.val - 0x30)) n = n * 10 ^ t.length + decimalValue t
  | [], n => by simp [decimalValue]
  | c :: t, n => by
    have hzero := foldl_decimal t (10 * 0 + (c.val - 0x30))
    have hfirst := foldl_decimal t (10 * n + (c.val - 0x30))
    unfold decimalValue
    rw [List.foldl_cons, List.foldl_cons, hfirst, hzero, List.length_cons, Nat.pow_succ]
    simp only [Nat.mul_zero, Nat.zero_add, Nat.add_mul]
    have hcomm : 10 * n * 10 ^ t.length = n * (10 ^ t.length * 10) := by
      rw [Nat.mul_comm 10 n, Nat.mul_assoc, Nat.mul_comm 10]
    omega

theorem decimalValue_append (t u : Text) :
    decimalValue (t ++ u) = decimalValue t * 10 ^ u.length + decimalValue u := by
  unfold decimalValue
  rw [List.foldl_append]
  exact foldl_decimal u _

theorem decimalValue_zeros (n : Nat) :
    decimalValue (List.replicate n (CodePoint.ofChar '0')) = 0 := by
  induction n with
  | zero => rfl
  | succ n ih =>
    rw [List.replicate_succ, ← List.singleton_append, decimalValue_append, ih]
    simp [decimalValue, CodePoint.ofChar]

theorem decimalValue_zeros_append (n : Nat) (t : Text) :
    decimalValue (List.replicate n (CodePoint.ofChar '0') ++ t) = decimalValue t := by
  rw [decimalValue_append, decimalValue_zeros]
  omega

theorem decimalValue_append_zeros (t : Text) (n : Nat) :
    decimalValue (t ++ List.replicate n (CodePoint.ofChar '0')) = decimalValue t * 10 ^ n := by
  rw [decimalValue_append, decimalValue_zeros, List.length_replicate, Nat.add_zero]

theorem decimalValue_padded (width n : Nat) : decimalValue (padded width n) = n := by
  unfold padded
  rw [decimalValue_zeros_append, decimalValue_ofNat]

theorem decimalValue_cons (c : CodePoint) (t : Text) :
    decimalValue (c :: t) = (c.val - 0x30) * 10 ^ t.length + decimalValue t := by
  rw [← List.singleton_append, decimalValue_append]
  simp [decimalValue]

theorem decimalValue_lt : ∀ {t : Text}, IsDigits t → decimalValue t < 10 ^ t.length
  | [], _ => by simp [decimalValue]
  | c :: t, h => by
    obtain ⟨hc, ht⟩ := isDigits_cons.1 h
    have hlt := decimalValue_lt ht
    have hdigit : c.val - 0x30 ≤ 9 := by
      rw [CodePoint.isDigit_iff] at hc
      omega
    rw [decimalValue_cons, List.length_cons, Nat.pow_succ]
    have := Nat.mul_le_mul_right (10 ^ t.length) hdigit
    omega

/-! ## Leading zeros -/

def LeadingZero (t : Text) : Prop := ∃ rest, t = CodePoint.ofChar '0' :: rest ∧ rest ≠ []

theorem not_leadingZero_ofNat (n : Nat) : ¬ LeadingZero (ofNat n) := by
  rintro ⟨rest, heq, hne⟩
  have hpos : 0 < rest.length := List.length_pos_iff.2 hne
  have hdigits : IsDigits rest := (isDigits_cons.1 (heq ▸ isDigits_ofNat n)).2
  have hsmall : n < 10 ^ rest.length := by
    have hvalue := decimalValue_ofNat n
    rw [heq, ← List.singleton_append, decimalValue_append] at hvalue
    have hzero : decimalValue [CodePoint.ofChar '0'] = 0 := by decide
    rw [hzero] at hvalue
    have := decimalValue_lt hdigits
    omega
  have hlength := congrArg List.length heq
  rw [length_ofNat, List.length_cons] at hlength
  have := (Nat.length_toDigits_le_iff (b := 10) (n := n) (by omega) hpos).2 hsmall
  omega

theorem not_leadingZero_append {t : Text} (ht : ¬ LeadingZero t)
    (hzero : t ≠ [CodePoint.ofChar '0']) (hne : t ≠ []) (u : Text) : ¬ LeadingZero (t ++ u) := by
  rintro ⟨rest, heq, -⟩
  cases t with
  | nil => exact hne rfl
  | cons c t =>
    rw [List.cons_append, List.cons.injEq] at heq
    obtain ⟨rfl, -⟩ := heq
    by_cases hnil : t = []
    · exact hzero (by rw [hnil])
    · exact ht ⟨t, rfl, hnil⟩

theorem ofNat_ne_zero {n : Nat} (h : n ≠ 0) : ofNat n ≠ [CodePoint.ofChar '0'] := by
  intro heq
  have hvalue := decimalValue_ofNat n
  rw [heq] at hvalue
  have hzero : decimalValue [CodePoint.ofChar '0'] = 0 := by decide
  omega

end Text

end OutlineServer
