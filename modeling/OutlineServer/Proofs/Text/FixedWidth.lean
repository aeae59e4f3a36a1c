import OutlineServer.Proofs.Keyed
import OutlineServer.Proofs.Text.Digits

/-!
# The order of numbers of fixed width

Texts are ordered by the first place at which they differ.  Behind parts of one length the rest
decides, and only if the parts are the same (`append_lt_append_iff`); digits of one length are ordered
as the numbers that they spell (`lt_iff_of_isDigits`).  So numbers that are written in one width decide
the order of texts in which they stand at the same place (`padded_append_lt_iff`).
-/
namespace OutlineServer.Text

theorem append_lt_append_iff : ∀ {t u : Text}, t.length = u.length → ∀ v w : Text,
    t ++ v < u ++ w ↔ t < u ∨ t = u ∧ v < w
  | [], [], _, v, w => by simp
  | c :: t, d :: u, hlength, v, w => by
    have hrest := append_lt_append_iff (Nat.succ.inj hlength) v w
    rw [List.cons_append, List.cons_append, List.cons_lt_cons_iff, hrest, List.cons_lt_cons_iff,
      List.cons.injEq, and_or_left, or_assoc, and_assoc]

theorem append_left_lt_iff (t v w : Text) : t ++ v < t ++ w ↔ v < w := by
  rw [append_lt_append_iff rfl]
  simp [List.lt_irrefl]

/-! ## Digits -/

theorem lt_iff_of_isDigits : ∀ {t u : Text}, t.IsDigits → u.IsDigits → t.length = u.length →
    (t < u ↔ decimalValue t < decimalValue u)
  | [], [], _, _, _ => by simp [List.lt_irrefl]
  | c :: t, d :: u, ht, hu, hlength => by
    obtain ⟨hc, ht⟩ := isDigits_cons.1 ht
    obtain ⟨hd, hu⟩ := isDigits_cons.1 hu
    have hlength : t.length = u.length := Nat.succ.inj hlength
    have hbelow := decimalValue_lt ht
    have hbelow' := decimalValue_lt hu
    rw [CodePoint.isDigit_iff] at hc hd
    rw [List.cons_lt_cons_iff, lt_iff_of_isDigits ht hu hlength, decimalValue_cons,
      decimalValue_cons, hlength]
    rw [hlength] at hbelow
    -- The first digits decide, because what follows is less than one of their units.
    rcases Nat.lt_trichotomy c.val d.val with hlt | heq | hgt
    · have hfirst : (c.val - 0x30 + 1) * 10 ^ u.length ≤ (d.val - 0x30) * 10 ^ u.length :=
        Nat.mul_le_mul_right _ (by omega)
      rw [Nat.add_mul, Nat.one_mul] at hfirst
      exact iff_of_true (.inl hlt) (by omega)
    · obtain rfl := CodePoint.ext_val heq
      have hirrefl : ¬ c < c := Nat.lt_irrefl _
      simp [hirrefl]
    · have hfirst : (d.val - 0x30 + 1) * 10 ^ u.length ≤ (c.val - 0x30) * 10 ^ u.length :=
        Nat.mul_le_mul_right _ (by omega)
      rw [Nat.add_mul, Nat.one_mul] at hfirst
      refine iff_of_false ?_ (by omega)
      rintro (hlt | ⟨rfl, -⟩)
      · exact Nat.lt_asymm hgt hlt
      · exact Nat.lt_irrefl _ hgt

/-! ## Numbers -/

theorem isDigits_padded (width n : Nat) : IsDigits (padded width n) :=
  isDigits_append.2 ⟨isDigits_zeros _, isDigits_ofNat n⟩

theorem length_padded {width n : Nat} (hwidth : 0 < width) (h : n < 10 ^ width) :
    (padded width n).length = width := by
  have hdigits := (Nat.length_toDigits_le_iff (b := 10) (by omega) hwidth).2 h
  unfold padded
  rw [List.length_append, List.length_replicate, length_ofNat]
  omega

/-- **Numbers in one width decide the order**, and what follows decides it between equal numbers. -/
theorem padded_append_lt_iff {width m n : Nat} (hwidth : 0 < width) (hm : m < 10 ^ width)
    (hn : n < 10 ^ width) (v w : Text) :
    padded width m ++ v < padded width n ++ w ↔ m < n ∨ m = n ∧ v < w := by
  have hlength : (padded width m).length = (padded width n).length := by
    rw [length_padded hwidth hm, length_padded hwidth hn]
  have hinj : padded width m = padded width n ↔ m = n := by
    constructor
    · intro heq
      rw [← decimalValue_padded width m, heq, decimalValue_padded]
    · rintro rfl
      rfl
  rw [append_lt_append_iff hlength,
    lt_iff_of_isDigits (isDigits_padded _ _) (isDigits_padded _ _) hlength, decimalValue_padded,
    decimalValue_padded, hinj]

end OutlineServer.Text
