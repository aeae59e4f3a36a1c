import OutlineServer.Json.Reader
import OutlineServer.Json.Writer
import OutlineServer.Proofs.Number.ReadBack
import OutlineServer.Proofs.Text.Digits
import OutlineServer.Proofs.Text.Parts

/-!
# Written numbers are read back

A number is read up to where it cannot go on, so whatever follows a written number must not begin
with a digit, a point or an exponent (`EndsNumber`); in a written value it never does.  A whole number
is its digits.  The text of a double is a decimal laid out in one of several ways; each of them is
read as a decimal of the same value (`readNumber_positional`, `readNumber_scientific`), and the decimal
reads back as the double.
-/
namespace OutlineServer

namespace Json

open Text

/-! ## Where a number ends -/

def EndsDigits : Text → Prop
  | [] => True
  | c :: _ => c.isDigit = false

def EndsNumber : Text → Prop
  | [] => True
  | c :: _ => c.isDigit = false ∧ c ≠ '.' ∧ c ≠ 'e' ∧ c ≠ 'E'

theorem EndsNumber.endsDigits {t : Text} (h : EndsNumber t) : EndsDigits t := by
  cases t with
  | nil => trivial
  | cons c t => exact h.1

theorem takeWhile_digits {digits rest : Text} (hdigits : IsDigits digits)
    (hrest : EndsDigits rest) : (digits ++ rest).takeWhile CodePoint.isDigit = digits := by
  rw [List.takeWhile_append_of_pos hdigits]
  cases rest with
  | nil => simp
  | cons c rest =>
    have hc : c.isDigit = false := hrest
    simp [hc]

theorem dropWhile_digits {digits rest : Text} (hdigits : IsDigits digits)
    (hrest : EndsDigits rest) : (digits ++ rest).dropWhile CodePoint.isDigit = rest := by
  rw [List.dropWhile_append_of_pos hdigits]
  cases rest with
  | nil => rfl
  | cons c rest =>
    have hc : c.isDigit = false := hrest
    simp [hc]

/-! ## The parts of a number -/

theorem readFraction_point {places rest : Text} (hplaces : IsDigits places) (hne : places ≠ [])
    (hrest : EndsDigits rest) :
    readFraction (CodePoint.ofChar '.' :: (places ++ rest)) = some (some places, rest) := by
  unfold readFraction
  simp only [if_true, takeWhile_digits hplaces hrest, dropWhile_digits hplaces hrest,
    List.isEmpty_eq_false_iff.2 hne, Bool.false_eq_true, if_false]

theorem readFraction_of_ends {t : Text} (h : ∀ c rest, t = c :: rest → c ≠ '.') :
    readFraction t = some (none, t) := by
  unfold readFraction
  split
  · rw [if_neg (h _ _ rfl)]
  · rfl

theorem readExponent_of_endsNumber {t : Text} (h : EndsNumber t) :
    readExponent t = some (none, t) := by
  unfold readExponent
  split
  · rw [if_neg (not_or.2 ⟨h.2.2.1, h.2.2.2⟩)]
  · rfl

theorem readExponent_power (power : Int) {rest : Text} (hrest : EndsDigits rest) :
    readExponent (CodePoint.ofChar 'e' :: (if power < 0 then '-' else '+')
      :: (padded 2 power.natAbs ++ rest)) = some (some power, rest) := by
  have hdigits : IsDigits (padded 2 power.natAbs) :=
    isDigits_append.2 ⟨isDigits_zeros _, isDigits_ofNat _⟩
  have hne : padded 2 power.natAbs ≠ [] := by
    unfold padded
    exact List.append_ne_nil_of_right_ne_nil _ (ofNat_ne_nil _)
  have htake := takeWhile_digits hdigits hrest
  have hdrop := dropWhile_digits hdigits hrest
  have hfalse := List.isEmpty_eq_false_iff.2 hne
  have hvalue := decimalValue_padded 2 power.natAbs
  by_cases hneg : power < 0
  · have hpower : -(power.natAbs : Int) = power := by omega
    simp only [readExponent, hneg, true_or, ↓reduceIte, htake, hdrop, hfalse, hvalue, hpower,
      Bool.false_eq_true]
  · have hpower : (power.natAbs : Int) = power := by omega
    have hsign : CodePoint.ofChar '+' ≠ CodePoint.ofChar '-' := by decide
    simp only [readExponent, hneg, hsign, true_or, ↓reduceIte, htake, hdrop, hfalse, hvalue, hpower,
      Bool.false_eq_true]

/-- **A number is read part by part.** -/
theorem readNumber_of_parts (negative : Bool) {whole t t' rest : Text} {fraction : Option Text}
    {exponent : Option Int} (hdigits : IsDigits whole) (hne : whole ≠ [])
    (hzero : ¬ LeadingZero whole) (ht : EndsDigits t)
    (hfraction : readFraction t = some (fraction, t'))
    (hexponent : readExponent t' = some (exponent, rest)) :
    readNumber negative (whole ++ t) = some (number negative whole fraction exponent, rest) := by
  have hstart : (Text.startsWith whole "0" && decide (1 < whole.length)) = false := by
    cases whole with
    | nil => exact absurd rfl hne
    | cons c digits =>
      cases digits with
      | nil => simp
      | cons d digits =>
        have hc : c ≠ '0' := by
          rintro rfl
          exact hzero ⟨d :: digits, rfl, List.cons_ne_nil _ _⟩
        have hafter : Text.after? (c :: d :: digits) "0" = none := if_neg hc
        simp [Text.startsWith, hafter]
  unfold readNumber
  dsimp only
  rw [takeWhile_digits hdigits ht, dropWhile_digits hdigits ht, List.isEmpty_eq_false_iff.2 hne,
    hstart, hfraction]
  simp [hexponent]

/-! ## Whole numbers -/

theorem readNumber_ofNat (negative : Bool) (n : Nat) {rest : Text} (hrest : EndsNumber rest) :
    readNumber negative (ofNat n ++ rest) = some (.int (if negative then -n else n), rest) := by
  have hfraction : readFraction rest = some (none, rest) := by
    apply readFraction_of_ends
    rintro c rest rfl
    exact hrest.2.1
  rw [readNumber_of_parts negative (isDigits_ofNat n) (ofNat_ne_nil n) (not_leadingZero_ofNat n)
    hrest.endsDigits hfraction (readExponent_of_endsNumber hrest)]
  unfold number
  simp only [decimalValue_ofNat]

/-! ## Doubles -/

theorem not_leadingZero_take {t : Text} (h : ¬ LeadingZero t) (n : Nat) :
    ¬ LeadingZero (t.take n) := by
  rintro ⟨rest, heq, hne⟩
  have happend := List.take_append_drop n t
  rw [heq] at happend
  exact h ⟨rest ++ t.drop n, happend.symm, List.append_ne_nil_of_left_ne_nil hne _⟩

theorem readNumber_fraction (negative : Bool) (whole places : Text) {rest : Text}
    (hwhole : IsDigits whole) (hne : whole ≠ []) (hzero : ¬ LeadingZero whole) (hplaces : IsDigits places)
    (hsome : places ≠ []) (hrest : EndsNumber rest) :
    readNumber negative (whole ++ CodePoint.ofChar '.' :: (places ++ rest))
      = some (.float (.ofDecimal negative ⟨decimalValue (whole ++ places), -places.length⟩),
        rest) := by
  have hpoint : EndsDigits (CodePoint.ofChar '.' :: (places ++ rest)) := by
    show (CodePoint.ofChar '.').isDigit = false
    decide
  rw [readNumber_of_parts negative hwhole hne hzero hpoint
    (readFraction_point hplaces hsome hrest.endsDigits) (readExponent_of_endsNumber hrest)]
  simp [number]

theorem readNumber_behind (negative : Bool) {d : Decimal} {n : Nat}
    (hn : (ofNat d.digits).length + d.scale = -(n : Int)) {rest : Text} (hrest : EndsNumber rest) :
    readNumber negative (CodePoint.ofChar '0' :: CodePoint.ofChar '.'
        :: (List.replicate n (CodePoint.ofChar '0') ++ ofNat d.digits ++ rest))
      = some (.float (.ofDecimal negative d), rest) := by
  have hlead : ¬ LeadingZero [CodePoint.ofChar '0'] := by
    rintro ⟨_, h, hne⟩
    cases h
    exact hne rfl
  have hread := readNumber_fraction negative [CodePoint.ofChar '0']
    (List.replicate n (CodePoint.ofChar '0') ++ ofNat d.digits) (isDigits_zeros 1) (by simp) hlead
    (isDigits_append.2 ⟨isDigits_zeros n, isDigits_ofNat _⟩)
    (List.append_ne_nil_of_right_ne_nil _ (ofNat_ne_nil _)) hrest
  have hscale : -((List.replicate n (CodePoint.ofChar '0') ++ ofNat d.digits).length : Int)
      = d.scale := by
    rw [List.length_append, List.length_replicate]
    push_cast
    omega
  have hall : decimalValue
      ([CodePoint.ofChar '0'] ++ (List.replicate n (CodePoint.ofChar '0') ++ ofNat d.digits))
      = d.digits := by
    rw [← List.append_assoc, ← List.replicate_one, List.replicate_append_replicate,
      decimalValue_zeros_append, decimalValue_ofNat]
  rw [hscale, hall] at hread
  exact hread

theorem readNumber_before (negative : Bool) {d : Decimal} (hzero : d.digits = 0 → d.scale = 0)
    {n : Nat} (hn : d.scale = n) {rest : Text} (hrest : EndsNumber rest) :
    readNumber negative (ofNat d.digits ++ List.replicate n (CodePoint.ofChar '0')
        ++ CodePoint.ofChar '.' :: CodePoint.ofChar '0' :: rest)
      = some (.float (.ofDecimal negative d), rest) := by
  have hlead : ¬ LeadingZero (ofNat d.digits ++ List.replicate n (CodePoint.ofChar '0')) := by
    by_cases hdigits : d.digits = 0
    · have hnone : n = 0 := by
        have := hzero hdigits
        omega
      rw [hnone, List.replicate_zero, List.append_nil]
      exact not_leadingZero_ofNat _
    · exact not_leadingZero_append (not_leadingZero_ofNat _) (ofNat_ne_zero hdigits)
        (ofNat_ne_nil _) _
  have hread := readNumber_fraction negative
    (ofNat d.digits ++ List.replicate n (CodePoint.ofChar '0')) [CodePoint.ofChar '0']
    (isDigits_append.2 ⟨isDigits_ofNat _, isDigits_zeros n⟩)
    (List.append_ne_nil_of_left_ne_nil (ofNat_ne_nil _) _) hlead (isDigits_zeros 1) (by simp) hrest
  refine hread.trans ?_
  -- the zero behind the point makes another decimal of the same value
  have hall : decimalValue (ofNat d.digits ++ List.replicate n (CodePoint.ofChar '0')
      ++ [CodePoint.ofChar '0']) = d.digits * 10 ^ (n + 1) := by
    rw [List.append_assoc, ← List.replicate_one, List.replicate_append_replicate,
      decimalValue_append_zeros, decimalValue_ofNat]
  have hvalue : (⟨d.digits * 10 ^ (n + 1), -1⟩ : Decimal).value = d.value := by
    unfold Decimal.value
    rw [hn, zpow_natCast, zpow_neg_one]
    push_cast
    ring
  rw [hall, List.length_singleton, Nat.cast_one, Double.ofDecimal_congr negative hvalue]

theorem readNumber_among (negative : Bool) {d : Decimal} {whole : Nat} (hpos : 0 < whole)
    (hlt : whole < (ofNat d.digits).length) (hwhole : (ofNat d.digits).length + d.scale = whole)
    {rest : Text} (hrest : EndsNumber rest) :
    readNumber negative ((ofNat d.digits).take whole
        ++ CodePoint.ofChar '.' :: ((ofNat d.digits).drop whole ++ rest))
      = some (.float (.ofDecimal negative d), rest) := by
  have hread := readNumber_fraction negative ((ofNat d.digits).take whole)
    ((ofNat d.digits).drop whole) (isDigits_take (isDigits_ofNat _) _)
    (List.length_pos_iff.1 (by rw [List.length_take]; omega))
    (not_leadingZero_take (not_leadingZero_ofNat _) _) (isDigits_drop (isDigits_ofNat _) _)
    (by rw [Ne, List.drop_eq_nil_iff]; omega) hrest
  have hscale : -(((ofNat d.digits).drop whole).length : Int) = d.scale := by
    rw [List.length_drop]
    omega
  rw [List.take_append_drop, decimalValue_ofNat, hscale] at hread
  exact hread

/-- **Positional notation** is read as the decimal that it shows. -/
theorem readNumber_positional (negative : Bool) (d : Decimal) (hzero : d.digits = 0 → d.scale = 0)
    {rest : Text} (hrest : EndsNumber rest) :
    readNumber negative
        (Double.positional (ofNat d.digits) ((ofNat d.digits).length + d.scale) ++ rest)
      = some (.float (.ofDecimal negative d), rest) := by
  unfold Double.positional
  dsimp only
  split
  · rename_i hpoint
    obtain ⟨n, hn⟩ := Int.eq_ofNat_of_zero_le
      (show 0 ≤ -(((ofNat d.digits).length : Int) + d.scale) by omega)
    rw [hn, Int.toNat_natCast]
    exact readNumber_behind negative (by omega) hrest
  · rename_i hpoint
    obtain ⟨whole, hwhole⟩ := Int.eq_ofNat_of_zero_le (Int.le_of_lt (Int.not_le.1 hpoint))
    rw [hwhole, Int.toNat_natCast]
    split
    · rename_i hlength
      obtain ⟨n, rfl⟩ := Nat.exists_eq_add_of_le hlength
      rw [Nat.add_sub_cancel_left, List.append_assoc]
      exact readNumber_before negative hzero (by push_cast at hwhole; omega) hrest
    · rename_i hlength
      rw [List.append_assoc, List.append_assoc]
      exact readNumber_among negative (by omega) (by omega) hwhole hrest

/-- **Scientific notation** is read as the decimal that it shows. -/
theorem readNumber_scientific (negative : Bool) (d : Decimal) {rest : Text}
    (hrest : EndsNumber rest) :
    readNumber negative
        (Double.scientific (ofNat d.digits) ((ofNat d.digits).length + d.scale - 1) ++ rest)
      = some (.float (.ofDecimal negative d), rest) := by
  have hdigits := isDigits_ofNat d.digits
  have hvalue := decimalValue_ofNat d.digits
  have hpos : 0 < (ofNat d.digits).length := List.length_pos_iff.2 (ofNat_ne_nil d.digits)
  have hlead := not_leadingZero_take (not_leadingZero_ofNat d.digits) 1
  generalize ofNat d.digits = digits at *
  generalize hpower : (digits.length : Int) + d.scale - 1 = power
  have hexponent := readExponent_power power hrest.endsDigits
  have hwhole : digits.take 1 ≠ [] := by
    rw [← List.length_pos_iff, List.length_take]
    omega
  unfold Double.scientific
  dsimp only
  split
  · -- a single digit, and no fraction
    rename_i hlength
    have htake : digits.take 1 = digits := List.take_of_length_le hlength
    have hread := readNumber_of_parts negative (isDigits_take hdigits 1) hwhole hlead
      (by show (CodePoint.ofChar 'e').isDigit = false; decide)
      (readFraction_of_ends (by rintro _ _ h; cases h; decide)) hexponent
    have hd : (⟨decimalValue (digits.take 1 ++ []), power - (0 : Nat)⟩ : Decimal) = d := by
      rw [List.append_nil, htake, hvalue, show power - (0 : Nat) = d.scale by omega]
    rw [List.append_nil, List.append_assoc]
    refine hread.trans ?_
    unfold number
    simp only [Option.getD_none, Option.getD_some, List.length_nil, hd]
  · rename_i hlength
    have hread := readNumber_of_parts negative (isDigits_take hdigits 1) hwhole hlead
      (by show (CodePoint.ofChar '.').isDigit = false; decide)
      (readFraction_point (isDigits_drop hdigits 1) (by rw [Ne, List.drop_eq_nil_iff]; omega)
        (by show (CodePoint.ofChar 'e').isDigit = false; decide)) hexponent
    have hd : (⟨decimalValue (digits.take 1 ++ digits.drop 1), power - (digits.drop 1).length⟩
        : Decimal) = d := by
      rw [List.take_append_drop, hvalue, List.length_drop,
        show power - ((digits.length - 1 : Nat) : Int) = d.scale by omega]
    rw [List.append_assoc, List.append_assoc]
    refine hread.trans ?_
    unfold number
    simp only [Option.getD_some, hd]

theorem scale_shortestDecimal {rank : Fin Double.infiniteRank}
    (h : (Double.shortestDecimal rank).digits = 0) : (Double.shortestDecimal rank).scale = 0 := by
  have hread := Double.ofDecimal_shortestDecimal false rank
  let zero : Fin Double.infiniteRank := ⟨0, by decide⟩
  have hvalue : (Double.shortestDecimal rank).value = Double.magnitude zero := by
    rw [Decimal.value_eq_zero.2 h, Double.magnitude_eq_zero.2 rfl]
  have hrank : rank = zero := by
    rw [Double.ofDecimal_of_value false hvalue] at hread
    exact (Double.finite.inj hread).2.symm
  rw [hrank]
  decide +kernel

/-- **The text of a magnitude reads back as the magnitude.** -/
theorem readNumber_magnitudeText (negative : Bool) (rank : Fin Double.infiniteRank) {rest : Text}
    (hrest : EndsNumber rest) :
    readNumber negative (Double.magnitudeText rank ++ rest)
      = some (.float (.finite negative rank), rest) := by
  rw [← Double.ofDecimal_shortestDecimal negative rank]
  unfold Double.magnitudeText
  dsimp only
  split
  · rw [show ((ofNat (Double.shortestDecimal rank).digits).length : Int)
        + (Double.shortestDecimal rank).scale - 1 + 1
      = (ofNat (Double.shortestDecimal rank).digits).length
        + (Double.shortestDecimal rank).scale by omega]
    exact readNumber_positional negative _ scale_shortestDecimal hrest
  · exact readNumber_scientific negative _ hrest

/-! ## Numbers among the names -/

theorem readScalar_name (rest : Text) : ∀ named ∈ ([("null", .null), ("true", .bool true),
    ("false", .bool false), ("NaN", .float .nan), ("Infinity", .float (.infinite false)),
    ("-Infinity", .float (.infinite true))] : List (Text × Json)),
    readScalar (named.1 ++ rest) = some (named.2, rest) := by
  simp only [List.forall_mem_cons]
  refine ⟨?_, ?_, ?_, ?_, ?_, ?_, by rintro _ ⟨⟩⟩ <;>
  · unfold readScalar
    rw [after?_eq_some.2 rfl]
    rfl

theorem readScalar_of_digit {c : CodePoint} (hc : c.isDigit = true) (t : Text) :
    readScalar (c :: t) = readNumber false (c :: t) := by
  have hne : ∀ l : CodePoint, l.isDigit = false → ∀ lead, Text.after? (c :: t) (l :: lead) = none := by
    intro l hl lead
    refine if_neg ?_
    rintro rfl
    rw [hc] at hl
    cases hl
  have hnull : Text.after? (c :: t) "null" = none := hne 'n' (by decide) _
  have htrue : Text.after? (c :: t) "true" = none := hne 't' (by decide) _
  have hfalse : Text.after? (c :: t) "false" = none := hne 'f' (by decide) _
  have hnan : Text.after? (c :: t) "NaN" = none := hne 'N' (by decide) _
  have hinfinity : Text.after? (c :: t) "Infinity" = none := hne 'I' (by decide) _
  have hnegative : Text.after? (c :: t) "-Infinity" = none := hne '-' (by decide) _
  have hminus : Text.after? (c :: t) "-" = none := hne '-' (by decide) _
  unfold readScalar
  rw [hnull, htrue, hfalse, hnan, hinfinity, hnegative, hminus]
  rfl

theorem readScalar_of_minus {c : CodePoint} (hc : c.isDigit = true) (t : Text) :
    readScalar (CodePoint.ofChar '-' :: c :: t) = readNumber true (c :: t) := by
  have hinfinity : Text.after? (CodePoint.ofChar '-' :: c :: t) "-Infinity" = none := by
    have hne : c ≠ 'I' := by
      rintro rfl
      revert hc
      decide
    exact if_neg hne
  unfold readScalar
  rw [hinfinity]
  rfl

theorem exists_digit_ofNat (n : Nat) : ∃ c digits, ofNat n = c :: digits ∧ c.isDigit = true := by
  cases hdigits : ofNat n with
  | nil => exact absurd hdigits (ofNat_ne_nil n)
  | cons c digits => exact ⟨c, digits, rfl, (isDigits_cons.1 (hdigits ▸ isDigits_ofNat n)).1⟩

theorem exists_digit_magnitudeText (rank : Fin Double.infiniteRank) :
    ∃ c t, Double.magnitudeText rank = c :: t ∧ c.isDigit = true := by
  obtain ⟨c, digits, heq, hc⟩ := exists_digit_ofNat (Double.shortestDecimal rank).digits
  unfold Double.magnitudeText Double.positional Double.scientific
  dsimp only
  rw [heq]
  split
  · split
    · exact ⟨_, _, rfl, by decide⟩
    · split
      · exact ⟨c, _, rfl, hc⟩
      · rename_i hpoint _
        obtain ⟨n, hn⟩ := Int.eq_succ_of_zero_lt (Int.not_le.1 hpoint)
        rw [hn]
        exact ⟨c, _, rfl, hc⟩
  · exact ⟨c, _, rfl, hc⟩

/-- **A written whole number is read back.** -/
theorem readScalar_ofInt (value : Int) {rest : Text} (hrest : EndsNumber rest) :
    readScalar (ofInt value ++ rest) = some (.int value, rest) := by
  cases value with
  | ofNat n =>
    obtain ⟨c, digits, heq, hc⟩ := exists_digit_ofNat n
    have hread := readNumber_ofNat false n hrest
    rw [heq] at hread
    rw [ofInt, heq, List.cons_append, readScalar_of_digit hc]
    exact hread
  | negSucc n =>
    obtain ⟨c, digits, heq, hc⟩ := exists_digit_ofNat (n + 1)
    have hread := readNumber_ofNat true (n + 1) hrest
    rw [heq] at hread
    rw [ofInt, heq, List.cons_append, List.cons_append, readScalar_of_minus hc]
    exact hread

/-- **A written double is read back**, bit by bit: zero keeps its sign. -/
theorem readScalar_toText (value : Double) {rest : Text} (hrest : EndsNumber rest) :
    readScalar (value.toText floatNames ++ rest) = some (.float value, rest) := by
  cases value with
  | nan => exact readScalar_name rest ("NaN", _) (by simp)
  | infinite negative =>
    cases negative with
    | false => exact readScalar_name rest ("Infinity", _) (by simp)
    | true => exact readScalar_name rest ("-Infinity", _) (by simp)
  | finite negative rank =>
    obtain ⟨c, t, heq, hc⟩ := exists_digit_magnitudeText rank
    have hread := readNumber_magnitudeText negative rank hrest
    rw [heq] at hread
    cases negative with
    | false =>
      rw [Double.toText, heq, List.cons_append, readScalar_of_digit hc]
      exact hread
    | true =>
      rw [Double.toText, heq, List.cons_append, List.cons_append, readScalar_of_minus hc]
      exact hread

end Json

end OutlineServer
