import OutlineServer.Json.Writer

/-!
# What is written is printable ASCII

Every character that `Json.write` gives lies between the blank and the tilde.  So a written value is
one line, whatever texts it holds, and its length is its number of octets.

Numbers come first: digits, a sign, a point and an exponent.  Texts are quoted, and what is not
printable ASCII in them is escaped.  The rest is an induction over the value.
-/
namespace OutlineServer

/-- A printable ASCII character. -/
def CodePoint.isPlain (c : CodePoint) : Bool := 0x20 ≤ c.val && c.val < 0x7F

theorem CodePoint.isPlain_iff {c : CodePoint} :
    c.isPlain = true ↔ 0x20 ≤ c.val ∧ c.val < 0x7F := by
  simp [isPlain]

def Text.isPlain (t : Text) : Bool := t.all CodePoint.isPlain

namespace Text

@[simp] theorem isPlain_nil : isPlain [] = true := rfl

@[simp] theorem isPlain_cons (c : CodePoint) (t : Text) :
    isPlain (c :: t) = (c.isPlain && isPlain t) := rfl

@[simp] theorem isPlain_append (t u : Text) : isPlain (t ++ u) = (isPlain t && isPlain u) :=
  List.all_append

theorem isPlain_iff {t : Text} : isPlain t = true ↔ ∀ c ∈ t, c.isPlain = true := List.all_eq_true

theorem isPlain_of_subset {t u : Text} (hsub : ∀ c ∈ t, c ∈ u) (hu : isPlain u = true) :
    isPlain t = true := by
  rw [isPlain_iff] at *
  intro c hc
  exact hu c (hsub c hc)

theorem isPlain_take {t : Text} (h : isPlain t = true) (n : Nat) : isPlain (t.take n) = true :=
  isPlain_of_subset (fun _ hc => List.mem_of_mem_take hc) h

theorem isPlain_drop {t : Text} (h : isPlain t = true) (n : Nat) : isPlain (t.drop n) = true :=
  isPlain_of_subset (fun _ hc => List.mem_of_mem_drop hc) h

theorem isPlain_replicate {c : CodePoint} (h : c.isPlain = true) (n : Nat) :
    isPlain (List.replicate n c) = true := by
  refine isPlain_of_subset (u := [c]) ?_ (by simp [h])
  intro d hd
  rw [List.eq_of_mem_replicate hd]
  exact List.mem_singleton_self c

theorem not_mem_of_isPlain {t : Text} (h : isPlain t = true) {c : CodePoint}
    (hc : c.isPlain = false) : c ∉ t := by
  intro hmem
  rw [isPlain_iff.1 h c hmem] at hc
  cases hc

theorem not_mem_lineFeed {t : Text} (h : isPlain t = true) : CodePoint.lineFeed ∉ t :=
  not_mem_of_isPlain h (by decide)

theorem not_mem_carriageReturn {t : Text} (h : isPlain t = true) :
    CodePoint.carriageReturn ∉ t :=
  not_mem_of_isPlain h (by decide)

/-! ## Numbers -/

theorem isPlain_ofChar_of_isDigit {c : Char} (h : c.isDigit = true) :
    (CodePoint.ofChar c).isPlain = true := by
  have hrange : 48 ≤ c.toNat ∧ c.toNat ≤ 57 := by
    simp only [Char.isDigit, Bool.and_eq_true, decide_eq_true_eq, ge_iff_le] at h
    exact ⟨h.1, h.2⟩
  rw [CodePoint.isPlain_iff]
  show 0x20 ≤ c.toNat ∧ c.toNat < 0x7F
  omega

@[simp] theorem isPlain_ofNat (n : Nat) : isPlain (ofNat n) = true := by
  rw [isPlain_iff]
  intro c hc
  obtain ⟨digit, hdigit, rfl⟩ := List.mem_map.1 hc
  exact isPlain_ofChar_of_isDigit (Nat.isDigit_of_mem_toDigits (by omega) (by omega) hdigit)

@[simp] theorem isPlain_ofInt (value : Int) : isPlain (ofInt value) = true := by
  cases value with
  | ofNat n => exact isPlain_ofNat n
  | negSucc n =>
    rw [ofInt, isPlain_cons, isPlain_ofNat]
    decide

@[simp] theorem isPlain_padded (width n : Nat) : isPlain (padded width n) = true := by
  unfold padded
  rw [isPlain_append, isPlain_ofNat, isPlain_replicate (by decide)]
  rfl

end Text

namespace Double

open Text

theorem isPlain_positional {digits : Text} (h : digits.isPlain = true) (point : Int) :
    (positional digits point).isPlain = true := by
  have hzero : ∀ n, isPlain (List.replicate n (CodePoint.ofChar '0')) = true :=
    isPlain_replicate (by decide)
  unfold positional
  dsimp only
  split
  · rw [isPlain_cons, isPlain_cons, isPlain_append, hzero, h]
    decide
  · split
    · rw [isPlain_append, isPlain_append, hzero, h]
      decide
    · rw [isPlain_append, isPlain_append, isPlain_take h, isPlain_drop h]
      decide

theorem isPlain_scientific {digits : Text} (h : digits.isPlain = true) (power : Int) :
    (scientific digits power).isPlain = true := by
  have hsign : CodePoint.isPlain (if power < 0 then '-' else '+') = true := by
    split <;> decide
  have hfraction :
      isPlain (if digits.length ≤ 1 then [] else CodePoint.ofChar '.' :: digits.drop 1) = true := by
    split
    · rfl
    · rw [isPlain_cons, isPlain_drop h]
      decide
  unfold scientific
  dsimp only
  rw [isPlain_append, isPlain_append, isPlain_take h, hfraction, isPlain_cons, isPlain_cons,
    hsign, isPlain_padded]
  decide

theorem isPlain_magnitudeText (rank : Fin infiniteRank) : (magnitudeText rank).isPlain = true := by
  unfold magnitudeText
  dsimp only
  split
  · exact isPlain_positional (isPlain_ofNat _) _
  · exact isPlain_scientific (isPlain_ofNat _) _

theorem isPlain_toText {names : SpecialNames} (hnan : names.nan.isPlain = true)
    (hinfinity : names.infinity.isPlain = true) (d : Double) :
    (d.toText names).isPlain = true := by
  have hminus : (CodePoint.ofChar '-').isPlain = true := by decide
  unfold toText
  split
  · exact hnan
  · exact hinfinity
  · rw [isPlain_cons, hminus, hinfinity]
    rfl
  · exact isPlain_magnitudeText _
  · rw [isPlain_cons, hminus, isPlain_magnitudeText]
    rfl

end Double

namespace Json

open Text

/-! ## Texts -/

theorem isPlain_hexDigit {n : Nat} (h : n < 16) : (hexDigit n).isPlain = true := by
  unfold hexDigit
  split
  · have hlt : 0x30 + n < 0x110000 := by omega
    simp only [CodePoint.isPlain_iff, CodePoint.ofNat, hlt, dite_true]
    omega
  · have hlt : 0x57 + n < 0x110000 := by omega
    simp only [CodePoint.isPlain_iff, CodePoint.ofNat, hlt, dite_true]
    omega

theorem isPlain_unitEscape (n : Nat) : (unitEscape n).isPlain = true := by
  have hdigit : ∀ m, (hexDigit (m % 16)).isPlain = true := fun m =>
    isPlain_hexDigit (Nat.mod_lt m (by omega))
  unfold unitEscape
  simp only [isPlain_cons, isPlain_nil, hdigit]
  decide

theorem isPlain_of_shortEscape? {c letter : CodePoint} (h : shortEscape? c = some letter) :
    letter.isPlain = true := by
  unfold shortEscape? at h
  repeat
    split at h
    · cases h
      decide
  cases h

theorem isPlain_escaped (c : CodePoint) : (escaped c).isPlain = true := by
  unfold escaped
  split
  · rename_i letter hletter
    rw [isPlain_cons, isPlain_cons, isPlain_of_shortEscape? hletter]
    decide
  · split
    · rename_i hplain
      rw [isPlain_cons, isPlain_nil, Bool.and_true]
      exact CodePoint.isPlain_iff.2 hplain
    · split
      · exact isPlain_unitEscape _
      · dsimp only
        rw [isPlain_append, isPlain_unitEscape, isPlain_unitEscape]
        rfl

theorem isPlain_quoted (t : Text) : (quoted t).isPlain = true := by
  have hbody : isPlain (t.flatMap escaped) = true := by
    rw [isPlain_iff]
    intro c hc
    obtain ⟨d, -, hd⟩ := List.mem_flatMap.1 hc
    exact isPlain_iff.1 (isPlain_escaped d) c hd
  unfold quoted
  rw [isPlain_cons, isPlain_append, hbody]
  decide

/-! ## Values -/

mutual

/-- **What is written is printable ASCII.** -/
theorem isPlain_write : ∀ value : Json, value.write.isPlain = true
  | .null => by decide
  | .bool true => by decide
  | .bool false => by decide
  | .int value => by
    rw [write]
    exact isPlain_ofInt value
  | .float value => by
    rw [write]
    exact Double.isPlain_toText (by decide) (by decide) value
  | .str value => by
    rw [write]
    exact isPlain_quoted value
  | .arr items => by
    rw [write, isPlain_cons, isPlain_writeItems items]
    decide
  | .obj fields => by
    rw [write, isPlain_cons, isPlain_writeFields fields]
    decide

theorem isPlain_writeItems : ∀ items : List Json, (writeItems items).isPlain = true
  | [] => by decide
  | [item] => by
    rw [writeItems, isPlain_append, isPlain_write item]
    decide
  | item :: next :: rest => by
    rw [writeItems, isPlain_append, isPlain_append, isPlain_write item,
      isPlain_writeItems (next :: rest)]
    · decide
    · simp

theorem isPlain_writeFields : ∀ fields : List (Text × Json), (writeFields fields).isPlain = true
  | [] => by decide
  | [(key, value)] => by
    rw [writeFields, isPlain_append, isPlain_append, isPlain_append, isPlain_quoted,
      isPlain_write value]
    decide
  | (key, value) :: next :: rest => by
    rw [writeFields, isPlain_append, isPlain_append, isPlain_append, isPlain_append,
      isPlain_quoted, isPlain_write value, isPlain_writeFields (next :: rest)]
    · decide
    · simp

end

end Json

end OutlineServer
