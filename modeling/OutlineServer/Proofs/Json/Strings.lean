import Mathlib.Data.List.Chain
import OutlineServer.Json.Reader
import OutlineServer.Json.Writer

/-!
# Written strings are read back

A text is a list of code points and may hold surrogates.  A high surrogate directly before a low one
is written as two escapes, like the code point that the two stand for together, and is read as that
code point: reading joins them (`Text.joined`), and nothing else of a text changes
(`readString_quoted`).  A text in which no such two are neighbours reads back as it is; every text of
Unicode characters is one, and a text with lone surrogates may be.
-/
namespace OutlineServer

/-! ## Surrogates -/

namespace CodePoint

theorem isHighSurrogate_iff {c : CodePoint} :
    c.isHighSurrogate = true ↔ 0xD800 ≤ c.val ∧ c.val < 0xDC00 := by
  simp [isHighSurrogate]

theorem isLowSurrogate_iff {c : CodePoint} :
    c.isLowSurrogate = true ↔ 0xDC00 ≤ c.val ∧ c.val < 0xE000 := by
  simp [isLowSurrogate]

theorem not_low_of_high {c : CodePoint} (h : c.isHighSurrogate = true) :
    c.isLowSurrogate = false := by
  rw [isHighSurrogate_iff] at h
  rw [Bool.eq_false_iff, Ne, isLowSurrogate_iff]
  omega

theorem not_high_of_low {c : CodePoint} (h : c.isLowSurrogate = true) :
    c.isHighSurrogate = false := by
  rw [Bool.eq_false_iff]
  intro hhigh
  rw [not_low_of_high hhigh] at h
  cases h

theorem val_ofNat {n : Nat} (h : n < 0x110000) : (ofNat n).val = n := by
  unfold ofNat
  rw [dif_pos h]

theorem ofNat_val (c : CodePoint) : ofNat c.val = c := ext_val (val_ofNat c.isLt)

end CodePoint

namespace Text

/-- The text with each high surrogate that stands directly before a low one joined with it. -/
def joined : Text → Text
  | high :: low :: rest =>
    if high.isHighSurrogate ∧ low.isLowSurrogate then
      Json.joinSurrogates high.val low.val :: joined rest
    else high :: joined (low :: rest)
  | t => t

def IsJoined (t : Text) : Prop :=
  t.IsChain (fun a b => ¬ (a.isHighSurrogate = true ∧ b.isLowSurrogate = true))

theorem joined_cons {c : CodePoint} (hc : c.isHighSurrogate = false) (t : Text) :
    joined (c :: t) = c :: joined t := by
  cases t with
  | nil => rfl
  | cons d t =>
    rw [joined, if_neg]
    rintro ⟨h, -⟩
    rw [hc] at h
    cases h

theorem joined_append_cons (waiting : Option CodePoint) {c : CodePoint}
    (hc : c.isLowSurrogate = false) (t : Text) :
    joined (waiting.toList ++ c :: t) = waiting.toList ++ joined (c :: t) := by
  cases waiting with
  | none => rfl
  | some high =>
    show joined (high :: c :: t) = high :: joined (c :: t)
    rw [joined, if_neg]
    rintro ⟨-, h⟩
    rw [hc] at h
    cases h

theorem joined_of_isJoined : ∀ {t : Text}, t.IsJoined → t.joined = t
  | [], _ => rfl
  | [_], _ => rfl
  | high :: low :: rest, h => by
    have h : List.IsChain _ (high :: low :: rest) := h
    rw [List.isChain_cons_cons] at h
    rw [joined, if_neg h.1, joined_of_isJoined h.2]

end Text

namespace Json

open Text

/-! ## One step of reading -/

theorem readString_quote (high : Option Nat) (done rest : Text) :
    readString high done (CodePoint.quote :: rest) = some ((settle high done).reverse, rest) := by
  rw [readString.eq_def]
  exact if_pos rfl

theorem readString_plain (high : Option Nat) (done : Text) {c : CodePoint} (rest : Text)
    (hquote : c ≠ CodePoint.quote) (hbackslash : c ≠ CodePoint.backslash) (hc : 0x20 ≤ c.val) :
    readString high done (c :: rest) = readString none (c :: settle high done) rest := by
  rw [readString.eq_def]
  dsimp only
  rw [if_neg hquote, if_neg hbackslash, if_neg (Nat.not_lt.2 hc)]

theorem readString_short (high : Option Nat) (done : Text) {letter c : CodePoint} (rest : Text)
    (hu : letter ≠ 'u') (hc : unescape? letter = some c) :
    readString high done (CodePoint.backslash :: letter :: rest)
      = readString none (c :: settle high done) rest := by
  rw [readString.eq_def]
  dsimp only
  rw [if_neg (by decide), if_pos rfl, if_neg hu, hc]

theorem hexDigit?_hexDigit : ∀ d < 16, CodePoint.hexDigit? (hexDigit d) = some d := by decide

theorem unit?_unitEscape {n : Nat} (h : n < 0x10000) :
    unit? (hexDigit (n / 0x1000 % 16)) (hexDigit (n / 0x100 % 16)) (hexDigit (n / 0x10 % 16))
      (hexDigit (n % 16)) = some n := by
  have hdigit : ∀ m, CodePoint.hexDigit? (hexDigit (m % 16)) = some (m % 16) := fun m =>
    hexDigit?_hexDigit _ (Nat.mod_lt _ (by omega))
  have hvalue : 16 * (16 * (16 * (n / 0x1000 % 16) + n / 0x100 % 16) + n / 0x10 % 16) + n % 16
      = n := by omega
  simp only [unit?, numeral?, List.isEmpty_cons, List.foldlM_cons, List.foldlM_nil, hdigit,
    Option.map_some, Option.bind_eq_bind, Option.bind_some, Option.pure_def, Nat.mul_zero,
    Nat.zero_add, hvalue]
  rfl

/-- What an escaped unit does to what was read before it. -/
theorem readString_unit (high : Option Nat) (done : Text) {n : Nat} (h : n < 0x10000)
    (rest : Text) :
    readString high done (unitEscape n ++ rest) =
      if (CodePoint.ofNat n).isHighSurrogate then readString (some n) (settle high done) rest
      else if (CodePoint.ofNat n).isLowSurrogate then
        match high with
        | some lead => readString none (joinSurrogates lead n :: done) rest
        | none => readString none (CodePoint.ofNat n :: done) rest
      else readString none (CodePoint.ofNat n :: settle high done) rest := by
  unfold unitEscape
  rw [readString.eq_def]
  dsimp only [List.cons_append, List.nil_append]
  rw [if_neg (by decide), if_pos rfl, if_pos rfl]
  have hunit := unit?_unitEscape h
  split
  · rename_i hnone
    rw [hunit] at hnone
    cases hnone
  · rename_i hsome
    rw [hunit] at hsome
    cases hsome
    rfl

/-! ## One code point -/

theorem unescape?_of_shortEscape? {c letter : CodePoint} (h : shortEscape? c = some letter) :
    letter ≠ 'u' ∧ unescape? letter = some c ∧ c.isHighSurrogate = false
      ∧ c.isLowSurrogate = false := by
  have hval : ∀ n, c.val = n → c = CodePoint.ofNat n := fun n hn => by rw [← hn, CodePoint.ofNat_val]
  unfold shortEscape? at h
  repeat
    split at h
    · rename_i hc
      cases h
      first
      | rw [hc]
        decide
      | rw [hval _ hc]
        decide
  cases h

theorem ne_of_shortEscape?_eq_none {c : CodePoint} (h : shortEscape? c = none) :
    c ≠ CodePoint.quote ∧ c ≠ CodePoint.backslash := by
  unfold shortEscape? at h
  split at h
  · cases h
  · rename_i hquote
    split at h
    · cases h
    · rename_i hbackslash
      exact ⟨hquote, hbackslash⟩

theorem joinSurrogates_of_ge {c : CodePoint} (h : 0x10000 ≤ c.val) :
    joinSurrogates (0xD800 + (c.val - 0x10000) / 0x400) (0xDC00 + (c.val - 0x10000) % 0x400)
      = c := by
  have hlt := c.isLt
  have hsum : 0x10000 + (0xD800 + (c.val - 0x10000) / 0x400 - 0xD800) * 0x400
      + (0xDC00 + (c.val - 0x10000) % 0x400 - 0xDC00) = c.val := by omega
  unfold joinSurrogates
  rw [hsum, CodePoint.ofNat_val]

theorem readString_escaped (high : Option Nat) (done : Text) {c : CodePoint} (rest : Text)
    (hhigh : c.isHighSurrogate = false) (hlow : c.isLowSurrogate = false) :
    readString high done (escaped c ++ rest) = readString none (c :: settle high done) rest := by
  unfold escaped
  split
  · rename_i letter hletter
    obtain ⟨hu, hc, -, -⟩ := unescape?_of_shortEscape? hletter
    exact readString_short high done rest hu hc
  · rename_i hnone
    obtain ⟨hquote, hbackslash⟩ := ne_of_shortEscape?_eq_none hnone
    split
    · rename_i hplain
      exact readString_plain high done rest hquote hbackslash hplain.1
    · split
      · rename_i hunit
        rw [readString_unit high done hunit, CodePoint.ofNat_val, hhigh, hlow]
        rfl
      · -- two units, the first of which waits for the second
        rename_i hunit
        have hge : 0x10000 ≤ c.val := Nat.not_lt.1 hunit
        have hlt := c.isLt
        dsimp only
        generalize hfirst : 0xD800 + (c.val - 0x10000) / 0x400 = first
        generalize hsecond : 0xDC00 + (c.val - 0x10000) % 0x400 = second
        have hjoin : joinSurrogates first second = c := by
          rw [← hfirst, ← hsecond, joinSurrogates_of_ge hge]
        have hfirst' : (CodePoint.ofNat first).isHighSurrogate = true := by
          rw [CodePoint.isHighSurrogate_iff, CodePoint.val_ofNat (by omega)]
          omega
        have hsecond' : (CodePoint.ofNat second).isLowSurrogate = true := by
          rw [CodePoint.isLowSurrogate_iff, CodePoint.val_ofNat (by omega)]
          omega
        rw [List.append_assoc, readString_unit _ _ (by omega), if_pos hfirst',
          readString_unit _ _ (by omega), CodePoint.not_high_of_low hsecond', hsecond']
        simp only [Bool.false_eq_true, if_false, if_true, hjoin]

theorem escaped_of_surrogate {c : CodePoint}
    (h : c.isHighSurrogate = true ∨ c.isLowSurrogate = true) :
    c.val < 0x10000 ∧ escaped c = unitEscape c.val := by
  rw [CodePoint.isHighSurrogate_iff, CodePoint.isLowSurrogate_iff] at h
  have hlt : c.val < 0x10000 := by omega
  refine ⟨hlt, ?_⟩
  unfold escaped
  split
  · rename_i letter hletter
    obtain ⟨-, -, hhigh, hlow⟩ := unescape?_of_shortEscape? hletter
    rw [Bool.eq_false_iff, Ne, CodePoint.isHighSurrogate_iff] at hhigh
    rw [Bool.eq_false_iff, Ne, CodePoint.isLowSurrogate_iff] at hlow
    omega
  · rw [if_neg (by omega), if_pos hlt]

/-! ## Texts -/

/-- **A written text is read as itself, its surrogates joined.**  The reader may have a high
surrogate waiting, and then it stands before the text. -/
theorem readString_flatMap : ∀ (t : Text) (waiting : Option CodePoint) (done rest : Text),
    (∀ high ∈ waiting, high.isHighSurrogate = true) →
    readString (waiting.map CodePoint.val) done (t.flatMap escaped ++ CodePoint.quote :: rest)
      = some (done.reverse ++ joined (waiting.toList ++ t), rest)
  | [], waiting, done, rest, _ => by
    rw [List.flatMap_nil, List.nil_append, readString_quote]
    cases waiting with
    | none => simp [settle, joined]
    | some high => simp [settle, joined, CodePoint.ofNat_val]
  | c :: t, waiting, done, rest, hwaiting => by
    have hsettle : (settle (waiting.map CodePoint.val) done).reverse
        = done.reverse ++ waiting.toList := by
      cases waiting with
      | none => simp [settle]
      | some high => simp [settle, CodePoint.ofNat_val]
    rw [List.flatMap_cons, List.append_assoc]
    cases hhigh : c.isHighSurrogate with
    | true =>
      have hlow := CodePoint.not_low_of_high hhigh
      obtain ⟨hlt, hescaped⟩ := escaped_of_surrogate (.inl hhigh)
      have hnext := readString_flatMap t (some c) (settle (waiting.map CodePoint.val) done) rest
        (by rintro _ ⟨⟩; exact hhigh)
      rw [hescaped, readString_unit _ _ hlt, CodePoint.ofNat_val, if_pos hhigh,
        joined_append_cons waiting hlow]
      rw [hsettle, List.append_assoc] at hnext
      exact hnext
    | false =>
      cases hlow : c.isLowSurrogate with
      | false =>
        have hnext := readString_flatMap t none (c :: settle (waiting.map CodePoint.val) done) rest
          (by rintro _ ⟨⟩)
        rw [readString_escaped _ _ _ hhigh hlow, joined_append_cons waiting hlow,
          joined_cons hhigh]
        rw [List.reverse_cons, hsettle, List.append_assoc, List.append_assoc] at hnext
        exact hnext
      | true =>
        obtain ⟨hlt, hescaped⟩ := escaped_of_surrogate (.inr hlow)
        rw [hescaped, readString_unit _ _ hlt, CodePoint.ofNat_val, if_neg (by simp [hhigh]),
          if_pos hlow]
        cases waiting with
        | none =>
          have hnext := readString_flatMap t none (c :: done) rest (by rintro _ ⟨⟩)
          rw [List.reverse_cons, List.append_assoc] at hnext
          rw [Option.toList_none, List.nil_append, joined_cons hhigh]
          exact hnext
        | some high =>
          have hnext := readString_flatMap t none (joinSurrogates high.val c.val :: done) rest
            (by rintro _ ⟨⟩)
          have hjoined : joined (high :: c :: t) = joinSurrogates high.val c.val :: joined t := by
            rw [joined, if_pos ⟨hwaiting high rfl, hlow⟩]
          rw [List.reverse_cons, List.append_assoc] at hnext
          rw [Option.toList_some, List.singleton_append, hjoined]
          exact hnext

theorem readString_quoted (t rest : Text) :
    readString none [] (t.flatMap escaped ++ [CodePoint.quote] ++ rest)
      = some (t.joined, rest) := by
  rw [List.append_assoc]
  exact readString_flatMap t none [] rest (by rintro _ ⟨⟩)

end Json

end OutlineServer
