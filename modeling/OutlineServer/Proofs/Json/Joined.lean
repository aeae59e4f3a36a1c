import OutlineServer.Proofs.Json.Printable
import OutlineServer.Proofs.Json.ReadBack

/-!
# Values without split pairs

A value is joined when no high surrogate stands directly before a low one in its texts and keys.  Such
a value, its objects in canonical form, reads back as itself.

Every value that is read from characters is joined (`isJoined_read?`): a surrogate can come from an
escape only, and the reader holds a high one back until it knows that no low one follows
(`Underway`).
-/
namespace OutlineServer

namespace Text

theorem isJoined_of_no_low {t : Text} (h : ∀ c ∈ t, c.isLowSurrogate = false) : t.IsJoined := by
  induction t with
  | nil => exact List.isChain_nil
  | cons c t ih =>
    refine List.isChain_cons.2 ⟨?_, ih (fun d hd => h d (List.mem_cons_of_mem _ hd))⟩
    rintro d hd ⟨-, hlow⟩
    rw [h d (List.mem_cons_of_mem _ (List.mem_of_mem_head? hd))] at hlow
    cases hlow

theorem not_low_of_isPlain {t : Text} (h : t.isPlain = true) :
    ∀ c ∈ t, c.isLowSurrogate = false := by
  intro c hc
  have hplain := CodePoint.isPlain_iff.1 (isPlain_iff.1 h c hc)
  rw [Bool.eq_false_iff, Ne, CodePoint.isLowSurrogate_iff]
  omega

theorem isJoined_of_isPlain {t : Text} (h : t.isPlain = true) : t.IsJoined :=
  isJoined_of_no_low (not_low_of_isPlain h)

theorem isJoined_append {t u : Text} (ht : t.IsJoined) (hu : ∀ c ∈ u, c.isLowSurrogate = false) :
    (t ++ u).IsJoined := by
  refine List.isChain_append.2 ⟨ht, isJoined_of_no_low hu, ?_⟩
  rintro a - b hb ⟨-, hlow⟩
  rw [hu b (List.mem_of_mem_head? hb)] at hlow
  cases hlow

theorem isJoined_reverse_cons {c : CodePoint} {done : Text} : IsJoined (c :: done).reverse ↔
    IsJoined done.reverse
      ∧ ∀ d ∈ done.head?, ¬ (d.isHighSurrogate = true ∧ c.isLowSurrogate = true) := by
  rw [List.reverse_cons]
  unfold IsJoined
  rw [List.isChain_append, List.getLast?_reverse]
  simp

theorem isEncodable_iff {t : Text} : t.isEncodable = true ↔
    ∀ c ∈ t, c.isHighSurrogate = false ∧ c.isLowSurrogate = false := by
  simp [isEncodable, CodePoint.isSurrogate]

theorem isEncodable_of_isPlain {t : Text} (h : t.isPlain = true) : t.isEncodable = true := by
  refine isEncodable_iff.2 (fun c hc => ⟨?_, not_low_of_isPlain h c hc⟩)
  have hplain := CodePoint.isPlain_iff.1 (isPlain_iff.1 h c hc)
  rw [Bool.eq_false_iff, Ne, CodePoint.isHighSurrogate_iff]
  omega

theorem isEncodable_append {t u : Text} :
    (t ++ u).isEncodable = true ↔ t.isEncodable = true ∧ u.isEncodable = true := by
  simp only [isEncodable_iff, List.forall_mem_append]

theorem isEncodable_of_suffix {t u : Text} (h : t.isEncodable = true) (hsuffix : u <:+ t) :
    u.isEncodable = true :=
  isEncodable_iff.2 (fun c hc => isEncodable_iff.1 h c (hsuffix.mem hc))

end Text

namespace Json

open Text

/-- No text and no key of the value has a high surrogate directly before a low one. -/
inductive IsJoined : Json → Prop
  | null : IsJoined .null
  | bool (value : Bool) : IsJoined (.bool value)
  | int (value : Int) : IsJoined (.int value)
  | float (value : Double) : IsJoined (.float value)
  | str {value : Text} : value.IsJoined → IsJoined (.str value)
  | arr {items : List Json} : (∀ item ∈ items, IsJoined item) → IsJoined (.arr items)
  | obj {fields : List (Text × Json)} : (∀ field ∈ fields, field.1.IsJoined) →
    (∀ field ∈ fields, IsJoined field.2) → IsJoined (.obj fields)

/-! ## Strings -/

/-- How a string stands that is being read: what was read is joined, and its last code point may be
a high surrogate only while another one waits. -/
structure Underway (high : Option Nat) (done : Text) : Prop where
  joined : Text.IsJoined done.reverse
  waiting : ∀ unit ∈ high, (CodePoint.ofNat unit).isHighSurrogate = true
  last : high = none → ∀ c ∈ done.head?, c.isHighSurrogate = false

namespace Underway

variable {high : Option Nat} {done : Text}

theorem settled (h : Underway high done) : Text.IsJoined (settle high done).reverse := by
  cases high with
  | none => exact h.joined
  | some unit =>
    refine isJoined_reverse_cons.2 ⟨h.joined, ?_⟩
    rintro d - ⟨-, hlow⟩
    rw [CodePoint.not_low_of_high (h.waiting unit rfl)] at hlow
    cases hlow

theorem push (h : Underway high done) {c : CodePoint} (hhigh : c.isHighSurrogate = false)
    (hlow : c.isLowSurrogate = false) : Underway none (c :: settle high done) where
  joined := by
    refine isJoined_reverse_cons.2 ⟨h.settled, ?_⟩
    rintro d - ⟨-, h⟩
    rw [hlow] at h
    cases h
  waiting := by rintro _ ⟨⟩
  last := by
    rintro - _ ⟨⟩
    exact hhigh

theorem wait (h : Underway high done) {unit : Nat}
    (hhigh : (CodePoint.ofNat unit).isHighSurrogate = true) :
    Underway (some unit) (settle high done) where
  joined := h.settled
  waiting := by
    rintro _ ⟨⟩
    exact hhigh
  last := by rintro ⟨⟩

theorem push_low (h : Underway none done) {c : CodePoint} (hlow : c.isLowSurrogate = true) :
    Underway none (c :: done) where
  joined := by
    refine isJoined_reverse_cons.2 ⟨h.joined, ?_⟩
    rintro d hd ⟨hhigh, -⟩
    rw [h.last rfl d hd] at hhigh
    cases hhigh
  waiting := by rintro _ ⟨⟩
  last := by
    rintro - _ ⟨⟩
    exact CodePoint.not_high_of_low hlow

theorem join {lead unit : Nat} (h : Underway (some lead) done)
    (hlow : (CodePoint.ofNat unit).isLowSurrogate = true) :
    Underway none (joinSurrogates lead unit :: done) := by
  have hlead := CodePoint.isHighSurrogate_iff.1 (h.waiting lead rfl)
  have hunit := CodePoint.isLowSurrogate_iff.1 hlow
  have hval : ∀ n, (CodePoint.ofNat n).val = n ∨ (CodePoint.ofNat n).val = 0xFFFD := by
    intro n
    unfold CodePoint.ofNat
    split
    · exact .inl rfl
    · exact .inr rfl
  have hjoined : 0x10000 ≤ (joinSurrogates lead unit).val := by
    have hlead' := (hval lead).resolve_right (by omega)
    have hunit' := (hval unit).resolve_right (by omega)
    unfold joinSurrogates
    rw [CodePoint.val_ofNat (by omega)]
    omega
  have hhigh : (joinSurrogates lead unit).isHighSurrogate = false := by
    rw [Bool.eq_false_iff, Ne, CodePoint.isHighSurrogate_iff]
    omega
  have hlow : (joinSurrogates lead unit).isLowSurrogate = false := by
    rw [Bool.eq_false_iff, Ne, CodePoint.isLowSurrogate_iff]
    omega
  generalize joinSurrogates lead unit = c at hhigh hlow
  refine ⟨isJoined_reverse_cons.2 ⟨h.joined, ?_⟩, by rintro _ ⟨⟩, ?_⟩
  · rintro d - ⟨-, h⟩
    rw [hlow] at h
    cases h
  · rintro - _ ⟨⟩
    exact hhigh

end Underway

theorem unescape?_character {letter c : CodePoint} (h : unescape? letter = some c) :
    c.isHighSurrogate = false ∧ c.isLowSurrogate = false := by
  unfold unescape? at h
  repeat
    split at h
    · cases h
      decide
  cases h

theorem suffix_escape (a b c d : CodePoint) (rest : Text) :
    rest <:+ CodePoint.backslash :: CodePoint.ofChar 'u' :: a :: b :: c :: d :: rest :=
  ⟨[_, _, _, _, _, _], rfl⟩

/-- **A string read from characters is joined.** -/
theorem readString_joined {high : Option Nat} {done t s rest : Text} (ht : t.isEncodable = true)
    (hunder : Underway high done) (h : readString high done t = some (s, rest)) :
    s.IsJoined ∧ rest <:+ t := by
  -- what has been read stays `Underway`, however the next piece is spelled
  fun_induction readString high done t with
  | case1 => cases h
  | case2 =>
    cases h
    exact ⟨hunder.settled, List.suffix_cons _ _⟩
  | case3 => cases h
  | case4 => cases h
  | case5 high done a b c d rest unit hunit hhigh _ ih =>
    have hsub := suffix_escape a b c d rest
    obtain ⟨hs, hrest⟩ := ih (isEncodable_of_suffix ht hsub) (hunder.wait hhigh) h
    exact ⟨hs, hrest.trans hsub⟩
  | case6 done a b c d rest unit hunit hhigh hlow lead _ ih =>
    have hsub := suffix_escape a b c d rest
    obtain ⟨hs, hrest⟩ := ih (isEncodable_of_suffix ht hsub) (hunder.join hlow) h
    exact ⟨hs, hrest.trans hsub⟩
  | case7 done a b c d rest unit hunit hhigh hlow _ ih =>
    have hsub := suffix_escape a b c d rest
    obtain ⟨hs, hrest⟩ := ih (isEncodable_of_suffix ht hsub) (hunder.push_low hlow) h
    exact ⟨hs, hrest.trans hsub⟩
  | case8 high done a b c d rest unit hunit hhigh hlow _ ih =>
    have hsub := suffix_escape a b c d rest
    obtain ⟨hs, hrest⟩ := ih (isEncodable_of_suffix ht hsub)
      (hunder.push (Bool.eq_false_iff.2 hhigh) (Bool.eq_false_iff.2 hlow)) h
    exact ⟨hs, hrest.trans hsub⟩
  | case9 => cases h
  | case10 => cases h
  | case11 high done letter rest _ c hc _ ih =>
    have hsub : rest <:+ CodePoint.backslash :: letter :: rest := ⟨[_, _], rfl⟩
    obtain ⟨hhigh, hlow⟩ := unescape?_character hc
    obtain ⟨hs, hrest⟩ := ih (isEncodable_of_suffix ht hsub) (hunder.push hhigh hlow) h
    exact ⟨hs, hrest.trans hsub⟩
  | case12 => cases h
  | case13 high done c rest _ _ _ ih =>
    obtain ⟨hhigh, hlow⟩ := isEncodable_iff.1 ht c List.mem_cons_self
    have hsub := List.suffix_cons c rest
    obtain ⟨hs, hrest⟩ := ih (isEncodable_of_suffix ht hsub) (hunder.push hhigh hlow) h
    exact ⟨hs, hrest.trans hsub⟩

theorem underway_nil : Underway none [] :=
  ⟨List.isChain_nil, by rintro _ ⟨⟩, by rintro - _ ⟨⟩⟩

/-! ## Numbers and names -/

theorem suffix_of_after? {t lead rest : Text} (h : t.after? lead = some rest) : rest <:+ t := by
  rw [after?_eq_some.1 h]
  exact List.suffix_append _ _

theorem suffix_of_readFraction {t rest : Text} {fraction : Option Text}
    (h : readFraction t = some (fraction, rest)) : rest <:+ t := by
  unfold readFraction at h
  dsimp only at h
  split at h
  · rename_i c after
    split at h
    · split at h
      · cases h
      · cases h
        exact (List.dropWhile_suffix _).trans (List.suffix_cons _ _)
    · cases h
      exact List.suffix_refl _
  · cases h
    exact List.suffix_refl _

theorem suffix_of_readExponent {t rest : Text} {exponent : Option Int}
    (h : readExponent t = some (exponent, rest)) : rest <:+ t := by
  unfold readExponent at h
  split at h
  · rename_i c after
    have hdigits : ∀ {power : Option Int} {digits : Text}, digits <:+ after →
        (if (digits.takeWhile CodePoint.isDigit).isEmpty then none
          else some (power, digits.dropWhile CodePoint.isDigit)) = some (exponent, rest) →
        rest <:+ c :: after := by
      intro power digits hsuffix h
      split at h
      · cases h
      · cases h
        exact (List.dropWhile_suffix _).trans (hsuffix.trans (List.suffix_cons _ _))
    split at h
    · dsimp only at h
      split at h
      · split at h
        · exact hdigits (List.suffix_cons _ _) h
        · split at h
          · exact hdigits (List.suffix_cons _ _) h
          · exact hdigits (List.suffix_refl _) h
      · exact hdigits (List.suffix_refl _) h
    · cases h
      exact List.suffix_refl _
  · cases h
    exact List.suffix_refl _

theorem isJoined_number (negative : Bool) (whole : Text) (fraction : Option Text)
    (exponent : Option Int) : (number negative whole fraction exponent).IsJoined := by
  unfold number
  split
  · exact .int _
  · exact .float _

theorem readNumber_joined {negative : Bool} {t rest : Text} {value : Json}
    (h : readNumber negative t = some (value, rest)) : value.IsJoined ∧ rest <:+ t := by
  unfold readNumber at h
  dsimp only at h
  split at h
  · cases h
  · obtain ⟨⟨fraction, t'⟩, hfraction, h⟩ := Option.bind_eq_some_iff.1 h
    obtain ⟨⟨exponent, t''⟩, hexponent, h⟩ := Option.bind_eq_some_iff.1 h
    cases h
    exact ⟨isJoined_number _ _ _ _, (suffix_of_readExponent hexponent).trans
      ((suffix_of_readFraction hfraction).trans (List.dropWhile_suffix _))⟩

theorem readScalar_joined {t rest : Text} {value : Json}
    (h : readScalar t = some (value, rest)) : value.IsJoined ∧ rest <:+ t := by
  have hname : ∀ {lead : Text} {name : Json}, name.IsJoined →
      (t.after? lead).map (name, ·) = some (value, rest) → value.IsJoined ∧ rest <:+ t := by
    intro lead name hjoined h
    obtain ⟨rest, hrest, h⟩ := Option.map_eq_some_iff.1 h
    cases h
    exact ⟨hjoined, suffix_of_after? hrest⟩
  unfold readScalar at h
  simp only [Option.orElse_eq_orElse, Option.orElse_eq_or, Option.or_eq_some_iff] at h
  rcases h with h | ⟨-, h | ⟨-, h | ⟨-, h | ⟨-, h | ⟨-, h | ⟨-, h⟩⟩⟩⟩⟩⟩
  · exact hname .null h
  · exact hname (.bool true) h
  · exact hname (.bool false) h
  · exact hname (.float _) h
  · exact hname (.float _) h
  · exact hname (.float _) h
  · split at h
    · rename_i unsigned hunsigned
      obtain ⟨hvalue, hrest⟩ := readNumber_joined h
      exact ⟨hvalue, hrest.trans (suffix_of_after? hunsigned)⟩
    · exact readNumber_joined h

/-! ## Values -/

theorem suffix_skipSpace (t : Text) : skipSpace t <:+ t := List.dropWhile_suffix _

def FieldsJoined (fields : Fields) : Prop :=
  ∀ field ∈ fields, field.1.IsJoined ∧ field.2.IsJoined

theorem FieldsJoined.insert {fields : Fields} (h : FieldsJoined fields) {key : Text} {value : Json}
    (hkey : key.IsJoined) (hvalue : value.IsJoined) :
    FieldsJoined (Keyed.insert key value fields) := by
  intro field hfield
  rcases Keyed.mem_insert hfield with rfl | hfield
  · exact ⟨hkey, hvalue⟩
  · exact h field hfield

theorem FieldsJoined.obj {fields : Fields} (h : FieldsJoined fields) : IsJoined (.obj fields) :=
  .obj (fun field hfield => (h field hfield).1) (fun field hfield => (h field hfield).2)

/-- What the reader takes from a text of characters is joined, and what it leaves is the end of the
text. -/
def ReadsJoined (read : Text → Option (Json × Text)) : Prop :=
  ∀ {t rest : Text} {value : Json}, t.isEncodable = true → read t = some (value, rest) →
    value.IsJoined ∧ rest <:+ t

theorem readValue_joined {fuel : Nat} (hitems : ReadsJoined (readItems fuel []))
    (hfields : ReadsJoined (readFields fuel [])) : ReadsJoined (readValue (fuel + 1)) := by
  intro t rest value ht h
  cases t with
  | nil =>
    rw [readValue] at h
    · cases h
    · simp
  | cons c t =>
    have hcons : ∀ {u : Text}, u <:+ t → u <:+ c :: t := fun h => h.trans (List.suffix_cons _ _)
    have ht' := isEncodable_of_suffix ht (List.suffix_cons c t)
    have hskip := isEncodable_of_suffix ht' (suffix_skipSpace t)
    rw [readValue] at h
    split at h
    · obtain ⟨⟨s, rest⟩, hs, h⟩ := Option.map_eq_some_iff.1 h
      cases h
      obtain ⟨hjoined, hrest⟩ := readString_joined ht' underway_nil hs
      exact ⟨.str hjoined, hcons hrest⟩
    split at h
    · split at h
      · rename_i after hafter
        cases h
        exact ⟨.arr (by simp), hcons ((suffix_of_after? hafter).trans (suffix_skipSpace t))⟩
      · obtain ⟨hjoined, hrest⟩ := hitems hskip h
        exact ⟨hjoined, hcons (hrest.trans (suffix_skipSpace t))⟩
    split at h
    · split at h
      · rename_i after hafter
        cases h
        exact ⟨.obj (by simp) (by simp),
          hcons ((suffix_of_after? hafter).trans (suffix_skipSpace t))⟩
      · obtain ⟨hjoined, hrest⟩ := hfields hskip h
        exact ⟨hjoined, hcons (hrest.trans (suffix_skipSpace t))⟩
    · exact readScalar_joined h

theorem readItems_joined {fuel : Nat} (hvalue : ReadsJoined (readValue fuel))
    (hitems : ∀ {done : List Json}, (∀ item ∈ done, item.IsJoined) →
      ReadsJoined (readItems fuel done))
    {done : List Json} (hdone : ∀ item ∈ done, item.IsJoined) :
    ReadsJoined (readItems (fuel + 1) done) := by
  intro t rest value ht h
  rw [readItems] at h
  split at h
  · cases h
  · rename_i item after hitem
    obtain ⟨hjoined, hafter⟩ := hvalue ht hitem
    have hdone' : ∀ other ∈ item :: done, other.IsJoined := List.forall_mem_cons.2 ⟨hjoined, hdone⟩
    split at h
    · cases h
    · rename_i c after' hskip
      have hafter' : after' <:+ t :=
        (List.suffix_cons c after').trans (hskip ▸ (suffix_skipSpace after).trans hafter)
      split at h
      · cases h
        refine ⟨.arr ?_, hafter'⟩
        intro other hother
        exact hdone' other (List.mem_reverse.1 hother)
      · split at h
        · have hnext := (suffix_skipSpace after').trans hafter'
          obtain ⟨hjoined, hrest⟩ := hitems hdone' (isEncodable_of_suffix ht hnext) h
          exact ⟨hjoined, hrest.trans hnext⟩
        · cases h

theorem readFields_joined {fuel : Nat} (hvalue : ReadsJoined (readValue fuel))
    (hfields : ∀ {done : Fields}, FieldsJoined done → ReadsJoined (readFields fuel done))
    {done : Fields} (hdone : FieldsJoined done) : ReadsJoined (readFields (fuel + 1) done) := by
  intro t rest value ht h
  cases t with
  | nil =>
    rw [readFields] at h
    · cases h
    · simp
  | cons c t =>
    rw [readFields] at h
    split at h
    · split at h
      · cases h
      · rename_i key after hkey
        have ht' := isEncodable_of_suffix ht (List.suffix_cons c t)
        obtain ⟨hkey, hafter⟩ := readString_joined ht' underway_nil hkey
        split at h
        · cases h
        · rename_i colon hcolon
          have hcolon' := (suffix_skipSpace colon).trans ((suffix_of_after? hcolon).trans
            ((suffix_skipSpace after).trans (hafter.trans (List.suffix_cons c t))))
          split at h
          · cases h
          · rename_i value' after' hread
            obtain ⟨hvalue', hafter'⟩ := hvalue (isEncodable_of_suffix ht hcolon') hread
            have hdone' := hdone.insert hkey hvalue'
            split at h
            · cases h
            · rename_i d last hskip
              have hlast : last <:+ c :: t := (List.suffix_cons d last).trans
                (hskip ▸ (suffix_skipSpace after').trans (hafter'.trans hcolon'))
              split at h
              · cases h
                exact ⟨hdone'.obj, hlast⟩
              · split at h
                · have hnext := (suffix_skipSpace last).trans hlast
                  obtain ⟨hjoined, hrest⟩ := hfields hdone' (isEncodable_of_suffix ht hnext) h
                  exact ⟨hjoined, hrest.trans hnext⟩
                · cases h
    · cases h

theorem read_joined : ∀ fuel : Nat, ReadsJoined (readValue fuel)
    ∧ (∀ {done : List Json}, (∀ item ∈ done, item.IsJoined) → ReadsJoined (readItems fuel done))
    ∧ (∀ {done : Fields}, FieldsJoined done → ReadsJoined (readFields fuel done))
  | 0 => by
    refine ⟨fun _ h => ?_, fun _ => fun _ h => ?_, fun _ => fun _ h => ?_⟩
    · rw [readValue] at h
      cases h
    · rw [readItems] at h
      cases h
    · rw [readFields] at h
      cases h
  | fuel + 1 => by
    obtain ⟨hvalue, hitems, hfields⟩ := read_joined fuel
    exact ⟨readValue_joined (hitems (by simp)) (hfields (by simp [FieldsJoined])),
      readItems_joined hvalue hitems, readFields_joined hvalue hfields⟩

/-- **A value that a line of characters spells is joined.** -/
theorem isJoined_read? {t : Text} {value : Json} (ht : t.isEncodable = true)
    (h : read? t = some value) : value.IsJoined := by
  unfold read? at h
  split at h
  · rename_i value' rest hread
    obtain ⟨hjoined, -⟩ := (read_joined _).1 (isEncodable_of_suffix ht (suffix_skipSpace t)) hread
    split at h
    · cases h
      exact hjoined
    · cases h
  · cases h

end Json

end OutlineServer
