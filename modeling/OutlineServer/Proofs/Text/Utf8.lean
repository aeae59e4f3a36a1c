import OutlineServer.Text.Utf8

/-!
# Reading UTF-8 back

What is written of characters is read back, behind anything that can be read and nothing else
(`decode?_append_encode`).  What can be read at all is a text of characters
(`isEncodable_of_decode?`): the bounds on the second octet of a character keep surrogates out, which
is an invariant of the reader (`State.Sound`).
-/
namespace OutlineServer

theorem CodePoint.isSurrogate_iff {c : CodePoint} :
    c.isSurrogate = true ↔ 0xD800 ≤ c.val ∧ c.val < 0xE000 := by
  simp only [isSurrogate, isHighSurrogate, isLowSurrogate, Bool.or_eq_true, Bool.and_eq_true,
    decide_eq_true_eq]
  omega

theorem CodePoint.not_isSurrogate_ofNat {n : Nat} (h : ¬ (0xD800 ≤ n ∧ n < 0xE000)) :
    (CodePoint.ofNat n).isSurrogate = false := by
  rw [Bool.eq_false_iff, Ne, isSurrogate_iff]
  unfold ofNat
  split
  · exact h
  · decide

theorem Text.isEncodable_iff_forall {t : Text} :
    t.isEncodable = true ↔ ∀ c ∈ t, c.isSurrogate = false := by
  simp [isEncodable]

namespace Utf8

namespace State

/-! ## What the reader keeps -/

/-- An unfinished character is kept from becoming a surrogate, and its next octet is none that a
character begins with. -/
structure Sound (s : State) : Prop where
  done : ∀ c ∈ s.done, c.isSurrogate = false
  bounds : s.owed ≠ 0 → 0x80 ≤ s.low ∧ s.high ≤ 0xBF
  owed : s.owed ≤ 3
  one : s.owed = 1 → ¬ (864 ≤ s.bits ∧ s.bits < 896)
  two : s.owed = 2 → s.bits = 13 → s.high ≤ 0x9F
  three : s.owed = 3 → s.bits = 0 → 0x90 ≤ s.low

theorem sound_init : Sound {} where
  done := by simp
  bounds h := absurd rfl h
  owed := Nat.zero_le 3
  one h := by cases h
  two h := by cases h
  three h := by cases h

namespace Sound

variable {s s' : State}

protected theorem start (h : s.Sound) {octet : Nat} (howed : s.owed = 0)
    (hstart : s.start octet = some s') : s'.Sound := by
  unfold State.start at hstart
  split at hstart
  · rename_i hascii
    cases hstart
    have hc := CodePoint.not_isSurrogate_ofNat (n := octet) (by omega)
    exact ⟨List.forall_mem_cons.2 ⟨hc, h.done⟩, fun hne => absurd howed hne, by simp [howed],
      by simp [howed], by simp [howed], by simp [howed]⟩
  split at hstart
  · cases hstart
    exact ⟨h.done, by simp, by simp, by simp; omega, by simp, by simp⟩
  split at hstart
  · rename_i hthree
    cases hstart
    refine ⟨h.done, fun _ => ?_, by simp, by simp, fun _ hbits => ?_, by simp⟩
    · dsimp only
      constructor <;> split <;> omega
    · dsimp only at hbits ⊢
      split <;> omega
  split at hstart
  · rename_i hfour
    cases hstart
    refine ⟨h.done, fun _ => ?_, by simp, by simp, by simp, fun _ hbits => ?_⟩
    · dsimp only
      constructor <;> split <;> omega
    · dsimp only at hbits ⊢
      split <;> omega
  · cases hstart

protected theorem step (h : s.Sound) {octet : Nat} (hstep : s.step octet = some s') : s'.Sound := by
  unfold State.step at hstep
  split at hstep
  · rename_i howed
    exact h.start howed hstep
  · rename_i owed howed
    split at hstep
    · cases hstep
    · rename_i hwithin
      obtain ⟨hlow, hhigh⟩ := h.bounds (by omega)
      have hle := h.owed
      have hone := h.one
      have htwo := h.two
      have hthree := h.three
      cases hstep
      refine ⟨?_, fun _ => ⟨Nat.le_refl _, Nat.le_refl _⟩, by dsimp only; omega, ?_, ?_, ?_⟩
      · dsimp only
        split
        · have hc := CodePoint.not_isSurrogate_ofNat (n := s.bits * 64 + (octet - 0x80)) (by omega)
          exact List.forall_mem_cons.2 ⟨hc, h.done⟩
        · exact h.done
      · dsimp only
        omega
      · dsimp only
        omega
      · dsimp only
        omega

protected theorem run : ∀ {octets : List UInt8} {s s' : State}, s.Sound →
    s.run octets = some s' → s'.Sound
  | [], _, _, h, hrun => by
    cases hrun
    exact h
  | octet :: octets, s, s', h, hrun => by
    unfold State.run at hrun
    rw [List.foldlM_cons] at hrun
    obtain ⟨next, hnext, hrest⟩ := Option.bind_eq_some_iff.1 hrun
    exact Sound.run (h.step hnext) hrest

end Sound

theorem run_append (s : State) (octets others : List UInt8) :
    s.run (octets ++ others) = (s.run octets).bind (fun s' => s'.run others) :=
  List.foldlM_append

/-! ## Characters -/

theorem toNat_ofNat_of_lt {n : Nat} (h : n < 256) : (UInt8.ofNat n).toNat = n := by
  rw [UInt8.toNat_ofNat', Nat.mod_eq_of_lt h]

theorem run_first {s s' : State} {n : Nat} (hn : n < 256) (howed : s.owed = 0)
    (hstart : s.start n = some s') (rest : List UInt8) : s.run (.ofNat n :: rest) = s'.run rest := by
  have hstep : s.step (UInt8.ofNat n).toNat = some s' := by
    unfold step
    rw [howed, toNat_ofNat_of_lt hn]
    exact hstart
  unfold run
  rw [List.foldlM_cons, hstep]
  rfl

/-- The next octet of an unfinished character brings six bits. -/
theorem run_tail {s : State} {owed : Nat} (howed : s.owed = owed + 1) (n : Nat)
    (hlow : s.low ≤ 0x80 + n % 64) (hhigh : 0x80 + n % 64 ≤ s.high) (rest : List UInt8) :
    s.run (.ofNat (0x80 + n % 64) :: rest) = State.run {
      done := if owed = 0 then CodePoint.ofNat (s.bits * 64 + n % 64) :: s.done else s.done
      owed
      bits := s.bits * 64 + n % 64 } rest := by
  have hstep : s.step (UInt8.ofNat (0x80 + n % 64)).toNat = some {
      done := if owed = 0 then CodePoint.ofNat (s.bits * 64 + n % 64) :: s.done else s.done
      owed
      bits := s.bits * 64 + n % 64 } := by
    unfold step
    rw [howed, toNat_ofNat_of_lt (by omega)]
    dsimp only
    rw [if_neg (by omega), Nat.add_sub_cancel_left]
  unfold run
  rw [List.foldlM_cons, hstep]
  rfl

/-- **Between characters, a character is read from its octets.** -/
theorem run_octetsOf {s : State} (howed : s.owed = 0) {c : CodePoint} (hc : c.isSurrogate = false) :
    ∃ s', s.run (octetsOf c) = some s' ∧ s'.owed = 0 ∧ s'.done = c :: s.done := by
  have hlt := c.isLt
  rw [Bool.eq_false_iff, Ne, CodePoint.isSurrogate_iff] at hc
  have hval : ∀ n, n = c.val → CodePoint.ofNat n = c := by
    rintro n rfl
    rw [CodePoint.ofNat, dif_pos hlt]
  have hdone : ∀ {n : Nat}, n = c.val →
      (if 0 = 0 then CodePoint.ofNat n :: s.done else s.done) = c :: s.done := by
    intro n hn
    rw [if_pos rfl, hval n hn]
  unfold octetsOf
  dsimp only
  split
  · rename_i hone
    have hstart : s.start c.val = some { s with done := c :: s.done } := by
      rw [start, if_pos hone, hval c.val rfl]
    exact ⟨_, run_first (by omega) howed hstart [], howed, rfl⟩
  split
  · rename_i htwo
    have hstart : s.start (0xC0 + c.val / 64)
        = some { s with owed := 1, low := 0x80, high := 0xBF, bits := c.val / 64 } := by
      rw [start, if_neg (by omega), if_pos (by omega), Nat.add_sub_cancel_left]
    refine ⟨_, (run_first (by omega) howed hstart _).trans
      (run_tail rfl _ (by dsimp only; omega) (by dsimp only; omega) []), rfl, hdone ?_⟩
    dsimp only
    omega
  split
  · rename_i hthree
    have hstart : s.start (0xE0 + c.val / 4096) = some {
        done := s.done
        owed := 2
        low := if 0xE0 + c.val / 4096 = 0xE0 then 0xA0 else 0x80
        high := if 0xE0 + c.val / 4096 = 0xED then 0x9F else 0xBF
        bits := c.val / 4096 } := by
      rw [start, if_neg (by omega), if_neg (by omega), if_pos (by omega), Nat.add_sub_cancel_left]
    refine ⟨_, (run_first (by omega) howed hstart _).trans
      ((run_tail rfl _ ?_ ?_ _).trans (run_tail rfl _ ?_ ?_ [])), rfl, hdone ?_⟩
    all_goals dsimp only
    · split <;> omega
    · split <;> omega
    · omega
    · omega
    · omega
  · rename_i hfour
    have hstart : s.start (0xF0 + c.val / 262144) = some {
        done := s.done
        owed := 3
        low := if 0xF0 + c.val / 262144 = 0xF0 then 0x90 else 0x80
        high := if 0xF0 + c.val / 262144 = 0xF4 then 0x8F else 0xBF
        bits := c.val / 262144 } := by
      rw [start, if_neg (by omega), if_neg (by omega), if_neg (by omega), if_pos (by omega),
        Nat.add_sub_cancel_left]
    refine ⟨_, (run_first (by omega) howed hstart _).trans
      ((run_tail rfl _ ?_ ?_ _).trans ((run_tail rfl _ ?_ ?_ _).trans (run_tail rfl _ ?_ ?_ []))),
      rfl, hdone ?_⟩
    all_goals dsimp only
    · split <;> omega
    · split <;> omega
    · omega
    · omega
    · omega
    · omega
    · omega

theorem run_encode : ∀ {t : Text} {s : State}, s.owed = 0 → t.isEncodable = true →
    ∃ s', s.run (encode t) = some s' ∧ s'.owed = 0 ∧ s'.done = t.reverse ++ s.done
  | [], s, howed, _ => ⟨s, rfl, howed, rfl⟩
  | c :: t, s, howed, ht => by
    obtain ⟨hc, ht⟩ := List.forall_mem_cons.1 (Text.isEncodable_iff_forall.1 ht)
    obtain ⟨next, hnext, hnextOwed, hnextDone⟩ := run_octetsOf howed hc
    obtain ⟨s', hs', howed', hdone'⟩ := run_encode hnextOwed (Text.isEncodable_iff_forall.2 ht)
    refine ⟨s', ?_, howed', ?_⟩
    · rw [encode, List.flatMap_cons, run_append, hnext]
      exact hs'
    · rw [hdone', hnextDone, List.reverse_cons, List.append_assoc, List.singleton_append]

theorem run_octetsOf_of_owed {s : State} (h : s.Sound) (howed : s.owed ≠ 0) (c : CodePoint) :
    s.run (octetsOf c) = none := by
  have hlt := c.isLt
  obtain ⟨hlow, hhigh⟩ := h.bounds howed
  have hrefused : ∀ (n : Nat) (rest : List UInt8), n < 256 → n < 0x80 ∨ 0xC0 ≤ n →
      s.run (.ofNat n :: rest) = none := by
    intro n rest hn hfirst
    have hstep : s.step (UInt8.ofNat n).toNat = none := by
      unfold step
      rw [toNat_ofNat_of_lt hn]
      split
      · rename_i hzero
        exact absurd hzero howed
      · exact if_pos (by omega)
    unfold run
    rw [List.foldlM_cons, hstep]
    rfl
  unfold octetsOf
  dsimp only
  split
  · exact hrefused _ _ (by omega) (by omega)
  split
  · exact hrefused _ _ (by omega) (by omega)
  split
  · exact hrefused _ _ (by omega) (by omega)
  · exact hrefused _ _ (by omega) (by omega)

end State

/-! ## Texts -/

/-- **What is written of characters is read back**, and behind anything else it changes nothing. -/
theorem decode?_append_encode (octets : List UInt8) {t : Text} (ht : t.isEncodable = true) :
    decode? (octets ++ encode t) = (decode? octets).map (· ++ t) := by
  unfold decode?
  rw [State.run_append]
  cases hrun : State.run {} octets with
  | none => rfl
  | some s =>
    rw [Option.bind_some, Option.bind_some]
    by_cases howed : s.owed = 0
    · obtain ⟨s', hs', howed', hdone'⟩ := State.run_encode howed ht
      rw [hs', Option.bind_some, State.text?, State.text?, if_pos howed, if_pos howed', hdone']
      simp
    · have hsound := State.sound_init.run hrun
      have hnone : s.text? = none := if_neg howed
      cases t with
      | nil => simp [encode, State.run, hnone]
      | cons c t =>
        rw [encode, List.flatMap_cons, State.run_append, State.run_octetsOf_of_owed hsound howed, hnone]
        rfl

/-- **Only texts of characters can be read.** -/
theorem isEncodable_of_decode? {octets : List UInt8} {t : Text} (h : decode? octets = some t) :
    t.isEncodable = true := by
  obtain ⟨s, hrun, htext⟩ := Option.bind_eq_some_iff.1 h
  have hsound := State.sound_init.run hrun
  unfold State.text? at htext
  split at htext
  · cases htext
    exact Text.isEncodable_iff_forall.2 (fun c hc => hsound.done c (List.mem_reverse.1 hc))
  · cases htext

example : decode? [0xC0, 0x80] = none ∧ decode? [0xED, 0xA0, 0x80] = none
    ∧ decode? [0xF4, 0x90, 0x80, 0x80] = none
    ∧ decode? [0xF0, 0x9F, 0x98, 0x80, 0x0A] = some [.ofNat 0x1F600, .lineFeed] := by decide

theorem length_octetsOf (c : CodePoint) : (octetsOf c).length = c.utf8Size := by
  unfold octetsOf CodePoint.utf8Size
  split
  · rfl
  split
  · rfl
  split <;> rfl

theorem foldl_utf8Size : ∀ (t : Text) (n : Nat),
    t.foldl (fun n c => n + c.utf8Size) n = n + (encode t).length
  | [], _ => rfl
  | c :: t, n => by
    rw [List.foldl_cons, foldl_utf8Size t, encode, encode, List.flatMap_cons, List.length_append,
      length_octetsOf, Nat.add_assoc]

/-- **The size of a text is the number of octets that are written for it.** -/
theorem length_encode (t : Text) : (encode t).length = t.utf8Size := by
  rw [Text.utf8Size, foldl_utf8Size t 0, Nat.zero_add]

end Utf8

end OutlineServer
