import OutlineServer.Proofs.Audit.Calendar
import OutlineServer.Proofs.Text.FixedWidth

/-!
# The order of timestamps

A timestamp shows a second, as its date and its time of day, and behind it the millisecond
(`timestamp_eq`).  All numbers in it have a fixed width in the years 1 to 9999 (`InYears`), so texts
that begin with a second are ordered as the seconds are, and what stands behind decides only within one
second (`secondText_append_lt_iff`).  Behind the seconds of a timestamp stands the millisecond, so
timestamps are ordered as their milliseconds are (`timestamp_lt_iff`).
-/
namespace OutlineServer

open CalendarDate

/-! ## Instants -/

def startOfYear (year : Int) : Int := 86400000000 * (daysBeforeYear year - daysBeforeYear 1970)

/-- An instant, in microseconds, of the years 1 to 9999. -/
def InYears (microseconds : Int) : Prop :=
  startOfYear 1 ≤ microseconds ∧ microseconds < startOfYear 10000

instance (microseconds : Int) : Decidable (InYears microseconds) :=
  inferInstanceAs (Decidable (_ ∧ _))

def clockText (seconds : Nat) : Text :=
  Text.padded 2 (seconds / 3600) ++ (":" : Text) ++ Text.padded 2 (seconds / 60 % 60)
    ++ (":" : Text) ++ Text.padded 2 (seconds % 60)

def secondText (seconds : Int) : Text :=
  (ofDay (epochDay + seconds / 86400)).toText ++ ("T" : Text)
    ++ clockText (seconds % 86400).toNat

/-- **A timestamp is its second and, behind it, the millisecond.** -/
theorem timestamp_eq (t : Int) : timestamp t = secondText (t / 1000000)
    ++ (("." : Text) ++ Text.padded 3 (t / 1000 % 1000).toNat ++ ("Z" : Text)) := by
  have hday : t / 1000 / 86400000 = t / 1000000 / 86400 := by omega
  have hhour : (t / 1000 % 86400000).toNat / 3600000
      = (t / 1000000 % 86400).toNat / 3600 := by omega
  have hminute : (t / 1000 % 86400000).toNat / 60000 % 60
      = (t / 1000000 % 86400).toNat / 60 % 60 := by omega
  have hsecond : (t / 1000 % 86400000).toNat / 1000 % 60
      = (t / 1000000 % 86400).toNat % 60 := by omega
  have hmillisecond : (t / 1000 % 86400000).toNat % 1000 = (t / 1000 % 1000).toNat := by omega
  simp only [timestamp, timeOfDayText, secondText, clockText, hday, hhour, hminute, hsecond,
    hmillisecond, List.append_assoc]

/-! ## The order of seconds -/

theorem toText_append_lt_iff {d e : CalendarDate} (hd : d.IsDate) (he : e.IsDate)
    (hdyear : 1 ≤ d.year ∧ d.year ≤ 9999) (heyear : 1 ≤ e.year ∧ e.year ≤ 9999) (v w : Text) :
    d.toText ++ v < e.toText ++ w ↔ d.Before e ∨ d = e ∧ v < w := by
  have hmonth := hd.month_le
  have hmonth' := he.month_le
  have hday := hd.day_le_31
  have hday' := he.day_le_31
  simp only [toText, List.append_assoc]
  rw [Text.padded_append_lt_iff (by omega) (by omega) (by omega), Text.append_left_lt_iff,
    Text.padded_append_lt_iff (by omega) (by omega) (by omega), Text.append_left_lt_iff,
    Text.padded_append_lt_iff (by omega) (by omega) (by omega)]
  have hyears : d.year.toNat = e.year.toNat ↔ d.year = e.year := by omega
  have hyear : d.year.toNat < e.year.toNat ↔ d.year < e.year := by omega
  rw [hyears, hyear]
  obtain ⟨year, month, day⟩ := d
  obtain ⟨year', month', day'⟩ := e
  simp only [Before, CalendarDate.mk.injEq, and_or_left, or_assoc, and_assoc]

theorem clockText_append_lt_iff {a b : Nat} (ha : a < 86400) (hb : b < 86400) (v w : Text) :
    clockText a ++ v < clockText b ++ w ↔ a < b ∨ a = b ∧ v < w := by
  simp only [clockText, List.append_assoc]
  rw [Text.padded_append_lt_iff (by omega) (by omega) (by omega), Text.append_left_lt_iff,
    Text.padded_append_lt_iff (by omega) (by omega) (by omega), Text.append_left_lt_iff,
    Text.padded_append_lt_iff (by omega) (by omega) (by omega)]
  have hhour : a / 3600 = a / 60 / 60 := by rw [Nat.div_div_eq_div_mul]
  have hhour' : b / 3600 = b / 60 / 60 := by rw [Nat.div_div_eq_div_mul]
  by_cases hlt : v < w <;> simp only [hlt, and_true, and_false, or_false] <;> omega

theorem InYears.year_bounds {seconds : Int} (h : InYears (1000000 * seconds)) :
    1 ≤ (ofDay (epochDay + seconds / 86400)).year
      ∧ (ofDay (epochDay + seconds / 86400)).year ≤ 9999 := by
  have hnumber := (ofDay_isDate (epochDay + seconds / 86400)).1
  obtain ⟨hfirst, hlast⟩ := (ofDay_isDate (epochDay + seconds / 86400)).2.dayNumber_bounds
  rw [hnumber] at hfirst hlast
  obtain ⟨hstart, hend⟩ := h
  have hone : daysBeforeYear 1 = 0 := rfl
  have hepoch : daysBeforeYear 1970 = 719162 := rfl
  have hstop : daysBeforeYear 10000 = 3652059 := rfl
  unfold startOfYear at hstart hend
  rw [hone, hepoch] at hstart
  rw [hstop, hepoch] at hend
  unfold epochDay at *
  constructor
  · by_contra hyear
    have := daysBeforeYear_le
      (show (ofDay (719162 + seconds / 86400)).year + 1 ≤ 1 by omega)
    omega
  · by_contra hyear
    have := daysBeforeYear_le
      (show 10000 ≤ (ofDay (719162 + seconds / 86400)).year by omega)
    omega

/-- **Seconds decide the order of texts that begin with them.** -/
theorem secondText_append_lt_iff {a b : Int} (ha : InYears (1000000 * a))
    (hb : InYears (1000000 * b)) (v w : Text) :
    secondText a ++ v < secondText b ++ w ↔ a < b ∨ a = b ∧ v < w := by
  simp only [secondText, List.append_assoc]
  rw [toText_append_lt_iff (ofDay_isDate _).2 (ofDay_isDate _).2 ha.year_bounds hb.year_bounds,
    before_ofDay_iff, ofDay_inj, Text.append_left_lt_iff,
    clockText_append_lt_iff (by omega) (by omega)]
  by_cases hlt : v < w <;> simp only [hlt, and_true, and_false, or_false] <;> omega

/-! ## The order of timestamps -/

theorem InYears.second {t : Int} (h : InYears t) : InYears (1000000 * (t / 1000000)) := by
  obtain ⟨hstart, hend⟩ := h
  unfold InYears startOfYear at *
  omega

/-- **Timestamps are ordered as the milliseconds that have begun.** -/
theorem timestamp_lt_iff {t u : Int} (ht : InYears t) (hu : InYears u) :
    timestamp t < timestamp u ↔ t / 1000 < u / 1000 := by
  rw [timestamp_eq, timestamp_eq, secondText_append_lt_iff ht.second hu.second, List.append_assoc,
    List.append_assoc, Text.append_left_lt_iff,
    Text.padded_append_lt_iff (by omega) (by omega) (by omega)]
  have hirrefl : ¬ ("Z" : Text) < ("Z" : Text) := List.lt_irrefl _
  simp only [hirrefl, and_false, or_false]
  omega

end OutlineServer
