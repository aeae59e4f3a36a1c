import Mathlib.Algebra.GroupWithZero.Nat
import OutlineServer.Audit.Timestamp

/-!
# The calendar

A date has a number, the days from the first day of year 1 to it: 365 days for each year before, one
more for each leap year among them, the days of the months before in its own year, and the days before
in its month (`dayNumber`).  The date of a day is the one in the calendar with that number
(`ofDay_isDate`).

The number of a date grows with year, month and day in this order, so days are ordered as their dates
are (`before_ofDay_iff`).
-/
namespace OutlineServer.CalendarDate

/-! ## The number of a date -/

/-- The days of the years from 1 to before a year: every fourth year is one day longer, but for three
of four centuries. -/
def daysBeforeYear (year : Int) : Int :=
  365 * (year - 1) + (year - 1) / 4 - (year - 1) / 100 + (year - 1) / 400

def daysBeforeMonth (leap : Bool) (month : Nat) : Nat := ((monthLengths leap).take (month - 1)).sum

def dayNumber (d : CalendarDate) : Int :=
  daysBeforeYear d.year + daysBeforeMonth (isLeapYear d.year) d.month + (d.day - 1)

structure IsDate (d : CalendarDate) : Prop where
  month_pos : 1 ≤ d.month
  month_le : d.month ≤ 12
  day_pos : 1 ≤ d.day
  day_le : d.day ≤ (monthLengths (isLeapYear d.year)).getD (d.month - 1) 0

def Before (d e : CalendarDate) : Prop :=
  d.year < e.year ∨ d.year = e.year
    ∧ (d.month < e.month ∨ d.month = e.month ∧ d.day < e.day)

/-! ## Years and months -/

theorem isLeapYear_iff {year : Int} :
    isLeapYear year = true ↔ year % 4 = 0 ∧ (year % 100 ≠ 0 ∨ year % 400 = 0) := by
  simp [isLeapYear]

def yearLength (leap : Bool) : Nat := if leap then 366 else 365

theorem sum_monthLengths (leap : Bool) : (monthLengths leap).sum = yearLength leap := by
  cases leap <;> rfl

theorem daysBeforeYear_succ (year : Int) :
    daysBeforeYear (year + 1) = daysBeforeYear year + yearLength (isLeapYear year) := by
  unfold daysBeforeYear yearLength
  split
  · rename_i hleap
    rw [isLeapYear_iff] at hleap
    omega
  · rename_i hleap
    rw [isLeapYear_iff] at hleap
    omega

theorem daysBeforeYear_le {first later : Int} (h : first ≤ later) :
    daysBeforeYear first ≤ daysBeforeYear later := by
  unfold daysBeforeYear
  omega

theorem daysBeforeMonth_add_le (leap : Bool) : ∀ first < 12,
    daysBeforeMonth leap (first + 1) + (monthLengths leap).getD first 0 ≤ yearLength leap
    ∧ ∀ later < 12, first < later →
      daysBeforeMonth leap (first + 1) + (monthLengths leap).getD first 0
        ≤ daysBeforeMonth leap (later + 1) := by
  cases leap <;> decide

theorem IsDate.add_day_le {d : CalendarDate} (h : d.IsDate) :
    daysBeforeMonth (isLeapYear d.year) d.month + d.day ≤ yearLength (isLeapYear d.year)
    ∧ ∀ later, later ≤ 12 → d.month < later →
      daysBeforeMonth (isLeapYear d.year) d.month + d.day
        ≤ daysBeforeMonth (isLeapYear d.year) later := by
  obtain ⟨hpos, hle, -, hday⟩ := h
  obtain ⟨hyear, hmonths⟩ := daysBeforeMonth_add_le (isLeapYear d.year) (d.month - 1) (by omega)
  rw [Nat.sub_add_cancel hpos] at hyear hmonths
  refine ⟨by omega, fun later hlater hlt => ?_⟩
  have hmonth := hmonths (later - 1) (by omega) (by omega)
  rw [Nat.sub_add_cancel (by omega)] at hmonth
  omega

theorem IsDate.dayNumber_bounds {d : CalendarDate} (h : d.IsDate) :
    daysBeforeYear d.year ≤ d.dayNumber ∧ d.dayNumber < daysBeforeYear (d.year + 1) := by
  have hyear := h.add_day_le.1
  have hday := h.day_pos
  rw [daysBeforeYear_succ]
  unfold dayNumber
  omega

theorem IsDate.day_le_31 {d : CalendarDate} (h : d.IsDate) : d.day ≤ 31 := by
  have hlengths : ∀ leap, ∀ month < 12, (monthLengths leap).getD month 0 ≤ 31 := by decide
  have hmonth := h.month_pos
  have hmonth' := h.month_le
  exact Nat.le_trans h.day_le (hlengths _ _ (by omega))

theorem Before.dayNumber_lt {d e : CalendarDate} (h : d.Before e) (hd : d.IsDate) (he : e.IsDate) :
    d.dayNumber < e.dayNumber := by
  obtain hyear | ⟨hyear, hmonth | ⟨hmonth, hday⟩⟩ := h
  · calc d.dayNumber
      _ < daysBeforeYear (d.year + 1) := hd.dayNumber_bounds.2
      _ ≤ daysBeforeYear e.year := daysBeforeYear_le hyear
      _ ≤ e.dayNumber := he.dayNumber_bounds.1
  · have hlater := hd.add_day_le.2 e.month he.month_le hmonth
    have hday := he.day_pos
    unfold dayNumber
    rw [← hyear]
    omega
  · unfold dayNumber
    rw [hyear, hmonth]
    omega

/-! ## The date of a day -/

theorem monthDay_eq : ∀ (lengths : List Nat) (month rest : Nat), rest < lengths.sum →
    ∃ passed day, monthDay lengths month rest = (month + passed, day + 1)
      ∧ passed < lengths.length ∧ day < lengths.getD passed 0
      ∧ (lengths.take passed).sum + day = rest
  | [], _, _, h => by simp at h
  | length :: lengths, month, rest, h => by
    unfold monthDay
    split
    · rename_i hrest
      exact ⟨0, rest, rfl, by simp, by simpa using hrest, by simp⟩
    · rename_i hrest
      rw [List.sum_cons] at h
      obtain ⟨passed, day, heq, hpassed, hday, hsum⟩ :=
        monthDay_eq lengths (month + 1) (rest - length) (by omega)
      refine ⟨passed + 1, day, ?_, by simpa using hpassed, by simpa using hday, ?_⟩
      · rw [heq, Nat.add_right_comm, Nat.add_assoc]
      · rw [List.take_succ_cons, List.sum_cons]
        omega

theorem daysBeforeYear_cycle (cycle : Int) {century quad years : Nat} (hcentury : century ≤ 3)
    (hquad : quad ≤ 24) (hyears : years ≤ 3) :
    daysBeforeYear (400 * cycle + (100 * century + 4 * quad + years + 1 : Nat))
      = 146097 * cycle + 36524 * century + 1461 * quad + 365 * years := by
  have hfour : (400 * cycle + (100 * century + 4 * quad + years + 1 : Nat) - 1) / 4
      = 100 * cycle + 25 * century + quad := by omega
  have hhundred : (400 * cycle + (100 * century + 4 * quad + years + 1 : Nat) - 1) / 100
      = 4 * cycle + century := by omega
  have hcycle : (400 * cycle + (100 * century + 4 * quad + years + 1 : Nat) - 1) / 400
      = cycle := by omega
  unfold daysBeforeYear
  rw [hfour, hhundred, hcycle]
  omega

theorem isLeapYear_cycle (cycle : Int) {century quad years : Nat} (hcentury : century ≤ 3)
    (hquad : quad ≤ 24) (hyears : years ≤ 3) :
    isLeapYear (400 * cycle + (100 * century + 4 * quad + years + 1 : Nat)) = true
      ↔ years = 3 ∧ (quad < 24 ∨ century = 3) := by
  rw [isLeapYear_iff]
  omega

theorem lastOfFour (size day : Nat) (hsize : 0 < size) (h : day ≤ 4 * size) :
    ∃ part rest, min (day / size) 3 = part ∧ day - size * part = rest ∧ day = size * part + rest
      ∧ part ≤ 3 ∧ (rest < size ∨ part = 3 ∧ rest = size) := by
  have hdiv := Nat.div_add_mod day size
  have hmod := Nat.mod_lt day hsize
  rcases Nat.lt_or_ge day (4 * size) with hlt | hge
  · have hpart : day / size < 4 := (Nat.div_lt_iff_lt_mul hsize).2 hlt
    exact ⟨day / size, day % size, by omega, by omega, by omega, by omega, .inl hmod⟩
  · have hpart : day / size = 4 := by
      rw [show day = 4 * size by omega, Nat.mul_div_cancel _ hsize]
    exact ⟨3, size, by omega, by omega, by omega, by omega, .inr ⟨rfl, rfl⟩⟩

theorem ofDay_eq (n : Int) : ∃ (year : Int) (rest : Nat),
    ofDay n = ⟨year, (monthDay (monthLengths (isLeapYear year)) 1 rest).1,
      (monthDay (monthLengths (isLeapYear year)) 1 rest).2⟩
    ∧ daysBeforeYear year + rest = n ∧ rest < yearLength (isLeapYear year) := by
  refine ⟨_, _, rfl, ?_⟩
  obtain ⟨century, inCentury, hpart, hleft, hday, hcentury, hlast⟩ :=
    lastOfFour 36524 (n % 146097).toNat (by omega) (by omega)
  rw [hpart, hleft]
  obtain ⟨years, rest, hpart, hleft, hinQuad, hyears, hrest⟩ :=
    lastOfFour 365 (inCentury % 1461) (by omega) (by omega)
  rw [hpart, hleft]
  have hquad : inCentury / 1461 ≤ 24 := by omega
  constructor
  · rw [daysBeforeYear_cycle _ hcentury hquad hyears]
    omega
  · have hleap := isLeapYear_cycle (n / 146097) hcentury hquad hyears
    unfold yearLength
    split
    · omega
    · rename_i hshort
      rw [hleap] at hshort
      omega

/-- **The date of a day is the date with its number, and the calendar has it.** -/
theorem ofDay_isDate (n : Int) : (ofDay n).dayNumber = n ∧ (ofDay n).IsDate := by
  obtain ⟨year, rest, heq, hnumber, hrest⟩ := ofDay_eq n
  rw [← sum_monthLengths] at hrest
  obtain ⟨passed, day, hmonth, hpassed, hday, hsum⟩ := monthDay_eq _ 1 _ hrest
  rw [heq, hmonth]
  have hlength : (monthLengths (isLeapYear year)).length = 12 := rfl
  constructor
  · unfold dayNumber daysBeforeMonth
    simp only [Nat.add_sub_cancel_left]
    omega
  · refine ⟨?_, ?_, ?_, ?_⟩ <;> simp only [Nat.add_sub_cancel_left] <;> omega

theorem before_trichotomy (d e : CalendarDate) : d.Before e ∨ d = e ∨ e.Before d := by
  obtain ⟨year, month, day⟩ := d
  obtain ⟨year', month', day'⟩ := e
  simp only [Before, CalendarDate.mk.injEq]
  omega

/-- **Days are ordered as their dates are.** -/
theorem before_ofDay_iff (m n : Int) : (ofDay m).Before (ofDay n) ↔ m < n := by
  obtain ⟨hm, hmdate⟩ := ofDay_isDate m
  obtain ⟨hn, hndate⟩ := ofDay_isDate n
  constructor
  · intro h
    have hlt := h.dayNumber_lt hmdate hndate
    rwa [hm, hn] at hlt
  · intro hlt
    rcases before_trichotomy (ofDay m) (ofDay n) with h | h | h
    · exact h
    · rw [← hm, h, hn] at hlt
      exact absurd hlt (Int.lt_irrefl n)
    · have hgt := h.dayNumber_lt hndate hmdate
      rw [hm, hn] at hgt
      omega

theorem ofDay_inj {m n : Int} : ofDay m = ofDay n ↔ m = n := by
  constructor
  · intro h
    rw [← (ofDay_isDate m).1, h, (ofDay_isDate n).1]
  · rintro rfl
    rfl

end OutlineServer.CalendarDate
