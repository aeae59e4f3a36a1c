import OutlineServer.Proofs.Text.Parts
import OutlineServer.Source.Excerpt
import OutlineServer.Text.Word

/-!
# Patterns that are matched by trying

A pattern may be matched in several ways from one column.  `Pattern.tries` lists them in the order in
which they are tried: the first choice of an alternative before the second, and more repetitions before
fewer.  The first of the list is the match, so a part of a pattern gives back what it took whenever the
rest of the pattern fails behind it.

A repetition of single characters takes as many as it can and then backs off one by one (`backingOff`).
It never has to when the rest of the pattern refuses whatever the repetition would take
(`flatMap_backingOff`), nor when the rest succeeds at once (`head?_flatMap_backingOff`).
-/
namespace OutlineServer

/-- How far a pattern has come on a line, with the groups captured on the way, the last one first. -/
structure Attempt where
  column : Nat
  groups : List (Nat × Excerpt) := []
deriving DecidableEq

/-- The body of a repetition has to take a character. -/
inductive Pattern where
  | empty
  | one (accepts : CodePoint → Bool)
  | both (first second : Pattern)
  | either (first second : Pattern)
  | many (body : Pattern)
  | capture (group : Nat) (body : Pattern)
  | notAhead (body : Pattern)
  | notBehind (accepts : CodePoint → Bool)
  | wordBoundary

namespace Attempt

def advance (s : Attempt) (n : Nat) : Attempt := { s with column := s.column + n }

@[simp] theorem advance_zero (s : Attempt) : s.advance 0 = s := rfl

theorem advance_advance (s : Attempt) (m n : Nat) : (s.advance m).advance n = s.advance (m + n) := by
  simp [advance, Nat.add_assoc]

theorem drop_advance (line : Text) (s : Attempt) (n : Nat) :
    line.drop (s.advance n).column = (line.drop s.column).drop n := by
  rw [List.drop_drop]
  rfl

end Attempt

namespace Pattern

def repeated (step : Attempt → List Attempt) : Nat → Attempt → List Attempt
  | 0, s => [s]
  | n + 1, s => (step s).flatMap (repeated step n) ++ [s]

/-- All ways to match a pattern from where an attempt has come, in the order of trying. -/
def tries (line : Text) : Pattern → Attempt → List Attempt
  | empty, s => [s]
  | one accepts, s => if (line.drop s.column).head?.any accepts then [s.advance 1] else []
  | both first second, s => (tries line first s).flatMap (tries line second)
  | either first second, s => tries line first s ++ tries line second s
  | many body, s => repeated (tries line body) (line.length - s.column) s
  | capture group body, s => (tries line body s).map (fun s' =>
      { s' with
        groups := (group, ⟨s.column, (line.drop s.column).take (s'.column - s.column)⟩) :: s'.groups })
  | notAhead body, s => if (tries line body s).isEmpty then [s] else []
  | notBehind accepts, s => if (line.take s.column).getLast?.any accepts then [] else [s]
  | wordBoundary, s =>
    if (line.take s.column).getLast?.any CodePoint.isWord
        = (line.drop s.column).head?.any CodePoint.isWord then [] else [s]

def matchAt? (p : Pattern) (line : Text) (column : Nat) : Option Attempt :=
  (p.tries line { column }).head?

def atMostOne (p : Pattern) : Pattern := either p empty

def atLeastOne (p : Pattern) : Pattern := both p (many p)

def literal : Text → Pattern
  | [] => empty
  | c :: text => both (one (· = c)) (literal text)

variable {line : Text}

theorem tries_literal (text : Text) : ∀ s : Attempt, (literal text).tries line s
    = if Text.startsWith (line.drop s.column) text then [s.advance text.length] else [] := by
  induction text with
  | nil =>
    intro s
    simp [literal, tries, Text.startsWith, Text.after?]
  | cons c text ih =>
    intro s
    rw [literal, tries, tries]
    cases hrest : line.drop s.column with
    | nil => rfl
    | cons d rest =>
      by_cases hd : d = c
      · subst hd
        have hdrop : line.drop (s.advance 1).column = rest := by rw [Attempt.drop_advance, hrest]; rfl
        simp [ih, hdrop, Text.startsWith, Text.after?, Attempt.advance_advance, Nat.add_comm]
      · simp [hd, Text.startsWith, Text.after?]

/-! ## Repetitions of one character -/

def backingOff (s : Attempt) : Nat → List Attempt
  | 0 => [s]
  | n + 1 => s.advance (n + 1) :: backingOff s n

theorem backingOff_advance (s : Attempt) : ∀ n, backingOff (s.advance 1) n ++ [s] = backingOff s (n + 1)
  | 0 => rfl
  | n + 1 => by
    rw [backingOff, List.cons_append, backingOff_advance s n, Attempt.advance_advance, Nat.add_comm 1]
    rfl

/-- The number of characters that can be taken one by one while the text ahead is accepted. -/
def runLength (accepts : Text → Bool) : Text → Nat
  | [] => 0
  | c :: t => if accepts (c :: t) then runLength accepts t + 1 else 0

theorem runLength_head (accepts : CodePoint → Bool) (t : Text) :
    runLength (fun t => t.head?.any accepts) t = (t.takeWhile accepts).length := by
  induction t with
  | nil => rfl
  | cons c t ih =>
    by_cases hc : accepts c <;> simp [runLength, hc, ih]

theorem accepts_of_lt_runLength {accepts : Text → Bool} : ∀ {t : Text} {i : Nat},
    i < runLength accepts t → accepts (t.drop i) = true
  | [], _, h => by cases h
  | c :: t, i, h => by
    unfold runLength at h
    split at h
    · rename_i hc
      cases i with
      | zero => exact hc
      | succ i => exact accepts_of_lt_runLength (t := t) (Nat.lt_of_succ_lt_succ h)
    · cases h

structure Steps (line : Text) (p : Pattern) (accepts : Text → Bool) : Prop where
  tries_eq : ∀ s : Attempt,
    p.tries line s = if accepts (line.drop s.column) then [s.advance 1] else []
  nil : accepts [] = false

theorem steps_one (line : Text) (accepts : CodePoint → Bool) :
    Steps line (one accepts) (fun t => t.head?.any accepts) :=
  ⟨fun _ => rfl, rfl⟩

section Steps

variable {p : Pattern} {accepts : Text → Bool} (h : Steps line p accepts)
include h

theorem repeated_of_steps : ∀ (t : Text) (s : Attempt) (n : Nat), line.drop s.column = t →
    t.length ≤ n → repeated (p.tries line) n s = backingOff s (runLength accepts t)
  | [], s, n, ht, _ => by
    cases n with
    | zero => rfl
    | succ n => simp [repeated, h.tries_eq, ht, h.nil, runLength, backingOff]
  | c :: t, s, n, ht, hn => by
    obtain ⟨n, rfl⟩ : ∃ m, n = m + 1 := ⟨n - 1, by simp at hn; omega⟩
    have hdrop : line.drop (s.advance 1).column = t := by rw [Attempt.drop_advance, ht]; rfl
    have hrest := repeated_of_steps t (s.advance 1) n hdrop (by simpa using hn)
    by_cases hc : accepts (c :: t)
    · simp [repeated, h.tries_eq, ht, hc, hrest, runLength, backingOff_advance]
    · simp [repeated, h.tries_eq, ht, hc, runLength, backingOff]

theorem tries_many (s : Attempt) :
    (many p).tries line s = backingOff s (runLength accepts (line.drop s.column)) := by
  rw [tries]
  exact repeated_of_steps h _ s _ rfl (Nat.le_of_eq List.length_drop)

theorem tries_atLeastOne (s : Attempt) : (atLeastOne p).tries line s
    = match runLength accepts (line.drop s.column) with
      | 0 => []
      | n + 1 => backingOff (s.advance 1) n := by
  rw [atLeastOne, tries, h.tries_eq]
  cases hrest : line.drop s.column with
  | nil => simp [h.nil, runLength]
  | cons c t =>
    have hdrop : line.drop (s.advance 1).column = t := by rw [Attempt.drop_advance, hrest]; rfl
    by_cases hc : accepts (c :: t)
    · simp [hc, runLength, tries_many h, hdrop]
    · simp [hc, runLength]

end Steps

/-! ## What follows a repetition -/

theorem flatMap_backingOff_eq_nil {s : Attempt} {follow : Attempt → List Attempt} : ∀ {n : Nat},
    (∀ i ≤ n, follow (s.advance i) = []) → (backingOff s n).flatMap follow = []
  | 0, h => by simpa [backingOff] using h 0 (Nat.le_refl 0)
  | n + 1, h => by
    rw [backingOff, List.flatMap_cons, h (n + 1) (Nat.le_refl _),
      flatMap_backingOff_eq_nil fun i hi => h i (by omega), List.append_nil]

/-- **Nothing is given back to what refuses it.** -/
theorem flatMap_backingOff {s : Attempt} {follow : Attempt → List Attempt} {n : Nat}
    (h : ∀ i < n, follow (s.advance i) = []) :
    (backingOff s n).flatMap follow = follow (s.advance n) := by
  cases n with
  | zero => simp [backingOff]
  | succ n =>
    rw [backingOff, List.flatMap_cons, flatMap_backingOff_eq_nil fun i hi => h i (by omega),
      List.append_nil]

/-- **Nothing is given back to what succeeds without it.** -/
theorem head?_flatMap_backingOff {s : Attempt} {follow : Attempt → List Attempt} {n : Nat}
    (h : follow (s.advance n) ≠ []) :
    ((backingOff s n).flatMap follow).head? = (follow (s.advance n)).head? := by
  obtain ⟨first, others, hfollow⟩ := List.exists_cons_of_ne_nil h
  cases n with
  | zero => simp [backingOff]
  | succ n => simp [backingOff, hfollow]

theorem head?_flatMap_backingOff_of_nil {s : Attempt} {follow : Attempt → List Attempt} {n : Nat}
    (h : follow (s.advance n) = [] → ∀ i < n, follow (s.advance i) = []) :
    ((backingOff s n).flatMap follow).head? = (follow (s.advance n)).head? := by
  by_cases hnil : follow (s.advance n) = []
  · rw [flatMap_backingOff (h hnil)]
  · exact head?_flatMap_backingOff hnil

theorem head?_backingOff (s : Attempt) (n : Nat) : (backingOff s n).head? = some (s.advance n) := by
  cases n <;> simp [backingOff]

section Follow

variable {accepts : CodePoint → Bool} {follow : Pattern}
  (hrefuse : ∀ s : Attempt, (line.drop s.column).head?.any accepts = true → follow.tries line s = [])
include hrefuse

/-- **A repetition takes all it can** when what follows cannot begin with what it takes. -/
theorem tries_many_both (s : Attempt) : (both (many (one accepts)) follow).tries line s
    = follow.tries line (s.advance ((line.drop s.column).takeWhile accepts).length) := by
  rw [tries, tries_many (steps_one line accepts), ← runLength_head]
  refine flatMap_backingOff fun i hi => hrefuse _ ?_
  rw [Attempt.drop_advance]
  exact accepts_of_lt_runLength hi

theorem tries_atLeastOne_both (s : Attempt) : (both (atLeastOne (one accepts)) follow).tries line s
    = if ((line.drop s.column).takeWhile accepts).isEmpty then []
      else follow.tries line (s.advance ((line.drop s.column).takeWhile accepts).length) := by
  rw [tries, tries_atLeastOne (steps_one line accepts), runLength_head]
  cases htake : (line.drop s.column).takeWhile accepts with
  | nil => rfl
  | cons c run =>
    have hlength : runLength (fun t => t.head?.any accepts) (line.drop s.column) = run.length + 1 := by
      rw [runLength_head, htake, List.length_cons]
    have hrefused : ∀ i < run.length, follow.tries line ((s.advance 1).advance i) = [] := by
      intro i hi
      refine hrefuse _ ?_
      rw [Attempt.advance_advance, Attempt.drop_advance]
      exact @accepts_of_lt_runLength (fun t => t.head?.any accepts) _ _ (by omega)
    simpa [Attempt.advance_advance, Nat.add_comm] using flatMap_backingOff hrefused

end Follow

end Pattern

end OutlineServer
