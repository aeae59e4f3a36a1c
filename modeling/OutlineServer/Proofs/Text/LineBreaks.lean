import Mathlib.Data.List.Chain
import OutlineServer.Outline.Scan
import OutlineServer.Proofs.Text.Parts
import OutlineServer.Token.Strategy

/-!
# Line breaks

A line may end in three ways, and which one is chosen is of no account: lines that are joined with any
breaks between them are the lines of what comes out (`lines_joining`).  One thing must not happen, that
a carriage return and a line feed which are breaks of their own come to stand side by side, with an
empty line between them; they would be one break (`Separated`).

Every text is such a joining of its lines (`exists_joining`), so this says all there is to say about
`lines`.  Outline and tokens see a text through its lines only.
-/
namespace OutlineServer.Text

inductive LineBreak where
  | lineFeed
  | carriageReturn
  | pair
deriving DecidableEq

def LineBreak.text : LineBreak → Text
  | lineFeed => [CodePoint.lineFeed]
  | carriageReturn => [CodePoint.carriageReturn]
  | pair => [CodePoint.carriageReturn, CodePoint.lineFeed]

/-- Lines one after the other, each but the first behind the break that stands before it. -/
def joining (first : Text) : List (LineBreak × Text) → Text
  | [] => first
  | (lineBreak, line) :: rest => first ++ (lineBreak.text ++ joining line rest)

def Unbroken (line : Text) : Prop := CodePoint.lineFeed ∉ line ∧ CodePoint.carriageReturn ∉ line

instance : DecidablePred Unbroken := fun line =>
  inferInstanceAs (Decidable (CodePoint.lineFeed ∉ line ∧ CodePoint.carriageReturn ∉ line))

/-- Lines without breaks in them, and no carriage return before an empty line and a line feed. -/
structure Separated (first : Text) (rest : List (LineBreak × Text)) : Prop where
  unbroken : ∀ line ∈ first :: rest.map Prod.snd, Unbroken line
  apart : rest.IsChain (fun a b => ¬ (a.1 = .carriageReturn ∧ a.2 = [] ∧ b.1 = .lineFeed))

def pairCount (t : Text) : Nat :=
  (t.zip t.tail).count (CodePoint.carriageReturn, CodePoint.lineFeed)

/-- The number of breaks, where a carriage return and the line feed behind it are one. -/
def breakCount (t : Text) : Nat :=
  t.count CodePoint.carriageReturn + t.count CodePoint.lineFeed - t.pairCount

theorem separated_tail {first line : Text} {lineBreak : LineBreak}
    {rest : List (LineBreak × Text)} (h : Separated first ((lineBreak, line) :: rest)) :
    Separated line rest :=
  ⟨fun other hother => h.unbroken other (List.mem_cons_of_mem _ hother), h.apart.tail⟩

/-! ## A line and what follows it -/

theorem toLines_afterReturn {t : Text} (ht : t.head? ≠ some CodePoint.lineFeed)
    (done : List Text) :
    (t.foldl LineBuffer.push { done, afterReturn := true }).toLines
      = (t.foldl LineBuffer.push { done }).toLines := by
  cases t with
  | nil => rfl
  | cons c t =>
    have hc : c ≠ CodePoint.lineFeed := by simpa using ht
    have hpush : LineBuffer.push { done, afterReturn := true } c = LineBuffer.push { done } c := by
      simp [LineBuffer.push, LineBuffer.close, hc]
    rw [List.foldl_cons, List.foldl_cons, hpush]

theorem toLines_done (t line : Text) :
    (t.foldl LineBuffer.push { done := [line] }).toLines = line :: t.lines := by
  have hdone := LineBuffer.foldl_push t {} [line]
  simp only [List.nil_append] at hdone
  rw [hdone]
  simp [lines, LineBuffer.toLines]

theorem lines_of_unbroken {line : Text} (h : Unbroken line) : line.lines = [line] := by
  unfold lines
  rw [foldl_push_of_no_break h.1 h.2]
  simp [LineBuffer.toLines]

/-- **A break ends a line**, unless it is half of one. -/
theorem lines_break {line : Text} (h : Unbroken line) (lineBreak : LineBreak) {t : Text}
    (ht : lineBreak = .carriageReturn → t.head? ≠ some CodePoint.lineFeed) :
    (line ++ (lineBreak.text ++ t)).lines = line :: t.lines := by
  have hreturn : CodePoint.carriageReturn ≠ CodePoint.lineFeed := by decide
  unfold lines
  rw [List.foldl_append, foldl_push_of_no_break h.1 h.2, List.foldl_append, ← lines.eq_def,
    ← toLines_done]
  cases lineBreak with
  | lineFeed => simp [LineBreak.text, LineBuffer.push, LineBuffer.close]
  | pair => simp [LineBreak.text, LineBuffer.push, LineBuffer.close, hreturn]
  | carriageReturn =>
    rw [← toLines_afterReturn (ht rfl)]
    simp [LineBreak.text, LineBuffer.push, LineBuffer.close, hreturn]

/-! ## Joinings -/

theorem head?_joining {line : Text} {rest : List (LineBreak × Text)} (h : Separated line rest)
    (hapart : ∀ next ∈ rest.head?, ¬ (line = [] ∧ next.1 = .lineFeed)) :
    (joining line rest).head? ≠ some CodePoint.lineFeed := by
  cases line with
  | cons c line =>
    have hc : c ≠ CodePoint.lineFeed := by
      rintro rfl
      exact (h.unbroken _ List.mem_cons_self).1 List.mem_cons_self
    cases rest <;> simp [joining, hc]
  | nil =>
    cases rest with
    | nil => simp [joining]
    | cons next rest =>
      obtain ⟨lineBreak, line⟩ := next
      have hfeed : lineBreak ≠ .lineFeed := by simpa using hapart
      cases lineBreak with
      | lineFeed => exact absurd rfl hfeed
      | carriageReturn => simp [joining, LineBreak.text]; decide
      | pair => simp [joining, LineBreak.text]; decide

/-- **The lines of a joining are the lines that were joined.** -/
theorem lines_joining : ∀ {first : Text} {rest : List (LineBreak × Text)}, Separated first rest →
    (joining first rest).lines = first :: rest.map Prod.snd
  | first, [], h => lines_of_unbroken (h.unbroken first List.mem_cons_self)
  | first, (lineBreak, line) :: rest, h => by
    have htail := separated_tail h
    have hhead : lineBreak = .carriageReturn → (joining line rest).head? ≠ some CodePoint.lineFeed := by
      rintro rfl
      refine head?_joining htail ?_
      rintro next hnext ⟨hline, hfeed⟩
      exact (List.isChain_cons.1 h.apart).1 next hnext ⟨rfl, hline, hfeed⟩
    rw [joining, lines_break (h.unbroken first List.mem_cons_self) lineBreak hhead,
      lines_joining htail]
    rfl

theorem Unbroken.cons {c : CodePoint} {line : Text} (h : Unbroken line)
    (hfeed : c ≠ CodePoint.lineFeed) (hreturn : c ≠ CodePoint.carriageReturn) :
    Unbroken (c :: line) := by
  simp [Unbroken, hfeed.symm, hreturn.symm, h.1, h.2]

theorem unbroken_nil : Unbroken [] := ⟨List.not_mem_nil, List.not_mem_nil⟩

theorem exists_joining : ∀ t : Text, ∃ first rest, Separated first rest ∧ joining first rest = t
  | [] => ⟨[], [], ⟨by simp [unbroken_nil], List.isChain_nil⟩, rfl⟩
  | c :: t => by
    obtain ⟨first, rest, h, rfl⟩ := exists_joining t
    have hlines : ∀ line ∈ [] :: first :: rest.map Prod.snd, Unbroken line :=
      List.forall_mem_cons.2 ⟨unbroken_nil, h.unbroken⟩
    by_cases hfeed : c = CodePoint.lineFeed
    · subst hfeed
      exact ⟨[], (.lineFeed, first) :: rest, ⟨hlines, List.isChain_cons.2 ⟨by simp, h.apart⟩⟩, rfl⟩
    by_cases hreturn : c = CodePoint.carriageReturn
    · subst hreturn
      -- the line feed that the rest may begin with belongs to this break
      by_cases hpair : ∃ line others, first = [] ∧ rest = (.lineFeed, line) :: others
      · obtain ⟨line, others, rfl, rfl⟩ := hpair
        refine ⟨[], (.pair, line) :: others, ⟨?_, ?_⟩, rfl⟩
        · exact h.unbroken
        · exact List.isChain_cons.2 ⟨by simp, h.apart.tail⟩
      · refine ⟨[], (.carriageReturn, first) :: rest, ⟨hlines, List.isChain_cons.2 ⟨?_, h.apart⟩⟩, rfl⟩
        rintro ⟨lineBreak, line⟩ hnext ⟨-, hfirst, hbreak⟩
        cases rest with
        | nil => cases hnext
        | cons next others =>
          cases hnext
          cases hbreak
          exact hpair ⟨line, others, hfirst, rfl⟩
    · refine ⟨c :: first, rest, ⟨List.forall_mem_cons.2 ⟨?_, ?_⟩, h.apart⟩, ?_⟩
      · exact (h.unbroken first List.mem_cons_self).cons hfeed hreturn
      · exact fun line hline => h.unbroken line (List.mem_cons_of_mem _ hline)
      · cases rest <;> rfl

theorem unbroken_of_mem_lines {t line : Text} (h : line ∈ t.lines) : Unbroken line := by
  obtain ⟨first, rest, hseparated, rfl⟩ := exists_joining t
  rw [lines_joining hseparated] at h
  exact hseparated.unbroken line h

/-! ## The number of lines -/

theorem pairCount_cons (c : CodePoint) (t : Text) : pairCount (c :: t)
    = (if c = CodePoint.carriageReturn ∧ t.head? = some CodePoint.lineFeed then 1 else 0)
      + pairCount t := by
  cases t with
  | nil => simp [pairCount]
  | cons d t =>
    simp only [pairCount, List.tail_cons, List.zip_cons_cons, List.count_cons, List.head?_cons,
      Option.some.injEq, beq_iff_eq, Prod.mk.injEq]
    omega

/-- What is to be read, behind the carriage return that was read last, if it was. -/
def LineBuffer.unread (b : LineBuffer) (t : Text) : Text :=
  if b.afterReturn then CodePoint.carriageReturn :: t else t

theorem length_done_push (b : LineBuffer) (c : CodePoint) (t : Text) :
    (b.push c).done.length + pairCount (b.unread (c :: t))
      = b.done.length + [c].count CodePoint.carriageReturn + [c].count CodePoint.lineFeed
        + pairCount ((b.push c).unread t) := by
  have hne : CodePoint.carriageReturn ≠ CodePoint.lineFeed := by decide
  by_cases hfeed : c = CodePoint.lineFeed
  · subst hfeed
    cases hafter : b.afterReturn
    · simp [LineBuffer.push, LineBuffer.close, LineBuffer.unread, hafter, pairCount_cons, hne.symm]
    · simp [LineBuffer.push, LineBuffer.unread, hafter, pairCount_cons, hne.symm]
      omega
  · have hunread : pairCount (b.unread (c :: t)) = pairCount (c :: t) := by
      unfold LineBuffer.unread
      split
      · simp [pairCount_cons CodePoint.carriageReturn, hfeed]
      · rfl
    rw [hunread]
    by_cases hreturn : c = CodePoint.carriageReturn
    · simp [LineBuffer.push, LineBuffer.close, LineBuffer.unread, hreturn, hne]
    · simp [LineBuffer.push, LineBuffer.unread, hfeed, hreturn, pairCount_cons]

theorem length_done_foldl : ∀ (t : Text) (b : LineBuffer),
    (t.foldl LineBuffer.push b).done.length + pairCount (b.unread t)
      = b.done.length + t.count CodePoint.carriageReturn + t.count CodePoint.lineFeed
  | [], b => by
    unfold LineBuffer.unread
    split <;> simp [pairCount]
  | c :: t, b => by
    have hstep := length_done_push b c t
    have hrest := length_done_foldl t (b.push c)
    have hcount : ∀ d, (c :: t).count d = [c].count d + t.count d := fun d => by
      rw [← List.count_append, List.singleton_append]
    rw [List.foldl_cons, hcount, hcount]
    omega

/-- **There is one more line than breaks.** -/
theorem length_lines (t : Text) : t.lines.length = t.breakCount + 1 := by
  have hcount : (t.foldl LineBuffer.push {}).done.length + t.pairCount
      = 0 + t.count CodePoint.carriageReturn + t.count CodePoint.lineFeed :=
    length_done_foldl t {}
  have hlength : t.lines.length = (t.foldl LineBuffer.push {}).done.length + 1 := by
    simp [lines, LineBuffer.toLines]
  rw [hlength, breakCount]
  omega

/-! ## Outline and tokens -/

/-- **Line breaks do not matter.**  Lines that are joined with any breaks are the lines of the text,
as long as no carriage return and line feed with nothing between them are made one break.  The lines
of any text hold no break, and there is one more of them than breaks.  So outline and tokens of a text
stay the same when its lines are joined with other breaks. -/
theorem breaks_do_not_matter :
    (∀ (first : Text) (rest : List (LineBreak × Text)), Separated first rest →
      (joining first rest).lines = first :: rest.map Prod.snd)
    ∧ (∀ t : Text, t.lines ≠ []
      ∧ (∀ line ∈ t.lines, CodePoint.lineFeed ∉ line ∧ CodePoint.carriageReturn ∉ line)
      ∧ t.lines.length = t.breakCount + 1)
    ∧ ∀ (first : Text) (rest other : List (LineBreak × Text)), Separated first rest →
      Separated first other → rest.map Prod.snd = other.map Prod.snd →
      Outline.scan (joining first rest) = Outline.scan (joining first other)
      ∧ ∀ strategy : TokenStrategy,
        strategy.classify (joining first rest) = strategy.classify (joining first other) := by
  refine ⟨fun _ _ => lines_joining, fun t => ⟨?_, ?_, length_lines t⟩, ?_⟩
  · rw [← List.length_pos_iff, length_lines]
    exact Nat.succ_pos _
  · intro line hline
    exact unbroken_of_mem_lines hline
  · intro first rest other hrest hother hsame
    have hlines : (joining first rest).lines = (joining first other).lines := by
      rw [lines_joining hrest, lines_joining hother, hsame]
    refine ⟨?_, ?_⟩
    · unfold Outline.scan
      rw [hlines]
    · intro strategy
      cases strategy with
      | bracketed => simp only [TokenStrategy.classify, Token.classifyBracketed, hlines]
      | declared => simp only [TokenStrategy.classify, Token.classifyDeclared, hlines]

/-- A function with an empty line in it, once with all three kinds of breaks and once with line feeds
only.  The carriage return before the empty line is followed by a pair, which is a break of its own. -/
theorem breaks_do_not_matter_of_function :
    let mixed : List (LineBreak × Text) :=
      [(.carriageReturn, []), (.pair, "var x"), (.lineFeed, "endfunc"), (.carriageReturn, [])]
    let plain := mixed.map (fun (_, line) => (LineBreak.lineFeed, line))
    joining "func f()" mixed = "func f()\r\r\nvar x\nendfunc\r"
    ∧ (joining "func f()" mixed).lines = ["func f()", "", "var x", "endfunc", ""]
    ∧ Outline.scan (joining "func f()" mixed) = Outline.scan (joining "func f()" plain) := by
  intro mixed plain
  obtain ⟨hlines, -, hsame⟩ := breaks_do_not_matter
  have hunbroken : ∀ line ∈ ("func f()" : Text) :: mixed.map Prod.snd, Unbroken line := by
    unfold Unbroken
    decide
  have hmixed : Separated "func f()" mixed := ⟨hunbroken, by decide⟩
  have hplain : Separated "func f()" plain := ⟨hunbroken, by decide⟩
  exact ⟨by decide, hlines _ _ hmixed, (hsame _ _ _ hmixed hplain rfl).1⟩

end OutlineServer.Text
