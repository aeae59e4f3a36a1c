import Mathlib.Data.List.TakeWhile
import OutlineServer.Proofs.Outline.Renumbering
import OutlineServer.Proofs.Outline.Tree
import OutlineServer.Proofs.Source.DeclarationGrammar
import OutlineServer.Proofs.Text.LineBreaks

/-!
# Lines on which nothing is declared

A line with no head, end, variable or constant on it leaves the reading of a document where it is, also
inside a function (`readLine_of_silent`).  So the document without the line has the same outline, but for
the numbers of the lines behind it.  This is true of such lines only: any other line makes a difference in
some document (`silent_iff_neutral`).

Blank lines are of this kind, like all lines without words: whatever is declared has a name, and an end is
a word itself.
-/
namespace OutlineServer

open Source (functionHeads functionEnds variableDeclarations constantDeclarations)

namespace Outline

/-- Nothing is declared on the line, and no function ends on it. -/
def Silent (line : Text) : Prop :=
  functionHeads line = [] ∧ functionEnds line = [] ∧ variableDeclarations line = []
    ∧ constantDeclarations line = []

instance : DecidablePred Silent := fun line =>
  inferInstanceAs (Decidable (functionHeads line = [] ∧ functionEnds line = []
    ∧ variableDeclarations line = [] ∧ constantDeclarations line = []))

end Outline

/-! ## Lines without words -/

theorem Token.mem_words_of_functionEnds {line : Text} {e : Excerpt} (h : e ∈ functionEnds line) :
    e ∈ words line := by
  obtain ⟨column, -, hat⟩ := mem_occurrences h
  unfold recognisedAt? Source.functionEndAt? at hat
  simp only [bind, Option.bind_eq_some_iff, Option.guard_eq_some', Source.wordMayStart_iff,
    Text.after?_eq_some] at hat
  obtain ⟨_, hfront, rest, hdrop, _, hstops, he⟩ := hat
  cases he
  have hne : Source.functionEndKeyword ≠ [] := by decide
  have hword : ∀ c ∈ Source.functionEndKeyword, c.isWord = true := by decide +kernel
  obtain ⟨hline, hcolumn⟩ := Source.split_at hdrop hne
  refine Source.mem_words_iff.2 ⟨line.take column, rest, hline, hcolumn, hne, hword, hfront, ?_⟩
  simpa [Source.wordStops] using hstops

theorem Outline.silent_of_no_words {line : Text} (h : Token.words line = []) : Silent line := by
  refine ⟨?_, ?_, ?_, ?_⟩ <;> rw [List.eq_nil_iff_forall_not_mem] <;> intro d hd
  · exact List.ne_nil_of_mem (Token.mem_words_of_functionHeads hd) h
  · exact List.ne_nil_of_mem (Token.mem_words_of_functionEnds hd) h
  · exact List.ne_nil_of_mem (Token.mem_words_of_variableDeclarations hd) h
  · exact List.ne_nil_of_mem (Token.mem_words_of_constantDeclarations hd) h

theorem Text.strip_eq_nil_iff {t : Text} : t.strip = [] ↔ ∀ c ∈ t, c.isBlank = true := by
  unfold strip
  rw [List.reverse_eq_nil_iff, List.dropWhile_eq_nil_iff]
  constructor
  · intro h c hc
    rw [← List.takeWhile_append_dropWhile (p := CodePoint.isBlank) (l := t), List.mem_append] at hc
    rcases hc with hc | hc
    · exact List.mem_takeWhile_imp hc
    · exact h c (List.mem_reverse.2 hc)
  · intro h c hc
    exact h c (List.dropWhile_subset _ (List.mem_reverse.1 hc))

theorem Token.words_of_blank {line : Text} (h : ∀ c ∈ line, c.isBlank = true) : words line = [] := by
  refine List.eq_nil_iff_forall_not_mem.2 fun e he => ?_
  obtain ⟨front, rest, rfl, -, hne, hword, -⟩ := Source.mem_words_iff.1 he
  obtain ⟨c, hc⟩ := List.exists_mem_of_ne_nil _ hne
  have hblank := h c (List.mem_append_right _ (List.mem_append_left _ hc))
  have hword := hword c hc
  rw [CodePoint.isWord_of_isBlank hblank] at hword
  cases hword

namespace Outline

/-! ## Reading on -/

/-- **A silent line leaves everything as it is**, the open function included. -/
theorem Progress.readLine_of_silent {line : Text} (h : Silent line) (p : Progress) (number : Nat) :
    p.readLine (line, number) = p := by
  obtain ⟨hhead, hend, hvariable, hconstant⟩ := h
  obtain ⟨symbols, completions, pending⟩ := p
  cases pending <;> simp [readLine, readHead, readEnd, readVariables, readConstant, hhead, hend,
    hvariable, hconstant]

/-- The number of a line once another line has been put in at `k`. -/
def movedFrom (k : Nat) (number : Int) : Int := if number < k then number else number + 1

theorem movedFrom_of_lt {k number : Nat} (h : number < k) : movedFrom k number = number := by
  rw [movedFrom, if_pos (Int.ofNat_lt.2 h)]

theorem movedFrom_add (k i : Nat) : movedFrom k ((k + i : Nat) : Int) = ((k + 1 + i : Nat) : Int) := by
  rw [movedFrom, if_neg (by omega)]
  omega

/-- **With a silent line among them, lines are read as without it**, under the moved numbers. -/
theorem foldl_insert {line : Text} (h : Silent line) (front back : List Text) :
    (front ++ line :: back).zipIdx.foldl Progress.readLine {}
      = Progress.within {} (movedFrom front.length)
        ((front ++ back).zipIdx.foldl Progress.readLine {}) := by
  -- what stands before the new line keeps its numbers, so moving them changes nothing
  have hfront := @Progress.foldl_within {} (movedFrom front.length) front 0 0 {}
    (fun i hi => movedFrom_of_lt (by omega))
  have hback := fun p => @Progress.foldl_within {} (movedFrom front.length) back front.length
    (front.length + 1) p (fun i _ => movedFrom_add front.length i)
  have hempty : Progress.within {} (movedFrom front.length) {} = {} := by simp [Progress.within]
  rw [hempty] at hfront
  rw [List.zipIdx_append, List.foldl_append, List.zipIdx_cons, List.foldl_cons, Nat.zero_add,
    Progress.readLine_of_silent h, hfront, hback, List.zipIdx_append, List.foldl_append, Nat.zero_add]

theorem ofLines_insert {line : Text} (h : Silent line) (front back : List Text) :
    (ofLines (front ++ line :: back)).completions = (ofLines (front ++ back)).completions
    ∧ (ofLines (front ++ line :: back)).symbols
      = (ofLines (front ++ back)).symbols.map (Symbol.renumber (movedFrom front.length)) := by
  unfold ofLines
  rw [foldl_insert h]
  simp [Progress.within]

/-! ## Lines that make a difference -/

def someHead : Text := "func f("

/-- **A line that is not silent shows**, on its own or behind a head: in a completion, or in a symbol. -/
theorem silent_of_empty {line : Text} (hcompletions : (ofLines [line]).completions = [])
    (hsymbols : (ofLines [line]).symbols = []) (hbehind : (ofLines [someHead, line]).symbols = []) :
    Silent line := by
  have hfirst : [line][0]? = some line := rfl
  have hsecond : [someHead, line][1]? = some line := rfl
  have hnone : ∀ x i, x ∉ symbolsOn [line] i := fun x i hx =>
    List.ne_nil_of_mem (mem_ofLines.2 ⟨i, lt_length_of_mem_symbolsOn hx, hx⟩) hsymbols
  have hheads : functionHeads line = [] := by
    cases hheads : functionHeads line with
    | nil => rfl
    | cons head rest =>
      have hon : headOn [line] 0 = some head := by rw [headOn_of_line hfirst, hheads, List.head?_cons]
      exact absurd hcompletions (List.ne_nil_of_mem (mem_completions_of_headOn hon))
  have hopen : ¬ OpenAfter [line] 0 := fun hopen => by
    refine not_inScope_zero ?_ (openAfter_iff.1 hopen).1
    rw [headOn_of_line hfirst, hheads, List.head?_nil]
  refine ⟨hheads, ?_, ?_, ?_⟩
  · by_contra hends
    have hscope : InScope [someHead, line] 1 := by
      refine ⟨0, Nat.zero_le _, ?_, fun i _ hi => ?_⟩
      · rw [headOn_of_line rfl]
        decide
      · obtain rfl : i = 0 := by omega
        rw [endOn_of_line rfl]
        decide
    have hcloses : ClosesOn [someHead, line] 1 := by
      refine closesOn_iff.2 ⟨hscope, ?_⟩
      rw [endOn_of_line hsecond]
      simpa using hends
    obtain ⟨head, -, hfunction⟩ := functionOn_of_closesOn hcloses
    have hmem := mem_ofLines.2 ⟨1, Nat.lt_add_one _, mem_symbolsOn.2 (.inl hfunction)⟩
    exact absurd hbehind (List.ne_nil_of_mem hmem)
  · cases hvariables : variableDeclarations line with
    | nil => rfl
    | cons d rest =>
      have hmem : variableSymbol 0 d ∈ variablesOn [line] 0 :=
        mem_variablesOn.2 ⟨line, hfirst, d, hvariables ▸ List.mem_cons_self, rfl⟩
      exact absurd (mem_symbolsOn.2 (.inr (.inl ⟨hopen, hmem⟩))) (hnone _ 0)
  · cases hconstants : constantDeclarations line with
    | nil => rfl
    | cons d rest =>
      have hon : constantOn [line] 0 = some (constantSymbol 0 d) := by
        rw [constantOn_of_line hfirst, hconstants, List.head?_cons, Option.map_some]
      exact absurd (mem_symbolsOn.2 (.inr (.inr hon))) (hnone _ 0)

end Outline

/-! ## Joined lines -/

theorem Text.lines_join : ∀ {lines : List Text}, lines ≠ [] → (∀ line ∈ lines, Unbroken line) →
    (join [CodePoint.lineFeed] lines).lines = lines
  | [line], _, h => lines_of_unbroken (h line List.mem_cons_self)
  | line :: next :: rest, _, h => by
    have hbreak := lines_break (h line List.mem_cons_self) .lineFeed
      (t := join [CodePoint.lineFeed] (next :: rest)) (fun heq => by cases heq)
    rw [lines_join (List.cons_ne_nil _ _) fun other hother => h other (List.mem_cons_of_mem _ hother)]
      at hbreak
    rw [join, List.append_assoc]
    · exact hbreak
    · exact List.cons_ne_nil _ _

namespace Outline

theorem scan_join {lines : List Text} (h : ∀ line ∈ lines, Text.Unbroken line) :
    scan (Text.join [CodePoint.lineFeed] lines) = ofLines lines := by
  by_cases hnil : lines = []
  · subst hnil
    rfl
  · rw [scan, Text.lines_join hnil h]

/-- **A line is neutral exactly when nothing is declared or ended on it.**  Put in anywhere between lines,
it leaves the completions as they are, and the symbols but for the numbers of the lines from there on,
which grow by one at every depth.  A line with nothing but blanks is such a line. -/
theorem silent_iff_neutral (line : Text) (h : Text.Unbroken line) :
    (Silent line ↔ ∀ front back : List Text, (∀ other ∈ front ++ back, Text.Unbroken other) →
      (scan (Text.join [CodePoint.lineFeed] (front ++ line :: back))).completions
        = (scan (Text.join [CodePoint.lineFeed] (front ++ back))).completions
      ∧ (scan (Text.join [CodePoint.lineFeed] (front ++ line :: back))).symbols
        = (scan (Text.join [CodePoint.lineFeed] (front ++ back))).symbols.map
          (Symbol.renumber (fun number => if number < front.length then number else number + 1)))
    ∧ (line.strip = [] → Silent line) := by
  have hjoin : ∀ front back : List Text, (∀ other ∈ front ++ back, Text.Unbroken other) →
      scan (Text.join [CodePoint.lineFeed] (front ++ line :: back)) = ofLines (front ++ line :: back)
      ∧ scan (Text.join [CodePoint.lineFeed] (front ++ back)) = ofLines (front ++ back) := by
    intro front back hall
    refine ⟨scan_join fun other hother => ?_, scan_join hall⟩
    rcases List.mem_cons.1 (List.perm_middle.subset hother) with rfl | hother
    · exact h
    · exact hall other hother
  refine ⟨⟨fun hsilent front back hall => ?_, fun hneutral => ?_⟩, fun hstrip => ?_⟩
  · rw [(hjoin front back hall).1, (hjoin front back hall).2]
    exact ofLines_insert hsilent front back
  · have hnil : ∀ other ∈ [] ++ [], Text.Unbroken other := fun _ hmem => by cases hmem
    have hhead : ∀ other ∈ [someHead] ++ [], Text.Unbroken other := by decide
    have hnone : (ofLines [someHead]).symbols = [] := by
      rw [← List.isEmpty_iff]
      decide +kernel
    obtain ⟨hcompletions, hsymbols⟩ := hneutral [] [] hnil
    obtain ⟨-, hbehind⟩ := hneutral [someHead] [] hhead
    rw [(hjoin _ _ hnil).1, (hjoin _ _ hnil).2] at hcompletions hsymbols
    rw [(hjoin _ _ hhead).1, (hjoin _ _ hhead).2, List.append_nil, hnone] at hbehind
    exact silent_of_empty hcompletions hsymbols hbehind
  · exact silent_of_no_words (Token.words_of_blank (Text.strip_eq_nil_iff.1 hstrip))

/-- A comment inside a function, which then ends one line further down, and a line of blanks. -/
theorem silent_iff_neutral_inside_function :
    let comment : Text := "  // endfunction"
    let blank : Text := " \t"
    let front : List Text := ["func f(", "var x"]
    let back : List Text := ["endfunc", "var y"]
    Text.Unbroken comment ∧ Silent comment ∧ (∀ other ∈ front ++ back, Text.Unbroken other)
    ∧ (scan (Text.join [CodePoint.lineFeed] (front ++ comment :: back))).symbols
      = (scan (Text.join [CodePoint.lineFeed] (front ++ back))).symbols.map
        (Symbol.renumber (fun number => if number < front.length then number else number + 1))
    ∧ Text.Unbroken blank ∧ blank.strip = [] ∧ Silent blank := by
  intro comment blank front back
  have hcomment : Text.Unbroken comment := by decide
  have hblank : Text.Unbroken blank := by decide
  have hlines : ∀ other ∈ front ++ back, Text.Unbroken other := by decide
  have hsilent : Silent comment := by decide +kernel
  have hstrip : blank.strip = [] := by decide
  obtain ⟨-, hsymbols⟩ := (silent_iff_neutral comment hcomment).1.1 hsilent front back hlines
  exact ⟨hcomment, hsilent, hlines, hsymbols, hblank, hstrip, (silent_iff_neutral blank hblank).2 hstrip⟩

end Outline

end OutlineServer
