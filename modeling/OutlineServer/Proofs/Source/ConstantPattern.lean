import OutlineServer.Proofs.Source.ConstantGrammar
import OutlineServer.Proofs.Source.Keywords
import OutlineServer.Proofs.Source.Pattern

/-!
# The pattern of constants

Constants are described by a pattern that is matched by trying, with parts that may give back what they
took.  None of them ever does so with effect (`matchAt?_constantPattern`).  Blanks are not given back,
since neither a sign nor a value nor a name begins with one; a name is not shortened, since what
follows it may be left out; a value comes last.  So the match at a column is what is recognised there
without trying anything.
-/
namespace OutlineServer.Source

open Pattern

/-- `#constant|word|byte` -/
def keywordPattern : Pattern :=
  either (literal "#constant") (either (literal "word") (literal "byte"))

/-- `[ \t]` -/
def gapPattern : Pattern := one isGap

/-- `[^\W\d]\w*` -/
def namePattern : Pattern :=
  both (one (fun c => c.isWord && !c.isDecimalDigit)) (many (one CodePoint.isWord))

/-- `(?!//)[^\s;]` -/
def valueCharacter : Pattern :=
  both (notAhead (literal "//")) (one (fun c => !c.isBlank && c ≠ CodePoint.ofChar ';'))

def valuePattern (group : Nat) : Pattern :=
  both (notAhead (both keywordPattern wordBoundary)) (capture group (atLeastOne valueCharacter))

/-- `[ \t]*:?=[ \t]*` and a value. -/
def assignedPattern : Pattern :=
  both (many gapPattern) (both (atMostOne (literal ":")) (both (literal "=")
    (both (many gapPattern) (valuePattern 2))))

/-- `[ \t]+` and a value. -/
def spacedPattern : Pattern := both (atLeastOne gapPattern) (valuePattern 3)

def constantPattern : Pattern :=
  both (notBehind (fun c => c.isWord || c = CodePoint.ofChar '#'))
    (both keywordPattern (both (atLeastOne gapPattern)
      (both (capture 1 namePattern) (atMostOne (either assignedPattern spacedPattern)))))

variable {line : Text}

/-! ## Keywords -/

theorem tries_keywordPattern (s : Attempt) : keywordPattern.tries line s
    = ((constantKeyword? (line.drop s.column)).map fun keyword =>
        s.advance keyword.length).toList := by
  rw [keywordPattern, tries, tries, tries_literal, tries_literal, tries_literal]
  generalize line.drop s.column = t
  cases hkeyword : constantKeyword? t with
  | none =>
    have hnone : ∀ keyword ∈ constantKeywords, ¬ Text.startsWith t keyword = true :=
      List.find?_eq_none.1 hkeyword
    simp [constantKeywords] at hnone
    simp [hnone]
  | some keyword =>
    have honly := fun other => @startsWith_of_find? _ _ _ other keywords_prefix_free hkeyword
    have hmem := (constantKeyword?_iff.1 hkeyword).1
    rw [honly "#constant" (by decide), honly "word" (by decide), honly "byte" (by decide)]
    simp only [constantKeywords, List.mem_cons, List.not_mem_nil, or_false] at hmem
    rcases hmem with rfl | rfl | rfl <;> rfl

/-- The keyword ends with a word character, so the word ends where no other follows. -/
theorem tries_notKeyword (s : Attempt) :
    (notAhead (both keywordPattern wordBoundary)).tries line s
      = if startsConstant (line.drop s.column) then [] else [s] := by
  rw [tries, tries, tries_keywordPattern]
  unfold startsConstant
  cases hkeyword : constantKeyword? (line.drop s.column) with
  | none => simp
  | some keyword =>
    obtain ⟨hmem, rest, hrest⟩ := constantKeyword?_iff.1 hkeyword
    have hbehind : (line.take (s.advance keyword.length).column).getLast?.any CodePoint.isWord
        = true := by
      have htake : line.take (s.advance keyword.length).column = line.take s.column ++ keyword := by
        rw [Attempt.advance, List.take_add, ← hrest, List.take_left]
      obtain ⟨last, hlast, hword⟩ :=
        (Option.any_eq_true _ _).1 (keyword_ends_word .const keyword hmem)
      rw [htake, List.getLast?_append, hlast]
      exact hword
    have hahead : line.drop (s.advance keyword.length).column = rest := by
      rw [Attempt.drop_advance, ← hrest, List.drop_left]
    have hdrop : (line.drop s.column).drop keyword.length = rest := by rw [← hrest, List.drop_left]
    simp only [Option.map_some, Option.toList_some, List.flatMap_singleton, tries, hbehind, hahead,
      hdrop, wordStops]
    cases rest.head?.any CodePoint.isWord <;> rfl

/-! ## Values -/

def goesOn (t : Text) : Bool :=
  !Text.startsWith t "//" && t.head?.any (fun c => !c.isBlank && c ≠ CodePoint.ofChar ';')

theorem goesOn_iff {t : Text} : goesOn t = true ↔ ¬ EndsValue t := by
  unfold goesOn EndsValue
  rw [← Text.startsWith_iff]
  cases t with
  | nil => simp
  | cons c t =>
    cases Text.startsWith (c :: t) (Text.ofString "//") <;> simp

theorem steps_valueCharacter (line : Text) : Steps line valueCharacter goesOn := by
  refine ⟨fun s => ?_, rfl⟩
  rw [valueCharacter, tries, tries, tries_literal, goesOn]
  cases Text.startsWith (line.drop s.column) "//" <;> simp [tries]

theorem runLength_goesOn (t : Text) : runLength goesOn t = (valueRun t).length := by
  induction t with
  | nil => rfl
  | cons c t ih =>
    by_cases hend : EndsValue (c :: t)
    · rw [valueRun_of_endsValue hend, runLength, if_neg (fun h => goesOn_iff.1 h hend)]
      rfl
    · rw [valueRun_cons_of_not_endsValue hend, runLength, if_pos (goesOn_iff.2 hend), ih]
      rfl

theorem head?_tries_valuePattern (group : Nat) (s : Attempt) :
    ((valuePattern group).tries line s).head? = (value? (line.drop s.column)).map (fun value =>
      { column := s.column + value.length, groups := (group, ⟨s.column, value⟩) :: s.groups }) := by
  rw [valuePattern, tries, tries_notKeyword]
  unfold value?
  split
  · rfl
  rw [List.flatMap_singleton, tries, tries_atLeastOne (steps_valueCharacter line), runLength_goesOn]
  obtain ⟨rest, hsplit, -, -⟩ := isValueRun_valueRun (line.drop s.column)
  cases hrun : valueRun (line.drop s.column) with
  | nil => rfl
  | cons c run =>
    have htake : (line.drop s.column).take (run.length + 1) = c :: run := by
      rw [hsplit, hrun, ← List.length_cons, List.take_left]
    simp only [List.length_cons, List.head?_map, head?_backingOff, Attempt.advance_advance,
      Option.map_some]
    simp [Attempt.advance, htake, Nat.add_comm]

theorem tries_valuePattern_of_gap (group : Nat) (s : Attempt)
    (h : (line.drop s.column).head?.any isGap = true) : (valuePattern group).tries line s = [] := by
  rw [← List.head?_eq_none_iff, head?_tries_valuePattern, Option.map_eq_none_iff]
  cases hvalue : value? (line.drop s.column) with
  | none => rfl
  | some value =>
    rw [(value?_iff.1 hvalue).not_gap] at h
    cases h

theorem drop_takeWhile (p : CodePoint → Bool) (t : Text) :
    t.drop (t.takeWhile p).length = t.dropWhile p := by
  have hsplit := congrArg (List.drop (t.takeWhile p).length) (@List.takeWhile_append_dropWhile _ p t)
  rw [List.drop_left] at hsplit
  exact hsplit.symm

/-! ## Assignment signs -/

theorem startsWith_colon_equals (t : Text) :
    Text.startsWith t ":=" = (Text.startsWith t ":" && Text.startsWith (t.drop 1) "=") := by
  cases t with
  | nil => rfl
  | cons c t =>
    by_cases hc : c = CodePoint.ofChar ':' <;> simp [Text.startsWith, Text.ofString, Text.after?, hc]

/-- The colon is given back only where no equals sign can follow it. -/
theorem tries_assignment (follow : Pattern) (s : Attempt) :
    (both (atMostOne (literal ":")) (both (literal "=") follow)).tries line s
      = match assignment? (line.drop s.column) with
        | some sign => follow.tries line (s.advance sign.length)
        | none => [] := by
  have hequals : ∀ s : Attempt, (both (literal "=") follow).tries line s
      = if Text.startsWith (line.drop s.column) "=" then follow.tries line (s.advance 1) else [] := by
    intro s
    rw [tries, tries_literal]
    split
    · exact List.flatMap_singleton ..
    · rfl
  have hcolon : (both (atMostOne (literal ":")) (both (literal "=") follow)).tries line s
      = (if Text.startsWith (line.drop s.column) ":=" then follow.tries line (s.advance 2) else [])
        ++ if Text.startsWith (line.drop s.column) "=" then follow.tries line (s.advance 1)
          else [] := by
    rw [tries, atMostOne, tries, tries_literal, List.flatMap_append, startsWith_colon_equals,
      ← Attempt.drop_advance, tries, List.flatMap_singleton, hequals s]
    congr 1
    split
    · rename_i h
      rw [List.flatMap_singleton, h, Bool.true_and, hequals, Attempt.advance_advance]
      rfl
    · rename_i h
      rw [eq_false_of_ne_true h]
      rfl
  rw [hcolon]
  generalize line.drop s.column = t
  cases hassignment : assignment? t with
  | none =>
    have hnone : ∀ sign ∈ assignmentSigns, ¬ Text.startsWith t sign = true :=
      List.find?_eq_none.1 hassignment
    simp [assignmentSigns] at hnone
    simp [hnone]
  | some sign =>
    have honly := fun other => @startsWith_of_find? _ _ _ other signs_prefix_free hassignment
    have hmem := (assignment?_iff.1 hassignment).1
    rw [honly "=" (by decide), honly ":=" (by decide)]
    simp only [assignmentSigns, List.mem_cons, List.not_mem_nil, or_false] at hmem
    rcases hmem with rfl | rfl
    · rfl
    · exact List.append_nil _

/-! ## The tail -/

def afterValue (s : Attempt) : ConstantValue → Attempt
  | .absent => s
  | .assigned value => { column := value.stop, groups := (2, value) :: s.groups }
  | .spaced value => { column := value.stop, groups := (3, value) :: s.groups }

theorem head?_tries_assignedPattern (s : Attempt) : (assignedPattern.tries line s).head?
    = (assignedValue? (line.drop s.column)).map (fun found =>
        afterValue s (.assigned ⟨s.column + found.1, found.2⟩)) := by
  have hrefuse : ∀ s : Attempt, (line.drop s.column).head?.any isGap = true →
      (both (atMostOne (literal ":")) (both (literal "=")
        (both (many (one isGap)) (valuePattern 2)))).tries line s = [] := by
    intro s hgap
    rw [tries_assignment]
    cases hsign : assignment? (line.drop s.column) with
    | none => rfl
    | some sign =>
      obtain ⟨hmem, rest, hrest⟩ := assignment?_iff.1 hsign
      rw [← hrest, not_gap_of_sign hmem rest] at hgap
      cases hgap
  unfold assignedPattern gapPattern assignedValue?
  rw [tries_many_both hrefuse, tries_assignment, Attempt.drop_advance, drop_takeWhile]
  dsimp only [bind]
  cases assignment? ((line.drop s.column).dropWhile isGap) with
  | none => rfl
  | some sign =>
    simp only [tries_many_both (tries_valuePattern_of_gap 2), head?_tries_valuePattern,
      Attempt.drop_advance, drop_takeWhile, Option.bind_some]
    cases value? ((((line.drop s.column).dropWhile isGap).drop sign.length).dropWhile isGap) with
    | none => rfl
    | some value => simp [afterValue, Attempt.advance, Excerpt.stop, Nat.add_assoc]

theorem head?_tries_spacedPattern (s : Attempt) : (spacedPattern.tries line s).head?
    = (spacedValue? (line.drop s.column)).map (fun found =>
        afterValue s (.spaced ⟨s.column + found.1, found.2⟩)) := by
  unfold spacedPattern gapPattern spacedValue?
  rw [tries_atLeastOne_both (tries_valuePattern_of_gap 3)]
  dsimp only [bind]
  cases ((line.drop s.column).takeWhile isGap).isEmpty with
  | true => rfl
  | false =>
    simp only [Bool.false_eq_true, if_false, head?_tries_valuePattern, Attempt.drop_advance,
      drop_takeWhile]
    cases value? ((line.drop s.column).dropWhile isGap) with
    | none => rfl
    | some value => simp [afterValue, Attempt.advance, Excerpt.stop, Nat.add_assoc, guard]

theorem head?_tries_tail (s : Attempt) :
    ((atMostOne (either assignedPattern spacedPattern)).tries line s).head?
      = some (afterValue s (constantValue s.column (line.drop s.column))) := by
  simp only [atMostOne, tries, List.head?_append, head?_tries_assignedPattern,
    head?_tries_spacedPattern]
  unfold constantValue
  cases assignedValue? (line.drop s.column) with
  | some found => rfl
  | none =>
    cases spacedValue? (line.drop s.column) with
    | some found => rfl
    | none => rfl

/-! ## Names -/

theorem tries_namePattern (s : Attempt) : namePattern.tries line s
    = match identifier? (line.drop s.column) with
      | some name => backingOff (s.advance 1) (name.length - 1)
      | none => [] := by
  unfold namePattern identifier?
  rw [tries, tries]
  cases hrest : line.drop s.column with
  | nil => rfl
  | cons c rest =>
    have hdrop : line.drop (s.advance 1).column = rest := by rw [Attempt.drop_advance, hrest]; rfl
    by_cases hword : c.isWord
    · by_cases hdigit : c.isDecimalDigit
      · simp [hword, hdigit]
      · simp [hword, hdigit, tries_many (steps_one line CodePoint.isWord), runLength_head, hdrop]
    · simp [hword]

theorem head?_tries_name {follow : Pattern} (hfollow : ∀ s : Attempt, follow.tries line s ≠ [])
    (s : Attempt) : ((both (capture 1 namePattern) follow).tries line s).head?
      = (identifier? (line.drop s.column)).bind fun name => (follow.tries line
          { column := s.column + name.length
            groups := (1, ⟨s.column, name⟩) :: s.groups }).head? := by
  rw [tries, tries, tries_namePattern]
  cases hname : identifier? (line.drop s.column) with
  | none => rfl
  | some name =>
    obtain ⟨rest, hsplit, hisName⟩ := identifier?_iff.1 hname
    have hpos := List.length_pos_iff.2 hisName.nonempty
    have hlength : s.column + 1 + (name.length - 1) = s.column + name.length := by omega
    simp only [List.flatMap_map, Option.bind_some]
    rw [head?_flatMap_backingOff]
    · simp only [Attempt.advance, hlength, Nat.add_sub_cancel_left, hsplit, List.take_left]
    · exact hfollow _

/-! ## Constants -/

def attemptOf (d : ConstantDeclaration) : Attempt :=
  afterValue { column := d.name.stop, groups := [(1, d.name)] } d.value

/-- **The match of the pattern at a column is the constant that is recognised there.** -/
theorem matchAt?_constantPattern (line : Text) (column : Nat) :
    constantPattern.matchAt? line column = (recognisedAt? constantAt? line column).map attemptOf := by
  have htail : ∀ s : Attempt,
      (atMostOne (either assignedPattern spacedPattern)).tries line s ≠ [] := by
    intro s hnil
    have hsome := @head?_tries_tail line s
    rw [hnil] at hsome
    cases hsome
  have hrefuse : ∀ s : Attempt, (line.drop s.column).head?.any isGap = true →
      (both (capture 1 namePattern) (atMostOne (either assignedPattern spacedPattern))).tries line s
        = [] := by
    intro s hgap
    rw [← List.head?_eq_none_iff, head?_tries_name htail]
    cases hname : identifier? (line.drop s.column) with
    | none => rfl
    | some name =>
      obtain ⟨rest, hsplit, hisName⟩ := identifier?_iff.1 hname
      rw [hsplit, not_gap_of_name hisName] at hgap
      cases hgap
  unfold matchAt? constantPattern gapPattern recognisedAt? constantAt?
  dsimp only [bind, guard]
  rw [tries, tries]
  cases hbefore : (line.take column).getLast?.any (fun c => c.isWord || c = CodePoint.ofChar '#') with
  | true =>
    rw [if_pos rfl, if_neg (fun h => by rw [mayStart_iff.1 h] at hbefore; cases hbefore)]
    rfl
  | false =>
    rw [if_neg Bool.false_ne_true, if_pos (mayStart_iff.2 hbefore), List.flatMap_singleton, tries,
      tries_keywordPattern]
    cases constantKeyword? (line.drop column) with
    | none => rfl
    | some keyword =>
      simp only [Option.map_some, Option.toList_some, List.flatMap_singleton, Option.bind_some,
        Option.pure_def, tries_atLeastOne_both hrefuse, Attempt.drop_advance]
      cases (((line.drop column).drop keyword.length).takeWhile isGap).isEmpty with
      | true => rfl
      | false =>
        simp only [Bool.false_eq_true, if_false, head?_tries_name htail, Attempt.drop_advance,
          drop_takeWhile, Bool.not_false, if_true, Option.bind_some]
        cases identifier? (((line.drop column).drop keyword.length).dropWhile isGap) with
        | none => rfl
        | some name =>
          simp only [Option.bind_some, Option.map_some, head?_tries_tail, attemptOf, Excerpt.stop,
            Attempt.advance, ← drop_takeWhile, List.drop_drop, Nat.add_assoc]

theorem attemptOf_column {column : Nat} {d : ConstantDeclaration} (h : ConstantAt line column d) :
    (attemptOf d).column = column + d.toDeclaration.size := by
  rw [h.column_add_size]
  unfold attemptOf
  cases d.value <;> rfl

/-- **The constants of a line are the matches of the pattern, and these are the declarations of the
grammar**: each match ends where its declaration ends, the leftmost is taken first and the search
resumes behind it.  A captured value is no keyword and holds no blank, no `;` and no `//`. -/
theorem constant_matches (line : Text) :
    (∀ column m, constantPattern.matchAt? line column = some m
      ↔ ∃ d, ConstantAt line column d ∧ m = attemptOf d ∧ m.column = column + d.toDeclaration.size)
    ∧ (∀ found, LeftmostFrom (ConstantAt line) (fun d => d.toDeclaration.size) 0 found
      ↔ found = constantDeclarations line)
    ∧ ∀ d ∈ constantDeclarations line, ∀ e, d.value.excerpt? = some e →
        e.text ∉ constantKeywords ∧ (∀ c ∈ e.text, c.isBlank = false ∧ c ≠ CodePoint.ofChar ';')
        ∧ ¬ Text.ofString "//" <:+: e.text := by
  refine ⟨fun column m => ?_, fun found => ?_, fun d hd e he => ?_⟩
  · rw [matchAt?_constantPattern, Option.map_eq_some_iff]
    refine exists_congr fun d => ?_
    rw [recognisedAt?_constantAt?]
    constructor
    · rintro ⟨hat, rfl⟩
      exact ⟨hat, rfl, attemptOf_column hat⟩
    · rintro ⟨hat, rfl, -⟩
      exact ⟨hat, rfl⟩
  · constructor
    · intro h
      exact LeftmostFrom.unique (fun _ _ _ hat => hat.unique) h (leftmost_constantDeclarations line)
    · rintro rfl
      exact leftmost_constantDeclarations line
  · obtain ⟨column, hat⟩ := mem_constantDeclarations hd
    obtain ⟨-, hvalue⟩ := hat.valueAt he
    exact ⟨hvalue.not_keyword, fun c hc => hvalue.mem hc, hvalue.no_slashes⟩

theorem constant_matches_of_assigned :
    (constantDeclarations "byte A word B:= 7/8//9").map (·.value.excerpt?)
      = [none, some ⟨16, "7/8"⟩]
    ∧ Text.ofString "7/8" ∉ constantKeywords ∧ ¬ Text.ofString "//" <:+: Text.ofString "7/8" := by
  have hvalues : (constantDeclarations "byte A word B:= 7/8//9").map (·.value.excerpt?)
      = [none, some ⟨16, "7/8"⟩] := by decide +kernel
  obtain ⟨d, hd, he⟩ : ∃ d ∈ constantDeclarations "byte A word B:= 7/8//9",
      d.value.excerpt? = some ⟨16, "7/8"⟩ := by
    rw [← List.mem_map, hvalues]
    exact List.mem_cons_of_mem _ List.mem_cons_self
  obtain ⟨hkeyword, -, hslashes⟩ := (constant_matches _).2.2 d hd _ he
  exact ⟨hvalues, hkeyword, hslashes⟩

end OutlineServer.Source
