import OutlineServer.Proofs.Source.ConstantPattern
import OutlineServer.Proofs.Source.DeclarationGrammar

/-!
# The patterns of functions and variables

Function heads and variables are described by patterns that are matched by trying.  The match at a
column is the declaration of the form that stands there (`matchAt?_functionPattern`,
`matchAt?_variablePattern`).  A name is not shortened for a parenthesis, which is no word character.
The blanks before a star may be given back to the blanks behind it, but that leads to the same name or
to none.
-/
namespace OutlineServer.Source

open Pattern

/-- `\bfunc\s+([^\W\d]\w*)\s*\(` -/
def functionPattern : Pattern :=
  both wordBoundary (both (literal functionKeyword) (both (atLeastOne (one CodePoint.isBlank))
    (both (capture 1 namePattern) (both (many (one CodePoint.isBlank)) (literal "(")))))

/-- `\bvar\s+\*?\s*([^\W\d]\w*)` -/
def variablePattern : Pattern :=
  both wordBoundary (both (literal variableKeyword) (both (atLeastOne (one CodePoint.isBlank))
    (both (atMostOne (literal "*")) (both (many (one CodePoint.isBlank)) (capture 1 namePattern)))))

def declared (d : Declaration) : Attempt := { column := d.whole.stop, groups := [(1, d.name)] }

variable {line : Text}

/-- A keyword stands at a boundary of words when no word character stands before it. -/
theorem tries_keyword (form : DeclarationForm) (follow : Pattern) (s : Attempt) :
    (both wordBoundary (both (literal form.keyword) follow)).tries line s
      = if wordMayStart (line.take s.column).getLast? && Text.startsWith (line.drop s.column) form.keyword
        then follow.tries line (s.advance form.keyword.length) else [] := by
  rw [tries, tries]
  by_cases hstarts : Text.startsWith (line.drop s.column) form.keyword = true
  · have hword : (line.drop s.column).head?.any CodePoint.isWord = true := by
      obtain ⟨rest, hrest⟩ := Text.startsWith_iff.1 hstarts
      obtain ⟨c, tail, hkeyword⟩ := List.exists_cons_of_ne_nil form.keyword_ne_nil
      rw [← hrest, hkeyword]
      exact form.keyword_word c (by rw [hkeyword]; exact List.mem_cons_self)
    rw [hword, hstarts, wordMayStart]
    cases (line.take s.column).getLast?.any CodePoint.isWord with
    | true => rfl
    | false => simp [tries, tries_literal, hstarts]
  · rw [eq_false_of_ne_true hstarts, Bool.and_false, if_neg Bool.false_ne_true]
    split
    · rfl
    · simp [tries, tries_literal, hstarts]

theorem matchAt?_keyword {form : DeclarationForm} {follow : Pattern} {column : Nat}
    {body : Text → Option Declaration} (h : ∀ rest, line.drop column = form.keyword ++ rest →
      (follow.tries line (Attempt.advance { column } form.keyword.length)).head?
        = (body rest).map declared) :
    (both wordBoundary (both (literal form.keyword) follow)).matchAt? line column
      = Option.map declared (do
          guard (wordMayStart (line.take column).getLast?)
          let rest ← Text.after? (line.drop column) form.keyword
          body rest) := by
  rw [matchAt?, tries_keyword]
  cases wordMayStart (line.take column).getLast? with
  | false => rfl
  | true =>
    cases hkeyword : Text.after? (line.drop column) form.keyword with
    | none => simp [Text.startsWith, hkeyword]
    | some rest =>
      simp only [Text.startsWith, hkeyword, Option.isSome_some, Bool.and_true, if_true]
      exact h rest (Text.after?_eq_some.1 hkeyword)

/-! ## Names -/

def afterName (s : Attempt) (name : Text) : Attempt :=
  { column := s.column + name.length, groups := (1, ⟨s.column, name⟩) :: s.groups }

theorem drop_afterName (line : Text) (s : Attempt) (name : Text) :
    line.drop (afterName s name).column = (line.drop s.column).drop name.length := by
  rw [List.drop_drop]
  rfl

theorem head?_tries_capture (s : Attempt) : ((capture 1 namePattern).tries line s).head?
    = (identifier? (line.drop s.column)).map (afterName s) := by
  rw [tries, tries_namePattern]
  cases hname : identifier? (line.drop s.column) with
  | none => rfl
  | some name =>
    obtain ⟨rest, hsplit, hisName⟩ := identifier?_iff.1 hname
    have hpos := List.length_pos_iff.2 hisName.nonempty
    have hlength : s.column + 1 + (name.length - 1) = s.column + name.length := by omega
    simp [head?_backingOff, Attempt.advance, hlength, hsplit, afterName]

theorem tries_capture_eq_nil {s : Attempt} (h : identifier? (line.drop s.column) = none) :
    (capture 1 namePattern).tries line s = [] := by
  rw [← List.head?_eq_none_iff, head?_tries_capture, h]
  rfl

theorem tries_name_both {follow : Pattern} (hrefuse : ∀ s : Attempt,
    (line.drop s.column).head?.any CodePoint.isWord = true → follow.tries line s = []) (s : Attempt) :
    (both (capture 1 namePattern) follow).tries line s
      = ((identifier? (line.drop s.column)).map fun name =>
          follow.tries line (afterName s name)).getD [] := by
  rw [tries, tries, tries_namePattern]
  cases hname : identifier? (line.drop s.column) with
  | none => rfl
  | some name =>
    obtain ⟨rest, hsplit, hisName⟩ := identifier?_iff.1 hname
    have hpos := List.length_pos_iff.2 hisName.nonempty
    have hlength : s.column + 1 + (name.length - 1) = s.column + name.length := by omega
    simp only [List.flatMap_map, Option.map_some, Option.getD_some]
    rw [flatMap_backingOff]
    · simp [Attempt.advance, hlength, hsplit, afterName]
    · intro i hi
      apply hrefuse
      have hlt : 1 + i < name.length := by omega
      simp only [Attempt.advance, Nat.add_assoc]
      rw [← List.drop_drop, hsplit, List.head?_drop, List.getElem?_append_left hlt,
        List.getElem?_eq_getElem hlt]
      exact hisName.word _ (List.getElem_mem _)

theorem identifier?_of_blank {t : Text} (h : t.head?.any CodePoint.isBlank = true) :
    identifier? t = none := by
  cases hname : identifier? t with
  | none => rfl
  | some name =>
    obtain ⟨rest, rfl, hisName⟩ := identifier?_iff.1 hname
    rw [hisName.not_blank] at h
    cases h

/-! ## Function heads -/

theorem tries_parenthesis (s : Attempt) :
    (both (many (one CodePoint.isBlank)) (literal "(")).tries line s
      = if Text.startsWith ((line.drop s.column).dropWhile CodePoint.isBlank) "("
        then [s.advance (((line.drop s.column).takeWhile CodePoint.isBlank).length + 1)] else [] := by
  have hrefuse : ∀ s : Attempt, (line.drop s.column).head?.any CodePoint.isBlank = true →
      (literal "(").tries line s = [] := by
    intro s hblank
    rw [tries_literal, if_neg]
    intro hstarts
    obtain ⟨rest, hrest⟩ := Text.startsWith_iff.1 hstarts
    rw [← hrest] at hblank
    have hparen : CodePoint.isBlank (CodePoint.ofChar '(') = true := hblank
    exact absurd hparen (by decide)
  rw [tries_many_both hrefuse, tries_literal, Attempt.drop_advance, drop_takeWhile,
    Attempt.advance_advance]
  rfl

theorem tries_parenthesis_of_word (s : Attempt)
    (h : (line.drop s.column).head?.any CodePoint.isWord = true) :
    (both (many (one CodePoint.isBlank)) (literal "(")).tries line s = [] := by
  rw [tries_parenthesis, if_neg]
  cases hrest : line.drop s.column with
  | nil => simp [hrest] at h
  | cons c rest =>
    have hword : c.isWord = true := by simpa [hrest] using h
    have hblank : c.isBlank = false := by
      by_contra hblank
      rw [CodePoint.isWord_of_isBlank (eq_true_of_ne_false hblank)] at hword
      cases hword
    rw [List.dropWhile_cons_of_neg (by simp [hblank]), Text.startsWith_iff]
    rintro ⟨rest', hparen⟩
    rw [← (List.cons.inj hparen).1] at hword
    exact absurd hword (by decide +kernel)

theorem tries_blanks_name {follow : Pattern} (hrefuse : ∀ s : Attempt,
    (line.drop s.column).head?.any CodePoint.isWord = true → follow.tries line s = []) (s : Attempt)
    (h : (line.drop s.column).head?.any CodePoint.isBlank = true) :
    (both (capture 1 namePattern) follow).tries line s = [] := by
  rw [tries_name_both hrefuse, identifier?_of_blank h]
  rfl

theorem length_split (t : Text) : t.length = (t.takeWhile CodePoint.isBlank).length
    + (t.dropWhile CodePoint.isBlank).length := by
  rw [← List.length_append, List.takeWhile_append_dropWhile]

theorem functionHead_fits {t rest tail after name : Text} (hrest : t = functionForm.keyword ++ rest)
    (htail : rest.dropWhile CodePoint.isBlank = name ++ tail)
    (hafter : tail.dropWhile CodePoint.isBlank = Text.ofString "(" ++ after) :
    functionForm.keyword.length + (rest.takeWhile CodePoint.isBlank).length + name.length
      + (tail.takeWhile CodePoint.isBlank).length + 1 ≤ t.length := by
  have hone : (Text.ofString "(").length = 1 := rfl
  have hlength := length_split rest
  have hlength' := length_split tail
  rw [htail, List.length_append] at hlength
  rw [hafter, List.length_append] at hlength'
  rw [hrest, List.length_append]
  omega

/-- **The match of the pattern at a column is the function head that is recognised there.** -/
theorem matchAt?_functionPattern (line : Text) (column : Nat) :
    functionPattern.matchAt? line column
      = (recognisedAt? functionHeadAt? line column).map declared := by
  unfold functionPattern recognisedAt? functionHeadAt?
  rw [show functionKeyword = functionForm.keyword from rfl]
  refine @matchAt?_keyword line functionForm _ column _ fun rest hrest => ?_
  have hdrop : (line.drop column).drop functionForm.keyword.length = rest := by
    rw [hrest, List.drop_left]
  simp only [tries_atLeastOne_both (tries_blanks_name tries_parenthesis_of_word), Attempt.drop_advance,
    hdrop, bind, guard]
  cases hgap : (rest.takeWhile CodePoint.isBlank).isEmpty with
  | true => rfl
  | false =>
    simp only [Bool.false_eq_true, if_false, Bool.not_false, if_true, Option.bind_some, Option.pure_def,
      tries_name_both tries_parenthesis_of_word, Attempt.drop_advance, hdrop, drop_takeWhile]
    cases hname : identifier? (rest.dropWhile CodePoint.isBlank) with
    | none => rfl
    | some name =>
      obtain ⟨tail, htail, -⟩ := identifier?_iff.1 hname
      simp only [Option.map_some, Option.getD_some, Option.bind_some, tries_parenthesis,
        drop_afterName, Attempt.drop_advance, hdrop, drop_takeWhile, htail, List.drop_left]
      cases hparen : Text.after? (tail.dropWhile CodePoint.isBlank) "(" with
      | none => simp [Text.startsWith, hparen]
      | some after =>
        have hlength := List.length_take_of_le
          (functionHead_fits hrest htail (Text.after?_eq_some.1 hparen))
        simp only [Text.startsWith, hparen, Option.isSome_some, if_true, List.head?_cons,
          Option.bind_some, Option.map_some, declared, Excerpt.stop, hlength]
        simp only [afterName, Attempt.advance, Nat.add_assoc]

/-! ## Variables -/

/-- `\*?\s*([^\W\d]\w*)` -/
def starredName : Pattern :=
  both (atMostOne (literal "*")) (both (many (one CodePoint.isBlank)) (capture 1 namePattern))

theorem drop_pastStar (t : Text) : t.drop (pastStar t).1 = (pastStar t).2 := by
  obtain ⟨star, -, hlength, hsplit⟩ := pastStar_split t
  rw [hlength]
  conv => lhs; rw [hsplit]
  exact List.drop_left

theorem tries_pause_name (s : Attempt) :
    (both (many (one CodePoint.isBlank)) (capture 1 namePattern)).tries line s
      = (capture 1 namePattern).tries line
          (s.advance ((line.drop s.column).takeWhile CodePoint.isBlank).length) :=
  tries_many_both (fun _ h => tries_capture_eq_nil (identifier?_of_blank h)) s

theorem identifier?_of_star (t : Text) : identifier? (Text.ofString "*" ++ t) = none := by
  have hstar : (CodePoint.ofChar '*').isWord = false := by decide
  unfold identifier?
  rw [show Text.ofString "*" ++ t = CodePoint.ofChar '*' :: t from rfl,
    List.takeWhile_cons_of_neg (by simp [hstar])]

/-- A star is not given back, since no name begins with it. -/
theorem tries_starredName (s : Attempt) : starredName.tries line s
    = (capture 1 namePattern).tries line (s.advance ((pastStar (line.drop s.column)).1
        + ((pastStar (line.drop s.column)).2.takeWhile CodePoint.isBlank).length)) := by
  rw [starredName, tries, atMostOne, tries, tries_literal, tries, List.flatMap_append,
    List.flatMap_singleton, tries_pause_name s]
  cases hstar : Text.after? (line.drop s.column) "*" with
  | none => simp [Text.startsWith, pastStar, hstar]
  | some rest =>
    have hrest := Text.after?_eq_some.1 hstar
    have hnone : ((line.drop s.column).takeWhile CodePoint.isBlank) = [] := by
      rw [hrest]
      rfl
    have hnil : (capture 1 namePattern).tries line s = [] := by
      apply tries_capture_eq_nil
      rw [hrest, identifier?_of_star]
    have hdrop : line.drop (s.advance 1).column = rest := by
      rw [Attempt.drop_advance, hrest]
      rfl
    have hone : (Text.ofString "*").length = 1 := rfl
    rw [hnone, List.length_nil, Attempt.advance_zero, hnil, List.append_nil]
    simp only [Text.startsWith, pastStar, hstar, Option.isSome_some, if_true]
    rw [List.flatMap_singleton, hone, tries_pause_name, hdrop, Attempt.advance_advance]

theorem tries_starredName_of_blanks {s : Attempt} {gap rest : Text}
    (hsplit : line.drop s.column = gap ++ rest) (hne : gap ≠ []) (hgap : AllBlank gap)
    (hrest : rest.head?.any CodePoint.isBlank = false) :
    starredName.tries line s = (capture 1 namePattern).tries line (s.advance gap.length) := by
  have hpast : pastStar (gap ++ rest) = (0, gap ++ rest) := by
    obtain ⟨c, gap, rfl⟩ := List.exists_cons_of_ne_nil hne
    have hstar : c ≠ CodePoint.ofChar '*' := by
      rintro rfl
      exact absurd (hgap _ List.mem_cons_self) (by decide)
    simp [pastStar, Text.after?, Text.ofString, hstar]
  rw [tries_starredName, hsplit, hpast, (span_of_split hgap hrest).1, Nat.zero_add]

theorem tries_name_of_starredName {s : Attempt} (h : starredName.tries line s = [])
    (hrest : (line.drop s.column).head?.any CodePoint.isBlank = false) :
    (capture 1 namePattern).tries line s = [] := by
  rw [tries_starredName] at h
  obtain ⟨star, hstar, hlength, hsplit⟩ := pastStar_split (line.drop s.column)
  rcases hstar with rfl | rfl
  · have hnone := (@span_of_split CodePoint.isBlank [] _ (by simp) hrest).1
    rw [hlength, List.length_nil, Nat.zero_add] at h
    rw [List.nil_append] at hsplit hnone
    rw [← hsplit, hnone] at h
    exact h
  · apply tries_capture_eq_nil
    rw [hsplit, identifier?_of_star]

/-- **Blanks that are given back lead to no other name.** -/
theorem head?_tries_gap (s : Attempt) :
    ((both (atLeastOne (one CodePoint.isBlank)) starredName).tries line s).head?
      = if ((line.drop s.column).takeWhile CodePoint.isBlank).isEmpty then none
        else (starredName.tries line
          (s.advance ((line.drop s.column).takeWhile CodePoint.isBlank).length)).head? := by
  rw [tries, tries_atLeastOne (steps_one line CodePoint.isBlank), runLength_head]
  have hsplit := @List.takeWhile_append_dropWhile _ CodePoint.isBlank (line.drop s.column)
  have hblank := allBlank_takeWhile (line.drop s.column)
  have hrest := head?_dropWhile CodePoint.isBlank (line.drop s.column)
  generalize (line.drop s.column).takeWhile CodePoint.isBlank = gap at hsplit hblank ⊢
  generalize (line.drop s.column).dropWhile CodePoint.isBlank = rest at hsplit hrest
  cases gap with
  | nil => rfl
  | cons c gap =>
    have hall : (s.advance 1).advance gap.length = s.advance (gap.length + 1) := by
      rw [Attempt.advance_advance, Nat.add_comm]
    simp only [List.length_cons, List.isEmpty_cons, Bool.false_eq_true, if_false]
    rw [head?_flatMap_backingOff_of_nil, hall]
    intro hnil i hi
    rw [hall] at hnil
    have hdrop : line.drop (s.advance (gap.length + 1)).column = rest := by
      rw [Attempt.drop_advance, ← hsplit]
      exact List.drop_left
    have hdrop' : line.drop ((s.advance 1).advance i).column = gap.drop i ++ rest := by
      rw [Attempt.drop_advance, Attempt.drop_advance, ← hsplit]
      exact List.drop_append_of_le_length hi.le
    have hblank' : AllBlank (gap.drop i) := fun c hc =>
      hblank c (List.mem_cons_of_mem _ (List.mem_of_mem_drop hc))
    rw [tries_starredName_of_blanks hdrop' (by simpa using hi) hblank' hrest]
    have hsame : ((s.advance 1).advance i).advance (gap.drop i).length
        = s.advance (gap.length + 1) := by
      rw [Attempt.advance_advance, Attempt.advance_advance, List.length_drop]
      congr 1
      omega
    rw [hsame]
    exact tries_name_of_starredName hnil (hdrop ▸ hrest)

theorem variable_fits {t rest tail name : Text} {past : Nat × Text}
    (hrest : t = variableForm.keyword ++ rest) (hpast : pastStar (rest.dropWhile CodePoint.isBlank) = past)
    (htail : past.2.dropWhile CodePoint.isBlank = name ++ tail) :
    variableForm.keyword.length + (rest.takeWhile CodePoint.isBlank).length + past.1
      + (past.2.takeWhile CodePoint.isBlank).length + name.length ≤ t.length := by
  obtain ⟨star, -, hstar, hsplit⟩ := pastStar_split (rest.dropWhile CodePoint.isBlank)
  have hlength := length_split rest
  have hlength' := length_split past.2
  rw [hpast] at hstar hsplit
  rw [hsplit, List.length_append] at hlength
  rw [htail, List.length_append] at hlength'
  rw [hrest, List.length_append]
  omega

theorem matchAt?_variablePattern (line : Text) (column : Nat) :
    variablePattern.matchAt? line column = (recognisedAt? variableAt? line column).map declared := by
  unfold variablePattern recognisedAt? variableAt?
  rw [show variableKeyword = variableForm.keyword from rfl, ← starredName]
  refine @matchAt?_keyword line variableForm _ column _ fun rest hrest => ?_
  have hdrop : (line.drop column).drop variableForm.keyword.length = rest := by
    rw [hrest, List.drop_left]
  simp only [head?_tries_gap, Attempt.drop_advance, hdrop, bind, guard]
  cases hgap : (rest.takeWhile CodePoint.isBlank).isEmpty with
  | true => rfl
  | false =>
    simp only [Bool.false_eq_true, if_false, Bool.not_false, if_true, Option.bind_some, Option.pure_def,
      tries_starredName, head?_tries_capture, Attempt.drop_advance, hdrop, drop_takeWhile]
    have hpast : (rest.dropWhile CodePoint.isBlank).drop
        ((pastStar (rest.dropWhile CodePoint.isBlank)).1
          + ((pastStar (rest.dropWhile CodePoint.isBlank)).2.takeWhile CodePoint.isBlank).length)
        = (pastStar (rest.dropWhile CodePoint.isBlank)).2.dropWhile CodePoint.isBlank := by
      rw [← List.drop_drop, drop_pastStar, drop_takeWhile]
    rw [hpast]
    cases hname : identifier?
        ((pastStar (rest.dropWhile CodePoint.isBlank)).2.dropWhile CodePoint.isBlank) with
    | none => rfl
    | some name =>
      obtain ⟨tail, htail, -⟩ := identifier?_iff.1 hname
      have hlength := List.length_take_of_le (variable_fits hrest rfl htail)
      simp only [Option.bind_some, Option.map_some, declared, Excerpt.stop, hlength]
      simp only [afterName, Attempt.advance, Nat.add_assoc]

/-! ## What is found -/

/-- What a pattern finds are the declarations of a form: the match at a column is the declaration that
stands there, and the leftmost is taken first. -/
structure Finds (p : Pattern) (form : DeclarationForm) (line : Text) (found : List Declaration) : Prop where
  matchAt : ∀ column m, p.matchAt? line column = some m ↔
    ∃ d, form.At line column d ∧ m = { column := column + d.size, groups := [(1, d.name)] }
  leftmost : ∀ list, LeftmostFrom (form.At line) Declaration.size 0 list ↔ list = found

theorem finds_of_recognised {p : Pattern} {form : DeclarationForm} {recognise : Recogniser Declaration}
    (h : form.RecognisedBy recognise)
    (hmatch : ∀ line column, p.matchAt? line column = (recognisedAt? recognise line column).map declared)
    (line : Text) : Finds p form line (occurrences recognise Declaration.size line) := by
  constructor
  · intro column m
    rw [hmatch, Option.map_eq_some_iff]
    refine exists_congr fun d => ?_
    rw [h]
    refine and_congr_right fun hat => ?_
    rw [declared, Excerpt.stop, hat.whole_start, eq_comm]
    rfl
  · intro list
    constructor
    · intro hlist
      exact hlist.unique (fun _ _ _ ha hb => ha.unique h hb) (leftmost_declarations h line)
    · rintro rfl
      exact leftmost_declarations h line

theorem not_functionEnd {front rest : Text} {column : Nat} {d : Declaration}
    (h : functionForm.At (front ++ (functionEndKeyword ++ rest)) column d) :
    column < front.length ∨ front.length + functionEndKeyword.length ≤ column := by
  obtain ⟨hbefore, between, name, behind, rest', hdrop, -⟩ := DeclarationForm.at_iff.1 h
  by_contra hinside
  obtain ⟨k, rfl⟩ := Nat.exists_eq_add_of_le (show front.length ≤ column by omega)
  cases k with
  | zero =>
    rw [Nat.add_zero, List.drop_left] at hdrop
    exact absurd (List.cons.inj hdrop).1 (by decide)
  | succ k =>
    have hword : ∀ c ∈ functionEndKeyword, c.isWord = true := by decide +kernel
    have hle : k + 1 ≤ functionEndKeyword.length := by omega
    have hne : functionEndKeyword.take (k + 1) ≠ [] := by
      rw [← List.length_pos_iff, List.length_take]
      omega
    rw [List.take_length_add_append, List.take_append_of_le_length hle, List.getLast?_append,
      List.getLast?_eq_some_getLast hne] at hbefore
    have hlast := hword _ (List.mem_of_mem_take (List.getLast_mem hne))
    rw [Option.some_or, Option.any_some, hlast] at hbefore
    cases hbefore

/-- **No function head and no variable is lost.**  Patterns find the declarations of their forms.  All
function heads of a line are found, and no two overlap.  A variable is found unless its keyword is the
name of another one that is found.  The end of a function is no head, and every name is a whole word
that does not begin with a digit. -/
theorem heads_and_variables_found (line : Text) :
    Finds functionPattern functionForm line (functionHeads line)
    ∧ Finds variablePattern variableForm line (variableDeclarations line)
    ∧ (∀ d, d ∈ functionHeads line ↔ ∃ column, functionForm.At line column d)
    ∧ (∀ column column' d d', functionForm.At line column d → functionForm.At line column' d' →
      column < column' → column + d.size ≤ column')
    ∧ (∀ column d, variableForm.At line column d →
      (d ∈ variableDeclarations line
        ↔ ∀ b ∈ variableDeclarations line, b.name ≠ ⟨column, variableKeyword⟩))
    ∧ (∀ front rest, line = front ++ (functionEndKeyword ++ rest) → ∀ d ∈ functionHeads line,
      d.whole.start < front.length ∨ front.length + functionEndKeyword.length ≤ d.whole.start)
    ∧ ∀ d, d ∈ functionHeads line ∨ d ∈ variableDeclarations line →
      WholeWord line d.name ∧ d.name.text.head?.any CodePoint.isDecimalDigit = false := by
  refine ⟨finds_of_recognised functionForm_recognised matchAt?_functionPattern line,
    finds_of_recognised variableForm_recognised matchAt?_variablePattern line,
    fun d => mem_functionHeads, fun column column' d d' => functionHeads_apart, ?_, ?_, ?_⟩
  · intro column d hat
    constructor
    · intro hd b hb hname
      apply name_start_ne variableForm_recognised hb hd
      rw [hname, hat.whole_start]
    · intro hno
      rcases mem_or_taken_for_name variableForm_recognised hat with hmem | ⟨b, hb, hname⟩
      · exact hmem
      · exact absurd hname (hno b hb)
  · rintro front rest rfl d hd
    exact not_functionEnd (at_of_mem_occurrences functionForm_recognised hd)
  · rintro d (hd | hd)
    · exact (at_of_mem_occurrences functionForm_recognised hd).wholeWord_name
    · exact (at_of_mem_occurrences variableForm_recognised hd).wholeWord_name

/-- The second `var` is the name of a variable, so `x` is not declared; the second `func` is no name,
so `f` is. -/
theorem heads_and_variables_found_behind_keywords :
    let line : Text := "var var x; endfunc func func f ("
    let x : Declaration := ⟨⟨4, "var x"⟩, ⟨8, "x"⟩⟩
    let f : Declaration := ⟨⟨24, "func f ("⟩, ⟨29, "f"⟩⟩
    variableForm.At line 4 x ∧ x ∉ variableDeclarations line
    ∧ functionForm.At line 24 f ∧ f ∈ functionHeads line ∧ WholeWord line f.name := by
  intro line x f
  obtain ⟨-, -, hheads, -, hvariables, -, hnames⟩ := heads_and_variables_found line
  have hx : variableForm.At line 4 x := (variableForm_recognised ..).1 (by decide +kernel)
  have hf : functionForm.At line 24 f := (functionForm_recognised ..).1 (by decide +kernel)
  have hvar : ⟨⟨0, "var var"⟩, ⟨4, "var"⟩⟩ ∈ variableDeclarations line := by decide +kernel
  have hmem := (hheads f).2 ⟨24, hf⟩
  exact ⟨hx, fun hfound => (hvariables 4 x hx).1 hfound _ hvar rfl, hf, hmem, (hnames f (.inl hmem)).1⟩

end OutlineServer.Source
