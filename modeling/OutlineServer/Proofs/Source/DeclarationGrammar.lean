import Mathlib.Data.List.Pairwise
import OutlineServer.Proofs.Source.ConstantGrammar
import OutlineServer.Proofs.Token.Words

/-!
# The grammar of functions and variables

A function head and a variable are declared in the same form: a keyword that is a whole word, something
that belongs to no word, the name, and what has to stand behind the name (`DeclarationForm`).  The
recognisers find exactly the declarations of the two forms (`functionForm_recognised`,
`variableForm_recognised`).

Only two words stand in such a declaration, its keyword and its name, so another declaration of the
same form that begins inside it begins with its name (`At.eq_name_of_inside`).  No function head does,
because its name would have to be followed both by a parenthesis and by another name; a variable may,
as in `var var x`.
-/
namespace OutlineServer.Source

open Token (words mem_words recognisedAt?_wordAt?_eq_some words_apart)

/-! ## Whole words -/

/-- The excerpt is a longest run of word characters of the line. -/
def WholeWord (line : Text) (e : Excerpt) : Prop :=
  ∃ front rest, line = front ++ (e.text ++ rest) ∧ e.start = front.length ∧ e.text ≠ []
    ∧ (∀ c ∈ e.text, c.isWord = true) ∧ front.getLast?.any CodePoint.isWord = false
    ∧ rest.head?.any CodePoint.isWord = false

theorem wordMayStart_iff {before : Option CodePoint} :
    wordMayStart before = true ↔ before.any CodePoint.isWord = false := by
  simp [wordMayStart]

theorem mem_words_iff {line : Text} {e : Excerpt} : e ∈ words line ↔ WholeWord line e := by
  rw [mem_words, recognisedAt?_wordAt?_eq_some, wordMayStart_iff]
  constructor
  · rintro ⟨hfront, hne, heq⟩
    have hlt : e.start < line.length := by
      by_contra hge
      rw [List.drop_eq_nil_of_le (Nat.not_lt.1 hge)] at hne
      exact hne rfl
    have htext : e.text = (line.drop e.start).takeWhile CodePoint.isWord := by
      conv => lhs; rw [heq]
    refine ⟨line.take e.start, (line.drop e.start).dropWhile CodePoint.isWord, ?_, ?_, htext ▸ hne, ?_,
      hfront, head?_dropWhile ..⟩
    · rw [htext, List.takeWhile_append_dropWhile, List.take_append_drop]
    · rw [List.length_take, Nat.min_eq_left hlt.le]
    · rw [htext]
      exact fun c hc => List.mem_takeWhile_imp hc
  · rintro ⟨front, rest, rfl, hstart, hne, hword, hfront, hrest⟩
    rw [hstart, List.take_left, List.drop_left, (span_of_split hword hrest).1]
    refine ⟨hfront, hne, ?_⟩
    rw [← hstart]

namespace WholeWord

variable {line : Text} {e other : Excerpt}

theorem eq_of_start (h : WholeWord line e) (hother : WholeWord line other)
    (hstart : e.start = other.start) : e = other := by
  have heq := (recognisedAt?_wordAt?_eq_some.1 (mem_words.1 (mem_words_iff.2 h))).2.2
  have hother := (recognisedAt?_wordAt?_eq_some.1 (mem_words.1 (mem_words_iff.2 hother))).2.2
  rw [heq, hother, hstart]

theorem stop_lt (h : WholeWord line e) (hother : WholeWord line other)
    (hlt : e.start < other.start) : e.stop < other.start :=
  words_apart (mem_words_iff.2 h) (mem_words_iff.2 hother) hlt

theorem isWord_start {t : Text} (h : WholeWord t e) : t[e.start]?.any CodePoint.isWord = true := by
  obtain ⟨front, rest, rfl, hstart, hne, hword, -⟩ := h
  obtain ⟨c, text, htext⟩ := List.exists_cons_of_ne_nil hne
  rw [htext] at hword ⊢
  rw [hstart, List.getElem?_append_right (Nat.le_refl _), Nat.sub_self]
  exact hword c List.mem_cons_self

theorem not_start_among {front middle rest : Text} (h : WholeWord (front ++ (middle ++ rest)) e)
    (hmiddle : ∀ c ∈ middle, c.isWord = false) (hle : front.length ≤ e.start) :
    front.length + middle.length ≤ e.start := by
  by_contra hlt
  have hword := h.isWord_start
  rw [List.getElem?_append_right hle, List.getElem?_append_left (by omega),
    List.getElem?_eq_getElem (by omega), Option.any_some, hmiddle _ (List.getElem_mem _)] at hword
  cases hword

end WholeWord

/-! ## Forms of declarations -/

/-- A way to declare a name: the keyword before it, and what stands at both sides of it. -/
structure DeclarationForm where
  keyword : Text
  /-- What may stand between the keyword and the name. -/
  Between : Text → Prop
  /-- What has to stand behind the name. -/
  Behind : Text → Prop
  keyword_ne_nil : keyword ≠ []
  keyword_word : ∀ c ∈ keyword, c.isWord = true
  between_ne_nil : ∀ t, Between t → t ≠ []
  between_noWord : ∀ t, Between t → ∀ c ∈ t, c.isWord = false
  behind_noWord : ∀ t, Behind t → ∀ c ∈ t, c.isWord = false

def AllBlank (t : Text) : Prop := ∀ c ∈ t, c.isBlank = true

theorem AllBlank.noWord {t : Text} (h : AllBlank t) : ∀ c ∈ t, c.isWord = false := fun c hc =>
  CodePoint.isWord_of_isBlank (h c hc)

theorem allBlank_takeWhile (t : Text) : AllBlank (t.takeWhile CodePoint.isBlank) := fun _ hc =>
  List.mem_takeWhile_imp hc

/-- Blanks before the name of a function, and blanks or none and a parenthesis behind it. -/
def functionForm : DeclarationForm where
  keyword := functionKeyword
  Between t := t ≠ [] ∧ AllBlank t
  Behind t := ∃ pause, AllBlank pause ∧ t = pause ++ Text.ofString "("
  keyword_ne_nil := by decide
  keyword_word := by decide +kernel
  between_ne_nil _ h := h.1
  between_noWord _ h := h.2.noWord
  behind_noWord := by
    rintro t ⟨pause, hpause, rfl⟩ c hc
    rcases List.mem_append.1 hc with hc | hc
    · exact hpause.noWord c hc
    · have hall : ∀ c ∈ Text.ofString "(", c.isWord = false := by decide +kernel
      exact hall c hc

/-- Blanks, a star or none, and blanks or none before the name of a variable. -/
def variableForm : DeclarationForm where
  keyword := variableKeyword
  Between t := ∃ gap star pause, t = gap ++ (star ++ pause) ∧ gap ≠ [] ∧ AllBlank gap
    ∧ (star = [] ∨ star = Text.ofString "*") ∧ AllBlank pause
  Behind t := t = []
  keyword_ne_nil := by decide
  keyword_word := by decide +kernel
  between_ne_nil := by
    rintro t ⟨gap, star, pause, rfl, hne, -⟩ hnil
    exact hne (List.append_eq_nil_iff.1 hnil).1
  between_noWord := by
    rintro t ⟨gap, star, pause, rfl, -, hgap, hstar, hpause⟩ c hc
    rcases List.mem_append.1 hc with hc | hc
    · exact hgap.noWord c hc
    rcases List.mem_append.1 hc with hc | hc
    · exact isWord_of_mem_star hstar hc
    · exact hpause.noWord c hc
  behind_noWord := by
    rintro t rfl c hc
    cases hc

namespace DeclarationForm

def At (form : DeclarationForm) (line : Text) (column : Nat) (d : Declaration) : Prop :=
  ∃ front between name behind rest,
    line = front ++ (form.keyword ++ (between ++ (name ++ (behind ++ rest))))
    ∧ column = front.length ∧ front.getLast?.any CodePoint.isWord = false
    ∧ form.Between between ∧ IsName name (behind ++ rest) ∧ form.Behind behind
    ∧ d.name = ⟨column + form.keyword.length + between.length, name⟩
    ∧ d.whole = ⟨column, form.keyword ++ (between ++ (name ++ behind))⟩

namespace At

variable {form : DeclarationForm} {line : Text} {column : Nat} {d : Declaration}

theorem whole_start (h : form.At line column d) : d.whole.start = column := by
  obtain ⟨_, _, _, _, _, -, -, -, -, -, -, -, hwhole⟩ := h
  rw [hwhole]

theorem name_inside (h : form.At line column d) : column < d.name.start
    ∧ d.name.start < d.name.stop ∧ d.name.stop ≤ column + d.size
    ∧ column + d.size ≤ line.length := by
  obtain ⟨front, between, name, behind, rest, rfl, rfl, -, hbetween, hname, -, hdname, hwhole⟩ := h
  have hpos := List.length_pos_iff.2 (form.between_ne_nil _ hbetween)
  have hpos' := List.length_pos_iff.2 hname.nonempty
  rw [Declaration.size, hdname, hwhole]
  simp only [Excerpt.stop, List.length_append]
  omega

theorem wholeWord_keyword (h : form.At line column d) : WholeWord line ⟨column, form.keyword⟩ := by
  obtain ⟨front, between, name, behind, rest, rfl, rfl, hfront, hbetween, -⟩ := h
  refine ⟨front, _, rfl, rfl, form.keyword_ne_nil, form.keyword_word, hfront, ?_⟩
  obtain ⟨c, tail, rfl⟩ := List.exists_cons_of_ne_nil (form.between_ne_nil _ hbetween)
  exact form.between_noWord _ hbetween c List.mem_cons_self

theorem wholeWord_name (h : form.At line column d) :
    WholeWord line d.name ∧ d.name.text.head?.any CodePoint.isDecimalDigit = false := by
  obtain ⟨front, between, name, behind, rest, rfl, rfl, -, hbetween, hname, -, hdname, -⟩ := h
  rw [hdname]
  refine ⟨⟨front ++ (form.keyword ++ between), behind ++ rest, ?_, ?_, hname.nonempty, hname.word, ?_,
    hname.stops⟩, hname.first⟩
  · simp only [List.append_assoc]
  · simp only [List.length_append, Nat.add_assoc]
  · have hne := form.between_ne_nil _ hbetween
    rw [← List.append_assoc, List.getLast?_append, List.getLast?_eq_some_getLast hne]
    exact form.between_noWord _ hbetween _ (List.getLast_mem hne)

theorem drop_name (h : form.At line column d) : ∃ behind rest,
    line.drop d.name.start = d.name.text ++ (behind ++ rest) ∧ form.Behind behind := by
  obtain ⟨front, between, name, behind, rest, rfl, rfl, -, -, -, hbehind, hdname, -⟩ := h
  refine ⟨behind, rest, ?_, hbehind⟩
  rw [hdname]
  simp only [← List.drop_drop, List.drop_left]

/-- **A word that begins inside a declaration, behind its keyword, is its name.** -/
theorem eq_name_of_inside {e : Excerpt} (h : form.At line column d) (he : WholeWord line e)
    (hlt : column < e.start) (hstop : e.start < column + d.size) : e = d.name := by
  have hkeyword := h.wholeWord_keyword.stop_lt he hlt
  have hname := h.wholeWord_name.1.stop_lt he
  refine he.eq_of_start h.wholeWord_name.1 ?_
  obtain ⟨front, between, name, behind, rest, rfl, rfl, -, hbetween, -, hbehind, hdname, hwhole⟩ := h
  rw [Declaration.size, hwhole] at hstop
  rw [hdname] at hname ⊢
  simp only [Excerpt.stop, List.length_append] at hkeyword hname hstop ⊢
  -- the word stands behind the filling, and if it is not the name, behind what follows the name too
  rw [← List.append_assoc] at he
  have hfilling := he.not_start_among (form.between_noWord _ hbetween)
    (by rw [List.length_append]; omega)
  rw [List.length_append] at hfilling
  by_contra hne
  rw [← List.append_assoc, ← List.append_assoc] at he
  have htail := he.not_start_among (form.behind_noWord _ hbehind)
    (by simp only [List.length_append]; omega)
  simp only [List.length_append] at htail
  omega

end At

end DeclarationForm

/-! ## The recognisers -/

theorem split_at {line keyword rest : Text} {column : Nat} (h : line.drop column = keyword ++ rest)
    (hne : keyword ≠ []) :
    line = line.take column ++ (keyword ++ rest) ∧ column = (line.take column).length := by
  have hpos := List.length_pos_iff.2 hne
  have hlength := congrArg List.length h
  rw [List.length_append, List.length_drop] at hlength
  refine ⟨by rw [← h, List.take_append_drop], ?_⟩
  rw [List.length_take]
  omega

theorem take_parts (a b c d e : Text) :
    (a ++ (b ++ (c ++ (d ++ e)))).take (a.length + b.length + c.length + d.length)
      = a ++ (b ++ (c ++ d)) := by
  have hassoc : a ++ (b ++ (c ++ (d ++ e))) = (a ++ (b ++ (c ++ d))) ++ e := by
    simp only [List.append_assoc]
  rw [hassoc]
  apply List.take_left'
  simp only [List.length_append, Nat.add_assoc]

theorem DeclarationForm.at_iff {form : DeclarationForm} {line : Text} {column : Nat}
    {d : Declaration} : form.At line column d ↔ (line.take column).getLast?.any CodePoint.isWord = false
      ∧ ∃ between name behind rest,
        line.drop column = form.keyword ++ (between ++ (name ++ (behind ++ rest)))
        ∧ form.Between between ∧ IsName name (behind ++ rest) ∧ form.Behind behind
        ∧ d.name = ⟨column + (form.keyword.length + between.length), name⟩
        ∧ d.whole = ⟨column, (line.drop column).take
          (form.keyword.length + between.length + name.length + behind.length)⟩ := by
  constructor
  · rintro ⟨front, between, name, behind, rest, rfl, rfl, hfront, hbetween, hname, hbehind, hdname, hwhole⟩
    rw [List.take_left, List.drop_left]
    refine ⟨hfront, between, name, behind, rest, rfl, hbetween, hname, hbehind, ?_, ?_⟩
    · rw [hdname, Nat.add_assoc]
    · rw [hwhole, take_parts]
  · rintro ⟨hfront, between, name, behind, rest, hdrop, hbetween, hname, hbehind, hdname, hwhole⟩
    obtain ⟨hline, hcolumn⟩ := split_at hdrop form.keyword_ne_nil
    refine ⟨line.take column, between, name, behind, rest, hline, hcolumn, hfront, hbetween, hname,
      hbehind, ?_, ?_⟩
    · rw [hdname, Nat.add_assoc]
    · rw [hwhole, hdrop, take_parts]

theorem IsName.not_blank {name rest : Text} (h : IsName name rest) :
    (name ++ rest).head?.any CodePoint.isBlank = false := by
  obtain ⟨c, tail, rfl⟩ := List.exists_cons_of_ne_nil h.nonempty
  by_contra hblank
  have hword := h.word c List.mem_cons_self
  rw [CodePoint.isWord_of_isBlank (by simpa using hblank)] at hword
  cases hword

def DeclarationForm.RecognisedBy (form : DeclarationForm) (recognise : Recogniser Declaration) : Prop :=
  ∀ line column d, recognisedAt? recognise line column = some d ↔ form.At line column d

theorem functionForm_recognised : functionForm.RecognisedBy functionHeadAt? := by
  intro line column d
  rw [DeclarationForm.at_iff]
  unfold recognisedAt? functionHeadAt?
  generalize line.drop column = t
  simp only [bind, Option.bind_eq_some_iff, Option.guard_eq_some', wordMayStart_iff,
    Text.after?_eq_some]
  constructor
  · rintro ⟨_, hfront, rest, rfl, _, hgap, name, hname, after, hafter, hd⟩
    cases hd
    obtain ⟨tail, htail, hisName⟩ := identifier?_iff.1 hname
    rw [htail, List.drop_left] at hafter ⊢
    have hpause : tail = (tail.takeWhile CodePoint.isBlank ++ Text.ofString "(") ++ after := by
      rw [List.append_assoc, ← hafter, List.takeWhile_append_dropWhile]
    refine ⟨hfront, rest.takeWhile CodePoint.isBlank, name, _, after, ?_,
      ⟨by simpa using hgap, allBlank_takeWhile rest⟩, hpause ▸ hisName,
      ⟨_, allBlank_takeWhile tail, rfl⟩, rfl, ?_⟩
    · rw [← hpause, ← htail, List.takeWhile_append_dropWhile]
      rfl
    · rw [List.length_append]
      rfl
  · rintro ⟨hfront, gap, name, _, rest, rfl, ⟨hne, hgap⟩, hname, ⟨pause, hpause, rfl⟩, hdname, hwhole⟩
    have hparen : (Text.ofString "(" ++ rest).head?.any CodePoint.isBlank = false := rfl
    obtain ⟨htake, hdrop⟩ := span_of_split hgap hname.not_blank
    obtain ⟨htake', hdrop'⟩ := span_of_split hpause hparen
    refine ⟨(), hfront, _, rfl, (), ?_, name, ?_, rest, ?_, ?_⟩
    · rw [htake]
      simpa using hne
    · rw [hdrop]
      exact identifier?_iff.2 ⟨_, rfl, hname⟩
    · rw [hdrop, List.drop_left, List.append_assoc, hdrop']
    · obtain ⟨whole, nameExcerpt⟩ := d
      dsimp only at hdname hwhole
      subst hdname hwhole
      rw [htake, hdrop, List.drop_left, List.append_assoc, htake', List.length_append]
      rfl

theorem pastStar_of_star (t : Text) : pastStar (Text.ofString "*" ++ t) = (1, t) := by
  unfold pastStar
  rw [Text.after?_eq_some.2 rfl]

theorem pastStar_of_name {name rest : Text} (h : IsName name rest) :
    pastStar (name ++ rest) = (0, name ++ rest) := by
  obtain ⟨star, hstar, hlength, hsplit⟩ := pastStar_split (name ++ rest)
  rcases hstar with rfl | rfl
  · exact Prod.ext hlength hsplit.symm
  · obtain ⟨c, tail, rfl⟩ := List.exists_cons_of_ne_nil h.nonempty
    have hword := h.word c List.mem_cons_self
    rw [(List.cons.inj hsplit).1, isWord_of_mem_star (.inr rfl) List.mem_cons_self] at hword
    cases hword

theorem variableForm_recognised : variableForm.RecognisedBy variableAt? := by
  intro line column d
  rw [DeclarationForm.at_iff]
  unfold recognisedAt? variableAt?
  generalize line.drop column = t
  simp only [bind, Option.bind_eq_some_iff, Option.guard_eq_some', wordMayStart_iff,
    Text.after?_eq_some]
  constructor
  · rintro ⟨_, hfront, rest, rfl, _, hgap, name, hname, hd⟩
    cases hd
    obtain ⟨star, hstar, hlength, hsplit⟩ := pastStar_split (rest.dropWhile CodePoint.isBlank)
    generalize pastStar (rest.dropWhile CodePoint.isBlank) = past at hname hlength hsplit ⊢
    obtain ⟨tail, htail, hisName⟩ := identifier?_iff.1 hname
    refine ⟨hfront, rest.takeWhile CodePoint.isBlank ++ (star ++ past.2.takeWhile CodePoint.isBlank),
      name, [], tail, ?_, ⟨_, star, _, rfl, by simpa using hgap, allBlank_takeWhile _, hstar,
      allBlank_takeWhile _⟩, hisName, rfl, ?_, ?_⟩
    · rw [List.nil_append, ← htail, List.append_assoc, List.append_assoc,
        List.takeWhile_append_dropWhile, ← hsplit, List.takeWhile_append_dropWhile]
      rfl
    · simp only [List.length_append, hlength, Nat.add_assoc]
      rfl
    · simp only [List.length_append, hlength, Nat.add_assoc]
      rfl
  · rintro ⟨hfront, _, name, _, rest, rfl, ⟨gap, star, pause, rfl, hne, hgap, hstar, hpause⟩, hname,
      rfl, hdname, hwhole⟩
    obtain ⟨whole, nameExcerpt⟩ := d
    dsimp only at hdname hwhole
    subst hdname hwhole
    refine ⟨(), hfront, _, rfl, (), ?_⟩
    rw [List.nil_append] at hname ⊢
    rcases hstar with rfl | rfl
    · have hblanks : ∀ c ∈ gap ++ pause, c.isBlank = true :=
        List.forall_mem_append.2 ⟨hgap, hpause⟩
      obtain ⟨htake, hdrop⟩ := span_of_split hblanks hname.not_blank
      obtain ⟨htake', hdrop'⟩ := @span_of_split CodePoint.isBlank [] _ (by simp) hname.not_blank
      rw [List.nil_append] at htake' hdrop' ⊢
      rw [htake, hdrop, pastStar_of_name hname, htake', hdrop']
      refine ⟨by simpa using fun h => absurd h hne, name, identifier?_iff.2 ⟨rest, rfl, hname⟩, ?_⟩
      rfl
    · have hstar : (Text.ofString "*" ++ (pause ++ (name ++ rest))).head?.any CodePoint.isBlank
        = false := rfl
      obtain ⟨htake, hdrop⟩ := span_of_split hgap hstar
      obtain ⟨htake', hdrop'⟩ := span_of_split hpause hname.not_blank
      rw [List.append_assoc, List.append_assoc, htake, hdrop, pastStar_of_star, htake', hdrop']
      refine ⟨by simpa using hne, name, identifier?_iff.2 ⟨rest, rfl, hname⟩, ?_⟩
      simp only [List.length_append, Nat.add_assoc]
      rfl

/-! ## All declarations of a line -/

section Found

variable {form : DeclarationForm} {recognise : Recogniser Declaration} {line : Text}

theorem DeclarationForm.At.unique {column : Nat} {d d' : Declaration} (hd : form.At line column d)
    (h : form.RecognisedBy recognise) (hd' : form.At line column d') : d = d' :=
  Option.some.inj (((h ..).2 hd).symm.trans ((h ..).2 hd'))

/-- **The declarations of a line are those of the form, leftmost first.** -/
theorem leftmost_declarations (h : form.RecognisedBy recognise) (line : Text) :
    LeftmostFrom (form.At line) Declaration.size 0 (occurrences recognise Declaration.size line) := by
  have hat : form.At line = fun column d => recognisedAt? recognise line column = some d := by
    funext column d
    rw [h]
  rw [hat]
  apply leftmost_occurrences
  · intro column d hd
    have hinside := ((h ..).1 hd).name_inside
    omega
  · intro column hle
    cases hd : recognisedAt? recognise line column with
    | none => rfl
    | some d =>
      have hinside := ((h ..).1 hd).name_inside
      omega

theorem at_of_mem_occurrences (h : form.RecognisedBy recognise) {d : Declaration}
    (hd : d ∈ occurrences recognise Declaration.size line) : form.At line d.whole.start d := by
  obtain ⟨column, -, hat⟩ := mem_occurrences hd
  have hat := (h ..).1 hat
  rwa [hat.whole_start]

/-- **A declaration is found, or its keyword is taken for the name of an earlier one.** -/
theorem mem_or_taken_for_name (h : form.RecognisedBy recognise) {column : Nat} {d : Declaration}
    (hd : form.At line column d) : d ∈ occurrences recognise Declaration.size line
      ∨ ∃ b ∈ occurrences recognise Declaration.size line, b.name = ⟨column, form.keyword⟩ := by
  have hsame : ∀ column a b, form.At line column a → form.At line column b → a = b :=
    fun _ _ _ ha hb => ha.unique h hb
  rcases (leftmost_declarations h line).mem_or_covered hsame (Nat.zero_le _) hd
    with hmem | ⟨b, hb, start, hat, hlt, hstop⟩
  · exact .inl hmem
  · exact .inr ⟨b, hb, (hat.eq_name_of_inside hd.wholeWord_keyword hlt hstop).symm⟩

theorem name_start_ne (h : form.RecognisedBy recognise) {b d : Declaration}
    (hb : b ∈ occurrences recognise Declaration.size line)
    (hd : d ∈ occurrences recognise Declaration.size line) : b.name.start ≠ d.whole.start := by
  have hpairs := pairwise_occurrences recognise Declaration.size line
  refine List.Pairwise.forall_of_forall_of_flip (R := fun b d => b.name.start ≠ d.whole.start)
    (fun b hb => ?_) (hpairs.imp ?_) (hpairs.imp ?_) hb hd
  · have hinside := (at_of_mem_occurrences h hb).name_inside
    omega
  · rintro b d ⟨i, j, hat, hat', -, hle⟩
    have hinside := ((h ..).1 hat).name_inside
    rw [((h ..).1 hat').whole_start]
    omega
  · rintro d b ⟨i, j, hat, hat', hlt, -⟩
    have hinside := ((h ..).1 hat').name_inside
    rw [flip, ((h ..).1 hat).whole_start]
    omega

end Found

/-! ## Function heads do not overlap -/

/-- The name of a function head is followed by a parenthesis, its keyword by another name. -/
theorem name_ne_functionKeyword {line : Text} {start column : Nat} {b d : Declaration}
    (hb : functionForm.At line start b) (hd : functionForm.At line column d) :
    b.name ≠ ⟨column, functionKeyword⟩ := by
  intro hname
  obtain ⟨_, rest, hdrop, pause, hpause, rfl⟩ := hb.drop_name
  obtain ⟨-, gap, name, behind, rest', hdrop', ⟨-, hgap⟩, hisName, -⟩ := DeclarationForm.at_iff.1 hd
  rw [hname] at hdrop
  have hsame : pause ++ (Text.ofString "(" ++ rest) = gap ++ (name ++ (behind ++ rest')) := by
    rw [← List.append_assoc]
    exact List.append_cancel_left (hdrop.symm.trans hdrop')
  -- without the blanks, one side goes on with a parenthesis and the other with a name
  have hparen : (Text.ofString "(" ++ rest).head?.any CodePoint.isBlank = false := rfl
  have hrest := (span_of_split hpause hparen).2
  rw [hsame, (span_of_split hgap hisName.not_blank).2] at hrest
  obtain ⟨c, tail, rfl⟩ := List.exists_cons_of_ne_nil hisName.nonempty
  have hword := hisName.word c List.mem_cons_self
  rw [(List.cons.inj hrest).1] at hword
  exact absurd hword (by decide +kernel)

theorem functionHeads_apart {line : Text} {column column' : Nat} {d d' : Declaration}
    (hd : functionForm.At line column d) (hd' : functionForm.At line column' d')
    (hlt : column < column') : column + d.size ≤ column' := by
  by_contra hstop
  exact name_ne_functionKeyword hd hd'
    (hd.eq_name_of_inside hd'.wholeWord_keyword hlt (Nat.not_le.1 hstop)).symm

theorem mem_functionHeads {line : Text} {d : Declaration} :
    d ∈ functionHeads line ↔ ∃ column, functionForm.At line column d := by
  constructor
  · intro h
    exact ⟨_, at_of_mem_occurrences functionForm_recognised h⟩
  · rintro ⟨column, hd⟩
    rcases mem_or_taken_for_name functionForm_recognised hd with hmem | ⟨b, hb, hname⟩
    · exact hmem
    · exact absurd hname (name_ne_functionKeyword (at_of_mem_occurrences functionForm_recognised hb) hd)

end OutlineServer.Source
