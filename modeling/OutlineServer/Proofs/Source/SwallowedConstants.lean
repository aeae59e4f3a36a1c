import OutlineServer.Proofs.Source.ConstantGrammar
import OutlineServer.Token.Declared

/-!
# Constants inside values

The keyword of a constant is looked for where a value begins and nowhere behind that.  So a value that
ends with a keyword, as in `word A=1,word B`, takes it away from the declaration that begins there.
This is the only way in which a constant begins inside a value (`constantBegins_iff_hides`), and the
only other way to lose one is that its keyword is taken for a name (`begins_inside`).
-/
namespace OutlineServer.Source

def NameFollows (t : Text) : Prop :=
  ∃ gap name rest, t = gap ++ (name ++ rest) ∧ gap ≠ [] ∧ (∀ c ∈ gap, isGap c = true)
    ∧ IsName name rest

def ConstantBegins (line : Text) (column : Nat) : Prop :=
  ∃ front keyword rest, line = front ++ (keyword ++ rest) ∧ column = front.length ∧ MayPrecede front
    ∧ keyword ∈ constantKeywords ∧ NameFollows rest

variable {line : Text} {column : Nat} {d : ConstantDeclaration} {e : Excerpt}

theorem constantBegins_iff : ConstantBegins line column ↔ ∃ d, ConstantAt line column d := by
  constructor
  · rintro ⟨front, keyword, _, rfl, rfl, hfront, hkeyword, gap, name, rest, rfl, hne, hgap, hname⟩
    let nameExcerpt : Excerpt := ⟨front.length + keyword.length + gap.length, name⟩
    let value := constantValue nameExcerpt.stop rest
    let line := front ++ (keyword ++ (gap ++ (name ++ rest)))
    let whole := (line.drop front.length).take (value.stop nameExcerpt.stop - front.length)
    exact ⟨⟨⟨⟨front.length, whole⟩, nameExcerpt⟩, value⟩, front, keyword, gap, name, rest, rfl, rfl,
      hfront, hkeyword, hne, hgap, hname, rfl, readsValue_constantValue .., rfl⟩
  · rintro ⟨d, front, keyword, gap, name, rest, hsplit, hcolumn, hfront, hkeyword, hne, hgap, hname, -⟩
    exact ⟨front, keyword, _, hsplit, hcolumn, hfront, hkeyword, gap, name, rest, rfl, hne, hgap, hname⟩

theorem NameFollows.head_isGap {c : CodePoint} {t : Text} (h : NameFollows (c :: t)) :
    isGap c = true := by
  obtain ⟨gap, name, rest, hsplit, hne, hgap, -⟩ := h
  obtain ⟨c', gap, rfl⟩ := List.exists_cons_of_ne_nil hne
  rw [List.cons_append, List.cons.injEq] at hsplit
  rw [hsplit.1]
  exact hgap c' List.mem_cons_self

/-! ## Keywords inside values -/

/-- The value ends with a keyword that begins at this column, behind something else. -/
def Hides (e : Excerpt) (column : Nat) : Prop :=
  ∃ front keyword, e.text = front ++ keyword ∧ front ≠ [] ∧ MayPrecede front
    ∧ keyword ∈ constantKeywords ∧ column = e.start + front.length

theorem exists_between {a b c d : Text} (h : a ++ b = c ++ d) (hle : a.length ≤ c.length) :
    ∃ middle, c = a ++ middle ∧ b = middle ++ d := by
  obtain ⟨middle, rfl⟩ := List.prefix_of_prefix_length_le (h ▸ List.prefix_append a b)
    (List.prefix_append c d) hle
  rw [List.append_assoc] at h
  exact ⟨middle, rfl, List.append_cancel_left h⟩

theorem keyword_of_endsValue {back rest keyword follow : Text} (heq : back ++ rest = keyword ++ follow)
    (hkeyword : keyword ∈ constantKeywords) (hfollow : NameFollows follow) (hrest : EndsValue rest)
    (hback : ∀ c ∈ back, c.isBlank = false) : back = keyword ∧ rest = follow := by
  rcases List.append_eq_append_iff.1 heq with ⟨more, rfl, rfl⟩ | ⟨more, rfl, rfl⟩
  · cases more with
    | nil => simp
    | cons c more =>
      have hmem : c ∈ back ++ c :: more := List.mem_append_right back List.mem_cons_self
      obtain ⟨-, hblank, hsign⟩ := keyword_character hkeyword hmem
      rcases endsValue_cons.1 hrest with hc | rfl | ⟨rfl, -⟩
      · rw [hblank] at hc
        cases hc
      · exact absurd (by decide) hsign
      · exact absurd (by decide) hsign
  · cases more with
    | nil => simp
    | cons c more =>
      have hblank := isBlank_of_isGap hfollow.head_isGap
      rw [hback c (List.mem_append_right keyword List.mem_cons_self)] at hblank
      cases hblank

theorem mayPrecede_append {front back : Text} (hne : back ≠ []) :
    MayPrecede (front ++ back) ↔ MayPrecede back := by
  unfold MayPrecede
  rw [List.getLast?_append, List.getLast?_eq_some_getLast hne]
  rfl

/-- **A constant begins inside a value exactly where the value ends with a keyword** that is not all of
it, and a name follows. -/
theorem constantBegins_iff_hides (h : ValueAt (line.drop e.start) e.text) (hle : e.start ≤ column)
    (hlt : column < e.stop) :
    ConstantBegins line column ↔ Hides e column ∧ NameFollows (line.drop e.stop) := by
  obtain ⟨rest, hsplit, hrest⟩ := h.split
  have hstop : line.drop e.stop = rest := by
    rw [Excerpt.stop, ← List.drop_drop, hsplit, List.drop_left]
  have hline : line = line.take e.start ++ (e.text ++ rest) := by
    rw [← hsplit, List.take_append_drop]
  have hlength : (line.take e.start).length = e.start := by
    have hpos := List.length_pos_iff.2 h.nonempty
    have hcount := congrArg List.length hsplit
    rw [List.length_drop, List.length_append] at hcount
    rw [List.length_take]
    omega
  constructor
  · rintro ⟨front, keyword, follow, hfront, rfl, hmay, hkeyword, hfollow⟩
    obtain ⟨inner, rfl, hinner⟩ := exists_between (hline.symm.trans hfront) (by omega)
    rw [List.length_append, hlength] at hlt ⊢
    obtain ⟨back, htext, hback⟩ := exists_between hinner.symm (by unfold Excerpt.stop at hlt; omega)
    obtain ⟨rfl, rfl⟩ := keyword_of_endsValue hback.symm hkeyword hfollow hrest
      (fun c hc => (h.mem (by rw [htext]; exact List.mem_append_right _ hc)).1)
    have hne : inner ≠ [] := by
      rintro rfl
      rw [List.nil_append] at htext
      exact h.not_keyword (htext ▸ hkeyword)
    rw [hstop]
    exact ⟨⟨inner, back, htext, hne, (mayPrecede_append hne).1 hmay, hkeyword, rfl⟩, hfollow⟩
  · rintro ⟨⟨front, keyword, htext, hne, hfront, hkeyword, rfl⟩, hfollow⟩
    rw [hstop] at hfollow
    refine ⟨line.take e.start ++ front, keyword, rest, ?_, ?_, (mayPrecede_append hne).2 hfront,
      hkeyword, hfollow⟩
    · rw [htext, List.append_assoc] at hline
      rwa [List.append_assoc]
    · rw [List.length_append, hlength]

/-! ## The other places inside a constant -/

namespace ConstantBegins

variable {front middle back : Text}

theorem behind_filling (h : ConstantBegins (front ++ (middle ++ back)) column)
    (hmiddle : ∀ c ∈ middle, isGap c = true ∨ c ∈ Text.ofString ":=") (hle : front.length ≤ column) :
    front.length + middle.length ≤ column := by
  obtain ⟨front', keyword, rest, hsplit, rfl, -, hkeyword, -⟩ := h
  obtain ⟨c, keyword', rfl⟩ := List.exists_cons_of_ne_nil (keyword_ne_nil hkeyword)
  by_contra hlt
  obtain ⟨inner, rfl, hinner⟩ := exists_between hsplit hle
  rw [List.length_append] at hlt
  obtain ⟨more, rfl, hmore⟩ := exists_between hinner.symm (by omega)
  cases more with
  | nil => simp at hlt
  | cons c' more =>
    obtain rfl : c = c' := (List.cons.inj hmore).1
    obtain ⟨-, hblank, hsign⟩ := keyword_character hkeyword List.mem_cons_self
    rcases hmiddle c (List.mem_append_right inner List.mem_cons_self) with hgap | hc
    · rw [isBlank_of_isGap hgap] at hblank
      cases hblank
    · exact hsign (List.mem_append_right (Text.ofString ";/") hc)

theorem behind_word (h : ConstantBegins (front ++ (middle ++ back)) column)
    (hmiddle : ∀ c ∈ middle, (c.isWord || decide (c = CodePoint.ofChar '#')) = true)
    (hlt : front.length < column) : front.length + middle.length < column := by
  obtain ⟨front', keyword, rest, hsplit, rfl, hmay, -, -⟩ := h
  by_contra hle
  obtain ⟨inner, rfl, hinner⟩ := exists_between hsplit (by omega)
  rw [List.length_append] at hlt hle
  obtain ⟨more, rfl, -⟩ := exists_between hinner.symm (by omega)
  have hne : inner ≠ [] := by
    rintro rfl
    exact absurd hlt (by simp)
  rw [mayPrecede_append hne, MayPrecede, List.getLast?_eq_some_getLast hne] at hmay
  have hlast := hmiddle _ (List.mem_append_left more (List.getLast_mem hne))
  rw [Option.any_some, hlast] at hmay
  cases hmay

theorem name_mem_keywords (h : ConstantBegins (front ++ (middle ++ back)) column)
    (hname : IsName middle back) (hcolumn : column = front.length) : middle ∈ constantKeywords := by
  obtain ⟨front', keyword, follow, hsplit, hlength, -, hkeyword, hfollow⟩ := h
  obtain ⟨-, hsame⟩ := List.append_inj hsplit (hcolumn.symm.trans hlength)
  have hword : ∀ c ∈ keyword, c.isWord = true := by
    have hall : ∀ keyword ∈ constantKeywords, keyword.head?.any CodePoint.isWord = true →
        ∀ c ∈ keyword, c.isWord = true := by decide +kernel
    refine hall keyword hkeyword ?_
    obtain ⟨c, middle, rfl⟩ := List.exists_cons_of_ne_nil hname.nonempty
    obtain ⟨c', keyword, rfl⟩ := List.exists_cons_of_ne_nil (keyword_ne_nil hkeyword)
    obtain rfl : c = c' := (List.cons.inj hsame).1
    exact hname.word c List.mem_cons_self
  have hstops : follow.head?.any CodePoint.isWord = false := by
    cases follow with
    | nil => rfl
    | cons c follow => exact isWord_of_isGap hfollow.head_isGap
  have heq : middle = keyword := by
    rw [← (span_of_split hname.word hname.stops).1, hsame, (span_of_split hword hstops).1]
  rwa [heq]

end ConstantBegins

/-- **A constant that begins inside another one begins in its value or is taken for its name.** -/
theorem begins_inside {start : Nat} (h : ConstantAt line start d) (hbegins : ConstantBegins line column)
    (hlt : start < column) (hstop : column < start + d.toDeclaration.size) :
    d.name.start = column ∧ d.name.text ∈ constantKeywords
    ∨ ∃ e, d.value.excerpt? = some e ∧ e.start ≤ column ∧ column < e.stop := by
  rw [h.column_add_size, ConstantValue.stop_eq] at hstop
  obtain ⟨front, keyword, gap, name, rest, rfl, rfl, -, hkeyword, -, hgap, hname, hdname, hvalue, -⟩
    := h
  have hnameStop : d.name.stop = front.length + keyword.length + gap.length + name.length := by
    rw [hdname]
    rfl
  -- the column stands behind one part after the other: keyword, blanks, name, and what leads to a value
  have hkeyword := hbegins.behind_word (fun c hc => (keyword_character hkeyword hc).1) hlt
  rw [← List.append_assoc] at hbegins
  have hgap := hbegins.behind_filling (fun c hc => .inl (hgap c hc)) (by rw [List.length_append]; omega)
  rw [← List.append_assoc] at hbegins
  simp only [List.length_append] at hgap
  by_cases hcolumn : column = front.length + keyword.length + gap.length
  · have hmem := hbegins.name_mem_keywords hname (by simp only [List.length_append, hcolumn])
    rw [hdname]
    exact .inl ⟨hcolumn.symm, hmem⟩
  have hname := hbegins.behind_word (fun c hc => by rw [hname.word c hc, Bool.true_or])
    (by simp only [List.length_append]; omega)
  rw [← List.append_assoc] at hbegins
  simp only [List.length_append] at hname
  cases he : d.value.excerpt? with
  | none =>
    rw [he, Option.map_none, Option.getD_none] at hstop
    omega
  | some e =>
    rw [he, Option.map_some, Option.getD_some] at hstop
    obtain ⟨filling, back, rfl, hfilling, -, hstart⟩ := hvalue.valueAt he
    have hfilling := hbegins.behind_filling hfilling (by simp only [List.length_append]; omega)
    simp only [List.length_append] at hfilling
    exact .inr ⟨e, rfl, by omega, hstop⟩

/-- **Which constants a line loses.**  A constant begins inside the value of another exactly where that
value ends with its keyword, behind something that may stand before a keyword.  A constant is among the
declared names unless its keyword is so hidden or is taken for a name. -/
theorem lost_constants {lines : List Text} {line : Text} (hline : line ∈ lines) :
    (∀ d ∈ constantDeclarations line, ∀ e, d.value.excerpt? = some e →
      ∀ column, e.start ≤ column → column < e.stop →
        (ConstantBegins line column ↔ Hides e column ∧ NameFollows (line.drop e.stop)))
    ∧ ∀ column d, ConstantAt line column d →
      (d ∈ constantDeclarations line ∧ d.name.text ∈ (Token.DeclaredNames.ofLines lines).constantNames)
      ∨ ∃ b ∈ constantDeclarations line, (b.name.start = column ∧ b.name.text ∈ constantKeywords)
        ∨ ∃ e, b.value.excerpt? = some e ∧ Hides e column := by
  have hinside : ∀ d ∈ constantDeclarations line, ∀ e, d.value.excerpt? = some e →
      ∀ column, e.start ≤ column → column < e.stop →
        (ConstantBegins line column ↔ Hides e column ∧ NameFollows (line.drop e.stop)) := by
    intro d hd e he column hle hlt
    obtain ⟨start, hat⟩ := mem_constantDeclarations hd
    exact constantBegins_iff_hides (hat.valueAt he).2 hle hlt
  refine ⟨hinside, fun column d hat => ?_⟩
  have hbegins := constantBegins_iff.2 ⟨d, hat⟩
  have hleftmost := leftmost_constantDeclarations line
  rcases hleftmost.mem_or_covered (fun _ _ _ h => h.unique) (Nat.zero_le _) hat
    with hmem | ⟨b, hb, start, hatb, hlt, hcovered⟩
  · exact .inl ⟨hmem, List.mem_flatMap.2 ⟨line, hline, List.mem_map_of_mem hmem⟩⟩
  · refine .inr ⟨b, hb, ?_⟩
    rcases begins_inside hatb hbegins hlt hcovered with hname | ⟨e, he, hle, hlt⟩
    · exact .inl hname
    · exact .inr ⟨e, he, ((hinside b hb e he column hle hlt).1 hbegins).1⟩

theorem lost_constants_behind_comma :
    (constantDeclarations "word A=1,word B").map (·.value.excerpt?) = [some ⟨7, "1,word"⟩]
    ∧ ConstantBegins "word A=1,word B" 9 := by
  have hvalues : (constantDeclarations "word A=1,word B").map (·.value.excerpt?)
      = [some ⟨7, "1,word"⟩] := by decide +kernel
  obtain ⟨d, hd, he⟩ : ∃ d ∈ constantDeclarations "word A=1,word B",
      d.value.excerpt? = some ⟨7, "1,word"⟩ := by
    rw [← List.mem_map, hvalues]
    exact List.mem_singleton.2 rfl
  have hiff := (lost_constants (List.mem_singleton.2 rfl)).1 d hd _ he 9 (by decide) (by decide)
  refine ⟨hvalues, hiff.2 ⟨⟨"1,", "word", ?_⟩, " ", "B", "", ?_⟩⟩
  · decide +kernel
  · refine ⟨by decide, by decide, by decide, by decide +kernel, by decide, by decide +kernel, rfl⟩

/-- `word A=1,word B` declares `B` inside the value of `A`, and `B` is not among the declared names. -/
theorem constant_lost_to_value :
    (∃ d ∈ constantDeclarations "word A=1,word B", ∃ e, d.value.excerpt? = some e ∧
      ∃ column, e.start ≤ column ∧ column < e.stop ∧ ConstantBegins "word A=1,word B" column)
    ∧ Text.ofString "B" ∉ (Token.DeclaredNames.ofLines ["word A=1,word B"]).constantNames := by
  constructor
  · obtain ⟨d, hd, he⟩ : ∃ d ∈ constantDeclarations "word A=1,word B",
        d.value.excerpt? = some ⟨7, "1,word"⟩ := by decide +kernel
    refine ⟨d, hd, _, he, 9, by decide, by decide, "word A=1,", "word", " B", by decide, by decide,
      by decide +kernel, by decide, " ", "B", "", by decide, by decide, by decide, ?_⟩
    exact ⟨by decide +kernel, by decide, by decide +kernel, rfl⟩
  · decide +kernel

end OutlineServer.Source
