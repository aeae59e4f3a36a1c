import OutlineServer.Proofs.Source.Leftmost
import OutlineServer.Proofs.Source.Names

/-!
# The grammar of constants

What a constant declaration is, said by how its text divides and not by how it is searched for
(`ConstantAt`): a keyword that no word character and no `#` stands before, spaces or tabs, a name that
is a whole word, and a value or none.  A value begins where there is something to take up to the next
blank, `;` or `//`, and where no constant keyword stands as a word of its own (`ValueAt`).  It is looked
for behind an assignment sign first and behind spaces or tabs only if there is none (`ReadsValue`).

The recogniser finds exactly these declarations (`recognisedAt?_constantAt?`), and the constants of a
line are the leftmost of them, one behind the other (`leftmost_constantDeclarations`).
-/
namespace OutlineServer

theorem Text.startsWith_iff {t lead : Text} : t.startsWith lead = true ↔ lead <+: t := by
  unfold Text.startsWith
  rw [Option.isSome_iff_exists, List.prefix_iff_exists_append_eq]
  exact exists_congr fun rest => Text.after?_eq_some.trans eq_comm

def ConstantValue.excerpt? : ConstantValue → Option Excerpt
  | absent => none
  | assigned value => some value
  | spaced value => some value

theorem ConstantValue.stop_eq (value : ConstantValue) (nameStop : Nat) :
    value.stop nameStop = (value.excerpt?.map Excerpt.stop).getD nameStop := by
  cases value <;> rfl

namespace Source

/-- Words of which none begins another: at most one of them stands at the front of a text. -/
theorem find?_startsWith {words : List Text} {t word : Text}
    (h : ∀ w ∈ words, ∀ w' ∈ words, w <+: w' → w = w') :
    words.find? (fun w => Text.startsWith t w) = some word ↔ word ∈ words ∧ word <+: t := by
  constructor
  · intro hfind
    exact ⟨List.mem_of_find?_eq_some hfind, Text.startsWith_iff.1 (List.find?_some hfind)⟩
  · rintro ⟨hmem, hprefix⟩
    cases hfind : words.find? (fun w => Text.startsWith t w) with
    | none => exact absurd (Text.startsWith_iff.2 hprefix) (List.find?_eq_none.1 hfind word hmem)
    | some other =>
      have hother := Text.startsWith_iff.1 (List.find?_some hfind)
      have hmem' := List.mem_of_find?_eq_some hfind
      rcases List.prefix_or_prefix_of_prefix hprefix hother with hle | hle
      · rw [h word hmem other hmem' hle]
      · rw [h other hmem' word hmem hle]

theorem startsWith_of_find? {words : List Text} {t word other : Text}
    (h : ∀ w ∈ words, ∀ w' ∈ words, w <+: w' → w = w')
    (hfind : words.find? (fun w => Text.startsWith t w) = some word) (hother : other ∈ words) :
    Text.startsWith t other = decide (other = word) := by
  rw [Bool.eq_iff_iff, decide_eq_true_eq, Text.startsWith_iff]
  constructor
  · intro hprefix
    rw [(find?_startsWith h).2 ⟨hother, hprefix⟩, Option.some.injEq] at hfind
    exact hfind
  · rintro rfl
    exact ((find?_startsWith h).1 hfind).2

theorem span_of_split {p : CodePoint → Bool} {run rest : Text} (hrun : ∀ c ∈ run, p c = true)
    (hrest : rest.head?.any p = false) :
    (run ++ rest).takeWhile p = run ∧ (run ++ rest).dropWhile p = rest := by
  have hnone : rest.takeWhile p = [] ∧ rest.dropWhile p = rest := by
    cases rest with
    | nil => exact ⟨rfl, rfl⟩
    | cons c rest =>
      have hc : p c = false := hrest
      simp [hc]
  rw [List.takeWhile_append_of_pos hrun, List.dropWhile_append_of_pos hrun, hnone.1, hnone.2,
    List.append_nil]
  exact ⟨rfl, rfl⟩

theorem head?_dropWhile (p : CodePoint → Bool) (t : Text) : (t.dropWhile p).head?.any p = false := by
  have h := List.head?_dropWhile_not p t
  cases hhead : (t.dropWhile p).head? with
  | none => rfl
  | some c => simpa [hhead] using h

/-! ## Names and keywords -/

/-- A name and what follows it: a whole word that does not begin with a digit. -/
structure IsName (name rest : Text) : Prop where
  first : name.head?.any CodePoint.isDecimalDigit = false
  nonempty : name ≠ []
  word : ∀ c ∈ name, c.isWord = true
  stops : rest.head?.any CodePoint.isWord = false

theorem identifier?_iff {t name : Text} :
    identifier? t = some name ↔ ∃ rest, t = name ++ rest ∧ IsName name rest := by
  constructor
  · intro h
    unfold identifier? at h
    split at h
    · cases h
    rename_i c tail hword
    split at h
    · cases h
    rename_i hdigit
    cases h
    refine ⟨t.dropWhile CodePoint.isWord, ?_, by simpa using hdigit, List.cons_ne_nil _ _, ?_,
      head?_dropWhile ..⟩
    · rw [← hword, List.takeWhile_append_dropWhile]
    · rw [← hword]
      exact fun c hc => List.mem_takeWhile_imp hc
  · rintro ⟨rest, rfl, hname⟩
    obtain ⟨c, tail, rfl⟩ := List.exists_cons_of_ne_nil hname.nonempty
    have hdigit : c.isDecimalDigit = false := hname.first
    unfold identifier?
    rw [(span_of_split hname.word hname.stops).1]
    simp [hdigit]

theorem keyword_ne_nil {keyword : Text} (h : keyword ∈ constantKeywords) : keyword ≠ [] := by
  have hall : ∀ keyword ∈ constantKeywords, keyword ≠ [] := by decide
  exact hall keyword h

theorem keyword_character {keyword : Text} (h : keyword ∈ constantKeywords) {c : CodePoint}
    (hc : c ∈ keyword) : (c.isWord || decide (c = CodePoint.ofChar '#')) = true ∧ c.isBlank = false
      ∧ c ∉ Text.ofString ";/:=" := by
  have hall : ∀ keyword ∈ constantKeywords, ∀ c ∈ keyword,
      (c.isWord || decide (c = CodePoint.ofChar '#')) = true ∧ c.isBlank = false
        ∧ c ∉ Text.ofString ";/:=" := by decide +kernel
  exact hall keyword h c hc

theorem keywords_prefix_free :
    ∀ w ∈ constantKeywords, ∀ w' ∈ constantKeywords, w <+: w' → w = w' := by decide

theorem constantKeyword?_iff {t keyword : Text} :
    constantKeyword? t = some keyword ↔ keyword ∈ constantKeywords ∧ keyword <+: t :=
  find?_startsWith keywords_prefix_free

/-- A constant keyword stands here, and no word character behind it. -/
def KeywordHere (t : Text) : Prop :=
  ∃ keyword ∈ constantKeywords, ∃ rest, t = keyword ++ rest ∧ rest.head?.any CodePoint.isWord = false

theorem startsConstant_iff {t : Text} : startsConstant t = true ↔ KeywordHere t := by
  unfold startsConstant
  constructor
  · intro h
    split at h
    · rename_i keyword hkeyword
      obtain ⟨hmem, rest, rfl⟩ := constantKeyword?_iff.1 hkeyword
      rw [List.drop_left] at h
      exact ⟨keyword, hmem, rest, rfl, by simpa [wordStops] using h⟩
    · cases h
  · rintro ⟨keyword, hmem, rest, rfl, hstops⟩
    rw [constantKeyword?_iff.2 ⟨hmem, List.prefix_append ..⟩]
    simp [wordStops, hstops]

theorem isBlank_of_isGap {c : CodePoint} (h : isGap c = true) : c.isBlank = true := by
  simp only [isGap, Bool.or_eq_true, decide_eq_true_eq] at h
  rcases h with rfl | rfl <;> decide

theorem not_gap_of_name {name rest : Text} (h : IsName name rest) :
    (name ++ rest).head?.any isGap = false := by
  obtain ⟨c, tail, rfl⟩ := List.exists_cons_of_ne_nil h.nonempty
  by_contra hgap
  have hword := h.word c List.mem_cons_self
  rw [isWord_of_isGap (by simpa using hgap)] at hword
  cases hword

/-! ## Values -/

def EndsValue (t : Text) : Prop :=
  t = [] ∨ (∃ c ∈ t.head?, c.isBlank = true ∨ c = CodePoint.ofChar ';') ∨ Text.ofString "//" <+: t

theorem endsValue_cons {c : CodePoint} {t : Text} : EndsValue (c :: t) ↔
    c.isBlank = true ∨ c = CodePoint.ofChar ';'
      ∨ c = CodePoint.ofChar '/' ∧ Text.startsWith t "/" = true := by
  have hslashes : Text.ofString "//" <+: c :: t
      ↔ c = CodePoint.ofChar '/' ∧ Text.startsWith t "/" = true := by
    rw [Text.startsWith_iff]
    exact List.cons_prefix_cons.trans (and_congr_left fun _ => eq_comm)
  simp [EndsValue, hslashes, or_assoc]

def IsValueRun (t run : Text) : Prop :=
  ∃ rest, t = run ++ rest ∧ EndsValue rest ∧ ∀ i < run.length, ¬ EndsValue (t.drop i)

theorem valueRun_of_endsValue {t : Text} (h : EndsValue t) : valueRun t = [] := by
  cases t with
  | nil => rfl
  | cons c t =>
    rw [endsValue_cons] at h
    unfold valueRun
    rw [if_pos]
    simpa [or_assoc] using h

theorem valueRun_cons_of_not_endsValue {c : CodePoint} {t : Text} (h : ¬ EndsValue (c :: t)) :
    valueRun (c :: t) = c :: valueRun t := by
  rw [endsValue_cons] at h
  rw [valueRun, if_neg]
  simpa [or_assoc] using h

theorem isValueRun_valueRun (t : Text) : IsValueRun t (valueRun t) := by
  induction t with
  | nil => exact ⟨[], rfl, .inl rfl, by simp [valueRun]⟩
  | cons c t ih =>
    by_cases hend : EndsValue (c :: t)
    · rw [valueRun_of_endsValue hend]
      exact ⟨c :: t, rfl, hend, by simp⟩
    · obtain ⟨rest, hsplit, hrest, hinner⟩ := ih
      rw [valueRun_cons_of_not_endsValue hend]
      refine ⟨rest, by rw [List.cons_append, ← hsplit], hrest, fun i hi => ?_⟩
      cases i with
      | zero => exact hend
      | succ i => exact hinner i (by simpa using hi)

theorem valueRun_of_isValueRun : ∀ {t run : Text}, IsValueRun t run → valueRun t = run
  | t, [], ⟨rest, hsplit, hrest, _⟩ => by
    rw [List.nil_append] at hsplit
    rw [hsplit, valueRun_of_endsValue hrest]
  | t, c :: run, ⟨rest, hsplit, hrest, hinner⟩ => by
    subst hsplit
    have hfirst : ¬ EndsValue (c :: (run ++ rest)) := hinner 0 (by simp)
    have htail : IsValueRun (run ++ rest) run :=
      ⟨rest, rfl, hrest, fun i hi => hinner (i + 1) (by simpa using hi)⟩
    rw [List.cons_append, valueRun_cons_of_not_endsValue hfirst, valueRun_of_isValueRun htail]

theorem isValueRun_iff {t run : Text} : IsValueRun t run ↔ valueRun t = run :=
  ⟨valueRun_of_isValueRun, fun h => h ▸ isValueRun_valueRun t⟩

structure ValueAt (t value : Text) : Prop where
  nonempty : value ≠ []
  run : IsValueRun t value
  noKeyword : ¬ KeywordHere t

theorem value?_iff {t value : Text} : value? t = some value ↔ ValueAt t value := by
  unfold value?
  constructor
  · intro h
    split at h
    · cases h
    rename_i hkeyword
    split at h
    · cases h
    rename_i hne
    cases h
    exact ⟨hne, isValueRun_valueRun t, fun hhere => hkeyword (startsConstant_iff.2 hhere)⟩
  · intro h
    have hkeyword : startsConstant t ≠ true := fun hstart => h.noKeyword (startsConstant_iff.1 hstart)
    obtain ⟨c, tail, rfl⟩ := List.exists_cons_of_ne_nil h.nonempty
    rw [if_neg hkeyword, isValueRun_iff.1 h.run]

theorem ValueAt.not_gap {t value : Text} (h : ValueAt t value) : t.head?.any isGap = false := by
  obtain ⟨rest, rfl, -, hinner⟩ := h.run
  obtain ⟨c, tail, rfl⟩ := List.exists_cons_of_ne_nil h.nonempty
  have hfirst : ¬ EndsValue (c :: (tail ++ rest)) := hinner 0 (by simp)
  rw [endsValue_cons, not_or] at hfirst
  by_contra hgap
  exact hfirst.1 (isBlank_of_isGap (by simpa using hgap))

/-! ## The value of a constant -/

def assignmentSigns : List Text := ["=", ":="]

theorem signs_prefix_free :
    ∀ w ∈ assignmentSigns, ∀ w' ∈ assignmentSigns, w <+: w' → w = w' := by decide

theorem assignment?_iff {t sign : Text} :
    assignment? t = some sign ↔ sign ∈ assignmentSigns ∧ sign <+: t :=
  find?_startsWith signs_prefix_free

theorem sign_ne_nil {sign : Text} (h : sign ∈ assignmentSigns) : sign ≠ [] := by
  have hall : ∀ sign ∈ assignmentSigns, sign ≠ [] := by decide
  exact hall sign h

theorem mem_of_sign {sign : Text} (h : sign ∈ assignmentSigns) {c : CodePoint} (hc : c ∈ sign) :
    c ∈ Text.ofString ":=" := by
  have hall : ∀ sign ∈ assignmentSigns, ∀ c ∈ sign, c ∈ Text.ofString ":=" := by decide
  exact hall sign h c hc

theorem not_gap_of_sign {sign : Text} (h : sign ∈ assignmentSigns) (rest : Text) :
    (sign ++ rest).head?.any isGap = false := by
  have hall : ∀ c ∈ Text.ofString ":=", isGap c = false := by decide
  obtain ⟨c, tail, rfl⟩ := List.exists_cons_of_ne_nil (sign_ne_nil h)
  exact hall c (mem_of_sign h List.mem_cons_self)

/-- A value stands behind an assignment sign, `offset` characters from here. -/
def AssignedAt (t : Text) (offset : Nat) (value : Text) : Prop :=
  ∃ gap sign pause rest, t = gap ++ (sign ++ (pause ++ rest)) ∧ (∀ c ∈ gap, isGap c = true)
    ∧ sign ∈ assignmentSigns ∧ (∀ c ∈ pause, isGap c = true) ∧ ValueAt rest value
    ∧ offset = gap.length + sign.length + pause.length

/-- A value stands behind spaces or tabs, `offset` characters from here. -/
def SpacedAt (t : Text) (offset : Nat) (value : Text) : Prop :=
  ∃ gap rest, t = gap ++ rest ∧ gap ≠ [] ∧ (∀ c ∈ gap, isGap c = true) ∧ ValueAt rest value
    ∧ offset = gap.length

theorem assignedValue?_iff {t value : Text} {offset : Nat} :
    assignedValue? t = some (offset, value) ↔ AssignedAt t offset value := by
  unfold assignedValue?
  simp only [bind, Option.bind_eq_some_iff]
  constructor
  · rintro ⟨sign, hsign, found, hvalue, hd⟩
    cases hd
    obtain ⟨hmem, rest, hrest⟩ := assignment?_iff.1 hsign
    rw [← hrest, List.drop_left] at hvalue ⊢
    refine ⟨t.takeWhile isGap, sign, rest.takeWhile isGap, rest.dropWhile isGap, ?_,
      fun c hc => List.mem_takeWhile_imp hc, hmem, fun c hc => List.mem_takeWhile_imp hc,
      value?_iff.1 hvalue, rfl⟩
    rw [List.takeWhile_append_dropWhile, hrest, List.takeWhile_append_dropWhile]
  · rintro ⟨gap, sign, pause, rest, rfl, hgap, hsign, hpause, hvalue, rfl⟩
    obtain ⟨htake, hdrop⟩ := span_of_split hgap (not_gap_of_sign hsign (pause ++ rest))
    obtain ⟨htake', hdrop'⟩ := span_of_split hpause hvalue.not_gap
    refine ⟨sign, ?_, value, ?_, ?_⟩
    · rw [hdrop]
      exact assignment?_iff.2 ⟨hsign, List.prefix_append ..⟩
    · rw [hdrop, List.drop_left, hdrop']
      exact value?_iff.2 hvalue
    · rw [hdrop, List.drop_left, htake, htake']
      rfl

theorem spacedValue?_iff {t value : Text} {offset : Nat} :
    spacedValue? t = some (offset, value) ↔ SpacedAt t offset value := by
  unfold spacedValue?
  simp only [bind, Option.bind_eq_some_iff, Option.guard_eq_some']
  constructor
  · rintro ⟨_, hgap, found, hvalue, hd⟩
    cases hd
    exact ⟨t.takeWhile isGap, t.dropWhile isGap, (List.takeWhile_append_dropWhile ..).symm,
      by simpa using hgap, fun c hc => List.mem_takeWhile_imp hc, value?_iff.1 hvalue, rfl⟩
  · rintro ⟨gap, rest, rfl, hne, hgap, hvalue, rfl⟩
    obtain ⟨htake, hdrop⟩ := span_of_split hgap hvalue.not_gap
    refine ⟨(), ?_, value, ?_, ?_⟩
    · rw [htake]
      simpa using hne
    · rw [hdrop]
      exact value?_iff.2 hvalue
    · rw [htake]
      rfl

/-- The value of a constant whose name ends at column `stop`, where `t` begins: the assigned one, else
the one behind spaces or tabs, else none. -/
def ReadsValue (stop : Nat) (t : Text) : ConstantValue → Prop
  | .assigned e => ∃ offset, AssignedAt t offset e.text ∧ e.start = stop + offset
  | .spaced e => (∀ offset value, ¬ AssignedAt t offset value)
      ∧ ∃ offset, SpacedAt t offset e.text ∧ e.start = stop + offset
  | .absent => (∀ offset value, ¬ AssignedAt t offset value)
      ∧ ∀ offset value, ¬ SpacedAt t offset value

theorem assignedValue?_eq_none_iff {t : Text} :
    assignedValue? t = none ↔ ∀ offset value, ¬ AssignedAt t offset value := by
  rw [Option.eq_none_iff_forall_ne_some]
  exact ⟨fun h offset value hat => h _ (assignedValue?_iff.2 hat),
    fun h found hfound => h _ _ (assignedValue?_iff.1 hfound)⟩

theorem spacedValue?_eq_none_iff {t : Text} :
    spacedValue? t = none ↔ ∀ offset value, ¬ SpacedAt t offset value := by
  rw [Option.eq_none_iff_forall_ne_some]
  exact ⟨fun h offset value hat => h _ (spacedValue?_iff.2 hat),
    fun h found hfound => h _ _ (spacedValue?_iff.1 hfound)⟩

theorem readsValue_constantValue (stop : Nat) (t : Text) :
    ReadsValue stop t (constantValue stop t) := by
  unfold constantValue
  split
  · rename_i offset value hassigned
    exact ⟨offset, assignedValue?_iff.1 hassigned, rfl⟩
  · rename_i hassigned
    split
    · rename_i offset value hspaced
      exact ⟨assignedValue?_eq_none_iff.1 hassigned, offset, spacedValue?_iff.1 hspaced, rfl⟩
    · rename_i hspaced
      exact ⟨assignedValue?_eq_none_iff.1 hassigned, spacedValue?_eq_none_iff.1 hspaced⟩

theorem constantValue_of_readsValue {stop : Nat} {t : Text} {value : ConstantValue}
    (h : ReadsValue stop t value) : constantValue stop t = value := by
  unfold constantValue
  cases value with
  | assigned e =>
    obtain ⟨offset, hat, hstart⟩ := h
    simp only [assignedValue?_iff.2 hat, ← hstart]
  | spaced e =>
    obtain ⟨hno, offset, hat, hstart⟩ := h
    simp only [assignedValue?_eq_none_iff.2 hno, spacedValue?_iff.2 hat, ← hstart]
  | absent =>
    obtain ⟨hno, hno'⟩ := h
    simp only [assignedValue?_eq_none_iff.2 hno, spacedValue?_eq_none_iff.2 hno']

theorem readsValue_iff {stop : Nat} {t : Text} {value : ConstantValue} :
    ReadsValue stop t value ↔ constantValue stop t = value :=
  ⟨constantValue_of_readsValue, fun h => h ▸ readsValue_constantValue stop t⟩

/-! ## Constants -/

/-- A constant may begin behind this text. -/
def MayPrecede (front : Text) : Prop :=
  front.getLast?.any (fun c => c.isWord || c = CodePoint.ofChar '#') = false

instance (front : Text) : Decidable (MayPrecede front) := inferInstanceAs (Decidable (_ = _))

/-- The constant `d` is declared from this column of the line on. -/
def ConstantAt (line : Text) (column : Nat) (d : ConstantDeclaration) : Prop :=
  ∃ front keyword gap name rest,
    line = front ++ (keyword ++ (gap ++ (name ++ rest))) ∧ column = front.length
    ∧ MayPrecede front ∧ keyword ∈ constantKeywords ∧ gap ≠ [] ∧ (∀ c ∈ gap, isGap c = true)
    ∧ IsName name rest ∧ d.name = ⟨column + keyword.length + gap.length, name⟩
    ∧ ReadsValue d.name.stop rest d.value
    ∧ d.whole = ⟨column, (line.drop column).take (d.value.stop d.name.stop - column)⟩

theorem mayStart_iff {before : Option CodePoint} :
    (wordMayStart before && decide (before ≠ some (CodePoint.ofChar '#'))) = true
      ↔ before.any (fun c => c.isWord || decide (c = CodePoint.ofChar '#')) = false := by
  cases before <;> simp [wordMayStart]

/-- **The recogniser finds the constants of the grammar**, and nothing else. -/
theorem recognisedAt?_constantAt? {line : Text} {column : Nat} {d : ConstantDeclaration} :
    recognisedAt? constantAt? line column = some d ↔ ConstantAt line column d := by
  unfold recognisedAt? constantAt?
  simp only [bind, Option.bind_eq_some_iff, Option.guard_eq_some']
  constructor
  · rintro ⟨_, hstart, keyword, hkeyword, _, hgap, name, hname, hd⟩
    cases hd
    obtain ⟨hmem, rest, hrest⟩ := constantKeyword?_iff.1 hkeyword
    rw [← hrest, List.drop_left] at hgap hname
    obtain ⟨tail, htail, hisName⟩ := identifier?_iff.1 hname
    have hlength : (line.take column).length = column := by
      have hpos := List.length_pos_iff.2 (keyword_ne_nil hmem)
      have hsplit := congrArg List.length hrest
      rw [List.length_append, List.length_drop] at hsplit
      rw [List.length_take]
      omega
    refine ⟨line.take column, keyword, rest.takeWhile isGap, name, tail, ?_, hlength.symm,
      mayStart_iff.1 hstart, hmem, by simpa using hgap, fun c hc => List.mem_takeWhile_imp hc,
      hisName, ?_, ?_, ?_⟩
    · rw [← htail, List.takeWhile_append_dropWhile, hrest, List.take_append_drop]
    · simp only [← hrest, List.drop_left, Nat.add_assoc]
    · simp only [← hrest, List.drop_left, htail, Excerpt.stop]
      exact readsValue_constantValue ..
    · rfl
  · rintro ⟨front, keyword, gap, name, rest, rfl, rfl, hstart, hkeyword, hne, hgap, hname, hdname,
      hvalue, hwhole⟩
    obtain ⟨htake, hdrop⟩ := span_of_split hgap (not_gap_of_name hname)
    refine ⟨(), ?_, keyword, ?_, (), ?_, name, ?_, ?_⟩
    · rw [List.take_left]
      exact mayStart_iff.2 hstart
    · rw [List.drop_left]
      exact constantKeyword?_iff.2 ⟨hkeyword, List.prefix_append ..⟩
    · rw [List.drop_left, List.drop_left, htake]
      simpa using hne
    · rw [List.drop_left, List.drop_left, hdrop]
      exact identifier?_iff.2 ⟨rest, rfl, hname⟩
    · obtain ⟨⟨whole, nameExcerpt⟩, value⟩ := d
      rw [readsValue_iff] at hvalue
      dsimp only at hdname hvalue hwhole
      subst hdname hvalue hwhole
      simp only [List.drop_left, htake, hdrop, Excerpt.stop, Nat.add_assoc]
      rfl

/-! ## Inside a value -/

section Value

variable {t value : Text}

theorem not_isWord_of_endsValue (h : EndsValue t) : t.head?.any CodePoint.isWord = false := by
  cases t with
  | nil => rfl
  | cons c t =>
    rcases endsValue_cons.1 h with hblank | rfl | ⟨rfl, -⟩
    · exact CodePoint.isWord_of_isBlank hblank
    · exact (by decide +kernel : CodePoint.isWord (CodePoint.ofChar ';') = false)
    · exact (by decide +kernel : CodePoint.isWord (CodePoint.ofChar '/') = false)

theorem ValueAt.split (h : ValueAt t value) : ∃ rest, t = value ++ rest ∧ EndsValue rest := by
  obtain ⟨rest, hsplit, hrest, -⟩ := h.run
  exact ⟨rest, hsplit, hrest⟩

theorem ValueAt.not_endsValue {front back : Text} (h : ValueAt t (front ++ back)) (hne : back ≠ []) :
    ∃ rest, ¬ EndsValue (back ++ rest) := by
  obtain ⟨rest, rfl, -, hinner⟩ := h.run
  have hpos := List.length_pos_iff.2 hne
  have hhere := hinner front.length (by rw [List.length_append]; omega)
  rw [List.append_assoc, List.drop_left] at hhere
  exact ⟨rest, hhere⟩

theorem ValueAt.mem (h : ValueAt t value) {c : CodePoint} (hc : c ∈ value) :
    c.isBlank = false ∧ c ≠ CodePoint.ofChar ';' := by
  obtain ⟨front, back, rfl⟩ := List.append_of_mem hc
  obtain ⟨rest, hrest⟩ := h.not_endsValue (List.cons_ne_nil _ _)
  rw [List.cons_append, endsValue_cons, not_or, not_or] at hrest
  exact ⟨eq_false_of_ne_true hrest.1, hrest.2.1⟩

theorem ValueAt.no_slashes (h : ValueAt t value) : ¬ Text.ofString "//" <:+: value := by
  rintro ⟨front, back, rfl⟩
  rw [List.append_assoc] at h
  obtain ⟨rest, hrest⟩ := h.not_endsValue (List.cons_ne_nil _ _)
  rw [List.append_assoc] at hrest
  exact hrest (.inr (.inr (List.prefix_append ..)))

/-- What follows a value is no word character, so a value that is a keyword would be one as a word. -/
theorem ValueAt.not_keyword (h : ValueAt t value) : value ∉ constantKeywords := by
  intro hmem
  obtain ⟨rest, hsplit, hrest⟩ := h.split
  exact h.noKeyword ⟨value, hmem, rest, hsplit, not_isWord_of_endsValue hrest⟩

theorem ReadsValue.valueAt {stop : Nat} {value : ConstantValue} {e : Excerpt}
    (h : ReadsValue stop t value) (he : value.excerpt? = some e) :
    ∃ filling rest, t = filling ++ rest ∧ (∀ c ∈ filling, isGap c = true ∨ c ∈ Text.ofString ":=")
      ∧ ValueAt rest e.text ∧ e.start = stop + filling.length := by
  cases value with
  | absent => cases he
  | assigned e =>
    cases he
    obtain ⟨offset, ⟨gap, sign, pause, rest, rfl, hgap, hsign, hpause, hvalue, rfl⟩, hstart⟩ := h
    refine ⟨gap ++ (sign ++ pause), rest, by simp only [List.append_assoc], ?_, hvalue, ?_⟩
    · intro c hc
      rcases List.mem_append.1 hc with hc | hc
      · exact .inl (hgap c hc)
      rcases List.mem_append.1 hc with hc | hc
      · exact .inr (mem_of_sign hsign hc)
      · exact .inl (hpause c hc)
    · rw [hstart, List.length_append, List.length_append, Nat.add_assoc gap.length]
  | spaced e =>
    cases he
    obtain ⟨-, offset, ⟨gap, rest, rfl, -, hgap, hvalue, rfl⟩, hstart⟩ := h
    exact ⟨gap, rest, rfl, fun c hc => .inl (hgap c hc), hvalue, hstart⟩

end Value

/-! ## Where a constant ends -/

namespace ConstantAt

variable {line : Text} {column : Nat} {d : ConstantDeclaration}

theorem unique {d' : ConstantDeclaration} (h : ConstantAt line column d)
    (h' : ConstantAt line column d') : d = d' :=
  Option.some.inj ((recognisedAt?_constantAt?.2 h).symm.trans (recognisedAt?_constantAt?.2 h'))

theorem name_within (h : ConstantAt line column d) :
    column < d.name.start ∧ d.name.start < d.name.stop ∧ d.name.stop ≤ line.length := by
  obtain ⟨front, keyword, gap, name, rest, rfl, rfl, -, -, hgap, -, hname, hdname, -⟩ := h
  have hgap := List.length_pos_iff.2 hgap
  have hname := List.length_pos_iff.2 hname.nonempty
  rw [hdname]
  simp only [Excerpt.stop, List.length_append]
  omega

theorem readsValue (h : ConstantAt line column d) :
    ReadsValue d.name.stop (line.drop d.name.stop) d.value := by
  obtain ⟨front, keyword, gap, name, rest, rfl, rfl, -, -, -, -, -, hdname, hvalue, -⟩ := h
  have hdrop : (front ++ (keyword ++ (gap ++ (name ++ rest)))).drop d.name.stop = rest := by
    rw [hdname, Excerpt.stop]
    simp only [← List.drop_drop, List.drop_left]
  rwa [hdrop]

theorem valueAt {e : Excerpt} (h : ConstantAt line column d) (he : d.value.excerpt? = some e) :
    d.name.stop ≤ e.start ∧ ValueAt (line.drop e.start) e.text := by
  obtain ⟨filling, rest, hsplit, -, hvalue, hstart⟩ := h.readsValue.valueAt he
  refine ⟨by omega, ?_⟩
  rwa [hstart, ← List.drop_drop, hsplit, List.drop_left]

theorem value_stop (h : ConstantAt line column d) :
    d.name.stop ≤ d.value.stop d.name.stop ∧ d.value.stop d.name.stop ≤ line.length := by
  rw [ConstantValue.stop_eq]
  cases he : d.value.excerpt? with
  | none => exact ⟨Nat.le_refl _, h.name_within.2.2⟩
  | some e =>
    obtain ⟨hle, hvalue⟩ := h.valueAt he
    obtain ⟨rest, hsplit, -⟩ := hvalue.split
    have hpos := List.length_pos_iff.2 hvalue.nonempty
    have hlength := congrArg List.length hsplit
    rw [List.length_drop, List.length_append] at hlength
    simp only [Option.map_some, Option.getD_some, Excerpt.stop]
    exact ⟨Nat.le_add_right_of_le hle, by omega⟩

theorem column_add_size (h : ConstantAt line column d) :
    column + d.toDeclaration.size = d.value.stop d.name.stop := by
  have hname := h.name_within
  have hstop := h.value_stop
  obtain ⟨front, keyword, gap, name, rest, -, -, -, -, -, -, -, -, -, hwhole⟩ := h
  rw [Declaration.size, hwhole, List.length_take, List.length_drop]
  omega

end ConstantAt

theorem mem_constantDeclarations {line : Text} {d : ConstantDeclaration}
    (h : d ∈ constantDeclarations line) : ∃ column, ConstantAt line column d := by
  obtain ⟨column, -, hat⟩ := mem_occurrences h
  exact ⟨column, recognisedAt?_constantAt?.1 hat⟩

/-- **The constants of a line are those of the grammar, leftmost first.** -/
theorem leftmost_constantDeclarations (line : Text) :
    LeftmostFrom (ConstantAt line) (fun d => d.toDeclaration.size) 0 (constantDeclarations line) := by
  have hat : ConstantAt line
      = fun column d => recognisedAt? constantAt? line column = some d := by
    funext column d
    rw [recognisedAt?_constantAt?]
  rw [hat]
  refine leftmost_occurrences (fun column d h => ?_) fun column hle => ?_
  · have h := recognisedAt?_constantAt?.1 h
    have hsize := h.column_add_size
    have hname := h.name_within
    have hstop := h.value_stop
    omega
  · cases hd : recognisedAt? constantAt? line column with
    | none => rfl
    | some d =>
      have hname := (recognisedAt?_constantAt?.1 hd).name_within
      omega

end Source

end OutlineServer
