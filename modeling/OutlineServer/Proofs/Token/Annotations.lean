import OutlineServer.Proofs.Source.DeclarationGrammar
import OutlineServer.Proofs.Token.Characters

/-!
# A line and its annotations

The annotations of a line cut it up: a gap, a pair of brackets, a gap, a pair of brackets and so on, and
a last gap.  No gap has an opening bracket, and no pair of brackets encloses a closing one; the last gap
may have opening brackets, but no closing bracket behind them.  Every line is cut up so in exactly one
way (`exists_decomposes`, `Decomposes.unique`), and the contents of the pairs are the bracketed excerpts
(`Decomposes.bracketedExcerpts_eq`).

The excerpts may also be searched for from left to right, where the search resumes at a closing bracket
and not behind it.  That search comes to an end, and its result is the same (`rounds_iff`).
-/
namespace OutlineServer

/-! ## Labels -/

namespace Token

/-- A span of a text that stands behind `before` on its line, with the label that the text spells. -/
structure Spells (span : TokenSpan) (before content : Text) : Prop where
  start : span.start = before.length
  length : span.length = content.length
  spelled : Text.join "." (span.type :: span.modifiers) = content
  dotless : ∀ part ∈ span.type :: span.modifiers, CodePoint.ofChar '.' ∉ part

theorem splitOn_eq_parse (t : Text) :
    t.splitOn '.' = (Label.parse t).type :: (Label.parse t).modifiers := by
  obtain ⟨type, modifiers, hsplit⟩ := List.exists_cons_of_ne_nil (Text.splitOn_ne_nil '.' t)
  simp only [Label.parse, hsplit]

theorem spells_bracketedSpan (number : Nat) (before content : Text) :
    Spells (bracketedSpan number ⟨before.length, content⟩) before content where
  start := rfl
  length := rfl
  spelled := by
    show Text.join "." ((Label.parse content).type :: (Label.parse content).modifiers) = content
    rw [← splitOn_eq_parse]
    exact Text.join_splitOn '.' content
  dotless := by
    show ∀ part ∈ (Label.parse content).type :: (Label.parse content).modifiers, _
    rw [← splitOn_eq_parse]
    exact fun part hpart => Text.not_mem_of_mem_splitOn hpart

/-! ## Cutting a line up -/

/-- Gaps, each followed by what a pair of brackets encloses, and a last gap. -/
def assemble : List (Text × Text) → Text → Text
  | [], last => last
  | (gap, content) :: pieces, last =>
    gap ++ CodePoint.ofChar '[' :: (content ++ CodePoint.ofChar ']' :: assemble pieces last)

def Unpaired (t : Text) : Prop :=
  ∀ before after, t = before ++ CodePoint.ofChar '[' :: after → CodePoint.ofChar ']' ∉ after

structure Decomposes (line : Text) (pieces : List (Text × Text)) (last : Text) : Prop where
  assembled : assemble pieces last = line
  gaps : ∀ piece ∈ pieces, CodePoint.ofChar '[' ∉ piece.1
  contents : ∀ piece ∈ pieces, CodePoint.ofChar ']' ∉ piece.2
  unpaired : Unpaired last

theorem suffix_of_cut {c : CodePoint} {front back before after : Text} (hfront : c ∉ front)
    (h : front ++ c :: back = before ++ c :: after) : after <:+ back := by
  rcases List.append_eq_append_iff.1 h with ⟨between, rfl, hback⟩ | ⟨between, rfl, hafter⟩
  · cases between with
    | nil =>
      obtain ⟨-, rfl⟩ := List.cons.inj hback
      exact List.suffix_refl _
    | cons d between =>
      obtain ⟨rfl, rfl⟩ := List.cons.inj hback
      exact ⟨between ++ [c], by simp⟩
  · cases between with
    | nil =>
      obtain ⟨-, rfl⟩ := List.cons.inj hafter
      exact List.suffix_refl _
    | cons d between =>
      obtain ⟨rfl, -⟩ := List.cons.inj hafter
      simp at hfront

/-- A text is cut at its first character of a kind in one way only. -/
theorem eq_of_cut {c : CodePoint} {front front' back back' : Text} (hfront : c ∉ front)
    (hfront' : c ∉ front') (h : front ++ c :: back = front' ++ c :: back') :
    front = front' ∧ back = back' := by
  have hle := (suffix_of_cut hfront h).length_le
  obtain rfl := (suffix_of_cut hfront' h.symm).eq_of_length_le hle
  exact ⟨List.append_cancel_right h, rfl⟩

theorem Unpaired.ne_pair {t : Text} (h : Unpaired t) (gap content rest : Text) :
    t ≠ gap ++ CodePoint.ofChar '[' :: (content ++ CodePoint.ofChar ']' :: rest) := by
  intro heq
  exact h _ _ heq (by simp)

theorem exists_decomposes (line : Text) : ∃ pieces last, Decomposes line pieces last := by
  by_cases hopening : CodePoint.ofChar '[' ∈ line
  · obtain ⟨gap, rest, hline, hgap⟩ := List.eq_append_cons_of_mem hopening
    by_cases hclosing : CodePoint.ofChar ']' ∈ rest
    · obtain ⟨content, after, hrest, hcontent⟩ := List.eq_append_cons_of_mem hclosing
      obtain ⟨pieces, last, h⟩ := exists_decomposes after
      refine ⟨(gap, content) :: pieces, last, ?_, ?_, ?_, h.unpaired⟩
      · rw [assemble, h.assembled, hline, hrest]
      · exact List.forall_mem_cons.2 ⟨hgap, h.gaps⟩
      · exact List.forall_mem_cons.2 ⟨hcontent, h.contents⟩
    · refine ⟨[], line, rfl, by simp, by simp, fun before after heq hmem => hclosing ?_⟩
      exact (suffix_of_cut hgap (hline.symm.trans heq)).subset hmem
  · refine ⟨[], line, rfl, by simp, by simp, fun before after heq => absurd ?_ hopening⟩
    rw [heq]
    exact List.mem_append_right _ List.mem_cons_self
termination_by line.length
decreasing_by
  rw [hline, hrest]
  simp only [List.length_append, List.length_cons]
  omega

namespace Decomposes

variable {line : Text} {pieces : List (Text × Text)} {last : Text}

theorem tail {piece : Text × Text} (h : Decomposes line (piece :: pieces) last) :
    Decomposes (assemble pieces last) pieces last :=
  ⟨rfl, (List.forall_mem_cons.1 h.gaps).2, (List.forall_mem_cons.1 h.contents).2, h.unpaired⟩

/-- **A line is cut up in one way only.** -/
theorem unique : ∀ {line : Text} {pieces pieces' : List (Text × Text)} {last last' : Text},
    Decomposes line pieces last → Decomposes line pieces' last' → pieces = pieces' ∧ last = last'
  | _, [], [], _, _, h, h' => ⟨rfl, h.assembled.trans h'.assembled.symm⟩
  | _, [], (_, _) :: _, _, _, h, h' =>
    absurd (h.assembled.trans h'.assembled.symm) (h.unpaired.ne_pair _ _ _)
  | _, (_, _) :: _, [], _, _, h, h' =>
    absurd (h'.assembled.trans h.assembled.symm) (h'.unpaired.ne_pair _ _ _)
  | _, (gap, content) :: pieces, (gap', content') :: pieces', last, last', h, h' => by
    obtain ⟨rfl, hbehind⟩ := eq_of_cut (h.gaps _ List.mem_cons_self) (h'.gaps _ List.mem_cons_self)
      (h.assembled.trans h'.assembled.symm)
    obtain ⟨rfl, hrest⟩ := eq_of_cut (h.contents _ List.mem_cons_self)
      (h'.contents _ List.mem_cons_self) hbehind
    have htail := h'.tail
    rw [← hrest] at htail
    obtain ⟨rfl, rfl⟩ := unique h.tail htail
    exact ⟨rfl, rfl⟩

end Decomposes

/-- The contents of the pieces with their columns, where the first gap begins at a column. -/
def excerptsFrom (column : Nat) : List (Text × Text) → List Excerpt
  | [] => []
  | (gap, content) :: pieces =>
    ⟨column + gap.length + 1, content⟩
      :: excerptsFrom (column + gap.length + content.length + 2) pieces

theorem length_excerptsFrom : ∀ (pieces : List (Text × Text)) (column : Nat),
    (excerptsFrom column pieces).length = pieces.length
  | [], _ => rfl
  | (_, _) :: pieces, _ => congrArg (· + 1) (length_excerptsFrom pieces _)

theorem getElem?_excerptsFrom {gap content : Text} :
    ∀ {pieces : List (Text × Text)} {k : Nat} (column : Nat), pieces[k]? = some (gap, content) →
      (excerptsFrom column pieces)[k]? = some ⟨column
        + (assemble (pieces.take k) (gap ++ [CodePoint.ofChar '['])).length, content⟩
  | [], _, _, h => by simp at h
  | (_, _) :: _, 0, column, h => by
    cases h
    simp [excerptsFrom, assemble, Nat.add_assoc]
  | (gap', content') :: pieces, k + 1, column, h => by
    rw [List.getElem?_cons_succ] at h
    have hlength : (assemble ((gap', content') :: pieces.take k) (gap ++ [CodePoint.ofChar '['])).length
        = gap'.length + content'.length + 2
          + (assemble (pieces.take k) (gap ++ [CodePoint.ofChar '['])).length := by
      simp only [assemble, List.length_append, List.length_cons]
      omega
    rw [excerptsFrom, List.getElem?_cons_succ, getElem?_excerptsFrom _ h, List.take_succ_cons, hlength]
    simp only [Nat.add_assoc]

/-! ## The excerpts of a line -/

theorem recognisedAt?_bracketedAt?_iff {line : Text} {column : Nat} {e : Excerpt} :
    recognisedAt? bracketedAt? line column = some e ↔
      ∃ before after,
        line = before ++ CodePoint.ofChar '[' :: (e.text ++ CodePoint.ofChar ']' :: after)
        ∧ before.length = column ∧ e.start = column + 1 ∧ CodePoint.ofChar ']' ∉ e.text := by
  unfold recognisedAt? bracketedAt?
  simp only [bind, Option.bind_eq_some_iff, Text.after?_eq_some]
  constructor
  · rintro ⟨rest, hrest, after, hafter, h⟩
    cases h
    obtain ⟨hline, hcolumn⟩ := Source.split_at hrest (List.cons_ne_nil _ _)
    refine ⟨line.take column, after, ?_, hcolumn.symm, rfl, fun hmem => ?_⟩
    · have hsplit := List.takeWhile_append_dropWhile (p := (· ≠ CodePoint.ofChar ']')) (l := rest)
      rw [hafter] at hsplit
      exact hline.trans (congrArg (fun t => line.take column ++ CodePoint.ofChar '[' :: t) hsplit.symm)
    · have hinside := List.mem_takeWhile_imp hmem
      simp at hinside
  · rintro ⟨before, after, rfl, rfl, hstart, hclosing⟩
    have hinside : ∀ c ∈ e.text, decide (c ≠ CodePoint.ofChar ']') = true := by
      intro c hc
      rw [decide_eq_true_iff]
      rintro rfl
      exact hclosing hc
    obtain ⟨htake, hdrop⟩ := Source.span_of_split hinside
      (show (CodePoint.ofChar ']' :: after).head?.any _ = false by simp)
    refine ⟨e.text ++ CodePoint.ofChar ']' :: after, List.drop_left, after, hdrop, ?_⟩
    rw [htake, ← hstart]
    rfl

theorem exists_between {done t before rest : Text} (h : done ++ t = before ++ rest)
    (hle : done.length ≤ before.length) :
    ∃ between, before = done ++ between ∧ t = between ++ rest := by
  have hprefix : done <+: before ++ rest := h ▸ List.prefix_append _ _
  obtain ⟨between, rfl⟩ := List.prefix_of_prefix_length_le hprefix (List.prefix_append _ _) hle
  rw [List.append_assoc] at h
  exact ⟨between, rfl, List.append_cancel_left h⟩

namespace Decomposes

variable {line : Text}

-- The induction is on the pieces; what is behind the search is `done`.
theorem leftmost_excerptsFrom : ∀ {pieces : List (Text × Text)} {t last : Text} (done : Text),
    Decomposes t pieces last → done ++ t = line →
      LeftmostFrom (fun column e => recognisedAt? bracketedAt? line column = some e)
        (fun e => e.text.length + 2) done.length (excerptsFrom done.length pieces)
  | [], _, last, done, h, hline => by
    refine .done fun column e hle hat => ?_
    obtain ⟨before, after, hsplit, rfl, -⟩ := recognisedAt?_bracketedAt?_iff.1 hat
    obtain ⟨between, -, hlast⟩ := exists_between (hline.trans hsplit) hle
    exact h.unpaired.ne_pair _ _ _ (h.assembled.trans hlast)
  | (gap, content) :: pieces, t, last, done, h, hline => by
    have hgap : CodePoint.ofChar '[' ∉ gap := h.gaps _ List.mem_cons_self
    have ht : t = gap ++ CodePoint.ofChar '[' ::
        (content ++ CodePoint.ofChar ']' :: assemble pieces last) := h.assembled.symm
    have hat : recognisedAt? bracketedAt? line (done.length + gap.length)
        = some ⟨done.length + gap.length + 1, content⟩ := by
      refine recognisedAt?_bracketedAt?_iff.2 ⟨done ++ gap, assemble pieces last, ?_,
        List.length_append, rfl, h.contents _ List.mem_cons_self⟩
      rw [← hline, ht, List.append_assoc]
    refine .next (Nat.le_add_right _ _) hat (fun i e hle hlt hatI => ?_) ?_
    · -- the opening bracket would stand in the gap
      obtain ⟨before, after, hsplit, rfl, -⟩ := recognisedAt?_bracketedAt?_iff.1 hatI
      obtain ⟨between, rfl, hbehind⟩ := exists_between (hline.trans hsplit) hle
      rw [ht] at hbehind
      have hlength := congrArg List.length hbehind
      have hsuffix := (suffix_of_cut hgap hbehind).length_le
      simp only [List.length_append, List.length_cons] at hlength hsuffix hlt
      omega
    · have ih := leftmost_excerptsFrom
        (done ++ (gap ++ CodePoint.ofChar '[' :: (content ++ [CodePoint.ofChar ']']))) h.tail
        (by rw [← hline, ht]; simp)
      have hdone : (done ++ (gap ++ CodePoint.ofChar '[' :: (content ++ [CodePoint.ofChar ']']))).length
          = done.length + gap.length + content.length + 2 := by
        simp only [List.length_append, List.length_cons, List.length_nil]
        omega
      rw [hdone] at ih
      exact ih

/-- **The bracketed excerpts of a line are the contents of its pieces.** -/
theorem bracketedExcerpts_eq {pieces : List (Text × Text)} {last : Text}
    (h : Decomposes line pieces last) : bracketedExcerpts line = excerptsFrom 0 pieces := by
  refine LeftmostFrom.unique ?_ (leftmost_occurrences ?_ ?_) (leftmost_excerptsFrom [] h rfl)
  · intro column a b ha hb
    exact Option.some.inj (ha.symm.trans hb)
  · intro column e hat
    omega
  · intro column hle
    cases hat : recognisedAt? bracketedAt? line column with
    | none => rfl
    | some e =>
      obtain ⟨before, after, rfl, rfl, -⟩ := recognisedAt?_bracketedAt?_iff.1 hat
      simp only [List.length_append, List.length_cons] at hle
      omega

end Decomposes

/-! ## Searching with a return to the closing bracket -/

structure FirstFrom (t : Text) (c : CodePoint) (offset i : Nat) : Prop where
  le : offset ≤ i
  here : t[i]? = some c
  first : ∀ j, offset ≤ j → j < i → t[j]? ≠ some c

def NoneFrom (t : Text) (c : CodePoint) (offset : Nat) : Prop := ∀ i, offset ≤ i → t[i]? ≠ some c

/-- The rounds of a search from an offset on: each looks for an opening bracket, then for a closing
bracket, and the next round begins at the closing bracket. -/
inductive Rounds (line : Text) : Nat → List Excerpt → Prop
  | noOpening {offset : Nat} (h : NoneFrom line (CodePoint.ofChar '[') offset) : Rounds line offset []
  | noClosing {offset opening : Nat} (ho : FirstFrom line (CodePoint.ofChar '[') offset opening)
      (hc : NoneFrom line (CodePoint.ofChar ']') opening) : Rounds line offset []
  | pair {offset opening closing : Nat} {found : List Excerpt}
      (ho : FirstFrom line (CodePoint.ofChar '[') offset opening)
      (hc : FirstFrom line (CodePoint.ofChar ']') opening closing)
      (hrest : Rounds line closing found) :
      Rounds line offset (⟨opening + 1, (line.take closing).drop (opening + 1)⟩ :: found)

theorem FirstFrom.unique {line : Text} {c : CodePoint} {offset i j : Nat}
    (hi : FirstFrom line c offset i) (hj : FirstFrom line c offset j) : i = j := by
  rcases Nat.lt_trichotomy i j with hlt | heq | hlt
  · exact absurd hi.here (hj.first i hi.le hlt)
  · exact heq
  · exact absurd hj.here (hi.first j hj.le hlt)

theorem FirstFrom.not_noneFrom {line : Text} {c : CodePoint} {offset i : Nat}
    (h : FirstFrom line c offset i) : ¬ NoneFrom line c offset :=
  fun hnone => hnone i h.le h.here

theorem Rounds.unique {line : Text} {offset : Nat} {found other : List Excerpt}
    (h : Rounds line offset found) (h' : Rounds line offset other) : found = other := by
  induction h generalizing other with
  | noOpening hnone =>
    cases h' with
    | noOpening => rfl
    | noClosing => rfl
    | pair ho => exact absurd hnone ho.not_noneFrom
  | noClosing ho hnone =>
    cases h' with
    | noOpening => rfl
    | noClosing => rfl
    | pair ho' hc =>
      obtain rfl := ho.unique ho'
      exact absurd hnone hc.not_noneFrom
  | pair ho hc hrest ih =>
    cases h' with
    | noOpening hnone => exact absurd hnone ho.not_noneFrom
    | noClosing ho' hnone =>
      obtain rfl := ho.unique ho'
      exact absurd hnone hc.not_noneFrom
    | pair ho' hc' hrest' =>
      obtain rfl := ho.unique ho'
      obtain rfl := hc.unique hc'
      rw [ih hrest']

theorem firstFrom_of_cut {c : CodePoint} {between : Text} (h : c ∉ between) (done after : Text) :
    FirstFrom (done ++ (between ++ c :: after)) c done.length (done ++ between).length := by
  refine ⟨by simp, by simp [← List.append_assoc], fun j hle hlt heq => h ?_⟩
  rw [List.length_append] at hlt
  rw [List.getElem?_append_right hle, List.getElem?_append_left (by omega)] at heq
  exact List.mem_of_getElem? heq

theorem noneFrom_of_not_mem {c : CodePoint} {t : Text} (h : c ∉ t) (done : Text) :
    NoneFrom (done ++ t) c done.length := by
  intro i hle heq
  rw [List.getElem?_append_right hle] at heq
  exact h (List.mem_of_getElem? heq)

/-- A search that stands in a gap: `lead` is what it has of the gap, or the closing bracket before. -/
theorem Decomposes.rounds {line : Text} : ∀ {pieces : List (Text × Text)} {t last : Text}
    (done lead : Text), Decomposes t pieces last → CodePoint.ofChar '[' ∉ lead →
      done ++ (lead ++ t) = line →
      Rounds line done.length (excerptsFrom (done.length + lead.length) pieces)
  | [], t, last, done, lead, h, hlead, hline => by
    obtain rfl : last = t := h.assembled
    by_cases hmem : CodePoint.ofChar '[' ∈ last
    · obtain ⟨gap, rest, hlast, hgap⟩ := List.eq_append_cons_of_mem hmem
      have hopening : CodePoint.ofChar '[' ∉ lead ++ gap := by simp [hlead, hgap]
      have hclosing : CodePoint.ofChar ']' ∉ CodePoint.ofChar '[' :: rest :=
        List.not_mem_cons_of_ne_of_not_mem (by decide) (h.unpaired _ _ hlast)
      have hshape : line = done ++ ((lead ++ gap) ++ CodePoint.ofChar '[' :: rest) := by
        rw [← hline, hlast, List.append_assoc]
      rw [hshape]
      refine .noClosing (firstFrom_of_cut hopening done rest) ?_
      rw [← List.append_assoc]
      exact noneFrom_of_not_mem hclosing _
    · refine .noOpening ?_
      rw [← hline]
      exact noneFrom_of_not_mem (by simp [hlead, hmem]) done
  | (gap, content) :: pieces, t, last, done, lead, h, hlead, hline => by
    have hopening : CodePoint.ofChar '[' ∉ lead ++ gap := by
      simp [hlead, h.gaps _ List.mem_cons_self]
    have hclosing : CodePoint.ofChar ']' ∉ CodePoint.ofChar '[' :: content :=
      List.not_mem_cons_of_ne_of_not_mem (by decide) (h.contents _ List.mem_cons_self)
    have hshape : line = done ++ (lead ++ gap) ++ ((CodePoint.ofChar '[' :: content)
        ++ CodePoint.ofChar ']' :: assemble pieces last) := by
      rw [← hline, ← h.assembled, assemble]
      simp
    have ho : FirstFrom line (CodePoint.ofChar '[') done.length (done ++ (lead ++ gap)).length := by
      rw [hshape, List.append_assoc]
      exact firstFrom_of_cut hopening done _
    have hc : FirstFrom line (CodePoint.ofChar ']') (done ++ (lead ++ gap)).length
        (done ++ (lead ++ gap) ++ CodePoint.ofChar '[' :: content).length := by
      rw [hshape]
      exact firstFrom_of_cut hclosing _ _
    have hcontent : (line.take (done ++ (lead ++ gap) ++ CodePoint.ofChar '[' :: content).length).drop
        ((done ++ (lead ++ gap)).length + 1) = content := by
      rw [hshape, ← List.append_assoc _ (CodePoint.ofChar '[' :: content), List.take_left,
        ← List.drop_drop, List.drop_left]
      rfl
    have ih : Rounds line _ _ := rounds (done ++ (lead ++ gap) ++ CodePoint.ofChar '[' :: content)
      [CodePoint.ofChar ']'] h.tail (by decide) (by rw [hshape]; simp)
    have hround := Rounds.pair ho hc ih
    rw [hcontent] at hround
    simp only [List.length_append, List.length_cons, List.length_nil, ← Nat.add_assoc] at hround
    rw [excerptsFrom]
    exact hround

/-- **The search comes to an end, and finds the bracketed excerpts.** -/
theorem rounds_iff {line : Text} {found : List Excerpt} :
    Rounds line 0 found ↔ found = bracketedExcerpts line := by
  obtain ⟨pieces, last, h⟩ := exists_decomposes line
  have hrounds : Rounds line 0 (bracketedExcerpts line) := by
    rw [h.bracketedExcerpts_eq]
    exact h.rounds [] [] List.not_mem_nil rfl
  constructor
  · intro hfound
    exact hfound.unique hrounds
  · rintro rfl
    exact hrounds

/-! ## The spans of a line -/

def spansOn (text : Text) (number : Nat) : List TokenSpan :=
  (classifyBracketed text).filter (fun span => span.line = (number : Int))

theorem filter_line_map (excerpts : List Excerpt) (i number : Nat) :
    (excerpts.map (bracketedSpan i)).filter (fun span => span.line = (number : Int))
      = if i = number then excerpts.map (bracketedSpan number) else [] := by
  have hline : ∀ e : Excerpt, (bracketedSpan i e).line = (i : Int) := fun _ => rfl
  by_cases h : i = number
  · subst h
    simp [List.filter_map, Function.comp_def, hline]
  · have hne : (i : Int) ≠ number := fun heq => h (Int.ofNat.inj heq)
    simp [hline, h, hne]

theorem flatMap_zipIdx_at {β : Type} (f : Text → List β) {line : Text} :
    ∀ {lines : List Text} {number : Nat} (first : Nat), lines[number]? = some line →
      (lines.zipIdx first).flatMap (fun p => if p.2 = first + number then f p.1 else []) = f line
  | [], _, _, h => by simp at h
  | _ :: lines, 0, first, h => by
    cases h
    have hlater : (lines.zipIdx (first + 1)).flatMap
        (fun p => if p.2 = first + 0 then f p.1 else []) = [] := by
      rw [List.flatMap_eq_nil_iff]
      intro p hp
      have hle := List.le_snd_of_mem_zipIdx hp
      exact if_neg (by omega)
    rw [List.zipIdx_cons, List.flatMap_cons, hlater, List.append_nil]
    exact if_pos rfl
  | _ :: lines, number + 1, first, h => by
    rw [List.getElem?_cons_succ] at h
    have ih := flatMap_zipIdx_at f (first + 1) h
    rw [Nat.add_right_comm] at ih
    rw [List.zipIdx_cons, List.flatMap_cons, if_neg (by simp), List.nil_append]
    exact ih

theorem spansOn_eq {text line : Text} {number : Nat} (h : text.lines[number]? = some line) :
    spansOn text number = (bracketedExcerpts line).map (bracketedSpan number) := by
  have hat := flatMap_zipIdx_at (fun line => (bracketedExcerpts line).map (bracketedSpan number)) 0 h
  rw [spansOn, classifyBracketed, List.filter_flatMap, ← hat]
  simp only [filter_line_map, Nat.zero_add]

/-- **The tokens in brackets cut each line up**, in the one way in which it can be cut up: the spans of a
line are the contents of its pieces, in order, and the label of a span spells its content. -/
theorem annotations_cut_lines_up (text : Text) :
    (∀ span ∈ classifyBracketed text, ∃ number < text.lines.length, span ∈ spansOn text number)
    ∧ ∀ (number : Nat) (line : Text), text.lines[number]? = some line →
      (∃ found, (∀ other, Rounds line 0 other ↔ other = found)
        ∧ spansOn text number = found.map (bracketedSpan number))
      ∧ (∃ pieces last, Decomposes line pieces last
        ∧ ∀ pieces' last', Decomposes line pieces' last' → pieces' = pieces ∧ last' = last)
      ∧ ∀ pieces last, Decomposes line pieces last →
        (spansOn text number).length = pieces.length
        ∧ ∀ k gap content, pieces[k]? = some (gap, content) →
          ∃ span, (spansOn text number)[k]? = some span
            ∧ Spells span (assemble (pieces.take k) (gap ++ [CodePoint.ofChar '['])) content := by
  refine ⟨fun span hspan => ?_, fun number line hline => ⟨?_, ?_, fun pieces last h => ?_⟩⟩
  · obtain ⟨⟨line, number⟩, hmem, hline⟩ := List.mem_flatMap.1 hspan
    obtain ⟨e, -, rfl⟩ := List.mem_map.1 hline
    refine ⟨number, List.snd_lt_of_mem_zipIdx hmem, List.mem_filter.2 ⟨hspan, ?_⟩⟩
    exact decide_eq_true rfl
  · exact ⟨bracketedExcerpts line, fun other => rounds_iff, spansOn_eq hline⟩
  · obtain ⟨pieces, last, h⟩ := exists_decomposes line
    exact ⟨pieces, last, h, fun pieces' last' h' => h'.unique h⟩
  · rw [spansOn_eq hline, h.bracketedExcerpts_eq, List.length_map]
    refine ⟨length_excerptsFrom pieces 0, fun k gap content hpiece => ?_⟩
    refine ⟨_, ?_, spells_bracketedSpan number _ content⟩
    rw [List.getElem?_map, getElem?_excerptsFrom 0 hpiece, Nat.zero_add]
    rfl

/-- Brackets that are empty, nested, closed twice and left open. -/
theorem annotations_cut_lines_up_nested :
    let text : Text := "[]b]c[outer [inner.x] tail]x["
    Decomposes text [([], []), ("b]c", "outer [inner.x")] " tail]x["
    ∧ (spansOn text 0).length = 2
    ∧ ∃ span, (spansOn text 0)[1]? = some span ∧ Spells span "[]b]c[" "outer [inner.x" := by
  intro text
  have hlines : text.lines = [text] := by decide +kernel
  obtain ⟨-, hcut⟩ := annotations_cut_lines_up text
  obtain ⟨-, -, hspans⟩ := hcut 0 text (by rw [hlines]; rfl)
  have h : Decomposes text [([], []), ("b]c", "outer [inner.x")] " tail]x[" := by
    refine ⟨by decide, by decide, by decide, fun before after heq => ?_⟩
    have hsuffix := @suffix_of_cut (CodePoint.ofChar '[') " tail]x" [] before after (by decide) heq
    rw [List.suffix_nil.1 hsuffix]
    exact List.not_mem_nil
  obtain ⟨hlength, hspan⟩ := hspans _ _ h
  exact ⟨h, hlength, hspan 1 _ _ rfl⟩

end Token

end OutlineServer
