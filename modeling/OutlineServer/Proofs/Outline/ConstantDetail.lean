import OutlineServer.Proofs.Outline.Order
import OutlineServer.Proofs.Source.ConstantGrammar

/-!
# The detail of a constant behind an assignment sign

A value is looked for behind the sign first.  Where none is found there, it is looked for once more
behind the blanks after the name, and then the sign itself begins it.  So the detail of `word A =` is
`=`, while that of `word A=` is empty (`detail_behind_sign`).
-/
namespace OutlineServer

namespace Source

/-- An assignment sign, with blanks or none around it, and what follows them. -/
structure SignFollows (t gap sign pause rest : Text) : Prop where
  split : t = gap ++ (sign ++ (pause ++ rest))
  gap : ∀ c ∈ gap, isGap c = true
  sign : sign ∈ assignmentSigns
  pause : ∀ c ∈ pause, isGap c = true
  stops : rest.head?.any isGap = false

theorem not_keywordHere_of_sign {sign : Text} (h : sign ∈ assignmentSigns) (rest : Text) :
    ¬ KeywordHere (sign ++ rest) := by
  rintro ⟨keyword, hkeyword, follow, hsplit, -⟩
  obtain ⟨c, more, rfl⟩ := List.exists_cons_of_ne_nil (sign_ne_nil h)
  obtain ⟨c', keyword, rfl⟩ := List.exists_cons_of_ne_nil (keyword_ne_nil hkeyword)
  obtain rfl : c = c' := (List.cons.inj hsplit).1
  obtain ⟨-, -, hc⟩ := keyword_character hkeyword List.mem_cons_self
  exact hc (List.mem_append_right (Text.ofString ";/") (mem_of_sign h List.mem_cons_self))

theorem valueRun_append : ∀ {front : Text} (t : Text),
    (∀ c ∈ front, c.isBlank = false ∧ c ∉ Text.ofString ";/") →
      valueRun (front ++ t) = front ++ valueRun t
  | [], _, _ => rfl
  | c :: front, t, h => by
    obtain ⟨hblank, hstop⟩ := h c List.mem_cons_self
    have hgoes : ¬ EndsValue (c :: (front ++ t)) := by
      rw [endsValue_cons, hblank]
      rintro (h | rfl | ⟨rfl, -⟩)
      · cases h
      · exact hstop (by decide)
      · exact hstop (by decide)
    rw [List.cons_append, valueRun_cons_of_not_endsValue hgoes,
      valueRun_append t fun c hc => h c (List.mem_cons_of_mem _ hc), List.cons_append]

theorem value?_sign {sign : Text} (h : sign ∈ assignmentSigns) (rest : Text) :
    value? (sign ++ rest) = some (sign ++ valueRun rest) := by
  have hall : ∀ c ∈ Text.ofString ":=", c.isBlank = false ∧ c ∉ Text.ofString ";/" := by decide +kernel
  rw [value?_iff]
  refine ⟨List.append_ne_nil_of_left_ne_nil (sign_ne_nil h) _, ?_, not_keywordHere_of_sign h rest⟩
  rw [isValueRun_iff]
  exact valueRun_append rest fun c hc => hall c (mem_of_sign h hc)

theorem value?_eq_none_iff {t : Text} : value? t = none ↔ EndsValue t ∨ KeywordHere t := by
  have hrun : valueRun t = [] ↔ EndsValue t := by
    refine ⟨fun h => ?_, valueRun_of_endsValue⟩
    obtain ⟨rest, rfl, hrest, -⟩ := isValueRun_iff.2 h
    exact hrest
  rw [← startsConstant_iff, ← hrun]
  unfold value?
  split
  · simp [*]
  · cases valueRun t <;> simp [*]

namespace SignFollows

variable {t gap sign pause rest : Text} (h : SignFollows t gap sign pause rest)
include h

theorem assignedValue?_eq : assignedValue? t
    = (value? rest).map (fun value => (gap.length + sign.length + pause.length, value)) := by
  obtain ⟨htake, hdrop⟩ := span_of_split h.gap (not_gap_of_sign h.sign (pause ++ rest))
  obtain ⟨htake', hdrop'⟩ := span_of_split h.pause h.stops
  have hsign : assignment? (sign ++ (pause ++ rest)) = some sign :=
    assignment?_iff.2 ⟨h.sign, List.prefix_append ..⟩
  unfold assignedValue?
  simp only [h.split, htake, hdrop, hsign, bind, Option.bind_some, List.drop_left, htake', hdrop']
  cases value? rest <;> rfl

theorem spacedValue?_eq : spacedValue? t
    = if gap = [] then none else some (gap.length, sign ++ valueRun (pause ++ rest)) := by
  obtain ⟨htake, hdrop⟩ := span_of_split h.gap (not_gap_of_sign h.sign (pause ++ rest))
  unfold spacedValue?
  simp only [h.split, htake, hdrop, value?_sign h.sign]
  cases gap <;> rfl

/-- **The value behind a sign**, or the sign itself where there is none but a blank before it. -/
theorem constantValue_text (stop : Nat) : (constantValue stop t).text
    = (value? rest).getD (if gap = [] then [] else sign ++ valueRun (pause ++ rest)) := by
  unfold constantValue
  rw [h.assignedValue?_eq, h.spacedValue?_eq]
  cases value? rest with
  | some value => rfl
  | none => cases gap <;> rfl

end SignFollows

end Source

namespace Outline

open Source

theorem constantOn_of_occursIn {lines : List Text} {i : Nat} {x : Symbol}
    (h : x.OccursIn (ofLines lines).symbols) (hkind : x.kind = .const)
    (hline : x.selection.start.line = i) : constantOn lines i = some x := by
  cases occursIn_ofLines.1 h with
  | function => cases hkind
  | outerVariable _ hx =>
    rw [kind_of_mem_variablesOn hx] at hkind
    cases hkind
  | innerVariable _ _ _ hx =>
    rw [kind_of_mem_variablesOn hx] at hkind
    cases hkind
  | @constant k _ hx =>
    obtain ⟨_, _, d, _, rfl⟩ := constantOn_eq_some.1 hx
    obtain rfl : k = i := Int.ofNat.inj hline
    exact hx

/-- **The detail of a constant whose name a sign follows.**  It is the value behind the sign and its
blanks.  Where none is there, it is empty if no blank stands before the sign, and else it begins with
the sign. -/
theorem detail_behind_sign {text line gap sign pause rest : Text} {i : Nat} {d : ConstantDeclaration}
    (hline : text.lines[i]? = some line) (hd : (constantDeclarations line).head? = some d)
    (hsign : SignFollows (line.drop d.name.stop) gap sign pause rest) :
    ∃ x ∈ (scan text).symbols, x.kind = .const ∧ x.selection = excerptRange i d.name
      ∧ (∀ y : Symbol, y.OccursIn (scan text).symbols → y.kind = .const →
          y.selection.start.line = i → y = x)
      ∧ (ValueAt rest x.detail
        ∨ (EndsValue rest ∨ KeywordHere rest)
          ∧ x.detail = if gap = [] then [] else sign ++ valueRun (pause ++ rest)) := by
  have hconstant : constantOn text.lines i = some (constantSymbol i d) :=
    constantOn_eq_some.2 ⟨line, hline, d, hd, rfl⟩
  have hmem := mem_symbolsOn.2 (.inr (.inr hconstant))
  refine ⟨constantSymbol i d, mem_ofLines.2 ⟨i, lt_length_of_mem_symbolsOn hmem, hmem⟩, rfl, rfl,
    ?_, ?_⟩
  · intro y hy hkind hyline
    have hother := constantOn_of_occursIn hy hkind hyline
    rw [hconstant, Option.some.injEq] at hother
    exact hother.symm
  · obtain ⟨column, hat⟩ := mem_constantDeclarations (List.mem_of_head? hd)
    have hdetail : d.value.text
        = (value? rest).getD (if gap = [] then [] else sign ++ valueRun (pause ++ rest)) := by
      rw [← readsValue_iff.1 hat.readsValue, hsign.constantValue_text]
    change ValueAt rest d.value.text ∨ (EndsValue rest ∨ KeywordHere rest) ∧ d.value.text = _
    rw [hdetail]
    cases hvalue : value? rest with
    | some value => exact .inl (value?_iff.1 hvalue)
    | none => exact .inr ⟨value?_eq_none_iff.1 hvalue, rfl⟩

theorem detail_behind_sign_before_keyword :
    ∃ x ∈ (scan "var x\nword A =byte B").symbols,
      x.kind = .const ∧ x.detail = Text.ofString "=byte" := by
  have hline : (Text.ofString "var x\nword A =byte B").lines[1]?
      = some (Text.ofString "word A =byte B") := by decide +kernel
  have hname : (constantDeclarations "word A =byte B").head?.map (·.name.stop) = some 6 := by
    decide +kernel
  obtain ⟨d, hd, hstop⟩ := Option.map_eq_some_iff.1 hname
  have hsign : SignFollows ((Text.ofString "word A =byte B").drop d.name.stop) " " "=" "" "byte B" := by
    rw [hstop]
    exact ⟨by decide, by decide, by decide, by decide, by decide⟩
  obtain ⟨x, hx, hkind, -, -, hvalue | ⟨-, hdetail⟩⟩ := detail_behind_sign hline hd hsign
  · exact absurd ⟨"byte", by decide, " B", by decide, by decide +kernel⟩ hvalue.noKeyword
  · exact ⟨x, hx, hkind, hdetail.trans (by decide +kernel)⟩

/-- The detail of `word A =` is the sign, although nothing follows it. -/
theorem sign_taken_for_value :
    SignFollows ((Text.ofString "word A =").drop 6) " " "=" "" "" ∧ EndsValue ""
    ∧ ∃ x ∈ (scan "word A =").symbols, x.kind = .const ∧ x.selection = excerptRange 0 ⟨5, "A"⟩
      ∧ x.detail = Text.ofString "=" := by
  refine ⟨⟨by decide, by decide, by decide, by decide, by decide⟩, .inl rfl, ?_⟩
  decide +kernel

end Outline

end OutlineServer
