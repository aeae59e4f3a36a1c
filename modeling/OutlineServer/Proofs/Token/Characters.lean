import OutlineServer.Proofs.Text.LineBreaks
import OutlineServer.Text.Split
import OutlineServer.Proofs.Token.Agreement

/-!
# The characters of outlines and tokens

An outline and the tokens of a text are made of pieces of its lines, so they bring in no character
that the text does not have.  The names of symbols, completions and declared tokens are words of a
line; the detail of a constant is the value behind its name; a token in brackets is cut at the dots.
-/
namespace OutlineServer

namespace Text

theorem subset_joining : ∀ {first line : Text} {rest : List (LineBreak × Text)},
    line ∈ first :: rest.map Prod.snd → line ⊆ joining first rest
  | first, line, [], h => by
    cases List.mem_singleton.1 h
    exact List.Subset.refl _
  | first, line, (lineBreak, next) :: rest, h => by
    rw [joining]
    rcases List.mem_cons.1 h with rfl | h
    · exact List.subset_append_left _ _
    · refine List.Subset.trans (subset_joining h) ?_
      exact List.Subset.trans (List.subset_append_right _ _) (List.subset_append_right _ _)

theorem subset_of_mem_lines {t line : Text} (h : line ∈ t.lines) : line ⊆ t := by
  obtain ⟨first, rest, hseparated, rfl⟩ := exists_joining t
  rw [lines_joining hseparated] at h
  exact subset_joining h

end Text

/-! ## The values of constants -/

namespace Source

theorem valueRun_subset : ∀ t : Text, valueRun t ⊆ t
  | [] => List.Subset.refl _
  | c :: t => by
    rw [valueRun]
    split
    · exact List.nil_subset _
    · exact List.cons_subset_cons c (valueRun_subset t)

theorem value?_subset {t value : Text} (h : value? t = some value) : value ⊆ t := by
  unfold value? at h
  split at h
  · cases h
  · split at h
    · cases h
    · cases h
      exact valueRun_subset t

theorem assignedValue?_subset {t value : Text} {offset : Nat}
    (h : assignedValue? t = some (offset, value)) : value ⊆ t := by
  unfold assignedValue? at h
  simp only [bind, Option.bind_eq_some_iff] at h
  obtain ⟨sign, -, given, hgiven, h⟩ := h
  cases h
  refine List.Subset.trans (value?_subset hgiven) ?_
  exact ((List.dropWhile_suffix _).trans
    ((List.drop_suffix _ _).trans (List.dropWhile_suffix _))).subset

theorem spacedValue?_subset {t value : Text} {offset : Nat}
    (h : spacedValue? t = some (offset, value)) : value ⊆ t := by
  unfold spacedValue? at h
  simp only [bind, Option.bind_eq_some_iff] at h
  obtain ⟨_, -, given, hgiven, h⟩ := h
  cases h
  exact List.Subset.trans (value?_subset hgiven) (List.dropWhile_subset _)

theorem constantValue_subset (stop : Nat) (t : Text) : (constantValue stop t).text ⊆ t := by
  unfold constantValue
  split
  · rename_i h
    exact assignedValue?_subset h
  · split
    · rename_i h
      exact spacedValue?_subset h
    · exact List.nil_subset _

theorem value_subset {line : Text} {d : ConstantDeclaration} (h : d ∈ constantDeclarations line) :
    d.value.text ⊆ line := by
  obtain ⟨column, -, h⟩ := mem_occurrences h
  unfold recognisedAt? constantAt? at h
  simp only [bind, Option.bind_eq_some_iff] at h
  obtain ⟨_, -, keyword, -, _, -, name, -, h⟩ := h
  cases h
  refine List.Subset.trans (constantValue_subset _ _) ?_
  exact ((List.drop_suffix _ _).trans ((List.dropWhile_suffix _).trans
    ((List.drop_suffix _ _).trans (List.drop_suffix _ _)))).subset

end Source

/-! ## Symbols and completions -/

theorem Token.subset_of_mem_words {line : Text} {e : Excerpt} (h : e ∈ words line) :
    e.text ⊆ line := by
  obtain ⟨-, -, heq⟩ := recognisedAt?_wordAt?_eq_some.1 (mem_words.1 h)
  rw [heq]
  exact List.Subset.trans (List.takeWhile_subset _) (List.drop_subset _ _)

namespace Outline

variable {text : Text}

theorem subset_of_getElem? {i : Nat} {line : Text} (h : text.lines[i]? = some line) :
    line ⊆ text :=
  Text.subset_of_mem_lines (List.mem_of_getElem? h)

theorem detail_subset {x : Symbol} (h : Origin text.lines x) : x.detail ⊆ text := by
  have hvariable : ∀ {i : Nat}, x ∈ variablesOn text.lines i → x.detail ⊆ text := by
    intro i hx
    obtain ⟨_, -, _, -, rfl⟩ := mem_variablesOn.1 hx
    exact List.nil_subset _
  cases h with
  | function => exact List.nil_subset _
  | outerVariable _ hx => exact hvariable hx
  | innerVariable _ _ _ hx => exact hvariable hx
  | constant hx =>
    obtain ⟨line, hline, d, hd, rfl⟩ := constantOn_eq_some.1 hx
    exact List.Subset.trans (Source.value_subset (List.mem_of_head? hd)) (subset_of_getElem? hline)

theorem characters_of_symbol {x : Symbol} (h : x.OccursIn (scan text).symbols) :
    x.name ⊆ text ∧ x.detail ⊆ text := by
  have horigin := occursIn_ofLines.1 h
  obtain ⟨i, e, ⟨line, hline, he⟩, hname, -, -⟩ := Token.selects_of_origin horigin
  rw [hname]
  exact ⟨List.Subset.trans (Token.subset_of_mem_words he) (subset_of_getElem? hline),
    detail_subset horigin⟩

theorem characters_of_completion {c : Completion} (h : c ∈ (scan text).completions) :
    c.name ⊆ text := by
  obtain ⟨line, hline, hname⟩ :=
    List.mem_flatMap.1 (Token.mem_functionNames_of_completions h)
  obtain ⟨d, hd, hname⟩ := List.mem_map.1 hname
  rw [← hname]
  exact List.Subset.trans (Token.subset_of_mem_words (Token.mem_words_of_functionHeads hd))
    (Text.subset_of_mem_lines hline)

end Outline

/-! ## Tokens -/

namespace Token

theorem subset_of_mem_bracketedExcerpts {line : Text} {e : Excerpt}
    (h : e ∈ bracketedExcerpts line) : e.text ⊆ line := by
  obtain ⟨column, -, h⟩ := mem_occurrences h
  unfold recognisedAt? bracketedAt? at h
  simp only [bind, Option.bind_eq_some_iff] at h
  obtain ⟨rest, hrest, _, -, h⟩ := h
  cases h
  have hline : rest ⊆ line.drop column := by
    rw [Text.after?_eq_some.1 hrest]
    exact List.subset_append_right _ _
  exact List.Subset.trans (List.takeWhile_subset _)
    (List.Subset.trans hline (List.drop_subset _ _))

theorem subset_of_parse (t : Text) :
    (Label.parse t).type ⊆ t ∧ ∀ modifier ∈ (Label.parse t).modifiers, modifier ⊆ t := by
  unfold Label.parse
  split
  · exact ⟨List.nil_subset _, by simp⟩
  · rename_i hsplit
    have hpieces : ∀ piece ∈ t.splitOn '.', piece ⊆ t := fun _ => Text.subset_of_mem_splitOn
    rw [hsplit] at hpieces
    exact List.forall_mem_cons.1 hpieces

theorem characters_of_span {strategy : TokenStrategy} {text : Text} {span : TokenSpan}
    (h : span ∈ strategy.classify text) :
    (span.type ⊆ text ∨ ∃ kind : NameKind, span.type = kind.name)
      ∧ ∀ modifier ∈ span.modifiers, modifier ⊆ text := by
  cases strategy with
  | bracketed =>
    obtain ⟨⟨line, number⟩, hline, h⟩ := List.mem_flatMap.1 h
    obtain ⟨e, he, rfl⟩ := List.mem_map.1 h
    have hexcerpt : e.text ⊆ text := List.Subset.trans (subset_of_mem_bracketedExcerpts he)
      (Text.subset_of_mem_lines (List.fst_mem_of_mem_zipIdx hline))
    obtain ⟨htype, hmodifiers⟩ := subset_of_parse e.text
    exact ⟨.inl (List.Subset.trans htype hexcerpt),
      fun modifier hm => List.Subset.trans (hmodifiers modifier hm) hexcerpt⟩
  | declared =>
    obtain ⟨⟨line, number⟩, -, h⟩ := List.mem_flatMap.1 h
    obtain ⟨e, -, h⟩ := List.mem_filterMap.1 h
    obtain ⟨kind, -, rfl⟩ := Option.map_eq_some_iff.1 h
    exact ⟨.inr ⟨kind, rfl⟩, by simp⟩

end Token

end OutlineServer
