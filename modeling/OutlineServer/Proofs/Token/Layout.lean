import OutlineServer.Proofs.Token.Words
import OutlineServer.Token.Strategy

/-!
# Where the spans of a text lie

A strategy finds excerpts on a line and turns some of them into spans.  The excerpts of a line come
from left to right with at least one character between neighbours: a word is never directly behind a
word (`pairwise_words`), and an annotation is behind the closing bracket of the one before
(`pairwise_bracketedExcerpts`).  So the spans of a text are in order, inside their lines and apart,
whatever the strategy (`laidOut_classify`).
-/
namespace OutlineServer

def TokenSpan.Inside (lines : List Text) (span : TokenSpan) : Prop :=
  ∃ (number : Nat) (line : Text), lines[number]? = some line ∧ span.line = number
    ∧ 0 ≤ span.start ∧ 0 ≤ span.length ∧ span.start + span.length ≤ line.length

/-- The spans of a text with these lines: strictly increasing in line and column, inside their lines,
and with a character between neighbours on a line. -/
structure LaidOut (lines : List Text) (spans : List TokenSpan) : Prop where
  increasing : spans.Pairwise (fun a b => a.line < b.line ∨ (a.line = b.line ∧ a.start < b.start))
  apart : spans.Pairwise (fun a b => a.line = b.line → a.start + a.length < b.start)
  inside : ∀ span ∈ spans, span.Inside lines

namespace Token

/-! ## Excerpts -/

theorem stop_le_of_mem_words {line : Text} {e : Excerpt} (h : e ∈ words line) :
    e.stop ≤ line.length := by
  obtain ⟨-, hne, heq⟩ := recognisedAt?_wordAt?_eq_some.1 (mem_words.1 h)
  have hprefix := (List.takeWhile_prefix CodePoint.isWord (l := line.drop e.start)).length_le
  have hpos := List.length_pos_iff.2 hne
  have htext : e.text.length = ((line.drop e.start).takeWhile CodePoint.isWord).length := by
    conv => lhs; rw [heq]
  rw [List.length_drop] at hprefix
  unfold Excerpt.stop
  omega

theorem pairwise_words (line : Text) :
    (words line).Pairwise (fun a b => a.stop < b.start) := by
  refine (pairwise_occurrences wordAt? (fun e => e.text.length) line).imp ?_
  rintro a b ⟨i, j, ha, hb, hlt, hle⟩
  obtain ⟨-, -, rfl⟩ := recognisedAt?_wordAt?_eq_some.1 ha
  obtain ⟨hstart, -, rfl⟩ := recognisedAt?_wordAt?_eq_some.1 hb
  simp only [Excerpt.stop] at hle ⊢
  have hne : j ≠ i + ((line.drop i).takeWhile CodePoint.isWord).length := by
    intro heq
    rw [not_wordMayStart_inside hlt heq.le] at hstart
    cases hstart
  omega

theorem recognisedAt?_bracketedAt? {line : Text} {column : Nat} {e : Excerpt}
    (h : recognisedAt? bracketedAt? line column = some e) :
    e.start = column + 1 ∧ column + e.text.length + 2 ≤ line.length := by
  unfold recognisedAt? bracketedAt? at h
  simp only [bind, Option.bind_eq_some_iff] at h
  obtain ⟨rest, hrest, after, hafter, h⟩ := h
  rw [Text.after?_eq_some] at hrest hafter
  cases h
  refine ⟨rfl, ?_⟩
  have hsplit := congrArg List.length
    (List.takeWhile_append_dropWhile (p := (· ≠ CodePoint.ofChar ']')) (l := rest))
  have hdrop := congrArg List.length hrest
  rw [hafter] at hsplit
  simp only [List.length_append, List.length_drop] at hsplit hdrop
  have hone : (Text.ofString "]").length = 1 := rfl
  have hone' : (Text.ofString "[").length = 1 := rfl
  show column + (rest.takeWhile (· ≠ CodePoint.ofChar ']')).length + 2 ≤ line.length
  omega

theorem stop_le_of_mem_bracketedExcerpts {line : Text} {e : Excerpt}
    (h : e ∈ bracketedExcerpts line) : e.stop ≤ line.length := by
  obtain ⟨column, -, hat⟩ := mem_occurrences h
  have hplace := recognisedAt?_bracketedAt? hat
  unfold Excerpt.stop
  omega

theorem pairwise_bracketedExcerpts (line : Text) :
    (bracketedExcerpts line).Pairwise (fun a b => a.stop < b.start) := by
  refine (pairwise_occurrences bracketedAt? (fun e => e.text.length + 2) line).imp ?_
  rintro a b ⟨i, j, ha, hb, -, hle⟩
  have hplace := recognisedAt?_bracketedAt? ha
  have hplace' := recognisedAt?_bracketedAt? hb
  unfold Excerpt.stop
  omega

/-! ## Spans -/

def Covers (span : TokenSpan) (number : Nat) (e : Excerpt) : Prop :=
  span.line = number ∧ span.start = e.start ∧ span.length = e.text.length

theorem covers_of_declaredSpan? {names : DeclaredNames} {number : Nat} {e : Excerpt}
    {span : TokenSpan} (h : declaredSpan? names number e = some span) : Covers span number e := by
  obtain ⟨kind, -, rfl⟩ := Option.map_eq_some_iff.1 h
  exact ⟨rfl, rfl, rfl⟩

/-- **Spans of excerpts that are apart, line by line, are laid out.** -/
theorem laidOut_of_excerpts (lines : List Text) {excerpts : Text → List Excerpt}
    {span? : Nat → Excerpt → Option TokenSpan}
    (hcovers : ∀ number e span, span? number e = some span → Covers span number e)
    (hinside : ∀ line, ∀ e ∈ excerpts line, e.stop ≤ line.length)
    (hapart : ∀ line, (excerpts line).Pairwise (fun a b => a.stop < b.start)) :
    LaidOut lines
      (lines.zipIdx.flatMap (fun (line, number) => (excerpts line).filterMap (span? number))) := by
  have hline : ∀ {number : Nat} {line : Text} {span : TokenSpan},
      span ∈ (excerpts line).filterMap (span? number) →
        ∃ e ∈ excerpts line, Covers span number e := by
    intro number line span hspan
    obtain ⟨e, he, hsome⟩ := List.mem_filterMap.1 hspan
    exact ⟨e, he, hcovers number e span hsome⟩
  have hnumbers : lines.zipIdx.Pairwise (fun a b => a.2 < b.2) := by
    rw [← List.pairwise_map (f := Prod.snd), List.zipIdx_map_snd, ← List.range_eq_range']
    exact List.pairwise_lt_range
  -- of two spans, the later one is behind the earlier one on its line, or on a later line
  have hordered : (lines.zipIdx.flatMap
      (fun (line, number) => (excerpts line).filterMap (span? number))).Pairwise (fun a b =>
        a.line < b.line ∨ (a.line = b.line ∧ a.start < b.start ∧ a.start + a.length < b.start)) := by
    rw [List.pairwise_flatMap]
    constructor
    · rintro ⟨line, number⟩ -
      rw [List.pairwise_filterMap]
      refine (hapart line).imp ?_
      intro a b hab span hspan span' hspan'
      obtain ⟨hl, hs, hn⟩ := hcovers number a span hspan
      obtain ⟨hl', hs', -⟩ := hcovers number b span' hspan'
      unfold Excerpt.stop at hab
      exact .inr ⟨by omega, by omega, by omega⟩
    · refine hnumbers.imp ?_
      rintro ⟨line, number⟩ ⟨line', number'⟩ hlt span hspan span' hspan'
      obtain ⟨e, -, hl, -⟩ := hline hspan
      obtain ⟨e', -, hl', -⟩ := hline hspan'
      simp only at hlt
      exact .inl (by omega)
  refine ⟨hordered.imp ?_, hordered.imp ?_, ?_⟩
  · intro a b hab
    exact hab.imp_right (fun h => ⟨h.1, h.2.1⟩)
  · intro a b hab heq
    rcases hab with hlt | ⟨-, -, hlt⟩
    · omega
    · exact hlt
  · intro span hspan
    obtain ⟨⟨line, number⟩, hnumber, hspan⟩ := List.mem_flatMap.1 hspan
    obtain ⟨e, he, hl, hs, hn⟩ := hline hspan
    have hstop := hinside line e he
    unfold Excerpt.stop at hstop
    exact ⟨number, line, List.mk_mem_zipIdx_iff_getElem?.1 hnumber, hl, by omega, by omega,
      by omega⟩

theorem laidOut_classifyDeclared (text : Text) : LaidOut text.lines (classifyDeclared text) :=
  laidOut_of_excerpts text.lines (fun _ _ _ h => covers_of_declaredSpan? h)
    (fun _ _ h => stop_le_of_mem_words h) pairwise_words

theorem laidOut_classifyBracketed (text : Text) : LaidOut text.lines (classifyBracketed text) := by
  have hcovers : ∀ number e span, some (bracketedSpan number e) = some span →
      Covers span number e := by
    rintro number e span ⟨⟩
    exact ⟨rfl, rfl, rfl⟩
  have hlaid := laidOut_of_excerpts text.lines hcovers
    (fun _ _ h => stop_le_of_mem_bracketedExcerpts h) pairwise_bracketedExcerpts
  simp only [List.filterMap_eq_map'] at hlaid
  exact hlaid

end Token

/-- **The spans of a text are laid out**, whatever the strategy. -/
theorem laidOut_classify (strategy : TokenStrategy) (text : Text) :
    LaidOut text.lines (strategy.classify text) := by
  cases strategy with
  | bracketed => exact Token.laidOut_classifyBracketed text
  | declared => exact Token.laidOut_classifyDeclared text

end OutlineServer
