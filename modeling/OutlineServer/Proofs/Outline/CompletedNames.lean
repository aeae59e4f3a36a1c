import OutlineServer.Proofs.Source.DeclarationGrammar
import OutlineServer.Proofs.Token.DeclaredWords

/-!
# The names that are completed

Every function head of a line declares a name, but only the first head of the line is completed.  So a
name that is declared may be missing from the completions: it is exactly when every head with this name
stands behind another one on its line (`lost_completions`).

The first head is the one at the smallest column (`head?_functionHeads_eq_some_iff`); that it is the
first of the heads that are *found* makes no difference, because no head is lost in finding them.
-/
namespace OutlineServer.Outline

open Source (functionForm functionForm_recognised functionHeads mem_functionHeads leftmost_declarations)

def HeadAt (line : Text) (column : Nat) (name : Text) : Prop :=
  ∃ head, functionForm.At line column head ∧ head.name.text = name

theorem head?_functionHeads_eq_some_iff {line : Text} {head : Declaration} :
    (functionHeads line).head? = some head ↔ ∃ column, functionForm.At line column head
      ∧ ∀ earlier < column, ∀ other, ¬ functionForm.At line earlier other := by
  have hleftmost : LeftmostFrom (functionForm.At line) Declaration.size 0 (functionHeads line) :=
    leftmost_declarations functionForm_recognised line
  generalize functionHeads line = heads at hleftmost
  cases hleftmost with
  | done hnone =>
    refine iff_of_false (by simp) ?_
    rintro ⟨column, hat, -⟩
    exact hnone column head (Nat.zero_le _) hat
  | @next _ first a rest _ hat hfirst _ =>
    rw [List.head?_cons, Option.some.injEq]
    constructor
    · rintro rfl
      exact ⟨first, hat, fun earlier hlt other => hfirst earlier other (Nat.zero_le _) hlt⟩
    · rintro ⟨column, hhead, hno⟩
      obtain rfl : first = column := by
        rcases Nat.lt_trichotomy first column with hlt | heq | hlt
        · exact absurd hat (hno first hlt a)
        · exact heq
        · exact absurd hhead (hfirst column head (Nat.zero_le _) hlt)
      exact hat.unique functionForm_recognised hhead

theorem headAt_unique {line name other : Text} {column column' : Nat}
    (h : (functionHeads line).length ≤ 1) (hname : HeadAt line column name)
    (hother : HeadAt line column' other) : column = column' := by
  obtain ⟨d, hd, -⟩ := hname
  obtain ⟨d', hd', -⟩ := hother
  have hmem := mem_functionHeads.2 ⟨column, hd⟩
  have hmem' := mem_functionHeads.2 ⟨column', hd'⟩
  obtain rfl : d = d' := by
    match functionHeads line, h, hmem, hmem' with
    | [only], _, hmem, hmem' => exact (List.mem_singleton.1 hmem).trans (List.mem_singleton.1 hmem').symm
  rw [← hd.whole_start, hd'.whole_start]

theorem exists_completion_iff {lines : List Text} {name : Text} :
    (∃ c ∈ (ofLines lines).completions, c.name = name) ↔ ∃ line ∈ lines, ∃ column,
      HeadAt line column name ∧ ∀ earlier < column, ∀ other, ¬ HeadAt line earlier other := by
  constructor
  · rintro ⟨c, hc, rfl⟩
    rw [ofLines_completions, List.mem_filterMap] at hc
    obtain ⟨i, -, hc⟩ := hc
    obtain ⟨head, hhead, rfl⟩ := Option.map_eq_some_iff.1 hc
    obtain ⟨line, hline, hhead⟩ := headOn_eq_some.1 hhead
    obtain ⟨column, hat, hno⟩ := head?_functionHeads_eq_some_iff.1 hhead
    refine ⟨line, List.mem_of_getElem? hline, column, ⟨head, hat, rfl⟩, ?_⟩
    rintro earlier hlt _ ⟨other, hother, -⟩
    exact hno earlier hlt other hother
  · rintro ⟨line, hmem, column, ⟨head, hat, rfl⟩, hno⟩
    obtain ⟨i, hline⟩ := List.mem_iff_getElem?.1 hmem
    have hfirst : (functionHeads line).head? = some head :=
      head?_functionHeads_eq_some_iff.2 ⟨column, hat, fun earlier hlt other hother =>
        hno earlier hlt _ ⟨other, hother, rfl⟩⟩
    exact ⟨_, mem_completions_of_headOn (headOn_eq_some.2 ⟨line, hline, hfirst⟩), rfl⟩

theorem mem_functionNames_iff_headAt {lines : List Text} {name : Text} :
    name ∈ (Token.DeclaredNames.ofLines lines).functionNames
      ↔ ∃ line ∈ lines, ∃ column, HeadAt line column name := by
  rw [Token.mem_functionNames_iff]
  refine exists_congr fun line => and_congr_right fun _ => ?_
  constructor
  · rintro ⟨head, hhead, hname⟩
    obtain ⟨column, hat⟩ := mem_functionHeads.1 hhead
    exact ⟨column, head, hat, hname⟩
  · rintro ⟨column, head, hat, hname⟩
    exact ⟨head, mem_functionHeads.2 ⟨column, hat⟩, hname⟩

/-- **A second head on a line is not completed.**  Every completed name is declared as a function.  A name
that is declared is missing from the completions exactly when each of its heads stands behind another
head on the same line; so nothing is missing as long as no line has two heads. -/
theorem lost_completions (text : Text) :
    (∀ c ∈ (scan text).completions, c.name ∈ (Token.DeclaredNames.ofLines text.lines).functionNames)
    ∧ (∀ name ∈ (Token.DeclaredNames.ofLines text.lines).functionNames,
      (∀ c ∈ (scan text).completions, c.name ≠ name) ↔
        ∀ line ∈ text.lines, ∀ column, HeadAt line column name →
          ∃ earlier < column, ∃ other, HeadAt line earlier other)
    ∧ ((∀ line ∈ text.lines, (functionHeads line).length ≤ 1) →
      ∀ name, name ∈ (scan text).completions.map Completion.name
        ↔ name ∈ (Token.DeclaredNames.ofLines text.lines).functionNames) := by
  have hdeclared : ∀ c ∈ (scan text).completions,
      c.name ∈ (Token.DeclaredNames.ofLines text.lines).functionNames :=
    fun c hc => Token.mem_functionNames_of_completions hc
  refine ⟨hdeclared, fun name _ => ?_, fun hsingle name => ⟨fun hname => ?_, fun hname => ?_⟩⟩
  · have hcompleted := not_congr (@exists_completion_iff text.lines name)
    push Not at hcompleted
    exact hcompleted
  · obtain ⟨c, hc, rfl⟩ := List.mem_map.1 hname
    exact hdeclared c hc
  · obtain ⟨line, hline, column, hhead⟩ := mem_functionNames_iff_headAt.1 hname
    refine List.mem_map.2 (exists_completion_iff.2 ⟨line, hline, column, hhead, ?_⟩)
    intro earlier hlt other hother
    exact absurd (headAt_unique (hsingle line hline) hhead hother) (Nat.ne_of_gt hlt)

/-- The second head of a line is the only one of `b`; on a line of its own `b` is not missing. -/
theorem lost_completions_behind_head :
    let text : Text := "func a() func b()"
    let broken : Text := "func a()\nfunc b()"
    ("b" : Text) ∈ (Token.DeclaredNames.ofLines text.lines).functionNames
    ∧ (∀ line ∈ text.lines, ∀ column, HeadAt line column "b" →
      ∃ earlier < column, ∃ other, HeadAt line earlier other)
    ∧ (∀ line ∈ broken.lines, (functionHeads line).length ≤ 1)
    ∧ ("b" : Text) ∈ (scan broken).completions.map Completion.name := by
  intro text broken
  obtain ⟨-, hlost, -⟩ := lost_completions text
  obtain ⟨-, -, hall⟩ := lost_completions broken
  have hb : ("b" : Text) ∈ (Token.DeclaredNames.ofLines text.lines).functionNames := by decide +kernel
  have hsingle : ∀ line ∈ broken.lines, (functionHeads line).length ≤ 1 := by decide +kernel
  exact ⟨hb, (hlost "b" hb).1 (by decide +kernel), hsingle, (hall hsingle "b").2 (by decide +kernel)⟩

/-- **Completions and declared functions need not be the same**: a line may have two heads. -/
theorem second_head_not_completed :
    ¬ ∀ (text name : Text), name ∈ (scan text).completions.map Completion.name
      ↔ name ∈ (Token.DeclaredNames.ofLines text.lines).functionNames := by
  intro h
  have hdeclared : ("b" : Text) ∈
      (Token.DeclaredNames.ofLines (Text.lines "func a() func b()")).functionNames := by decide +kernel
  have hmissing : ("b" : Text) ∉ (scan "func a() func b()").completions.map Completion.name := by
    decide +kernel
  exact hmissing ((h _ "b").2 hdeclared)

end OutlineServer.Outline
