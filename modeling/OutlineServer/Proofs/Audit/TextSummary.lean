import OutlineServer.Audit.Summary
import OutlineServer.Proofs.Keyed

/-!
# The summary of a document's text

Three facts are recorded of the text in a call: that it is there, its length and its number of lines
(`textFacts`).  They stand under names of their own in one map with what is recorded of the other
arguments.  No name that is made from another key is one of theirs (`derived_ne`), but an argument that
is recorded under its own key may bear one of their names: a number, a truth value or null under the key
`text_length` is what the summary then says of the length, because the key comes after `text`
(`get?_summary`).
-/
namespace OutlineServer.Argument

/-- What is to be recorded of a document's text.  The empty text has no line, and every line feed of
another begins one more. -/
def textFacts (t : Text) : List (Text × Json) := [
  ("text_present", .bool true),
  ("text_length", .nat t.length),
  ("text_line_count", .nat (if t = [] then 0 else t.count CodePoint.lineFeed + 1))]

/-- The value of an argument that is recorded as it is, under its own key: a number, a truth value or
null. -/
def kept? : Argument → Option Json
  | .json (.str _) | .json (.arr _) | .json (.obj _) | .foreign _ => none
  | .json value => some value

theorem describe_text (t : Text) : describe "text" (.json (.str t)) = textFacts t := by
  have hcount : lineCount t = if t = [] then 0 else t.count CodePoint.lineFeed + 1 := by
    unfold lineCount
    cases t <;> rfl
  unfold textFacts
  rw [← hcount]
  rfl

/-! ## Names -/

def textNames : List Text := ["text_present", "text_length", "text_line_count"]

theorem mem_textNames {t : Text} {fact : Text × Json} (h : fact ∈ textFacts t) :
    fact.1 ∈ textNames :=
  List.mem_map_of_mem h

theorem derived_ne {key suffix name : Text} (hkey : key ≠ "text")
    (hsuffix : suffix ∈ (["_present", "_length", "_type", "_keys"] : List Text))
    (hname : name ∈ textNames) : key ++ suffix ≠ name := by
  have hends : ∀ name ∈ textNames, ∀ suffix ∈ (["_present", "_length", "_type", "_keys"] : List Text),
      suffix <:+ name → name = ("text" : Text) ++ suffix := by decide
  intro heq
  have hparts := hends name hname suffix hsuffix ⟨key, heq⟩
  exact hkey (List.append_cancel_right (heq.trans hparts))

theorem not_verbatim_of_mem {name : Text} (h : name ∈ textNames) :
    verbatimKeys.contains name = false := by
  have hnames : ∀ name ∈ textNames, verbatimKeys.contains name = false := by decide
  exact hnames name h

theorem filter_describe {key name : Text} (hkey : key ≠ "text") (hname : name ∈ textNames)
    (argument : Argument) :
    (argument.describe key).filter (fun e => e.1 = name)
      = if key = name then argument.kept?.toList.map (fun value => (name, value)) else [] := by
  have hpresent : presentName key ≠ name := derived_ne hkey (by decide) hname
  have hlength : lengthName key ≠ name := derived_ne hkey (by decide) hname
  have htype : typeName key ≠ name := derived_ne hkey (by decide) hname
  have hkeys : keysName key ≠ name := derived_ne hkey (by decide) hname
  -- What is kept as it is stands under the key, and everything else under other names.
  have hvalue : ∀ value : Json, ([(key, value)] : List (Text × Json)).filter (fun e => e.1 = name)
      = if key = name then [(name, value)] else [] := by
    intro value
    by_cases h : key = name <;> simp [h]
  cases argument with
  | foreign => simp [describe, kept?, htype]
  | json value =>
    cases value with
    | str t =>
      have htext : key ≠ textKey := hkey
      change (describeText key t).filter _ = _
      unfold describeText
      split
      · rename_i hverbatim
        have hother : key ≠ name := by
          rintro rfl
          rw [not_verbatim_of_mem hname] at hverbatim
          cases hverbatim
        simp [hother]
      · simp [kept?, hpresent, hlength]
    | arr items => simp [describe, kept?, htype, hlength]
    | obj fields => simp [describe, kept?, htype, hkeys]
    | null => exact hvalue .null
    | bool value => exact hvalue (.bool value)
    | int value => exact hvalue (.int value)
    | float value => exact hvalue (.float value)

/-! ## The summary -/

theorem filter_describe_all {name : Text} (hname : name ∈ textNames) :
    ∀ {arguments : Keyed Argument}, arguments.IsSorted → (∀ entry ∈ arguments, entry.1 ≠ "text") →
      arguments.flatMap (fun entry => (entry.2.describe entry.1).filter (fun e => e.1 = name))
        = ((Keyed.get? name arguments).bind kept?).toList.map (fun value => (name, value))
  | [], _, _ => rfl
  | (key, argument) :: rest, hsorted, hother => by
    obtain ⟨hfirst, hrest⟩ := List.pairwise_cons.1 hsorted
    obtain ⟨hkey, hother⟩ := List.forall_mem_cons.1 hother
    rw [List.flatMap_cons, filter_describe hkey hname, filter_describe_all hname hrest hother,
      Keyed.get?]
    by_cases h : key = name
    · have hnone : Keyed.get? name rest = none := by
        rw [← List.append_nil rest, Keyed.get?_append_of_ne]
        · rfl
        · rintro entry hentry rfl
          have hlt := hfirst entry hentry
          rw [h] at hlt
          exact List.lt_irrefl _ hlt
      simp [h, hnone]
    · simp [h, Ne.symm h]

/-- Under the name of a fact stands what an argument of that name keeps, or else the fact. -/
theorem get?_summary {arguments : Keyed Argument} (hsorted : arguments.IsSorted) {t : Text}
    (ht : Keyed.get? "text" arguments = some (.json (.str t))) {fact : Text × Json}
    (hfact : fact ∈ textFacts t) :
    Keyed.get? fact.1 (summary arguments)
      = some (((Keyed.get? fact.1 arguments).bind kept?).getD fact.2) := by
  have hname := mem_textNames hfact
  have hlater : ("text" : Text) < fact.1 := by
    have hnames : ∀ name ∈ textNames, ("text" : Text) < name := by decide
    exact hnames _ hname
  obtain ⟨front, back, rfl⟩ := List.append_of_mem (Keyed.mem_of_get? ht)
  obtain ⟨-, hback, hbefore⟩ := List.pairwise_append.1 hsorted
  obtain ⟨hafter, hback⟩ := List.pairwise_cons.1 hback
  have hlookup : Keyed.get? fact.1 (front ++ (("text" : Text), Argument.json (.str t)) :: back)
      = Keyed.get? fact.1 back := by
    rw [List.append_cons, Keyed.get?_append_of_ne]
    intro entry hentry heq
    rcases List.mem_append.1 hentry with hentry | hentry
    · have hlt := hbefore entry hentry _ List.mem_cons_self
      rw [heq] at hlt
      exact List.lt_irrefl _ (List.lt_trans hlt hlater)
    · obtain rfl := List.mem_singleton.1 hentry
      rw [← heq] at hlater
      exact List.lt_irrefl _ hlater
  have htext : (textFacts t).filter (fun e => e.1 = fact.1) = [fact] := by
    simp only [textFacts, List.mem_cons, List.not_mem_nil, or_false] at hfact
    rcases hfact with rfl | rfl | rfl <;> rfl
  have hrest := filter_describe_all hname hback (fun entry hentry heq =>
    List.lt_irrefl _ (heq ▸ hafter entry hentry))
  have hsummary : ∀ arguments : Keyed Argument, summary arguments
      = Keyed.ofList (arguments.flatMap (fun entry => entry.2.describe entry.1)) := fun _ => rfl
  rw [hsummary, Keyed.get?_ofList, List.filter_flatMap, List.flatMap_append, List.flatMap_cons, hrest,
    describe_text, htext, hlookup, List.getLast?_append, List.singleton_append]
  cases (Keyed.get? fact.1 back).bind kept? <;> simp

/-- **What the summary says of a text.**  Each of its facts is recorded, unless a number, a truth value
or null bears its name, which is then recorded in its place.  So the summary is right about the text
exactly when every such argument agrees with the fact whose name it bears. -/
theorem summary_of_document {arguments : Keyed Argument} (hsorted : arguments.IsSorted) {t : Text}
    (ht : Keyed.get? "text" arguments = some (.json (.str t))) :
    (∀ fact ∈ textFacts t, Keyed.get? fact.1 (summary arguments)
      = some (((Keyed.get? fact.1 arguments).bind kept?).getD fact.2))
    ∧ ((∀ fact ∈ textFacts t, Keyed.get? fact.1 (summary arguments) = some fact.2)
      ↔ ∀ fact ∈ textFacts t, ∀ value,
        (Keyed.get? fact.1 arguments).bind kept? = some value → value = fact.2) := by
  have hfacts := fun fact (hfact : fact ∈ textFacts t) => get?_summary hsorted ht hfact
  refine ⟨hfacts, forall₂_congr (fun fact hfact => ?_)⟩
  rw [hfacts fact hfact, Option.some.injEq]
  cases (Keyed.get? fact.1 arguments).bind kept? with
  | none => simp
  | some value => simp

/-- A text beside arguments that bear the names of its facts but are not kept: a text, a list and a
value of another type. -/
def documentArguments : Keyed Argument := [
  ("doc_id", .json (.str "d")), ("text", .json (.str "a\nb")), ("text_length", .json (.str "7")),
  ("text_line_count", .json (.arr [])), ("text_present", .foreign "tuple")]

theorem summary_of_document_arguments :
    Keyed.get? "text_length" (summary documentArguments) = some (.nat 3)
    ∧ Keyed.get? "text_line_count" (summary documentArguments) = some (.nat 2)
    ∧ Keyed.get? "text_present" (summary documentArguments) = some (.bool true) := by
  have hsorted : documentArguments.IsSorted := by
    unfold Keyed.IsSorted
    decide
  have ht : Keyed.get? "text" documentArguments = some (.json (.str "a\nb")) := rfl
  have hfacts := (summary_of_document hsorted ht).1
  exact ⟨hfacts _ (.tail _ (.head _)), hfacts _ (.tail _ (.tail _ (.head _))), hfacts _ (.head _)⟩

/-- Another argument can falsify what the summary says of the text: a length of three is recorded as
seven. -/
theorem text_length_falsified :
    ¬ ∀ (arguments : Keyed Argument) (t : Text), arguments.IsSorted →
      Keyed.get? "text" arguments = some (.json (.str t)) →
      ∀ fact ∈ textFacts t, Keyed.get? fact.1 (summary arguments) = some fact.2 := by
  intro h
  have hsorted : Keyed.IsSorted [(("text" : Text), Argument.json (.str "abc")),
      ("text_length", .json (.int 7))] := by
    unfold Keyed.IsSorted
    decide
  have hlength := h _ "abc" hsorted rfl _ (.tail _ (.head _))
  have hseven : Keyed.get? "text_length" (summary [("text", .json (.str "abc")),
      ("text_length", .json (.int 7))]) = some (.int 7) := rfl
  rw [hseven] at hlength
  cases hlength

end OutlineServer.Argument
