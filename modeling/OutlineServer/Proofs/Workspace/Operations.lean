import Mathlib.Data.List.Induction
import OutlineServer.Workspace.Results

/-!
# The store after any operations

Three operations change the store: symbols are put, completions are set, and a scan is recorded, which is
both at once.  Whatever has been done before, the store answers from the last write that concerns the
question (`answers_after_operations`): one step changes an answer to what it writes and leaves it alone
otherwise (`get_step`, `completions_step_everywhere`, `completions_step_perDocument`), and a run keeps the
last of these writes (`after_of_step`).

When completions are kept per document, no answer about a document looks at operations on others, so it
does not matter in which order those come.
-/
namespace OutlineServer

inductive StoreOperation where
  | put (document : Text) (symbols : List Symbol)
  | setCompletions (completions : List Completion) (document : Option Text)
  | record (document : Text) (outline : Outline)

namespace StoreOperation

def document? : StoreOperation → Option Text
  | put document _ => some document
  | setCompletions _ document => document
  | record document _ => some document

def symbols? : StoreOperation → Option (List Symbol)
  | put _ symbols => some symbols
  | setCompletions _ _ => none
  | record _ outline => some outline.symbols

def completions? : StoreOperation → Option (List Completion)
  | put _ _ => none
  | setCompletions completions _ => some completions
  | record _ outline => some outline.completions

def storedDocument? : StoreOperation → Option Text
  | put document _ => some document
  | setCompletions _ _ => none
  | record document _ => some document

def on (document : Text) (operations : List StoreOperation) : List StoreOperation :=
  operations.filter (fun operation => operation.document? = some document)

end StoreOperation

open StoreOperation (document? symbols? completions? storedDocument?)

theorem eraseDups_concat (documents : List Text) (document : Text) :
    (documents ++ [document]).eraseDups =
      if document ∈ documents.eraseDups then documents.eraseDups
      else documents.eraseDups ++ [document] := by
  rw [List.eraseDups_append]
  by_cases h : document ∈ documents
  · have hmem : documents.contains document = true := List.contains_iff_mem.2 h
    rw [if_pos (List.mem_eraseDups.2 h), List.cons_removeAll, if_neg (by rw [hmem]; simp)]
    simp
  · have hmem : documents.contains document = false := by simpa using h
    rw [if_neg (fun hin => h (List.mem_eraseDups.1 hin)), List.cons_removeAll, if_pos hmem,
      List.nil_removeAll, List.eraseDups_cons]
    rfl

namespace Results

/-- One operation; only completions that are set may be refused. -/
def perform (r : Results) : StoreOperation → Except StoreError Results
  | .put document symbols => .ok (r.put document symbols)
  | .setCompletions completions document => r.setCompletions completions document
  | .record document outline => .ok (r.record document outline)

/-- The store after an operation, as it was if the operation is refused. -/
def step (r : Results) (operation : StoreOperation) : Results :=
  match r.perform operation with
  | .ok after => after
  | .error _ => r

def after (r : Results) (operations : List StoreOperation) : Results := operations.foldl step r

/-! ## What is recorded -/

theorem scope_record (r : Results) (document : Text) (outline : Outline) :
    (r.record document outline).scope = r.scope := by
  unfold record putCompletions put
  split <;> rfl

theorem trees_record (r : Results) (document : Text) (outline : Outline) :
    (r.record document outline).trees = r.trees.insert document outline.symbols := by
  unfold record putCompletions put
  split <;> rfl

theorem get_record (r : Results) (document other : Text) (outline : Outline) :
    (r.record document outline).get other =
      if other = document then outline.symbols else r.get other := by
  unfold get
  rw [trees_record, ArrivalMap.get?_insert]
  split <;> rfl

theorem documents_record (r : Results) (document : Text) (outline : Outline) :
    (r.record document outline).documents =
      if document ∈ r.documents then r.documents else r.documents ++ [document] := by
  unfold documents
  rw [trees_record, ArrivalMap.keys_insert]

theorem completions_record_everywhere {r : Results} (h : r.scope = .everywhere) (document : Text)
    (outline : Outline) (other : Option Text) :
    (r.record document outline).completions other = outline.completions := by
  unfold record putCompletions completions put
  simp [h]

theorem completions_record_perDocument {r : Results} (h : r.scope = .perDocument)
    (document other : Text) (outline : Outline) :
    (r.record document outline).completions (some other) =
      if other = document then outline.completions else r.completions (some other) := by
  unfold record putCompletions completions put
  simp only [h]
  rw [ArrivalMap.get?_insert]
  split <;> rfl

theorem completions_perDocument_none {r : Results} (h : r.scope = .perDocument) :
    r.completions none = [] := by
  unfold completions
  rw [h]

/-! ## What is put and set -/

theorem get_put (r : Results) (document other : Text) (symbols : List Symbol) :
    (r.put document symbols).get other = if other = document then symbols else r.get other := by
  unfold get put
  rw [ArrivalMap.get?_insert]
  split <;> rfl

theorem documents_put (r : Results) (document : Text) (symbols : List Symbol) :
    (r.put document symbols).documents =
      if document ∈ r.documents then r.documents else r.documents ++ [document] := by
  unfold documents put
  rw [ArrivalMap.keys_insert]

theorem setCompletions_eq_error {r : Results} {completions : List Completion} {document : Option Text}
    {cause : StoreError} : r.setCompletions completions document = .error cause ↔
      r.scope = .perDocument ∧ document = none ∧ cause = .documentRequired := by
  unfold setCompletions
  cases hscope : r.scope <;> cases document <;> simp [eq_comm]

theorem step_setCompletions (r : Results) (completions : List Completion) (document : Option Text) :
    (r.step (.setCompletions completions document)).scope = r.scope
    ∧ (r.step (.setCompletions completions document)).trees = r.trees := by
  unfold step perform setCompletions putCompletions
  cases hscope : r.scope <;> cases document <;> simp [hscope]

/-! ## One step -/

theorem scope_step (r : Results) (operation : StoreOperation) : (r.step operation).scope = r.scope := by
  cases operation with
  | put document symbols => rfl
  | setCompletions completions document => exact (r.step_setCompletions completions document).1
  | record document outline => exact r.scope_record document outline

theorem get_step (r : Results) (operation : StoreOperation) (document : Text) :
    (r.step operation).get document =
      (if operation.document? = some document then operation.symbols? else none).getD
        (r.get document) := by
  cases operation with
  | put given symbols =>
    simp only [step, perform, get_put, document?, symbols?, Option.some.injEq]
    by_cases h : given = document
    · simp [h]
    · simp [h, Ne.symm h]
  | setCompletions completions given =>
    simp [get, (r.step_setCompletions completions given).2, symbols?]
  | record given outline =>
    simp only [step, perform, get_record, document?, symbols?, Option.some.injEq]
    by_cases h : given = document
    · simp [h]
    · simp [h, Ne.symm h]

theorem documents_step (r : Results) (operation : StoreOperation) :
    (r.step operation).documents =
      match operation.storedDocument? with
      | some document =>
        if document ∈ r.documents then r.documents else r.documents ++ [document]
      | none => r.documents := by
  cases operation with
  | put document symbols => exact r.documents_put document symbols
  | setCompletions completions document =>
    simp [documents, (r.step_setCompletions completions document).2, storedDocument?]
  | record document outline => exact r.documents_record document outline

theorem completions_step_everywhere {r : Results} (h : r.scope = .everywhere)
    (operation : StoreOperation) (asked : Option Text) :
    (r.step operation).completions asked = operation.completions?.getD (r.completions asked) := by
  cases operation with
  | put document symbols => rfl
  | setCompletions given document => simp [step, perform, setCompletions, completions, h, completions?]
  | record document outline => exact completions_record_everywhere h document outline asked

theorem completions_step_perDocument {r : Results} (h : r.scope = .perDocument)
    (operation : StoreOperation) (document : Text) :
    (r.step operation).completions (some document) =
      (if operation.document? = some document then operation.completions? else none).getD
        (r.completions (some document)) := by
  cases operation with
  | put given symbols => simp [step, perform, put, completions, completions?]
  | setCompletions written given =>
    cases given with
    | none => simp [step, perform, setCompletions, h, document?]
    | some given =>
      simp only [step, perform, setCompletions, putCompletions, completions, h, ArrivalMap.get?_insert,
        document?, completions?, Option.some.injEq]
      by_cases hgiven : given = document
      · simp [hgiven]
      · simp [hgiven, Ne.symm hgiven]
  | record given outline =>
    simp only [step, perform, completions_record_perDocument h, document?, completions?,
      Option.some.injEq]
    by_cases hgiven : given = document
    · simp [hgiven]
    · simp [hgiven, Ne.symm hgiven]

/-! ## All steps -/

/-- **An answer that every step changes to what it writes is the last that was written**, or the first
answer when nothing was. -/
theorem after_of_step {α : Type} {scope : CompletionScope} (ask : Results → α)
    (write? : StoreOperation → Option α)
    (hstep : ∀ (r : Results) (operation : StoreOperation), r.scope = scope →
      ask (r.step operation) = (write? operation).getD (ask r)) :
    ∀ (operations : List StoreOperation) (r : Results), r.scope = scope →
      ask (r.after operations) = (operations.filterMap write?).getLast?.getD (ask r)
  | [], _, _ => rfl
  | operation :: rest, r, h => by
    have hrest := after_of_step ask write? hstep rest (r.step operation) ((r.scope_step operation).trans h)
    rw [after, List.foldl_cons, ← after, hrest, hstep r operation h, List.filterMap_cons]
    cases write? operation with
    | none => rfl
    | some written => simp [List.getLast?_cons]

theorem scope_after : ∀ (operations : List StoreOperation) (r : Results),
    (r.after operations).scope = r.scope
  | [], _ => rfl
  | operation :: rest, r => (scope_after rest (r.step operation)).trans (r.scope_step operation)

theorem documents_after (scope : CompletionScope) (operations : List StoreOperation) :
    (Results.after { scope } operations).documents
      = (operations.filterMap storedDocument?).eraseDups := by
  induction operations using List.reverseRecOn with
  | nil => rfl
  | append_singleton operations operation ih =>
    have hlast : Results.after { scope } (operations ++ [operation])
        = (Results.after { scope } operations).step operation := List.foldl_append
    rw [hlast, documents_step, ih, List.filterMap_append, List.filterMap_cons, List.filterMap_nil]
    cases operation.storedDocument? with
    | none => simp
    | some document => exact (eraseDups_concat _ document).symm

section Fresh

variable {scope : CompletionScope} (operations : List StoreOperation)

theorem get_after (document : Text) :
    (Results.after { scope } operations).get document
      = ((StoreOperation.on document operations).filterMap symbols?).getLast?.getD [] := by
  rw [StoreOperation.on, List.filterMap_filter]
  simp only [decide_eq_true_eq]
  exact after_of_step (Results.get · document) _ (fun r operation _ => r.get_step operation document)
    operations { scope } rfl

theorem completions_after_everywhere (h : scope = .everywhere) (asked : Option Text) :
    (Results.after { scope } operations).completions asked
      = (operations.filterMap completions?).getLast?.getD [] := by
  subst h
  exact after_of_step (Results.completions · asked) _
    (fun r operation h => completions_step_everywhere h operation asked)
    operations { scope := .everywhere } rfl

theorem completions_after_perDocument (h : scope = .perDocument) (document : Text) :
    (Results.after { scope } operations).completions (some document)
      = ((StoreOperation.on document operations).filterMap completions?).getLast?.getD [] := by
  subst h
  rw [StoreOperation.on, List.filterMap_filter]
  simp only [decide_eq_true_eq]
  exact after_of_step (Results.completions · (some document)) _
    (fun r operation h => completions_step_perDocument h operation document)
    operations { scope := .perDocument } rfl

end Fresh

theorem perform_eq_error {r : Results} {operation : StoreOperation} {cause : StoreError} :
    r.perform operation = .error cause ↔ r.scope = .perDocument
      ∧ (∃ completions, operation = .setCompletions completions none) ∧ cause = .documentRequired := by
  cases operation with
  | put document symbols => simp [perform]
  | setCompletions completions document => simp [perform, setCompletions_eq_error]
  | record document outline => simp [perform]

end Results

/-- **The store answers from the last write that concerns the question.**  The symbols of a document are
those of the last operation on it that writes symbols; the documents are those with such an operation, each
where it first came.  Shared completions are the last that were written at all, and a document's own
completions the last that were written for it; without a document there are none.  Only completions for
no document are refused, when each document has its own, and leave the store as it is.

So when each document has its own completions, operations may be interleaved in any way that keeps the
order of those on each document. -/
theorem answers_after_operations (scope : CompletionScope) (operations : List StoreOperation) :
    let store := Results.after { scope } operations
    (∀ document, store.get document
      = ((StoreOperation.on document operations).filterMap symbols?).getLast?.getD [])
    ∧ store.documents = (operations.filterMap storedDocument?).eraseDups
    ∧ (scope = .everywhere → ∀ asked, store.completions asked
      = (operations.filterMap completions?).getLast?.getD [])
    ∧ (scope = .perDocument → store.completions none = [] ∧ ∀ document,
      store.completions (some document)
        = ((StoreOperation.on document operations).filterMap completions?).getLast?.getD [])
    ∧ (∀ operation cause, store.perform operation = .error cause ↔ scope = .perDocument
      ∧ (∃ completions, operation = .setCompletions completions none) ∧ cause = .documentRequired)
    ∧ (∀ operation cause, store.perform operation = .error cause → store.step operation = store)
    ∧ (scope = .perDocument → ∀ other : List StoreOperation,
      (∀ document, StoreOperation.on document other = StoreOperation.on document operations) →
      ∀ document, (Results.after { scope } other).get document = store.get document
        ∧ (Results.after { scope } other).completions (some document)
          = store.completions (some document)) := by
  intro store
  have hscope : store.scope = scope := Results.scope_after operations { scope }
  refine ⟨Results.get_after operations, Results.documents_after scope operations,
    Results.completions_after_everywhere operations, fun h => ⟨?_, ?_⟩, fun operation cause => ?_,
    fun operation cause h => ?_, fun h other hsame document => ⟨?_, ?_⟩⟩
  · exact Results.completions_perDocument_none (hscope.trans h)
  · exact Results.completions_after_perDocument operations h
  · rw [Results.perform_eq_error, hscope]
  · rw [Results.step, h]
  · rw [Results.get_after, hsame, Results.get_after]
  · rw [Results.completions_after_perDocument other h, hsame,
      Results.completions_after_perDocument operations h]

/-- Operations on two documents, with completions for no document among them: refused in one scope, they
are the last to be written in the other. -/
theorem answers_after_operations_on_two :
    let first : StoreOperation := .record "a" ⟨[], [{ name := "f" }]⟩
    let second : StoreOperation := .setCompletions [{ name := "g" }] (some "b")
    let forNone : StoreOperation := .setCompletions [{ name := "h" }] none
    let store := Results.after { scope := .perDocument } [first, second]
    (∀ document, StoreOperation.on document [second, forNone, first]
      = StoreOperation.on document [first, second])
    ∧ (Results.after { scope := .perDocument } [second, forNone, first]).completions (some "a")
      = store.completions (some "a")
    ∧ store.completions (some "b") = [{ name := "g" }] ∧ store.completions none = []
    ∧ store.perform forNone = .error .documentRequired ∧ store.step forNone = store
    ∧ (Results.after { scope := .everywhere } [first, second, forNone]).completions (some "a")
      = [{ name := "h" }] := by
  intro first second forNone store
  have hsame : ∀ document, StoreOperation.on document [second, forNone, first]
      = StoreOperation.on document [first, second] := by
    intro document
    by_cases h : ("a" : Text) = document
    · subst h
      rfl
    · simp [StoreOperation.on, List.filter_cons, document?, first, second, forNone, h]
  obtain ⟨-, -, -, hown, hrefused, hkept, hany⟩ :=
    answers_after_operations .perDocument [first, second]
  obtain ⟨-, -, hshared, -⟩ := answers_after_operations .everywhere [first, second, forNone]
  have herror := (hrefused forNone .documentRequired).2 ⟨rfl, ⟨_, rfl⟩, rfl⟩
  exact ⟨hsame, (hany rfl _ hsame "a").2, (hown rfl).2 "b", (hown rfl).1, herror, hkept _ _ herror,
    hshared rfl (some "a")⟩

end OutlineServer
