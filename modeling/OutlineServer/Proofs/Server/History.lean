import OutlineServer.Proofs.Server.Calls
import OutlineServer.Proofs.Workspace.Operations

/-!
# Answers from the history of documents

The workspace of a server can be forgotten: what a server answers about documents depends on its
configuration and on the *updates* it took so far, in order.  An update is a document event with an
id and a text within the limits (`accepted?`); the history of a run is the list of its updates.

- `symbolsOf`, `completionsOf` and `documentsOf` say what a history amounts to: the last text of a
  document counts, and a document stands where it first came.
- `Results.Reflects` ties the store to a history.  A recorded scan extends both (`reflects_record`).
- `receive_workspace` says that a request records a scan exactly when it is accepted, and
  `after_reflects` takes this through a run.
- `answers_from_history` reads the answers off.
-/
namespace OutlineServer

/-! ## Updates -/

structure Update where
  document : Text
  text : Text

/-- The update that a request brings: a document event with an id that is not empty and a text that
has a UTF-8 form of at most the allowed size. -/
def accepted? (limits : Limits) (r : Incoming) : Option Update :=
  match r.dispatched? with
  | some (name, arguments) =>
    if name = ("document.did_open" : Text) ∨ name = ("document.did_change" : Text) then
      match Keyed.get? "doc_id" arguments, Keyed.get? "text" arguments with
      | some (.str document), some (.str text) =>
        if document ≠ [] ∧ text.isEncodable = true ∧ (text.utf8Size : Int) ≤ limits.documentBytes
        then some ⟨document, text⟩ else none
      | _, _ => none
    else none
  | none => none

def history (limits : Limits) (requests : List Incoming) : List Update :=
  requests.filterMap (accepted? limits)

def lastText? (updates : List Update) (document : Text) : Option Text :=
  ((updates.filter (fun u => u.document = document)).getLast?).map Update.text

def symbolsOf (updates : List Update) (document : Text) : List Symbol :=
  match lastText? updates document with
  | some text => (Outline.scan text).symbols
  | none => []

/-- The completions after these updates: shared ones are those of the last update of all. -/
def completionsOf (scope : CompletionScope) (updates : List Update) (document : Option Text) :
    List Completion :=
  let last? :=
    match scope, document with
    | .everywhere, _ => updates.getLast?.map Update.text
    | .perDocument, some document => lastText? updates document
    | .perDocument, none => none
  match last? with
  | some text => (Outline.scan text).completions
  | none => []

/-- The documents after these updates, each where it first came. -/
def documentsOf (updates : List Update) : List Text := (updates.map Update.document).eraseDups

theorem lastText?_concat (updates : List Update) (u : Update) (document : Text) :
    lastText? (updates ++ [u]) document =
      if document = u.document then some u.text else lastText? updates document := by
  unfold lastText?
  rw [List.filter_append]
  by_cases h : document = u.document
  · subst h
    simp
  · have hne : ¬ u.document = document := fun heq => h heq.symm
    simp [h, hne]

theorem documentsOf_concat (updates : List Update) (u : Update) :
    documentsOf (updates ++ [u]) =
      if u.document ∈ documentsOf updates then documentsOf updates
      else documentsOf updates ++ [u.document] := by
  unfold documentsOf
  rw [List.map_append, List.map_singleton]
  exact eraseDups_concat _ u.document

theorem history_cons (limits : Limits) (r : Incoming) (requests : List Incoming) :
    history limits (r :: requests) = (accepted? limits r).toList ++ history limits requests := by
  unfold history
  rw [List.filterMap_cons]
  cases accepted? limits r <;> rfl

/-! ## The store -/

/-- The store holds what the updates amount to. -/
structure Results.Reflects (r : Results) (updates : List Update) : Prop where
  symbols : ∀ document, r.get document = symbolsOf updates document
  completions : ∀ document, r.completions document = completionsOf r.scope updates document
  documents : r.documents = documentsOf updates

namespace Results

/-- **A recorded scan is one more update.** -/
theorem reflects_record {r : Results} {updates : List Update} (h : r.Reflects updates)
    (u : Update) : (r.record u.document (Outline.scan u.text)).Reflects (updates ++ [u]) where
  symbols document := by
    rw [get_record, h.symbols]
    unfold symbolsOf
    rw [lastText?_concat]
    split <;> rfl
  completions document := by
    rw [scope_record]
    cases hscope : r.scope with
    | everywhere =>
      rw [completions_record_everywhere hscope]
      simp [completionsOf]
    | perDocument =>
      cases document with
      | none =>
        rw [completions_perDocument_none ((scope_record _ _ _).trans hscope)]
        rfl
      | some document =>
        have hbefore := h.completions (some document)
        rw [hscope] at hbefore
        rw [completions_record_perDocument hscope, hbefore]
        simp only [completionsOf, lastText?_concat]
        split <;> rfl
  documents := by
    rw [documents_record, h.documents, documentsOf_concat]

end Results

/-! ## What is accepted -/

theorem accepted?_eq_some {limits : Limits} {r : Incoming} {u : Update} :
    accepted? limits r = some u ↔
      ∃ tool arguments, (tool = Tool.didOpen ∨ tool = Tool.didChange)
        ∧ r.dispatched? = some (tool.name, arguments)
        ∧ Keyed.get? "doc_id" arguments = some (.str u.document) ∧ u.document ≠ []
        ∧ Keyed.get? "text" arguments = some (.str u.text) ∧ u.text.isEncodable = true
        ∧ (u.text.utf8Size : Int) ≤ limits.documentBytes := by
  unfold accepted?
  constructor
  · intro h
    split at h
    · rename_i name arguments hcall
      split at h
      · rename_i hname
        split at h
        · rename_i document text hdocument htext
          split at h
          · rename_i hok
            cases h
            rcases hname with rfl | rfl
            · exact ⟨.didOpen, arguments, .inl rfl, hcall, hdocument, hok.1, htext, hok.2⟩
            · exact ⟨.didChange, arguments, .inr rfl, hcall, hdocument, hok.1, htext, hok.2⟩
          · cases h
        · cases h
      · cases h
    · cases h
  · rintro ⟨tool, arguments, htool, hcall, hdocument, hne, htext, hencodable, hsize⟩
    have hname : tool.name = ("document.did_open" : Text)
        ∨ tool.name = ("document.did_change" : Text) := by
      rcases htool with rfl | rfl
      · exact .inl rfl
      · exact .inr rfl
    simp only [hcall]
    rw [if_pos hname]
    simp only [hdocument, htext]
    rw [if_pos ⟨hne, hencodable, hsize⟩]

namespace Server

theorem dispatch_of_accepted {s : Server} {r : Incoming} {u : Update} {name : Text}
    {arguments : Fields} (hcall : r.dispatched? = some (name, arguments))
    (h : accepted? s.config.limits r = some u) :
    s.dispatch name arguments =
      .ok (Tool.updateResult u.document u.text, (s.workspace.update u.document u.text).2) := by
  obtain ⟨tool, given, htool, hgiven, hdocument, hne, htext, hencodable, hsize⟩ :=
    accepted?_eq_some.1 h
  rw [hcall, Option.some.injEq, Prod.mk.injEq] at hgiven
  obtain ⟨rfl, rfl⟩ := hgiven
  rw [dispatch_of_name, Tool.call_of_event htool, Tool.update_eq_ok]
  exact ⟨_, _, hdocument, hne, htext, hencodable, hsize, rfl⟩

theorem workspace_of_not_accepted {s : Server} {r : Incoming} {name : Text} {arguments : Fields}
    {answer : Json × Workspace} (hcall : r.dispatched? = some (name, arguments))
    (h : accepted? s.config.limits r = none) (hanswer : s.dispatch name arguments = .ok answer) :
    answer.2 = s.workspace := by
  obtain ⟨tool, rfl⟩ := tool_of_dispatch hanswer
  rw [dispatch_of_name] at hanswer
  by_cases hevent : tool = .didOpen ∨ tool = .didChange
  · rw [Tool.call_of_event hevent, Tool.update_eq_ok] at hanswer
    obtain ⟨id, text, hid, hne, htext, hencodable, hsize, -⟩ := hanswer
    have haccepted : accepted? s.config.limits r = some ⟨id, text⟩ :=
      accepted?_eq_some.2 ⟨tool, arguments, hevent, hcall, hid, hne, htext, hencodable, hsize⟩
    rw [h] at haccepted
    cases haccepted
  · rw [not_or] at hevent
    exact Tool.workspace_of_call hanswer hevent.1 hevent.2

/-! ## Runs -/

/-- **The workspace after a request**: updated by an accepted event, and otherwise as before. -/
theorem receive_workspace (s : Server) (r : Incoming) :
    (s.receive r).2.workspace =
      match accepted? s.config.limits r with
      | some u => (s.workspace.update u.document u.text).2
      | none => s.workspace := by
  cases hcall : r.dispatched? with
  | none =>
    have hnone : accepted? s.config.limits r = none := by
      unfold accepted?
      rw [hcall]
    rw [hnone]
    exact (receive_of_not_dispatched hcall).2.2
  | some call =>
    obtain ⟨name, arguments⟩ := call
    obtain ⟨id, s', hconfig, hworkspace, -, hreceive⟩ := receive_of_dispatched (s := s) hcall
    rw [hreceive, ← hconfig, ← hworkspace]
    cases haccepted : accepted? s'.config.limits r with
    | some u =>
      rw [callTool_of_ok (dispatch_of_accepted hcall haccepted) id]
      rfl
    | none =>
      cases hdispatch : s'.dispatch name arguments with
      | ok answer =>
        rw [callTool_of_ok hdispatch id]
        exact workspace_of_not_accepted hcall haccepted hdispatch
      | error e =>
        rw [callTool_of_error hdispatch id]
        rfl

theorem receive_config (s : Server) (r : Incoming) : (s.receive r).2.config = s.config := by
  cases hcall : r.dispatched? with
  | none => exact (receive_of_not_dispatched hcall).2.1
  | some call =>
    obtain ⟨name, arguments⟩ := call
    obtain ⟨id, s', hconfig, -, -, hreceive⟩ := receive_of_dispatched (s := s) hcall
    rw [hreceive, ← hconfig]
    rfl

/-- A server runs under a configuration and holds what the updates amount to. -/
structure Reflects (s : Server) (given : Config) (updates : List Update) : Prop where
  config : s.config = given
  scope : s.workspace.results.scope = given.scope
  results : s.workspace.results.Reflects updates

theorem start_reflects (config : Config) (found : Option (List UInt8)) (clock : Clock) :
    (start config found clock).Reflects config [] where
  config := rfl
  scope := rfl
  results := {
    symbols := fun _ => rfl
    completions := by
      intro document
      unfold start Results.completions
      cases config.scope <;> cases document <;> rfl
    documents := rfl }

/-- **A request extends the history by what is accepted of it.** -/
theorem receive_reflects {s : Server} {config : Config} {updates : List Update}
    (h : s.Reflects config updates) (r : Incoming) :
    (s.receive r).2.Reflects config (updates ++ (accepted? config.limits r).toList) := by
  have hworkspace := s.receive_workspace r
  rw [h.config] at hworkspace
  refine ⟨(s.receive_config r).trans h.config, ?_, ?_⟩
  · rw [hworkspace]
    cases accepted? config.limits r with
    | none => exact h.scope
    | some u => exact (Results.scope_record _ _ _).trans h.scope
  · rw [hworkspace]
    cases accepted? config.limits r with
    | none =>
      rw [Option.toList_none, List.append_nil]
      exact h.results
    | some u => exact Results.reflects_record h.results u

theorem after_reflects {config : Config} : ∀ {s : Server} {updates : List Update}
    (requests : List Incoming), s.Reflects config updates →
      (s.after requests).Reflects config (updates ++ history config.limits requests)
  | s, updates, [], h => by
    rw [history, List.filterMap_nil, List.append_nil]
    exact h
  | s, updates, r :: rest, h => by
    have hrest := after_reflects rest (receive_reflects h r)
    rw [history_cons, ← List.append_assoc]
    exact hrest

end Server

/-! ## Answers -/

/-- A response gives a result, or says in its place that it is too large to be sent. -/
def Response.Carries (limit : Int) (response : Response) (result : Json) : Prop :=
  response.outcome = .success result []
  ∨ (Response.fits limit (Response.success response.requestId result).toJson = false
    ∧ response.outcome
      = .blocked Refusal.responseTooLarge.reason Refusal.responseTooLarge.hint)

def Incoming.Calls (r : Incoming) (name : Text) (arguments : Fields) : Prop :=
  r.dispatched? = some (name, arguments)

/-- What a response says about the documents is what the updates amount to.  It succeeds unless an
argument is wrong or the result is too large. -/
structure AnsweredFrom (config : Config) (updates : List Update) (r : Incoming)
    (response : Response) : Prop where
  symbols : ∀ arguments, r.Calls "document.symbols" arguments →
    (∀ document, Keyed.get? "doc_id" arguments = some (.str document) → document ≠ [] →
      response.Carries config.limits.responseBytes (.object [
        ("doc_id", .str document),
        ("symbols", .arr ((symbolsOf updates document).map Symbol.toJson))]))
    ∧ (response.outcome.isOk = true →
      ∃ document, Keyed.get? "doc_id" arguments = some (.str document) ∧ document ≠ [])
  completions : ∀ arguments, r.Calls "document.completions" arguments →
    (∀ document,
      (document = none ∧ (Keyed.get? "doc_id" arguments).getD .null = .null)
        ∨ (∃ id, document = some id ∧ Keyed.get? "doc_id" arguments = some (.str id)) →
      response.Carries config.limits.responseBytes (.object [
        ("items",
          .arr ((completionsOf config.scope updates document).map Completion.toJson))]))
    ∧ (response.outcome.isOk = true →
      (Keyed.get? "doc_id" arguments).getD .null = .null
        ∨ ∃ id, Keyed.get? "doc_id" arguments = some (.str id))
  status : ∀ arguments, r.Calls "server.status" arguments →
    ∃ result, response.Carries config.limits.responseBytes result
      ∧ result.get? "documents" = some (.strings (documentsOf updates))
  event : ∀ update, accepted? config.limits r = some update →
    response.Carries config.limits.responseBytes (.object [
      ("doc_id", .str update.document),
      ("symbol_count", .nat (Outline.scan update.text).symbols.length),
      ("completion_count", .nat (Outline.scan update.text).completions.length)])

namespace Server

theorem carries_limitResponse (s : Server) (id : Text) (result : Json) :
    (s.limitResponse (.success id result)).Carries s.config.limits.responseBytes result := by
  rw [limitResponse_eq]
  split
  · exact .inl rfl
  · rename_i h
    exact .inr ⟨Bool.eq_false_iff.2 h, rfl⟩

/-- **A call that succeeds is answered by its result**, in a server that has the same
configuration and workspace. -/
theorem receive_of_call {s : Server} {r : Incoming} {name : Text} {arguments : Fields}
    (hcall : r.dispatched? = some (name, arguments)) :
    ∃ s' : Server, s'.config = s.config ∧ s'.workspace = s.workspace
      ∧ (∀ answer, s'.dispatch name arguments = .ok answer →
        (s.receive r).1.Carries s.config.limits.responseBytes answer.1)
      ∧ ((s.receive r).1.outcome.isOk = true →
        ∃ answer, s'.dispatch name arguments = .ok answer) := by
  obtain ⟨id, s', hconfig, hworkspace, -, hreceive⟩ := receive_of_dispatched (s := s) hcall
  refine ⟨s', hconfig, hworkspace, ?_, ?_⟩
  · intro answer hanswer
    rw [hreceive, callTool_of_ok hanswer, ← hconfig]
    exact carries_limitResponse s' id answer.1
  · intro hok
    cases hdispatch : s'.dispatch name arguments with
    | ok answer => exact ⟨answer, rfl⟩
    | error e =>
      rw [hreceive, callTool_of_error hdispatch, isOk_error] at hok
      cases hok

theorem answeredFrom_of_reflects {s : Server} {config : Config} {updates : List Update}
    (h : s.Reflects config updates) (r : Incoming) :
    AnsweredFrom config updates r (s.receive r).1 where
  symbols arguments hcall := by
    obtain ⟨s', -, hworkspace, hcarries, hok⟩ := receive_of_call (s := s) hcall
    have hdispatch := s'.dispatch_of_name .symbols arguments
    refine ⟨?_, ?_⟩
    · intro document hget hne
      have hanswer := hcarries _ (hdispatch.trans (Tool.call_symbols_eq_ok.2 ⟨_, hget, hne, rfl⟩))
      rw [hworkspace, Workspace.symbols, h.results.symbols, h.config] at hanswer
      exact hanswer
    · intro hsuccess
      obtain ⟨answer, hanswer⟩ := hok hsuccess
      obtain ⟨id, hget, hne, -⟩ := Tool.call_symbols_eq_ok.1 (hdispatch.symm.trans hanswer)
      exact ⟨id, hget, hne⟩
  completions arguments hcall := by
    obtain ⟨s', -, hworkspace, hcarries, hok⟩ := receive_of_call (s := s) hcall
    have hdispatch := s'.dispatch_of_name .completions arguments
    refine ⟨?_, ?_⟩
    · intro document hgiven
      have hdocument : Tool.optionalDocumentId .completions arguments = .ok document :=
        Tool.optionalDocumentId_eq_ok.2 hgiven
      have hanswer := hcarries _
        (hdispatch.trans (Tool.call_completions_eq_ok.2 ⟨_, hdocument, rfl⟩))
      rw [hworkspace, Workspace.completions, h.results.completions, h.scope, h.config] at hanswer
      exact hanswer
    · intro hsuccess
      obtain ⟨answer, hanswer⟩ := hok hsuccess
      obtain ⟨document, hdocument, -⟩ :=
        Tool.call_completions_eq_ok.1 (hdispatch.symm.trans hanswer)
      rcases Tool.optionalDocumentId_eq_ok.1 hdocument with ⟨-, hnull⟩ | ⟨id, -, hid⟩
      · exact .inl hnull
      · exact .inr ⟨id, hid⟩
  status arguments hcall := by
    obtain ⟨s', -, hworkspace, hcarries, -⟩ := receive_of_call (s := s) hcall
    have hanswer := hcarries _ (s'.dispatch_of_name .status arguments)
    rw [h.config] at hanswer
    refine ⟨_, hanswer, ?_⟩
    rw [← h.results.documents, ← hworkspace]
    rfl
  event u haccepted := by
    obtain ⟨tool, arguments, -, hcall, -⟩ := accepted?_eq_some.1 haccepted
    obtain ⟨s', hconfig, -, hcarries, -⟩ := receive_of_call (s := s) hcall
    rw [← h.config, ← hconfig] at haccepted
    have hanswer := hcarries _ (dispatch_of_accepted hcall haccepted)
    rw [h.config] at hanswer
    exact hanswer

/-- **Answers come from the history.**  At every point of every run of a fresh server, under any
configuration, the next request is answered from the updates that were accepted so far. -/
theorem answers_from_history (config : Config) (found : Option (List UInt8)) (clock : Clock)
    (requests : List Incoming) (r : Incoming) :
    AnsweredFrom config (history config.limits requests) r
      (((start config found clock).after requests).receive r).1 :=
  answeredFrom_of_reflects (after_reflects requests (start_reflects config found clock)) r

end Server

end OutlineServer
