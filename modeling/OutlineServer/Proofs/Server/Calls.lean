import OutlineServer.Proofs.Server.Step

/-!
# What the tools do

Each tool is found under its own name and no other.  A call succeeds when the arguments that the tool
needs are there, and only the two document events change the workspace: they succeed exactly when
they bring the id of a document and a text within the limits, and then the workspace is updated with
them (`update_eq_ok`).  The questions about documents say what they need in the same way.
-/
namespace OutlineServer

theorem exists_of_bind_eq_ok {ε α β : Type} {x : Except ε α} {f : α → Except ε β} {b : β}
    (h : (x >>= f) = .ok b) : ∃ a, x = .ok a ∧ f a = .ok b := by
  cases x with
  | error e => cases h
  | ok a => exact ⟨a, rfl, h⟩

namespace ArrivalMap

theorem find?_eq_some_iff {α : Type} {key : Text} {value : α} : ∀ {entries : List (Text × α)},
    (entries.map Prod.fst).Nodup → (find? key entries = some value ↔ (key, value) ∈ entries)
  | [], _ => by simp [find?]
  | (k, v) :: rest, hnodup => by
    rw [List.map_cons, List.nodup_cons] at hnodup
    obtain ⟨hnew, hrest⟩ := hnodup
    rw [find?, List.mem_cons, Prod.mk.injEq]
    by_cases hkey : key = k
    · subst hkey
      have habsent : (key, value) ∉ rest := fun h => hnew (List.mem_map.2 ⟨_, h, rfl⟩)
      rw [if_pos rfl, Option.some.injEq]
      simp only [habsent, true_and, or_false]
      exact eq_comm
    · rw [if_neg hkey, find?_eq_some_iff hrest]
      simp only [hkey, false_and, false_or]

theorem get?_eq_some_iff {α : Type} (m : ArrivalMap α) {key : Text} {value : α} :
    m.get? key = some value ↔ (key, value) ∈ m.entries := find?_eq_some_iff m.nodup

end ArrivalMap

namespace Tool

theorem mem_all (tool : Tool) : tool ∈ all := by
  cases tool <;> decide

theorem registry_entries : registry.tools.entries = all.map (fun t => (t.name, t)) := by
  decide +kernel

theorem registry_find {name : Text} {tool : Tool} :
    registry.find name = .ok tool ↔ name = tool.name := by
  have hget : registry.tools.get? name = some tool ↔ name = tool.name := by
    rw [ArrivalMap.get?_eq_some_iff, registry_entries, List.mem_map]
    constructor
    · rintro ⟨found, -, h⟩
      cases h
      rfl
    · rintro rfl
      exact ⟨tool, mem_all tool, rfl⟩
  rw [← hget]
  unfold ToolRegistry.find
  cases registry.tools.get? name <;> simp

/-! ## Arguments -/

theorem documentId_eq_ok {tool : Tool} {arguments : Fields} {id : Text} :
    documentId tool arguments = .ok id
      ↔ Keyed.get? "doc_id" arguments = some (.str id) ∧ id ≠ [] := by
  unfold documentId
  split
  · rename_i given hgiven
    cases given with
    | nil => simp [hgiven]
    | cons c rest =>
      rw [hgiven]
      constructor
      · intro h
        cases h
        exact ⟨rfl, List.cons_ne_nil _ _⟩
      · rintro ⟨h, -⟩
        cases h
        rfl
  · rename_i hno
    constructor
    · intro h
      cases h
    · rintro ⟨h, -⟩
      exact absurd h (hno id)

theorem text_eq_ok {tool : Tool} {arguments : Fields} {t : Text} :
    text tool arguments = .ok t ↔ Keyed.get? "text" arguments = some (.str t) := by
  unfold text
  split
  · rename_i given hgiven
    rw [hgiven]
    simp
  · rename_i hno
    constructor
    · intro h
      cases h
    · intro h
      exact absurd h (hno t)

theorem checkDocument_eq_ok {limits : Limits} {document : Text} :
    checkDocument limits document = .ok ()
      ↔ document.isEncodable = true ∧ (document.utf8Size : Int) ≤ limits.documentBytes := by
  unfold checkDocument Limits.checkDocument
  cases hencodable : document.isEncodable with
  | false => simp
  | true =>
    by_cases hsize : limits.documentBytes < document.utf8Size
    · simp [hsize]
    · simp [hsize]
      omega

theorem optionalDocumentId_eq_ok {tool : Tool} {arguments : Fields} {document : Option Text} :
    optionalDocumentId tool arguments = .ok document ↔
      (document = none ∧ (Keyed.get? "doc_id" arguments).getD .null = .null)
      ∨ ∃ id, document = some id ∧ Keyed.get? "doc_id" arguments = some (.str id) := by
  unfold optionalDocumentId
  rcases Keyed.get? "doc_id" arguments with - | value
  · simp [eq_comm]
  · cases value <;> simp [eq_comm]

/-! ## Document events -/

def updateResult (id text : Text) : Json :=
  .object [
    ("doc_id", .str id),
    ("symbol_count", .nat (Outline.scan text).symbols.length),
    ("completion_count", .nat (Outline.scan text).completions.length)]

/-- **A document event succeeds exactly when it brings an id and a text within the limits**; then
the workspace is updated with them. -/
theorem update_eq_ok {tool : Tool} {limits : Limits} {workspace : Workspace} {arguments : Fields}
    {answer : Json × Workspace} :
    update tool limits workspace arguments = .ok answer ↔
      ∃ id text, Keyed.get? "doc_id" arguments = some (.str id) ∧ id ≠ []
        ∧ Keyed.get? "text" arguments = some (.str text) ∧ text.isEncodable = true
        ∧ (text.utf8Size : Int) ≤ limits.documentBytes
        ∧ answer = (updateResult id text, (workspace.update id text).2) := by
  unfold update
  constructor
  · intro h
    obtain ⟨id, hid, h⟩ := exists_of_bind_eq_ok h
    obtain ⟨t, ht, h⟩ := exists_of_bind_eq_ok h
    obtain ⟨⟨⟩, hcheck, h⟩ := exists_of_bind_eq_ok h
    rw [documentId_eq_ok] at hid
    rw [text_eq_ok] at ht
    rw [checkDocument_eq_ok] at hcheck
    cases h
    exact ⟨id, t, hid.1, hid.2, ht, hcheck.1, hcheck.2, rfl⟩
  · rintro ⟨id, t, hid, hne, ht, hencodable, hsize, rfl⟩
    rw [documentId_eq_ok.2 ⟨hid, hne⟩, text_eq_ok.2 ht]
    simp only [bind, Except.bind]
    rw [checkDocument_eq_ok.2 ⟨hencodable, hsize⟩]
    rfl

theorem call_of_event {tool : Tool} (h : tool = .didOpen ∨ tool = .didChange)
    (config : Config) (workspace : Workspace) (log : AuditLog) (arguments : Fields) :
    tool.call config workspace log arguments
      = update tool config.limits workspace arguments := by
  rcases h with rfl | rfl <;> rfl

/-- **Only document events change the workspace.** -/
theorem workspace_of_call {tool : Tool} {config : Config} {workspace : Workspace} {log : AuditLog}
    {arguments : Fields} {answer : Json × Workspace}
    (h : tool.call config workspace log arguments = .ok answer) (hopen : tool ≠ .didOpen)
    (hchange : tool ≠ .didChange) : answer.2 = workspace := by
  have hmap : ∀ {result : Except ToolError Json},
      result.map (fun result => (result, workspace)) = .ok answer → answer.2 = workspace := by
    intro result h
    cases result with
    | error e => cases h
    | ok result =>
      cases h
      rfl
  cases tool with
  | didOpen => exact absurd rfl hopen
  | didChange => exact absurd rfl hchange
  | status =>
    cases h
    rfl
  | tokenLegend =>
    cases h
    rfl
  | symbols => exact hmap h
  | completions => exact hmap h
  | semanticTokens => exact hmap h
  | auditLog => exact hmap h

/-! ## Questions -/

theorem call_symbols_eq_ok {config : Config} {workspace : Workspace} {log : AuditLog}
    {arguments : Fields} {answer : Json × Workspace} :
    symbols.call config workspace log arguments = .ok answer ↔
      ∃ id, Keyed.get? "doc_id" arguments = some (.str id) ∧ id ≠ []
        ∧ answer = (.object [
          ("doc_id", .str id),
          ("symbols", .arr ((workspace.symbols id).map Symbol.toJson))], workspace) := by
  simp only [call, symbolsResult]
  cases hid : documentId .symbols arguments with
  | error e =>
    constructor
    · intro h
      cases h
    · rintro ⟨id, hget, hne, -⟩
      rw [documentId_eq_ok.2 ⟨hget, hne⟩] at hid
      cases hid
  | ok id =>
    obtain ⟨hget, hne⟩ := documentId_eq_ok.1 hid
    constructor
    · intro h
      cases h
      exact ⟨id, hget, hne, rfl⟩
    · rintro ⟨other, hother, -, rfl⟩
      rw [hget] at hother
      cases hother
      rfl

theorem call_completions_eq_ok {config : Config} {workspace : Workspace} {log : AuditLog}
    {arguments : Fields} {answer : Json × Workspace} :
    completions.call config workspace log arguments = .ok answer ↔
      ∃ document, optionalDocumentId .completions arguments = .ok document
        ∧ answer = (.object [
          ("items", .arr ((workspace.completions document).map Completion.toJson))],
          workspace) := by
  simp only [call, completionsResult]
  cases optionalDocumentId .completions arguments with
  | error e =>
    constructor
    · intro h
      cases h
    · rintro ⟨document, h, -⟩
      cases h
  | ok document =>
    constructor
    · intro h
      cases h
      exact ⟨document, rfl, rfl⟩
    · rintro ⟨other, h, rfl⟩
      cases h
      rfl

theorem call_semanticTokens_eq_ok {config : Config} {workspace : Workspace} {log : AuditLog}
    {arguments : Fields} {answer : Json × Workspace} :
    semanticTokens.call config workspace log arguments = .ok answer ↔
      ∃ text encoded, Keyed.get? "text" arguments = some (.str text)
        ∧ wantsNumbers .semanticTokens arguments = .ok encoded ∧ text.isEncodable = true
        ∧ (text.utf8Size : Int) ≤ config.limits.documentBytes
        ∧ answer = (tokensResult workspace text encoded, workspace) := by
  have hunfold : semanticTokens.call config workspace log arguments
      = (semanticTokensResult config.limits workspace arguments).map (·, workspace) := rfl
  rw [hunfold]
  constructor
  · intro h
    cases hresult : semanticTokensResult config.limits workspace arguments with
    | error e =>
      rw [hresult] at h
      cases h
    | ok result =>
      rw [hresult] at h
      cases h
      obtain ⟨t, ht, hresult⟩ := exists_of_bind_eq_ok hresult
      obtain ⟨encoded, hencoded, hresult⟩ := exists_of_bind_eq_ok hresult
      obtain ⟨⟨⟩, hcheck, hresult⟩ := exists_of_bind_eq_ok hresult
      rw [checkDocument_eq_ok] at hcheck
      cases hresult
      exact ⟨t, encoded, text_eq_ok.1 ht, hencoded, hcheck.1, hcheck.2, rfl⟩
  · rintro ⟨t, encoded, ht, hencoded, hencodable, hsize, rfl⟩
    unfold semanticTokensResult
    rw [text_eq_ok.2 ht, hencoded]
    simp only [bind, Except.bind]
    rw [checkDocument_eq_ok.2 ⟨hencodable, hsize⟩]
    rfl

end Tool

namespace Server

/-! ## Responses -/

theorem isOk_error (e : ToolError) (id : Text) : (e.response id).outcome.isOk = false := by
  cases e <;> rfl

theorem requestId_error (e : ToolError) (id : Text) : (e.response id).requestId = id := by
  cases e <;> rfl

theorem limitResponse_eq (s : Server) (response : Response) : s.limitResponse response
    = if Response.fits s.config.limits.responseBytes response.toJson then response
      else .blocked response.requestId .responseTooLarge := by
  unfold limitResponse blocked?
  split <;> rfl

theorem requestId_limitResponse (s : Server) (response : Response) :
    (s.limitResponse response).requestId = response.requestId := by
  rw [limitResponse_eq]
  split <;> rfl

/-! ## Calls by name -/

theorem dispatch_of_name (s : Server) (tool : Tool) (arguments : Fields) :
    s.dispatch tool.name arguments = tool.call s.config s.workspace s.log arguments := by
  unfold dispatch
  rw [Tool.registry_find.2 rfl]

theorem dispatch_unknown {name : Text} (h : ∀ tool : Tool, tool.name ≠ name) (s : Server)
    (arguments : Fields) : s.dispatch name arguments = .error (.unknownTool name) := by
  unfold dispatch
  cases hfind : Tool.registry.find name with
  | ok tool => exact absurd (Tool.registry_find.1 hfind).symm (h tool)
  | error e => rfl

theorem tool_of_dispatch {s : Server} {name : Text} {arguments : Fields} {answer : Json × Workspace}
    (h : s.dispatch name arguments = .ok answer) : ∃ tool : Tool, name = tool.name := by
  unfold dispatch at h
  split at h
  · rename_i tool hfind
    exact ⟨tool, Tool.registry_find.1 hfind⟩
  · cases h

theorem callTool_of_ok {s : Server} {name : Text} {arguments : Fields} {answer : Json × Workspace}
    (h : s.dispatch name arguments = .ok answer) (requestId : Text) :
    s.callTool requestId name arguments =
      (s.limitResponse (.success requestId answer.1),
        { s with workspace := answer.2 }.record requestId name arguments
          (s.limitResponse (.success requestId answer.1)).toJson) := by
  unfold callTool
  rw [h]

theorem callTool_of_error {s : Server} {name : Text} {arguments : Fields} {e : ToolError}
    (h : s.dispatch name arguments = .error e) (requestId : Text) :
    s.callTool requestId name arguments =
      (e.response requestId, s.record requestId name arguments (e.response requestId).toJson) := by
  unfold callTool
  rw [h]

end Server

end OutlineServer
