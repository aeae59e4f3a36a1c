import OutlineServer.Audit.Log
import OutlineServer.Config.Basic
import OutlineServer.Server.Registry
import OutlineServer.Workspace.Basic

/-!
# Tools

A tool is called by name with an object of arguments.  Its result may depend on the configuration,
the workspace and the audit log; only the two document events change anything, and what they change
is the workspace.
-/
namespace OutlineServer

inductive Tool where
  | status
  | didOpen
  | didChange
  | symbols
  | completions
  | semanticTokens
  | tokenLegend
  | auditLog
deriving DecidableEq

inductive ToolError where
  | unknownTool (name : Text)
  /-- A tool needs a document's id and got none, or the empty one. -/
  | documentIdMissing (tool : Tool)
  /-- A tool needs a text and got none. -/
  | textMissing (tool : Tool)
  /-- A document's id may be left out but was given as something else than a text. -/
  | documentIdNotText (tool : Tool)
  /-- A switch was given as something else than a truth value. -/
  | switchNotBool (tool : Tool)
  | refused (refusal : Refusal)
  /-- A text has no UTF-8 form. -/
  | unencodable
  | unreadableLog (cause : AuditLog.ReadError)

namespace Tool

def name : Tool → Text
  | status => "server.status"
  | didOpen => "document.did_open"
  | didChange => "document.did_change"
  | symbols => "document.symbols"
  | completions => "document.completions"
  | semanticTokens => "document.semantic_tokens"
  | tokenLegend => "server.token_legend"
  | auditLog => "server.audit_log"

def all : List Tool :=
  [status, didOpen, didChange, symbols, completions, semanticTokens, tokenLegend, auditLog]

def registry : ToolRegistry Tool := ⟨ArrivalMap.ofList (all.map (fun t => (t.name, t)))⟩

/-! ## Arguments -/

/-- The id of a document, which may not be empty. -/
def documentId (tool : Tool) (arguments : Fields) : Except ToolError Text :=
  match Keyed.get? "doc_id" arguments with
  | some (.str id) => if id.isEmpty then .error (.documentIdMissing tool) else .ok id
  | _ => .error (.documentIdMissing tool)

def text (tool : Tool) (arguments : Fields) : Except ToolError Text :=
  match Keyed.get? "text" arguments with
  | some (.str text) => .ok text
  | _ => .error (.textMissing tool)

def optionalDocumentId (tool : Tool) (arguments : Fields) : Except ToolError (Option Text) :=
  match Keyed.get? "doc_id" arguments with
  | some (.str id) => .ok (some id)
  | some .null => .ok none
  | none => .ok none
  | some _ => .error (.documentIdNotText tool)

def wantsNumbers (tool : Tool) (arguments : Fields) : Except ToolError Bool :=
  match Keyed.get? "encoded" arguments with
  | some (.bool encoded) => .ok encoded
  | none => .ok false
  | some _ => .error (.switchNotBool tool)

def usualEntries : Int := 50

def mostEntries : Int := 500

/-- The number of log entries to show.  A truth value counts as one or zero, and anything else that
is no whole number as not given. -/
def entryLimit (arguments : Fields) : Int :=
  let given :=
    match Keyed.get? "limit" arguments with
    | some (.int n) => n
    | some (.bool true) => 1
    | some (.bool false) => 0
    | _ => usualEntries
  max 1 (min given mostEntries)

/-- The time from which log entries are shown; anything but a text means all of them. -/
def since (arguments : Fields) : Option Text := (Keyed.get? "since" arguments).bind Json.str?

def checkDocument (limits : Limits) (document : Text) : Except ToolError Unit :=
  match limits.checkDocument document with
  | .ok () => .ok ()
  | .error .unencodable => .error .unencodable
  | .error (.refused refusal) => .error (.refused refusal)

/-! ## Calls -/

def update (tool : Tool) (limits : Limits) (workspace : Workspace) (arguments : Fields) :
    Except ToolError (Json × Workspace) := do
  let id ← documentId tool arguments
  let text ← text tool arguments
  checkDocument limits text
  let (outline, workspace) := workspace.update id text
  let result := .object [
    ("doc_id", .str id),
    ("symbol_count", .nat outline.symbols.length),
    ("completion_count", .nat outline.completions.length)]
  return (result, workspace)

def statusResult (config : Config) (workspace : Workspace) : Json :=
  .object [
    ("workspace_root", .str config.root.toText),
    ("documents", .strings workspace.results.documents),
    ("token_strategy", .str workspace.classifier.name),
    ("completion_scope", .str workspace.results.scope.name),
    ("effective_config", config.toJson)]

def tokensResult (workspace : Workspace) (text : Text) (encoded : Bool) : Json :=
  let spans := workspace.tokens text
  let numbers : List (Text × Json) :=
    if encoded then [("data", .arr ((workspace.legend.encode spans).map .int))] else []
  .object (("strategy", .str workspace.classifier.name)
    :: ("tokens", .arr (spans.map TokenSpan.toJson)) :: numbers)

def symbolsResult (workspace : Workspace) (arguments : Fields) : Except ToolError Json := do
  let id ← documentId .symbols arguments
  return .object [
    ("doc_id", .str id),
    ("symbols", .arr ((workspace.symbols id).map Symbol.toJson))]

def completionsResult (workspace : Workspace) (arguments : Fields) : Except ToolError Json := do
  let id ← optionalDocumentId .completions arguments
  return .object [("items", .arr ((workspace.completions id).map Completion.toJson))]

def semanticTokensResult (limits : Limits) (workspace : Workspace) (arguments : Fields) :
    Except ToolError Json := do
  let text ← text .semanticTokens arguments
  let encoded ← wantsNumbers .semanticTokens arguments
  checkDocument limits text
  return tokensResult workspace text encoded

def auditLogResult (log : AuditLog) (arguments : Fields) : Except ToolError Json :=
  match log.read (since arguments) (entryLimit arguments) with
  | .ok records => .ok (.object [("entries", .arr records)])
  | .error cause => .error (.unreadableLog cause)

def call (tool : Tool) (config : Config) (workspace : Workspace) (log : AuditLog)
    (arguments : Fields) : Except ToolError (Json × Workspace) :=
  let unchanged (result : Json) := (result, workspace)
  match tool with
  | status => .ok (unchanged (statusResult config workspace))
  | didOpen => update .didOpen config.limits workspace arguments
  | didChange => update .didChange config.limits workspace arguments
  | symbols => (symbolsResult workspace arguments).map unchanged
  | completions => (completionsResult workspace arguments).map unchanged
  | semanticTokens => (semanticTokensResult config.limits workspace arguments).map unchanged
  | tokenLegend => .ok (unchanged workspace.legend.toJson)
  | auditLog => (auditLogResult log arguments).map unchanged

end Tool

namespace ToolError

def message : ToolError → Text
  | unknownTool name => (RegistryError.unknownTool name).message
  | documentIdMissing tool => tool.name ++ (" doc_id must be a non-empty string." : Text)
  | textMissing tool => tool.name ++ (" text must be a string." : Text)
  | documentIdNotText tool => tool.name ++ (" doc_id must be a string." : Text)
  | switchNotBool tool => tool.name ++ (" encoded must be a boolean." : Text)
  | refused refusal => refusal.reason
  | unencodable | unreadableLog _ => "Unhandled server error while executing tool."

end ToolError

end OutlineServer
