import OutlineServer.Proofs.Json.Printable
import OutlineServer.Proofs.Server.Calls

/-!
# What a call fails with

A tool that there is fails with an error of its own (`ofTool_call`), whose message is a text of the
server.  So the one text of a request that comes back in a message is a name that no tool has
(`message_of_dispatch`).
-/
namespace OutlineServer

def OfTool {α : Type} (x : Except ToolError α) : Prop :=
  ∀ e, x = .error e → ∀ name, e ≠ .unknownTool name

section OfTool

variable {α β : Type}

theorem ofTool_ok (a : α) : OfTool (.ok a) := by rintro _ ⟨⟩

theorem ofTool_bind {x : Except ToolError α} {f : α → Except ToolError β} (hx : OfTool x)
    (hf : ∀ a, OfTool (f a)) : OfTool (x >>= f) := by
  cases x with
  | error e =>
    rintro _ ⟨⟩
    exact hx e rfl
  | ok a => exact hf a

theorem ofTool_map {x : Except ToolError α} (hx : OfTool x) (f : α → β) : OfTool (x.map f) := by
  cases x with
  | error e =>
    rintro _ ⟨⟩
    exact hx e rfl
  | ok a => exact ofTool_ok (f a)

end OfTool

namespace Tool

variable (tool : Tool) (arguments : Fields)

theorem ofTool_documentId : OfTool (documentId tool arguments) := by
  unfold documentId
  split
  · split <;> rintro _ ⟨⟩ _ ⟨⟩
  · rintro _ ⟨⟩ _ ⟨⟩

theorem ofTool_text : OfTool (text tool arguments) := by
  unfold text
  split <;> rintro _ ⟨⟩ _ ⟨⟩

theorem ofTool_optionalDocumentId : OfTool (optionalDocumentId tool arguments) := by
  unfold optionalDocumentId
  split <;> rintro _ ⟨⟩ _ ⟨⟩

theorem ofTool_wantsNumbers : OfTool (wantsNumbers tool arguments) := by
  unfold wantsNumbers
  split <;> rintro _ ⟨⟩ _ ⟨⟩

theorem ofTool_checkDocument (limits : Limits) (document : Text) :
    OfTool (checkDocument limits document) := by
  unfold checkDocument
  split <;> rintro _ ⟨⟩ _ ⟨⟩

theorem ofTool_update (limits : Limits) (workspace : Workspace) :
    OfTool (update tool limits workspace arguments) :=
  ofTool_bind (ofTool_documentId tool arguments) (fun _ =>
    ofTool_bind (ofTool_text tool arguments) (fun _ =>
      ofTool_bind (ofTool_checkDocument limits _) (fun _ => ofTool_ok _)))

theorem ofTool_call (config : Config) (workspace : Workspace) (log : AuditLog) :
    OfTool (tool.call config workspace log arguments) := by
  cases tool with
  | status => exact ofTool_ok _
  | didOpen => exact ofTool_update _ _ _ _
  | didChange => exact ofTool_update _ _ _ _
  | symbols => exact ofTool_map (ofTool_bind (ofTool_documentId _ _) (fun _ => ofTool_ok _)) _
  | completions =>
    exact ofTool_map (ofTool_bind (ofTool_optionalDocumentId _ _) (fun _ => ofTool_ok _)) _
  | semanticTokens =>
    refine ofTool_map (ofTool_bind (ofTool_text _ _) (fun text => ?_)) _
    exact ofTool_bind (ofTool_wantsNumbers _ _) (fun _ =>
      ofTool_bind (ofTool_checkDocument _ text) (fun _ => ofTool_ok _))
  | tokenLegend => exact ofTool_ok _
  | auditLog =>
    refine ofTool_map ?_ _
    unfold auditLogResult
    split <;> rintro _ ⟨⟩ _ ⟨⟩

end Tool

/-! ## Messages -/

theorem Tool.isPlain_name (tool : Tool) : tool.name.isPlain = true := by
  cases tool <;> decide

theorem Refusal.isPlain_reason (refusal : Refusal) : refusal.reason.isPlain = true := by
  cases refusal <;> decide

theorem Refusal.isPlain_hint (refusal : Refusal) : refusal.hint.isPlain = true := by
  cases refusal <;> decide

theorem ToolError.isPlain_message {e : ToolError} (h : ∀ name, e ≠ .unknownTool name) :
    e.message.isPlain = true := by
  have hnamed : ∀ (tool : Tool) {text : Text}, text.isPlain = true →
      (tool.name ++ text).isPlain = true := by
    intro tool text htext
    rw [Text.isPlain_append, tool.isPlain_name, htext]
    rfl
  have hinternal : Text.isPlain "Unhandled server error while executing tool." = true := by decide
  cases e with
  | unknownTool name => exact absurd rfl (h name)
  | documentIdMissing tool => exact hnamed tool (by decide)
  | textMissing tool => exact hnamed tool (by decide)
  | documentIdNotText tool => exact hnamed tool (by decide)
  | switchNotBool tool => exact hnamed tool (by decide)
  | refused refusal => exact refusal.isPlain_reason
  | unencodable => exact hinternal
  | unreadableLog cause => exact hinternal

/-- **A message is plain, or it names a tool that there is not.** -/
theorem Server.message_of_dispatch {s : Server} {name : Text} {arguments : Fields} {e : ToolError}
    (h : s.dispatch name arguments = .error e) :
    e = .unknownTool name ∨ e.message.isPlain = true := by
  unfold dispatch at h
  split at h
  · rename_i tool _
    exact .inr (ToolError.isPlain_message
      (tool.ofTool_call arguments s.config s.workspace s.log e h))
  · cases h
    exact .inl rfl

end OutlineServer
