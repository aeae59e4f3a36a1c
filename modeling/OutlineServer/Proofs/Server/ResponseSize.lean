import OutlineServer.Proofs.Server.LogReadBack
import OutlineServer.Proofs.Server.Routes

/-!
# The size of responses

A response is measured when its tool is done and has a result, and nowhere else.  So what a request
that succeeds is answered with is within the limit; and a request that fails is answered in full,
whatever the limit, and there is no bound on the size of such an answer, because the name of a tool
that there is not is sent back (`only_success_is_limited`).
-/
namespace OutlineServer

/-! ## Sizes of what is written -/

namespace Text

theorem foldl_utf8Size_of_isPlain : ∀ {t : Text} (n : Nat), t.isPlain = true →
    t.foldl (fun n c => n + c.utf8Size) n = n + t.length
  | [], _, _ => rfl
  | c :: t, n, h => by
    rw [isPlain_cons, Bool.and_eq_true, CodePoint.isPlain_iff] at h
    have hone : c.utf8Size = 1 := if_pos (by omega)
    rw [List.foldl_cons, foldl_utf8Size_of_isPlain _ h.2, hone, List.length_cons]
    omega

theorem utf8Size_of_isPlain {t : Text} (h : t.isPlain = true) : t.utf8Size = t.length := by
  unfold utf8Size
  rw [foldl_utf8Size_of_isPlain 0 h, Nat.zero_add]

end Text

namespace Json

theorem length_escaped_pos (c : CodePoint) : 0 < (escaped c).length := by
  unfold escaped
  split
  · simp
  · split
    · simp
    · split <;> simp [unitEscape]

theorem length_le_write_str (t : Text) : t.length ≤ (Json.str t).write.length := by
  have hescaped : t.length ≤ (t.flatMap escaped).length := by
    induction t with
    | nil => simp
    | cons c t ih =>
      have hc := length_escaped_pos c
      rw [List.flatMap_cons, List.length_append, List.length_cons]
      omega
  rw [write, quoted, List.length_cons, List.length_append]
  omega

theorem length_write_le_writeFields {key : Text} {value : Json} : ∀ {fields : Fields},
    (key, value) ∈ fields → value.write.length ≤ (writeFields fields).length
  | [(_, _)], h => by
    cases List.mem_singleton.1 h
    simp only [writeFields, List.length_append]
    omega
  | (_, _) :: next :: rest, h => by
    simp only [writeFields, List.length_append]
    rcases List.mem_cons.1 h with h | h
    · cases h
      omega
    · have := length_write_le_writeFields h
      omega

theorem length_write_le_of_get? {value field : Json} {key : Text}
    (h : value.get? key = some field) : field.write.length ≤ value.write.length := by
  cases value with
  | obj fields =>
    have hle := length_write_le_writeFields (Keyed.mem_of_get? h)
    rw [write, List.length_cons]
    omega
  | _ => cases h

end Json

namespace Server

/-- The number of octets of a response as it is sent, the line feed at its end apart. -/
def sentSize (response : Response) : Nat := Text.utf8Size (outputLine response).dropLast

theorem sentSize_eq (response : Response) : sentSize response = response.toJson.write.length := by
  unfold sentSize outputLine
  rw [List.dropLast_concat, Text.utf8Size_of_isPlain response.toJson.isPlain_write]

/-! ## Requests that succeed -/

theorem fits_of_limitResponse {s : Server} {id : Text} {result : Json}
    (h : (s.limitResponse (.success id result)).outcome.isOk = true) :
    Response.fits s.config.limits.responseBytes (s.limitResponse (.success id result)).toJson
      = true := by
  rw [limitResponse_eq] at h ⊢
  split
  · assumption
  · rename_i hfits
    rw [if_neg hfits] at h
    cases h

/-- **What a request that succeeds is answered with is within the limit.** -/
theorem sentSize_le_of_isOk {s : Server} {r : Incoming}
    (h : (s.receive r).1.outcome.isOk = true) :
    (sentSize (s.receive r).1 : Int) ≤ s.config.limits.responseBytes := by
  cases hcall : r.dispatched? with
  | none =>
    rw [(receive_of_not_dispatched hcall).1] at h
    cases h
  | some call =>
    obtain ⟨id, s', hconfig, -, -, hreceive⟩ := receive_of_dispatched (s := s) hcall
    rw [hreceive] at h ⊢
    cases hdispatch : s'.dispatch call.1 call.2 with
    | error e =>
      rw [callTool_of_error hdispatch, isOk_error] at h
      cases h
    | ok answer =>
      rw [callTool_of_ok hdispatch] at h ⊢
      have hfits := fits_of_limitResponse h
      rw [hconfig] at hfits
      rw [sentSize_eq]
      exact of_decide_eq_true hfits

/-! ## Requests that fail -/

theorem length_message_le_sentSize (id code message : Text) :
    message.length ≤ sentSize (.failure id code message) := by
  have herror : (Response.failure id code message).toJson.get? "error"
      = some (.object [("code", .str code), ("message", .str message)]) := rfl
  have hmessage : (Json.object [("code", .str code), ("message", .str message)]).get? "message"
      = some (.str message) := rfl
  calc message.length
    _ ≤ (Json.str message).write.length := Json.length_le_write_str message
    _ ≤ _ := Json.length_write_le_of_get? hmessage
    _ ≤ _ := Json.length_write_le_of_get? herror
    _ = sentSize (.failure id code message) := (sentSize_eq _).symm

def longName (n : Nat) : Text := List.replicate (n + 1) 'x'

theorem longName_ne {n : Nat} {name : Text} (h : name.head? ≠ some (CodePoint.ofChar 'x')) :
    longName n ≠ name := by
  rintro rfl
  exact h rfl

theorem dispatch_longName (s : Server) (n : Nat) (arguments : Fields) :
    s.dispatch (longName n) arguments = .error (.unknownTool (longName n)) := by
  refine dispatch_unknown (fun tool => (longName_ne ?_).symm) s arguments
  cases tool <;> decide

def lineCalling (name : Text) : Text := (Request.direct none name none).write

theorem read?_lineCalling {name : Text} (h : name.isPlain = true) :
    Json.read? (lineCalling name) = some (Request.direct none name none) := by
  have hjoined : (Request.direct none name none).joined = Request.direct none name none := by
    have hkey : Text.isPlain "method" = true := by decide
    have hkeys : ∀ field ∈ [(("method" : Text), Json.str name)], field.1.IsJoined :=
      List.forall_mem_singleton.2 (Text.isJoined_of_isPlain hkey)
    have hvalues : ∀ field ∈ [(("method" : Text), Json.str name)],
        field.2.joined = field.2 := by
      rw [List.forall_mem_singleton, Json.joined,
        Text.joined_of_isJoined (Text.isJoined_of_isPlain h)]
    exact Json.joined_object hkeys hvalues
  unfold lineCalling
  rw [Json.read?_write, hjoined]

theorem handleLine_longName (s : Server) (n : Nat) :
    ∃ id, (s.handleLine (lineCalling (longName n))).1
      = (ToolError.unknownTool (longName n)).response id := by
  have hplain : (longName n).isPlain = true := Text.isPlain_replicate (by decide) _
  have hcall : dispatched? (Request.direct none (longName n) none) = some (longName n, []) :=
    Request.dispatched?_direct none (longName_ne (by decide)) (longName_ne (by decide)) none
  refine ⟨(s.identify (Request.direct none (longName n) none)).1, ?_⟩
  unfold handleLine
  simp only [read?_lineCalling hplain]
  rw [handle_of_dispatched hcall, callTool_of_error (dispatch_longName _ n _)]

/-- **Only what succeeds is limited.**  Whatever the server and the line, a response to a request that
succeeds is sent with at most as many octets as the limit allows.  The response to one that fails is
not measured: for every size, and so for every limit, there is a line whose response is not blocked
and is larger. -/
theorem only_success_is_limited (s : Server) :
    (∀ line, (s.handleLine line).1.outcome.isOk = true →
      (sentSize (s.handleLine line).1 : Int) ≤ s.config.limits.responseBytes)
    ∧ ∀ size : Nat, ∃ line : Text, line.strip ≠ []
      ∧ (s.handleLine line).1.outcome.isOk = false
      ∧ (s.handleLine line).1.outcome.isBlocked = false
      ∧ size < sentSize (s.handleLine line).1 := by
  refine ⟨fun line hok => sentSize_le_of_isOk (r := .line line) hok, fun size => ?_⟩
  obtain ⟨id, hresponse⟩ := s.handleLine_longName size
  have hline : (lineCalling (longName size)).strip ≠ [] := by
    obtain ⟨hstrip, hne⟩ : (lineCalling (longName size)).strip = lineCalling (longName size)
        ∧ lineCalling (longName size) ≠ [] := Json.strip_write_obj _
    rwa [hstrip]
  refine ⟨lineCalling (longName size), hline, ?_, ?_, ?_⟩
  · rw [hresponse]
    rfl
  · rw [hresponse]
    rfl
  · rw [hresponse]
    have hsize := length_message_le_sentSize id "UNKNOWN_TOOL"
      (ToolError.unknownTool (longName size)).message
    have hlength : (ToolError.unknownTool (longName size)).message.length = 14 + (size + 1) := by
      show (("Unknown tool: " : Text) ++ longName size).length = _
      rw [List.length_append, longName, List.length_replicate]
      rfl
    have heq : (ToolError.unknownTool (longName size)).response id
        = .failure id "UNKNOWN_TOOL" (ToolError.unknownTool (longName size)).message := rfl
    rw [heq]
    omega

/-- Not every response that is not blocked is within the limit: a server that may send 100 octets
answers the call of a tool that there is not with more. -/
theorem failure_exceeds_limit :
    ¬ ∀ (config : Config) (found : Option (List UInt8)) (clock : Clock) (requests : List Incoming)
      (line : Text), line.strip ≠ [] →
      (((start config found clock).after requests).handleLine line).1.outcome.isBlocked = false →
      (sentSize (((start config found clock).after requests).handleLine line).1 : Int)
        ≤ config.limits.responseBytes := by
  intro h
  have hsize := h { Config.ofRoot { segments := ["work"] } with limits := { responseBytes := 100 } }
    none ⟨0, 0⟩ [] "\x7b\"id\": \"a\", \"method\": \"x\"\x7d" (by decide +kernel) (by decide +kernel)
  revert hsize
  decide +kernel

end Server

end OutlineServer
