import OutlineServer.Proofs.Server.InternalErrors
import OutlineServer.Proofs.Server.ResponseSize
import OutlineServer.Proofs.Server.UnicodeAnswers

/-!
# What a server sends

The rule of serving is stated apart from the loop that does it: blank lines are passed over, and every
other line is answered by the server that the lines before it left (`Serves`).  What is sent for a
response is one line of printable ASCII that spells the response.
-/
namespace OutlineServer

namespace Server

/-- The responses to lines, one after the other, and the server that they leave. -/
inductive Serves : Server → List Text → List Response → Server → Prop
  | done (s : Server) : Serves s [] [] s
  | blank {s s' : Server} {line : Text} {rest : List Text} {responses : List Response}
      (hblank : line.strip = []) (hrest : Serves s rest responses s') :
      Serves s (line :: rest) responses s'
  | answer {s s' : Server} {line : Text} {rest : List Text} {responses : List Response}
      (hline : line.strip ≠ []) (hrest : Serves (s.handleLine line.strip).2 rest responses s') :
      Serves s (line :: rest) ((s.handleLine line.strip).1 :: responses) s'

theorem serves_answers : ∀ (lines : List Text) (s : Server),
    Serves s lines (s.answers (requestsIn lines)) (s.after (requestsIn lines))
  | [], s => .done s
  | line :: rest, s => by
    by_cases hblank : line.strip = []
    · have hrequests : requestsIn (line :: rest) = requestsIn rest := by simp [requestsIn, hblank]
      rw [hrequests]
      exact .blank hblank (serves_answers rest s)
    · have hrequests : requestsIn (line :: rest) = .line line.strip :: requestsIn rest := by
        simp [requestsIn, hblank]
      rw [hrequests]
      exact .answer hblank (serves_answers rest _)

theorem serves_serve (s : Server) (lines : List Text) :
    Serves s lines (s.serve lines).1 (s.serve lines).2 := by
  rw [serve_eq]
  exact serves_answers lines s

/-! ## Lines of output -/

/-- A line that carries a response: it ends with a line feed and has no other break, it is ASCII, and
what it spells is the response, with split surrogate pairs joined. -/
structure Sent (response : Response) (line : Text) : Prop where
  ends : ∃ body : Text, line = body ++ [CodePoint.lineFeed] ∧ body.Unbroken
    ∧ Json.read? body = some response.toJson.joined
  ascii : ∀ c ∈ line, c.val < 128
  octets : (Utf8.encode line).length = line.length

theorem unbroken_write (value : Json) : value.write.Unbroken :=
  ⟨Text.not_mem_lineFeed value.isPlain_write, Text.not_mem_carriageReturn value.isPlain_write⟩

theorem sent_outputLine (response : Response) : Sent response (outputLine response) where
  ends := ⟨response.toJson.write, rfl, unbroken_write _, response.toJson.read?_write⟩
  ascii := by
    refine List.forall_mem_append.2 ⟨fun c hc => ?_, by decide⟩
    have hplain := Text.isPlain_iff.1 response.toJson.isPlain_write c hc
    have := CodePoint.isPlain_iff.1 hplain
    omega
  octets := by
    have hbody := Text.utf8Size_of_isPlain response.toJson.isPlain_write
    rw [Utf8.length_encode]
    unfold Text.utf8Size at hbody ⊢
    rw [outputLine, List.foldl_append, hbody, List.length_append]
    rfl

/-- **The output has one line for each response.** -/
theorem lines_output : ∀ responses : List Response, Text.lines (responses.flatMap outputLine)
    = responses.map (fun response => response.toJson.write) ++ [[]]
  | [] => rfl
  | response :: rest => by
    have hbreak := Text.lines_break (unbroken_write response.toJson) .lineFeed
      (t := rest.flatMap outputLine) (by rintro ⟨⟩)
    rw [lines_output rest] at hbreak
    rw [List.flatMap_cons, outputLine, List.append_assoc]
    exact hbreak

/-- Lines of characters are answered with values that read back as they are. -/
theorem Serves.joined {s s' : Server} {lines : List Text} {responses : List Response}
    (h : Serves s lines responses s') (hs : s.InUnicode)
    (hlines : ∀ line ∈ lines, line.isEncodable = true) :
    (∀ response ∈ responses, response.toJson.joined = response.toJson) ∧ s'.InUnicode := by
  induction h with
  | done => exact ⟨by simp, hs⟩
  | blank _ _ ih => exact ih hs (fun line hline => hlines line (List.mem_cons_of_mem _ hline))
  | @answer s s' line _ _ _ _ ih =>
    obtain ⟨hline, hrest⟩ := List.forall_mem_cons.1 hlines
    have hunicode : (Incoming.line line.strip).InUnicode :=
      Text.isEncodable_of_subset hline (Text.strip_subset line)
    have hreceive : s.receive (.line line.strip) = s.handleLine line.strip := rfl
    have hafter := hs.receive hunicode
    have hjoined := hs.joined_response hunicode
    rw [hreceive] at hafter hjoined
    obtain ⟨hresponses, hs'⟩ := ih hafter hrest
    exact ⟨List.forall_mem_cons.2 ⟨hjoined, hresponses⟩, hs'⟩

theorem payload?_unknownCall : (Incoming.line unknownCall.write).payload? = some unknownCall := by
  rw [Incoming.payload?, Json.read?_write]
  rfl

/-- **What a server sends for its input.**  It answers the lines that are not blank, each once and in
their order, and sends one line for each response.  Read on its own, what it sends has these lines and
no others; each is ASCII without a break in it and spells the response, with split surrogate pairs
joined.  A server in Unicode that is given lines of characters has no such pairs to send, so that its
lines spell the responses as they are; and it stays in Unicode. -/
theorem serve_output (s : Server) (lines : List Text) :
    let responses := (s.serve lines).1
    Serves s lines responses (s.serve lines).2
    ∧ Text.lines (responses.flatMap outputLine)
      = responses.map (fun response => response.toJson.write) ++ [[]]
    ∧ (∀ response ∈ responses, Sent response (outputLine response))
    ∧ (s.InUnicode → (∀ line ∈ lines, line.isEncodable = true) →
      (∀ response ∈ responses, Json.read? response.toJson.write = some response.toJson)
      ∧ (s.serve lines).2.InUnicode) := by
  intro responses
  have hserves := s.serves_serve lines
  refine ⟨hserves, lines_output responses, fun response _ => sent_outputLine response, ?_⟩
  intro hs hlines
  obtain ⟨hjoined, hafter⟩ := hserves.joined hs hlines
  refine ⟨fun response hresponse => ?_, hafter⟩
  rw [Json.read?_write, hjoined response hresponse]

/-- A blank line and a call under an id past U+FFFF get one line, which spells the response with the
id as it is. -/
theorem serve_output_of_unknownCall :
    let s := start (.ofRoot { segments := ["work"] }) none ⟨0, 0⟩
    let lines : List Text := [" \t", unknownCall.write]
    let response := (ToolError.unknownTool "no.such.tool").response "𝒜"
    s.InUnicode ∧ (∀ line ∈ lines, line.isEncodable = true)
    ∧ (s.serve lines).1 = [response]
    ∧ Json.read? response.toJson.write = some response.toJson := by
  intro s lines response
  have hs : s.InUnicode := inUnicode_start none ⟨0, 0⟩ (Text.isJoined_of_isPlain (by decide))
    (Text.isJoined_of_isPlain (by decide))
  have hlines : ∀ line ∈ lines, line.isEncodable = true :=
    List.forall_mem_cons.2 ⟨by decide,
      List.forall_mem_singleton.2 (Text.isEncodable_of_isPlain unknownCall.isPlain_write)⟩
  have hserve : (s.serve lines).1 = [response] := by
    have hblank : Text.strip " \t" = [] := by decide
    obtain ⟨hstrip, hne⟩ : unknownCall.write.strip = unknownCall.write ∧ unknownCall.write ≠ [] :=
      Json.strip_write_obj _
    have hrequests : requestsIn lines = [.line unknownCall.write] := by
      simp [requestsIn, lines, hblank, hstrip, hne]
    have hvalue : (Incoming.value unknownCall).payload? = some unknownCall := rfl
    rw [serve_eq, hrequests, answers, receive_of_payload payload?_unknownCall,
      ← receive_of_payload hvalue, response_unknownCall]
    rfl
  obtain ⟨-, -, -, hunicode⟩ := serve_output s lines
  obtain ⟨hread, -⟩ := hunicode hs hlines
  rw [hserve] at hread
  exact ⟨hs, hlines, hserve, hread response List.mem_cons_self⟩

/-- A line that is no text of characters: the id is an escaped high surrogate and a bare low one. -/
def splitIdLine : Text :=
  ("\x7b\"id\": \"\\ud83d" : Text) ++ [.ofNat 0xDE00] ++ ("\", \"method\": \"x\"\x7d" : Text)

theorem response_splitIdLine (s : Server) : (s.serve [splitIdLine]).1
    = [(ToolError.unknownTool "x").response [.ofNat 0xD83D, .ofNat 0xDE00]] := by
  obtain ⟨hstrip, hne⟩ : splitIdLine.strip = splitIdLine ∧ splitIdLine ≠ [] := by decide +kernel
  have hrequests : requestsIn [splitIdLine] = [.line splitIdLine] := by
    simp [requestsIn, hstrip, hne]
  have hpayload : (Incoming.line splitIdLine).payload?
      = some (.obj [("id", .str [.ofNat 0xD83D, .ofNat 0xDE00]), ("method", .str "x")]) := by cbv
  have hname : ∀ tool : Tool, tool.name ≠ ("x" : Text) := by
    intro tool
    cases tool <;> decide
  rw [serve_eq, hrequests, answers, receive_of_payload hpayload, handle_of_dispatched rfl,
    callTool_of_error (dispatch_unknown hname _ _)]
  rfl

/-- Not every line that is sent spells its response: the two halves of a pair in an id are one
character when they are read again. -/
theorem response_not_read_back :
    let s := start (.ofRoot { segments := ["work"] }) none ⟨0, 0⟩
    ∃ response, (s.serve [splitIdLine]).1 = [response]
      ∧ Json.read? response.toJson.write ≠ some response.toJson := by
  intro s
  refine ⟨_, response_splitIdLine s, ?_⟩
  rw [Json.read?_write]
  intro hsame
  have hid := congrArg (fun value => value.get? "request_id") (Option.some.inj hsame)
  have hjoined : some (Json.str (Text.joined [.ofNat 0xD83D, .ofNat 0xDE00]))
      = some (Json.str [.ofNat 0xD83D, .ofNat 0xDE00]) := hid
  exact absurd (congrArg List.length (Json.str.inj (Option.some.inj hjoined))) (by decide)

end Server

end OutlineServer
