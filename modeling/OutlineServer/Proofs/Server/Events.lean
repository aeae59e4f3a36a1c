import OutlineServer.Proofs.Server.AuditTrail

/-!
# The events of a run

What a request leaves in the log is an event, and the event is a matter of the request, of the
response, and of the clock: `eventOf?` says which, and for which requests there is none.  The rest of
what a request does to a server, the workspace apart, is bookkeeping: an id is used up when the
request brings none, and the clock is read when an event is written (`receive_eq`).

A run writes the events of its requests one after the other (`log_after`), so its file only ever
grows (`octets_after`).
-/
namespace OutlineServer

/-! ## What is recorded of a request -/

/-- A `tools/call` with parameters, well formed or not. -/
def isCall (payload : Json) : Bool :=
  decide (Request.name? (payload.get? "method") = some Request.callMethod)
    && (Request.object? (payload.get? "params")).isSome

/-- The name and the arguments under which a request is recorded.  A call that does not say what to
call is not recorded. -/
def recordedAs? (payload : Json) : Option (Text × Fields) :=
  match dispatched? payload with
  | some call => some call
  | none => if isCall payload then none else some ("invalid_request", [])

theorem isCall_of_malformedCall {payload : Json} (h : MalformedCall payload) :
    isCall payload = true := by
  obtain ⟨fields, params, rfl, hmethod, hparams, -⟩ := h
  have hname : Request.name? (Keyed.get? "method" fields) = some Request.callMethod :=
    Request.name?_eq_some.2 ⟨hmethod, by decide⟩
  simp [isCall, Json.get?, hname, hparams]

theorem malformedCall_of_isCall {payload : Json} (hnone : dispatched? payload = none)
    (h : isCall payload = true) : MalformedCall payload := by
  simp only [isCall, Bool.and_eq_true, decide_eq_true_eq, Option.isSome_iff_exists] at h
  obtain ⟨hmethod, params, hparams⟩ := h
  cases payload with
  | obj fields =>
    rcases target_cases hmethod hparams [] with ⟨_, _, hcall, -⟩ | ⟨-, hmalformed, -⟩
    · rw [hnone] at hcall
      cases hcall
    · exact hmalformed
  | _ => cases hmethod

namespace Incoming

def recordedAs? : Incoming → Option (Text × Fields)
  | line text =>
    match Json.read? text with
    | some payload => OutlineServer.recordedAs? payload
    | none => some ("invalid_json", [("raw_line_length", .nat text.length)])
  | value payload => OutlineServer.recordedAs? payload

def givenId? (r : Incoming) : Option Text :=
  r.payload?.bind (fun payload => Server.givenId? (payload.get? "id"))

theorem recordedAs?_of_payload {r : Incoming} {payload : Json} (h : r.payload? = some payload) :
    r.recordedAs? = OutlineServer.recordedAs? payload := by
  cases r with
  | line text =>
    have h : Json.read? text = some payload := h
    simp only [recordedAs?, h]
  | value given =>
    cases h
    rfl

end Incoming

def AuditEvent.ofResponse (now : Int) (tool : Text) (arguments : Fields) (response : Response) :
    AuditEvent where
  timestamp := OutlineServer.timestamp now
  requestId := response.requestId
  tool
  ok := response.outcome.isOk
  blocked := response.outcome.isBlocked
  errorCode := response.outcome.error?.map Prod.fst
  metadata := Fields.summary arguments

namespace Server

def eventOf? (s : Server) (r : Incoming) : Option AuditEvent :=
  r.recordedAs?.map (fun (tool, arguments) =>
    AuditEvent.ofResponse s.clock.now tool arguments (s.receive r).1)

def idOf (s : Server) (r : Incoming) : Text := r.givenId?.getD (madeUpId (s.issuedIds + 1))

def issuedAfter (s : Server) (r : Incoming) : Nat :=
  if r.givenId?.isSome then s.issuedIds else s.issuedIds + 1

def clockAfter (s : Server) (r : Incoming) : Clock :=
  if r.recordedAs?.isSome then s.clock.read.2 else s.clock

def logAfter (s : Server) (r : Incoming) : AuditLog :=
  match s.eventOf? r with
  | some event => s.log.append event
  | none => s.log

/-! ## One request -/

theorem record_response (s : Server) (response : Response) (tool : Text) (arguments : Fields) :
    s.record response.requestId tool arguments response.toJson
      = { s with
          log := s.log.append (.ofResponse s.clock.now tool arguments response)
          clock := s.clock.read.2 } := by
  obtain ⟨id, outcome⟩ := response
  cases outcome <;> rfl

theorem callTool_eq (s : Server) (id name : Text) (arguments : Fields) :
    (s.callTool id name arguments).1.requestId = id
    ∧ ∃ workspace, (s.callTool id name arguments).2 = { s with
        workspace
        log := s.log.append
          (.ofResponse s.clock.now name arguments (s.callTool id name arguments).1)
        clock := s.clock.read.2 } := by
  cases hdispatch : s.dispatch name arguments with
  | ok answer =>
    rw [callTool_of_ok hdispatch]
    have hid := s.requestId_limitResponse (.success id answer.1)
    have hrecord := record_response { s with workspace := answer.2 }
      (s.limitResponse (.success id answer.1)) name arguments
    rw [hid] at hrecord
    exact ⟨hid, answer.2, hrecord⟩
  | error e =>
    rw [callTool_of_error hdispatch]
    have hid := requestId_error e id
    have hrecord := s.record_response (e.response id) name arguments
    rw [hid] at hrecord
    exact ⟨hid, s.workspace, hrecord⟩

theorem reject_eq (s : Server) (id : Text) (e : RequestError) (name : Text) (arguments : Fields) :
    (s.reject id e name arguments).1.requestId = id
    ∧ (s.reject id e name arguments).2 = { s with
        log := s.log.append
          (.ofResponse s.clock.now name arguments (s.reject id e name arguments).1)
        clock := s.clock.read.2 } :=
  ⟨rfl, s.record_response (e.response id) name arguments⟩

theorem identify_eq (s : Server) (payload : Json) :
    s.identify payload = (s.idOf (.value payload),
      { s with issuedIds := s.issuedAfter (.value payload) }) := by
  have hid : (Incoming.value payload).givenId? = givenId? (payload.get? "id") := rfl
  unfold identify idFor idOf issuedAfter
  rw [hid]
  cases givenId? (payload.get? "id") <;> rfl

theorem handle_eq (s : Server) (payload : Json) :
    (s.handle payload).1.requestId = s.idOf (.value payload)
    ∧ ∃ workspace, (s.handle payload).2 = { s with
        workspace
        issuedIds := s.issuedAfter (.value payload)
        log := s.logAfter (.value payload)
        clock := s.clockAfter (.value payload) } := by
  have hrecorded : (Incoming.value payload).recordedAs? = recordedAs? payload := rfl
  have hreceive : s.receive (.value payload) = s.handle payload := rfl
  unfold logAfter clockAfter eventOf?
  rw [hrecorded, hreceive]
  rcases s.handle_cases payload with
    ⟨name, arguments, hcall, -, heq⟩ | ⟨hnone, hmalformed, e, heq⟩ | ⟨hnone, hwell, e, heq⟩
  · have hcalled : recordedAs? payload = some (name, arguments) := by
      unfold recordedAs?
      rw [hcall]
    rw [heq, hcalled, identify_eq]
    obtain ⟨hid, workspace, hafter⟩ := callTool_eq
      { s with issuedIds := s.issuedAfter (.value payload) } (s.idOf (.value payload)) name arguments
    exact ⟨hid, workspace, hafter⟩
  · have hsilent : recordedAs? payload = none := by
      unfold recordedAs?
      rw [hnone]
      exact if_pos (isCall_of_malformedCall hmalformed)
    rw [heq, hsilent, identify_eq]
    exact ⟨rfl, s.workspace, rfl⟩
  · have hrejected : recordedAs? payload = some (("invalid_request" : Text), []) := by
      unfold recordedAs?
      rw [hnone]
      exact if_neg (fun h => hwell (malformedCall_of_isCall hnone h))
    rw [heq, hrejected, identify_eq]
    obtain ⟨hid, hafter⟩ := reject_eq
      { s with issuedIds := s.issuedAfter (.value payload) } (s.idOf (.value payload)) e
      "invalid_request" []
    exact ⟨hid, s.workspace, hafter⟩

/-- **What a request does to a server**: besides the workspace, it uses up an id if it brings none,
and leaves its event in the log. -/
theorem receive_eq (s : Server) (r : Incoming) :
    (s.receive r).1.requestId = s.idOf r
    ∧ ∃ workspace, (s.receive r).2 = { s with
        workspace
        issuedIds := s.issuedAfter r
        log := s.logAfter r
        clock := s.clockAfter r } := by
  cases hpayload : r.payload? with
  | some payload =>
    have hrecorded := Incoming.recordedAs?_of_payload hpayload
    have hid : r.givenId? = (Incoming.value payload).givenId? := by
      unfold Incoming.givenId?
      rw [hpayload]
      rfl
    have hhandle := s.handle_eq payload
    unfold logAfter clockAfter eventOf? idOf issuedAfter at hhandle ⊢
    rw [receive_of_payload hpayload, hrecorded, hid]
    exact hhandle
  | none =>
    cases r with
    | value payload => cases hpayload
    | line text =>
      have hread : Json.read? text = none := hpayload
      have hreceive : s.receive (.line text) = s.nextId.2.reject s.nextId.1 .invalidJson
          "invalid_json" [("raw_line_length", .nat text.length)] := by
        simp only [receive, handleLine, hread]
      have hrecorded : (Incoming.line text).recordedAs?
          = some (("invalid_json" : Text), [(("raw_line_length" : Text), Json.nat text.length)]) := by
        simp only [Incoming.recordedAs?, hread]
      have hid : (Incoming.line text).givenId? = none := by
        unfold Incoming.givenId?
        rw [hpayload]
        rfl
      obtain ⟨hname, hafter⟩ := reject_eq s.nextId.2 s.nextId.1 .invalidJson
        "invalid_json" [("raw_line_length", .nat text.length)]
      unfold logAfter clockAfter eventOf? idOf issuedAfter
      rw [hrecorded, hid, hreceive]
      exact ⟨hname, s.workspace, hafter⟩

theorem log_receive (s : Server) (r : Incoming) : (s.receive r).2.log = s.logAfter r := by
  obtain ⟨-, workspace, h⟩ := s.receive_eq r
  rw [h]

/-! ## Runs -/

def events (s : Server) : List Incoming → List AuditEvent
  | [] => []
  | r :: rest => (s.eventOf? r).toList ++ (s.receive r).2.events rest

theorem log_after : ∀ (requests : List Incoming) (s : Server),
    (s.after requests).log = (s.events requests).foldl AuditLog.append s.log
  | [], _ => rfl
  | r :: rest, s => by
    have hrest := log_after rest (s.receive r).2
    have hstep : (s.after (r :: rest)) = (s.receive r).2.after rest := rfl
    rw [hstep, hrest, log_receive, logAfter, events, List.foldl_append]
    cases s.eventOf? r <;> rfl

theorem octets_foldl_append : ∀ (events : List AuditEvent) (log : AuditLog),
    (events.foldl AuditLog.append log).octets?.getD []
      = log.octets?.getD [] ++ events.flatMap AuditEvent.toOctets
  | [], log => by simp
  | e :: rest, log => by
    rw [List.foldl_cons, octets_foldl_append rest, List.flatMap_cons, ← List.append_assoc]
    unfold AuditLog.append
    rw [AuditLog.octets?_write, Option.getD_some]

/-- **The file after a run** is the file before it with a line for each event. -/
theorem octets_after (s : Server) (requests : List Incoming) :
    (s.after requests).log.octets?.getD []
      = s.log.octets?.getD [] ++ (s.events requests).flatMap AuditEvent.toOctets := by
  rw [log_after, octets_foldl_append]

end Server

end OutlineServer
