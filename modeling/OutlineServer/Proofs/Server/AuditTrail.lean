import OutlineServer.Proofs.Json.Printable
import OutlineServer.Proofs.Server.Calls

/-!
# The audit trail

A request leaves one record in the log, and the record says of the request what its response says:
the id, whether it succeeded, whether it was blocked, and the code of its error.  The one exception
is a malformed `tools/call`, which is answered and leaves no trace (`receive_logged`).

Below the values stands the file.  A record is written as one line whatever it holds, because what is
written is printable ASCII, so a file that gains a record gains exactly one line
(`AuditLog.gains_append`).
-/
namespace OutlineServer

/-! ## The log as a file -/

namespace AuditLog

/-- A file gains a record: the record is added at its end, as one line. -/
def Gains (before after : AuditLog) (record : Json) : Prop :=
  CodePoint.lineFeed ∉ record.write
  ∧ after.octets? = some (before.octets?.getD []
    ++ Utf8.encode (record.write ++ [CodePoint.lineFeed]))

theorem octets?_getD (log : AuditLog) : log.octets?.getD [] = log.pieces.toList.flatten := by
  unfold octets?
  split
  · rename_i hempty
    rw [Array.isEmpty_iff] at hempty
    rw [hempty]
    rfl
  · rfl

theorem octets?_write (log : AuditLog) (octets : List UInt8) :
    (log.write octets).octets? = some (log.octets?.getD [] ++ octets) := by
  rw [octets?_getD]
  unfold octets? write
  rw [if_neg (by simp), Array.toList_push, List.flatten_append]
  simp

theorem gains_append (log : AuditLog) (event : AuditEvent) :
    Gains log (log.append event) event.toJson :=
  ⟨Text.not_mem_lineFeed (Json.isPlain_write event.toJson), octets?_write log _⟩

theorem Gains.size_pos {before after : AuditLog} {record : Json} (h : Gains before after record) :
    0 < after.pieces.size := by
  obtain ⟨-, h⟩ := h
  unfold octets? at h
  split at h
  · cases h
  · rename_i hsome
    rw [Array.isEmpty_iff_size_eq_zero] at hsome
    omega

theorem not_gains_self (log : AuditLog) (record : Json) : ¬ Gains log log record := by
  rintro ⟨-, h⟩
  cases hoctets : log.octets? with
  | none =>
    rw [hoctets] at h
    cases h
  | some octets =>
    have hne : Utf8.encode (record.write ++ [CodePoint.lineFeed]) ≠ [] := by
      rw [Utf8.encode, List.flatMap_append]
      exact List.append_ne_nil_of_right_ne_nil _ (List.cons_ne_nil _ _)
    rw [hoctets, Option.getD_some, Option.some.injEq] at h
    exact hne (List.self_eq_append_right.1 h)

end AuditLog

/-! ## Events and responses -/

structure AuditEvent.Describes (event : AuditEvent) (response : Response) : Prop where
  requestId : event.requestId = response.requestId
  ok : event.ok = response.outcome.isOk
  blocked : event.blocked = response.outcome.isBlocked
  errorCode : event.errorCode = response.outcome.error?.map Prod.fst

/-- A record and a response, as they are written, agree on the id, on success, on blocking and on
the code of the error, which is null exactly when the response has no error. -/
structure RecordAgrees (record response : Json) : Prop where
  requestId : ∃ id, response.get? "request_id" = some (.str id)
    ∧ record.get? "request_id" = some (.str id)
  ok : ∃ ok, response.get? "ok" = some (.bool ok) ∧ record.get? "ok" = some (.bool ok)
  blocked : ∃ blocked, response.get? "blocked" = some (.bool blocked)
    ∧ record.get? "blocked" = some (.bool blocked)
  errorCode : (response.get? "error" = none ∧ record.get? "error_code" = some .null)
    ∨ ∃ error code, response.get? "error" = some error ∧ error.get? "code" = some (.str code)
      ∧ record.get? "error_code" = some (.str code)

theorem recordAgrees_of_describes {event : AuditEvent} {response : Response}
    (h : event.Describes response) : RecordAgrees event.toJson response.toJson := by
  obtain ⟨timestamp, requestId, tool, ok, blocked, errorCode, metadata⟩ := event
  obtain ⟨hid, hok, hblocked, herror⟩ := h
  dsimp only at hid hok hblocked herror
  subst hid hok hblocked herror
  obtain ⟨id, outcome⟩ := response
  cases outcome with
  | success result warnings => exact ⟨⟨id, rfl, rfl⟩, ⟨_, rfl, rfl⟩, ⟨_, rfl, rfl⟩, .inl ⟨rfl, rfl⟩⟩
  | failure code message =>
    exact ⟨⟨id, rfl, rfl⟩, ⟨_, rfl, rfl⟩, ⟨_, rfl, rfl⟩, .inr ⟨_, code, rfl, rfl, rfl⟩⟩
  | blocked reason hint =>
    exact ⟨⟨id, rfl, rfl⟩, ⟨_, rfl, rfl⟩, ⟨_, rfl, rfl⟩, .inr ⟨_, _, rfl, rfl, rfl⟩⟩

/-! ## Requests -/

namespace Server

theorem record_logged (s : Server) (response : Response) (tool : Text) (arguments : Fields) :
    ∃ event : AuditEvent, event.Describes response
      ∧ (s.record response.requestId tool arguments response.toJson).log = s.log.append event := by
  refine ⟨_, ?_, rfl⟩
  obtain ⟨id, outcome⟩ := response
  cases outcome <;> exact ⟨rfl, rfl, rfl, rfl⟩

theorem callTool_logged (s : Server) (id name : Text) (arguments : Fields) :
    ∃ event : AuditEvent, event.Describes (s.callTool id name arguments).1
      ∧ (s.callTool id name arguments).2.log = s.log.append event := by
  cases hdispatch : s.dispatch name arguments with
  | ok answer =>
    have hid := s.requestId_limitResponse (.success id answer.1)
    have hlogged := record_logged { s with workspace := answer.2 }
      (s.limitResponse (.success id answer.1)) name arguments
    rw [hid] at hlogged
    rw [callTool_of_ok hdispatch]
    exact hlogged
  | error e =>
    have hlogged := s.record_logged (e.response id) name arguments
    rw [requestId_error] at hlogged
    rw [callTool_of_error hdispatch]
    exact hlogged

theorem reject_logged (s : Server) (id : Text) (e : RequestError) (name : Text)
    (arguments : Fields) :
    ∃ event : AuditEvent, event.Describes (s.reject id e name arguments).1
      ∧ (s.reject id e name arguments).2.log = s.log.append event :=
  s.record_logged (e.response id) name arguments

end Server

/-- The request is a `tools/call` that does not say what to call. -/
def Incoming.MalformedCall (r : Incoming) : Prop :=
  ∃ payload, r.payload? = some payload ∧ OutlineServer.MalformedCall payload

namespace Server

/-- **A request leaves one record that describes its response**, except a malformed call, which
leaves none. -/
theorem receive_logged (s : Server) (r : Incoming) :
    (r.MalformedCall ∧ (s.receive r).2.log = s.log)
    ∨ (¬ r.MalformedCall ∧ ∃ event : AuditEvent, event.Describes (s.receive r).1
      ∧ (s.receive r).2.log = s.log.append event) := by
  cases hpayload : r.payload? with
  | none =>
    refine .inr ⟨?_, ?_⟩
    · rintro ⟨_, h, -⟩
      rw [hpayload] at h
      cases h
    · obtain ⟨e, name, arguments, heq⟩ := receive_of_no_payload (s := s) hpayload
      rw [heq]
      exact reject_logged _ _ _ _ _
  | some payload =>
    have hiff : r.MalformedCall ↔ OutlineServer.MalformedCall payload := by
      constructor
      · rintro ⟨_, h, hmalformed⟩
        rw [hpayload] at h
        cases h
        exact hmalformed
      · exact fun h => ⟨payload, hpayload, h⟩
    rw [hiff, receive_of_payload hpayload, ← s.identify_log payload]
    rcases s.handle_cases payload with
      ⟨name, arguments, -, hwell, heq⟩ | ⟨-, hmalformed, e, heq⟩ | ⟨-, hwell, e, heq⟩
    · rw [heq]
      exact .inr ⟨hwell, callTool_logged _ _ _ _⟩
    · rw [heq]
      exact .inl ⟨hmalformed, rfl⟩
    · rw [heq]
      exact .inr ⟨hwell, reject_logged _ _ _ _ _⟩

/-- **Which lines are recorded.**  Whatever the server and the line, one record that agrees with the
response is added to the file, unless the line is a malformed `tools/call`; then the file stays as it
is. -/
theorem line_recorded_iff (s : Server) (line : Text) :
    ((∃ record, RecordAgrees record (s.handleLine line).1.toJson
        ∧ AuditLog.Gains s.log (s.handleLine line).2.log record)
      ↔ ¬ ∃ payload, Json.read? line = some payload ∧ MalformedCall payload)
    ∧ ((∃ payload, Json.read? line = some payload ∧ MalformedCall payload) →
      (s.handleLine line).2.log = s.log) := by
  rcases s.receive_logged (.line line) with ⟨hmalformed, hlog⟩ | ⟨hwell, event, hevent, hlog⟩
  · refine ⟨⟨?_, fun hwell => absurd hmalformed hwell⟩, fun _ => hlog⟩
    rintro ⟨record, -, hgains⟩
    have hlog : (s.handleLine line).2.log = s.log := hlog
    rw [hlog] at hgains
    exact absurd hgains (AuditLog.not_gains_self _ _)
  · refine ⟨⟨fun _ => hwell, fun _ => ?_⟩, fun hmalformed => absurd hmalformed hwell⟩
    have hlog : (s.handleLine line).2.log = s.log.append event := hlog
    rw [hlog]
    exact ⟨event.toJson, recordAgrees_of_describes hevent, AuditLog.gains_append _ _⟩

/-- Not every line is recorded: a fresh server answers a call that names no tool, and its log stays
empty. -/
theorem nameless_call_unrecorded :
    ¬ ∀ (s : Server) (line : Text), line.strip ≠ [] →
      ∃ record, RecordAgrees record (s.handleLine line).1.toJson
        ∧ AuditLog.Gains s.log (s.handleLine line).2.log record := by
  intro h
  obtain ⟨record, -, hgains⟩ := h
    (start (.ofRoot { segments := ["work"] }) none ⟨1700000000000000, 0⟩)
    "\x7b\"id\": \"a\", \"method\": \"tools/call\"\x7d" (by decide +kernel)
  have hpos := hgains.size_pos
  revert hpos
  decide +kernel

end Server

end OutlineServer
