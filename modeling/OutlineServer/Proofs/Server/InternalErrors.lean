import OutlineServer.Proofs.Outline.Tree
import OutlineServer.Proofs.Server.LogReadBack

/-!
# Internal errors

Three things go wrong inside a tool: a text with a surrogate in it cannot be measured, a log that is
not UTF-8 cannot be read, and a record of the log that is no object cannot be compared by time.  All
other errors are the caller's, and are reported as such.  A tool is a chain of computations, so it is
enough to say of each where it fails inside (`failsInside_bind`), and then of each tool.

A server writes only ASCII into its log, and only objects.  So in a run that starts on complete lines,
the log is UTF-8 if the file was, the records that are no objects are those that were found there, and
the requests that end in an internal error can be told from the requests and from the file alone
(`Incoming.Breaks`, `robust_after`).
-/
namespace OutlineServer

/-! ## Failures inside a computation -/

def ToolError.isInternal : ToolError → Bool
  | unencodable | unreadableLog _ => true
  | _ => false

def FailsInside {α : Type} (x : Except ToolError α) : Prop :=
  ∃ e : ToolError, x = .error e ∧ e.isInternal = true

section

variable {α β : Type}

@[simp] theorem not_failsInside_ok (a : α) : ¬ FailsInside (.ok a) := by
  rintro ⟨_, h, -⟩
  cases h

@[simp] theorem failsInside_error {e : ToolError} :
    FailsInside (.error e : Except ToolError α) ↔ e.isInternal = true := by
  constructor
  · rintro ⟨_, h, hinternal⟩
    cases h
    exact hinternal
  · exact fun h => ⟨e, rfl, h⟩

theorem failsInside_bind {x : Except ToolError α} {f : α → Except ToolError β} :
    FailsInside (x >>= f) ↔ FailsInside x ∨ ∃ a, x = .ok a ∧ FailsInside (f a) := by
  cases x with
  | error e =>
    have hbind : ((.error e : Except ToolError α) >>= f) = .error e := rfl
    simp [hbind]
  | ok a =>
    have hbind : ((.ok a : Except ToolError α) >>= f) = f a := rfl
    simp [hbind]

theorem failsInside_map {x : Except ToolError α} {f : α → β} :
    FailsInside (x.map f) ↔ FailsInside x := by
  cases x <;> simp [Except.map]

end

/-! ## The tools -/

def Text.HasSurrogate (t : Text) : Prop := ∃ c ∈ t, c.isSurrogate = true

theorem Text.isEncodable_eq_false {t : Text} : t.isEncodable = false ↔ t.HasSurrogate := by
  simp [isEncodable, HasSurrogate]

namespace Tool

theorem not_failsInside_documentId (tool : Tool) (arguments : Fields) :
    ¬ FailsInside (documentId tool arguments) := by
  unfold documentId
  split
  · split <;> simp [ToolError.isInternal]
  · simp [ToolError.isInternal]

theorem not_failsInside_text (tool : Tool) (arguments : Fields) :
    ¬ FailsInside (text tool arguments) := by
  unfold text
  split <;> simp [ToolError.isInternal]

theorem not_failsInside_optionalDocumentId (tool : Tool) (arguments : Fields) :
    ¬ FailsInside (optionalDocumentId tool arguments) := by
  unfold optionalDocumentId
  split <;> simp [ToolError.isInternal]

theorem not_failsInside_wantsNumbers (tool : Tool) (arguments : Fields) :
    ¬ FailsInside (wantsNumbers tool arguments) := by
  unfold wantsNumbers
  split <;> simp [ToolError.isInternal]

theorem exists_wantsNumbers_eq_ok (tool : Tool) {arguments : Fields} :
    (∃ encoded, wantsNumbers tool arguments = .ok encoded)
      ↔ Keyed.get? "encoded" arguments = none
        ∨ ∃ encoded, Keyed.get? "encoded" arguments = some (.bool encoded) := by
  unfold wantsNumbers
  rcases Keyed.get? "encoded" arguments with - | value
  · simp
  · cases value <;> simp

theorem failsInside_checkDocument {limits : Limits} {document : Text} :
    FailsInside (checkDocument limits document) ↔ document.HasSurrogate := by
  rw [← Text.isEncodable_eq_false]
  unfold checkDocument Limits.checkDocument
  cases document.isEncodable with
  | false => simp [ToolError.isInternal]
  | true =>
    by_cases hsize : limits.documentBytes < document.utf8Size
    · simp [hsize, ToolError.isInternal]
    · simp [hsize]

theorem failsInside_update {tool : Tool} {limits : Limits} {workspace : Workspace}
    {arguments : Fields} : FailsInside (update tool limits workspace arguments) ↔
      ∃ id text, Keyed.get? "doc_id" arguments = some (.str id) ∧ id ≠ []
        ∧ Keyed.get? "text" arguments = some (.str text) ∧ text.HasSurrogate := by
  -- of the steps of an update, only the measuring of the text fails inside
  unfold update
  simp only [failsInside_bind, not_failsInside_documentId, not_failsInside_text, false_or,
    failsInside_checkDocument, documentId_eq_ok, text_eq_ok]
  constructor
  · rintro ⟨id, ⟨hid, hne⟩, t, ht, hsurrogate | ⟨⟨⟩, -, hrest⟩⟩
    · exact ⟨id, t, hid, hne, ht, hsurrogate⟩
    · exact absurd hrest (not_failsInside_ok _)
  · rintro ⟨id, t, hid, hne, ht, hsurrogate⟩
    exact ⟨id, ⟨hid, hne⟩, t, ht, .inl hsurrogate⟩

theorem failsInside_semanticTokensResult {limits : Limits} {workspace : Workspace}
    {arguments : Fields} : FailsInside (semanticTokensResult limits workspace arguments) ↔
      ∃ text, Keyed.get? "text" arguments = some (.str text)
        ∧ (Keyed.get? "encoded" arguments = none
          ∨ ∃ encoded, Keyed.get? "encoded" arguments = some (.bool encoded))
        ∧ text.HasSurrogate := by
  unfold semanticTokensResult
  simp only [failsInside_bind, not_failsInside_wantsNumbers, not_failsInside_text, false_or,
    failsInside_checkDocument, text_eq_ok, ← exists_wantsNumbers_eq_ok .semanticTokens]
  constructor
  · rintro ⟨t, ht, encoded, hencoded, hsurrogate | ⟨⟨⟩, -, hrest⟩⟩
    · exact ⟨t, ht, ⟨encoded, hencoded⟩, hsurrogate⟩
    · exact absurd hrest (not_failsInside_ok _)
  · rintro ⟨t, ht, ⟨encoded, hencoded⟩, hsurrogate⟩
    exact ⟨t, ht, encoded, hencoded, .inl hsurrogate⟩

end Tool

namespace AuditLog

theorem recordsSince_eq_error {since : Text} {records : List Json} {cause : ReadError}
    (h : recordsSince since records = .error cause) :
    ∃ record ∈ records, record.obj? = none ∧ cause = .malformed record := by
  unfold recordsSince at h
  split at h
  · rename_i record hfind
    cases h
    have hnone := List.find?_some hfind
    exact ⟨record, List.mem_of_find?_eq_some hfind, Option.isNone_iff_eq_none.1 hnone, rfl⟩
  · cases h

theorem exists_recordsSince_eq_error {since : Text} {records : List Json} :
    (∃ cause, recordsSince since records = .error cause) ↔
      ∃ record ∈ records, record.obj? = none := by
  constructor
  · rintro ⟨cause, h⟩
    obtain ⟨record, hmem, hnone, -⟩ := recordsSince_eq_error h
    exact ⟨record, hmem, hnone⟩
  · rintro ⟨record, hmem, hnone⟩
    unfold recordsSince
    split
    · exact ⟨_, rfl⟩
    · rename_i hfind
      rw [List.find?_eq_none] at hfind
      exact absurd (Option.isNone_iff_eq_none.2 hnone) (hfind record hmem)

theorem read_eq_error {log : AuditLog} {since : Option Text} {limit : Int} {cause : ReadError}
    (h : log.read since limit = .error cause) : log.records = .error cause
      ∨ ∃ records, log.records = .ok records
        ∧ ∃ record ∈ records, record.obj? = none ∧ cause = .malformed record := by
  have hpos : 1 ≤ limit := by
    by_contra hlt
    rw [read, if_pos (by omega)] at h
    cases h
  cases hrecords : log.records with
  | error found =>
    rw [read_of_records_eq_error hrecords since hpos] at h
    cases h
    exact .inl rfl
  | ok records =>
    refine .inr ⟨records, rfl, ?_⟩
    cases since with
    | none =>
      rw [read_of_pos log hpos, hrecords] at h
      cases h
    | some time =>
      rw [read_since_of_pos log time hpos, hrecords] at h
      change (recordsSince time records).map (last limit.toNat) = .error cause at h
      cases hshown : recordsSince time records with
      | ok shown =>
        rw [hshown] at h
        cases h
      | error found =>
        rw [hshown] at h
        cases h
        exact recordsSince_eq_error hshown

end AuditLog

namespace Tool

theorem since_eq_some {arguments : Fields} {time : Text} :
    since arguments = some time ↔ Keyed.get? "since" arguments = some (.str time) := by
  unfold since
  rcases Keyed.get? "since" arguments with - | value
  · simp
  · cases value <;> simp [Json.str?]

theorem failsInside_auditLogResult {log : AuditLog} {arguments : Fields} :
    FailsInside (auditLogResult log arguments) ↔
      (∃ cause, log.records = .error cause)
      ∨ (∃ time, Keyed.get? "since" arguments = some (.str time))
        ∧ ∃ records, log.records = .ok records ∧ ∃ record ∈ records, record.obj? = none := by
  have hpos := (toNat_entryLimit arguments).1
  have hfails : FailsInside (auditLogResult log arguments)
      ↔ ∃ cause, log.read (since arguments) (entryLimit arguments) = .error cause := by
    unfold auditLogResult
    cases log.read (since arguments) (entryLimit arguments) <;> simp [ToolError.isInternal]
  simp only [hfails, ← since_eq_some]
  cases since arguments with
  | none =>
    rw [AuditLog.read_of_pos log hpos]
    cases log.records <;> simp [Except.map]
  | some time =>
    rw [AuditLog.read_since_of_pos log time hpos]
    cases log.records with
    | error cause => simp [bind, Except.bind, Except.map]
    | ok records =>
      have hother : (∃ record ∈ records, record.obj? = none)
          ↔ ∃ cause, AuditLog.recordsSince time records = .error cause :=
        AuditLog.exists_recordsSince_eq_error.symm
      simp only [Except.ok.injEq, exists_eq_left', hother]
      cases hshown : AuditLog.recordsSince time records <;>
        simp [hshown, bind, Except.bind, Except.map]

theorem failsInside_call {tool : Tool} {config : Config} {workspace : Workspace} {log : AuditLog}
    {arguments : Fields} : FailsInside (tool.call config workspace log arguments) ↔
      ((tool = .didOpen ∨ tool = .didChange)
        ∧ FailsInside (update tool config.limits workspace arguments))
      ∨ (tool = .semanticTokens
        ∧ FailsInside (semanticTokensResult config.limits workspace arguments))
      ∨ (tool = .auditLog ∧ FailsInside (auditLogResult log arguments)) := by
  cases tool with
  | status => simp [call]
  | tokenLegend => simp [call]
  | didOpen => simp [call]
  | didChange => simp [call]
  | semanticTokens => simp [call, failsInside_map]
  | auditLog => simp [call, failsInside_map]
  | symbols =>
    simp only [call, symbolsResult, failsInside_map, failsInside_bind,
      not_failsInside_documentId]
    simp [pure, Except.pure]
  | completions =>
    simp only [call, completionsResult, failsInside_map, failsInside_bind,
      not_failsInside_optionalDocumentId]
    simp [pure, Except.pure]

end Tool

/-! ## Requests -/

def Response.IsInternalError (response : Response) : Prop :=
  response.outcome.error?.map Prod.fst = some ("INTERNAL_ERROR" : Text)

namespace Server

theorem not_isInternalError_requestError (e : RequestError) (id : Text) :
    ¬ (e.response id).IsInternalError := by
  have hcode : e.code ≠ ("INTERNAL_ERROR" : Text) := by cases e <;> decide
  exact fun h => hcode (Option.some.inj h)

theorem isInternalError_toolError {e : ToolError} {id : Text} :
    (e.response id).IsInternalError ↔ e.isInternal = true := by
  have hinvalid : ("INVALID_PARAMS" : Text) ≠ ("INTERNAL_ERROR" : Text) := by decide
  have hunknown : ("UNKNOWN_TOOL" : Text) ≠ ("INTERNAL_ERROR" : Text) := by decide
  have hblocked : ("POLICY_BLOCKED" : Text) ≠ ("INTERNAL_ERROR" : Text) := by decide
  cases e <;> simp [Response.IsInternalError, ToolError.response, ToolError.isInternal,
    Response.failure, Response.blocked, Outcome.error?, hinvalid, hunknown, hblocked]

theorem isInternalError_callTool {s : Server} {id name : Text} {arguments : Fields} :
    (s.callTool id name arguments).1.IsInternalError
      ↔ FailsInside (s.dispatch name arguments) := by
  cases hdispatch : s.dispatch name arguments with
  | error e =>
    rw [callTool_of_error hdispatch, failsInside_error]
    exact isInternalError_toolError
  | ok answer =>
    rw [callTool_of_ok hdispatch]
    simp only [not_failsInside_ok, iff_false]
    rw [limitResponse_eq]
    split
    · rintro ⟨⟩
    · exact isInternalError_toolError (e := .refused .responseTooLarge).not.2 (by decide)

theorem not_isInternalError_of_not_dispatched {s : Server} {r : Incoming}
    (h : r.dispatched? = none) : ¬ (s.receive r).1.IsInternalError := by
  cases hpayload : r.payload? with
  | none =>
    obtain ⟨e, name, arguments, heq⟩ := receive_of_no_payload (s := s) hpayload
    rw [heq]
    exact not_isInternalError_requestError e _
  | some payload =>
    rw [Incoming.dispatched?, hpayload, Option.bind_some] at h
    rw [receive_of_payload hpayload]
    rcases s.handle_cases payload with ⟨_, _, hcall, -⟩ | ⟨-, -, e, heq⟩ | ⟨-, -, e, heq⟩
    · rw [h] at hcall
      cases hcall
    · rw [heq]
      exact not_isInternalError_requestError e _
    · rw [heq]
      exact not_isInternalError_requestError e _

/-- **A request ends in an internal error when the tool that it calls fails inside.** -/
theorem isInternalError_receive {s : Server} {r : Incoming} :
    (s.receive r).1.IsInternalError ↔ ∃ (tool : Tool) (arguments : Fields),
      r.Calls tool.name arguments
        ∧ FailsInside (tool.call s.config s.workspace s.log arguments) := by
  cases hcall : r.dispatched? with
  | none =>
    refine iff_of_false (not_isInternalError_of_not_dispatched hcall) ?_
    rintro ⟨_, _, hcalls, -⟩
    rw [Incoming.Calls, hcall] at hcalls
    cases hcalls
  | some call =>
    obtain ⟨name, arguments⟩ := call
    obtain ⟨id, s', hconfig, hworkspace, hlog, hreceive⟩ := receive_of_dispatched (s := s) hcall
    rw [hreceive, isInternalError_callTool, ← hconfig, ← hworkspace, ← hlog]
    constructor
    · intro hfails
      unfold dispatch at hfails
      split at hfails
      · rename_i tool hfind
        cases Tool.registry_find.1 hfind
        exact ⟨tool, arguments, hcall, hfails⟩
      · cases failsInside_error.1 hfails
    · rintro ⟨tool, given, hcalls, hfails⟩
      rw [Incoming.Calls, hcall, Option.some.injEq, Prod.mk.injEq] at hcalls
      obtain ⟨rfl, rfl⟩ := hcalls
      rwa [dispatch_of_name]

end Server

/-! ## The log of a run -/

namespace AuditLog

/-- A file has a line that is JSON and no object. -/
def HoldsOther (file : Text) : Prop :=
  ∃ line ∈ file.lines, ∃ value, Json.read? line.strip = some value ∧ value.obj? = none

theorem exists_record_iff_holdsOther {file : Text} :
    (∃ record ∈ recordsOf file, record.obj? = none) ↔ HoldsOther file := by
  have hempty : Json.read? [] = none := by decide
  unfold recordsOf HoldsOther
  simp only [List.mem_filterMap]
  constructor
  · rintro ⟨record, ⟨line, hline, hread⟩, hrecord⟩
    split at hread
    · cases hread
    · exact ⟨line, hline, record, hread, hrecord⟩
  · rintro ⟨line, hline, value, hread, hvalue⟩
    refine ⟨value, ⟨line, hline, ?_⟩, hvalue⟩
    split
    · rename_i hblank
      rw [List.isEmpty_iff.1 hblank, hempty] at hread
      cases hread
    · exact hread

end AuditLog

namespace Server

theorem other_record_iff {file : Text} {events : List AuditEvent} {record : Json} :
    record ∈ AuditLog.recordsOf file ++ events.map (fun e => e.toJson.joined) ∧ record.obj? = none
      ↔ record ∈ AuditLog.recordsOf file ∧ record.obj? = none := by
  have hwritten : ∀ e : AuditEvent, e.toJson.joined.obj? ≠ none := by
    rintro e ⟨⟩
  rw [List.mem_append, List.mem_map]
  constructor
  · rintro ⟨hrecord | ⟨e, -, rfl⟩, hother⟩
    · exact ⟨hrecord, hother⟩
    · exact absurd hother (hwritten e)
  · rintro ⟨hrecord, hother⟩
    exact ⟨.inl hrecord, hother⟩

section

variable {config : Config} {found : Option (List UInt8)} {clock : Clock}

/-- **When a run's log cannot be shown**: its file is not UTF-8, or a time is given and the file had a
line that is no object. -/
theorem failsInside_auditLogResult_after (hfound : Utf8.EndsLine (found.getD []))
    (requests : List Incoming) (arguments : Fields) :
    FailsInside (Tool.auditLogResult ((start config found clock).after requests).log arguments) ↔
      Utf8.decode? (found.getD []) = none
      ∨ (∃ time, Keyed.get? "since" arguments = some (.str time))
        ∧ ∃ file, Utf8.decode? (found.getD []) = some file ∧ AuditLog.HoldsOther file := by
  rw [Tool.failsInside_auditLogResult]
  cases hfile : Utf8.decode? (found.getD []) with
  | none =>
    rw [undecodable_run hfile requests]
    simp
  | some file =>
    rw [records_of_run hfound hfile requests]
    simp only [reduceCtorEq, exists_false, false_or, Except.ok.injEq, exists_eq_left',
      other_record_iff, AuditLog.exists_record_iff_holdsOther, Option.some.injEq]

end

end Server

/-- A request that ends in an internal error, on a server that found these octets in its log file: a
text is to be measured that has a surrogate in it, the log is asked for from a time on when the file has
a line that is JSON and no object, or the log is asked for at all when the file is not UTF-8. -/
inductive Incoming.Breaks (found : List UInt8) (r : Incoming) : Prop
  | event {name document text : Text} {arguments : Fields}
      (hname : name = ("document.did_open" : Text) ∨ name = ("document.did_change" : Text))
      (hcall : r.Calls name arguments)
      (hdocument : Keyed.get? "doc_id" arguments = some (.str document)) (hne : document ≠ [])
      (htext : Keyed.get? "text" arguments = some (.str text)) (hsurrogate : text.HasSurrogate)
  | tokens {text : Text} {arguments : Fields} (hcall : r.Calls "document.semantic_tokens" arguments)
      (htext : Keyed.get? "text" arguments = some (.str text))
      (hencoded : Keyed.get? "encoded" arguments = none
        ∨ ∃ encoded, Keyed.get? "encoded" arguments = some (.bool encoded))
      (hsurrogate : text.HasSurrogate)
  | log {time file : Text} {arguments : Fields} (hcall : r.Calls "server.audit_log" arguments)
      (hsince : Keyed.get? "since" arguments = some (.str time))
      (hfile : Utf8.decode? found = some file) (hother : AuditLog.HoldsOther file)
  | undecodable {arguments : Fields} (hcall : r.Calls "server.audit_log" arguments)
      (hfile : Utf8.decode? found = none)

namespace Server

theorem isInternalError_receive_after {config : Config} {found : Option (List UInt8)} {clock : Clock}
    (hfound : Utf8.EndsLine (found.getD [])) (requests : List Incoming) (r : Incoming) :
    (((start config found clock).after requests).receive r).1.IsInternalError
      ↔ r.Breaks (found.getD []) := by
  rw [isInternalError_receive]
  simp only [Tool.failsInside_call, Tool.failsInside_update, Tool.failsInside_semanticTokensResult,
    failsInside_auditLogResult_after hfound]
  constructor
  · rintro ⟨tool, arguments, hcall, ⟨htool, _, _, hdocument, hne, htext, hsurrogate⟩
      | ⟨rfl, _, htext, hencoded, hsurrogate⟩ | ⟨rfl, hfile | ⟨⟨_, hsince⟩, _, hfile, hholds⟩⟩⟩
    · refine .event ?_ hcall hdocument hne htext hsurrogate
      rcases htool with rfl | rfl
      · exact .inl rfl
      · exact .inr rfl
    · exact .tokens hcall htext hencoded hsurrogate
    · exact .undecodable hcall hfile
    · exact .log hcall hsince hfile hholds
  · rintro (⟨rfl | rfl, hcall, hdocument, hne, htext, hsurrogate⟩
      | ⟨hcall, htext, hencoded, hsurrogate⟩ | ⟨hcall, hsince, hfile, hholds⟩ | ⟨hcall, hfile⟩)
    · exact ⟨.didOpen, _, hcall, .inl ⟨.inl rfl, _, _, hdocument, hne, htext, hsurrogate⟩⟩
    · exact ⟨.didChange, _, hcall, .inl ⟨.inr rfl, _, _, hdocument, hne, htext, hsurrogate⟩⟩
    · exact ⟨.semanticTokens, _, hcall, .inr (.inl ⟨rfl, _, htext, hencoded, hsurrogate⟩)⟩
    · exact ⟨.auditLog, _, hcall, .inr (.inr ⟨rfl, .inr ⟨⟨_, hsince⟩, _, hfile, hholds⟩⟩)⟩
    · exact ⟨.auditLog, _, hcall, .inr (.inr ⟨rfl, .inl hfile⟩)⟩

/-! ## Serving -/

/-- The requests among lines of input: the lines that are not blank, without the blanks around. -/
def requestsIn (lines : List Text) : List Incoming :=
  (lines.filter (fun line => line.strip ≠ [])).map (fun line => .line line.strip)

def answers (s : Server) : List Incoming → List Response
  | [] => []
  | r :: rest => (s.receive r).1 :: (s.receive r).2.answers rest

theorem length_answers : ∀ (s : Server) (requests : List Incoming),
    (s.answers requests).length = requests.length
  | _, [] => rfl
  | s, r :: rest => by rw [answers, List.length_cons, length_answers, List.length_cons]

/-- A line is answered, unless it is blank.  The last response stands first. -/
def answerLine (progress : List Response × Server) (line : Text) : List Response × Server :=
  if line.strip.isEmpty then progress
  else
    ((progress.2.handleLine line.strip).1 :: progress.1, (progress.2.handleLine line.strip).2)

theorem foldl_answerLine : ∀ (lines : List Text) (done : List Response) (s : Server),
    lines.foldl answerLine (done, s)
      = ((s.answers (requestsIn lines)).reverse ++ done, s.after (requestsIn lines))
  | [], _, _ => rfl
  | line :: rest, done, s => by
    rw [List.foldl_cons, answerLine]
    by_cases hblank : line.strip = []
    · have hrequests : requestsIn (line :: rest) = requestsIn rest := by
        simp [requestsIn, hblank]
      rw [hblank, List.isEmpty_nil, if_pos rfl, foldl_answerLine rest, hrequests]
    · have hrequests : requestsIn (line :: rest) = .line line.strip :: requestsIn rest := by
        simp [requestsIn, hblank]
      have hisEmpty : line.strip.isEmpty = false := by simpa using hblank
      rw [hisEmpty, if_neg Bool.false_ne_true, foldl_answerLine rest, hrequests, answers,
        List.reverse_cons, List.append_assoc]
      rfl

/-- **To serve lines is to receive the requests among them.** -/
theorem serve_eq (s : Server) (lines : List Text) :
    s.serve lines = (s.answers (requestsIn lines), s.after (requestsIn lines)) := by
  have hserve : s.serve lines
      = ((lines.foldl answerLine ([], s)).1.reverse, (lines.foldl answerLine ([], s)).2) := rfl
  rw [hserve, foldl_answerLine, List.append_nil, List.reverse_reverse]

end Server

/-! ## Robustness -/

def symbolCodes : List (Text × Nat) := [("function", 12), ("variable", 13), ("constant", 14)]

def completionCodes : List (Text × Nat) := [("function", 3)]

/-- A value is sent with its kind and with the code that a table has for the kind. -/
def Json.CodedBy (table : List (Text × Nat)) (value : Json) : Prop :=
  ∃ kind code, (kind, code) ∈ table ∧ value.get? "kind" = some (.str kind)
    ∧ value.get? "kind_code" = some (.nat code)

theorem Symbol.codedBy_toJson (x : Symbol) : x.toJson.CodedBy symbolCodes := by
  obtain ⟨name, detail, kind, range, selection, children⟩ := x
  have hmem : (kind.name, kind.code) ∈ symbolCodes := by cases kind <;> decide
  refine ⟨kind.name, kind.code, hmem, ?_, ?_⟩
  · rw [toJson]
    rfl
  · rw [toJson]
    rfl

theorem Completion.codedBy_toJson (c : Completion) : c.toJson.CodedBy completionCodes := by
  obtain ⟨name, kind⟩ := c
  have hmem : (kind.name, kind.code) ∈ completionCodes := by cases kind; decide
  exact ⟨kind.name, kind.code, hmem, rfl, rfl⟩

theorem Results.setCompletions_put (r : Results) (document : Text) (outline : Outline) :
    (r.put document outline.symbols).setCompletions outline.completions (some document)
      = .ok (r.record document outline) := by
  have hscope : (r.put document outline.symbols).scope = r.scope := rfl
  unfold setCompletions record putCompletions
  rw [hscope]
  cases r.scope <;> rfl

/-- What keeps a log from being read comes from the octets that were found in its file. -/
inductive AuditLog.ReadError.ComesFrom (found : List UInt8) : ReadError → Prop
  | undecodable (hfile : Utf8.decode? found = none) : ComesFrom found .undecodable
  | malformed {file : Text} {record : Json} (hfile : Utf8.decode? found = some file)
      (hrecord : record ∈ recordsOf file) (hother : record.obj? = none) :
      ComesFrom found (.malformed record)

/-- What cannot go wrong on a server that found these octets in its log file. -/
structure Server.Robust (s : Server) (found : List UInt8) : Prop where
  internal : ∀ r, (s.receive r).1.IsInternalError ↔ r.Breaks found
  answered : ∀ lines, (s.serve lines).1.length
    = (lines.filter (fun line => line.strip ≠ [])).length
  symbols : ∀ document, ∀ x : Symbol, x.OccursIn (s.workspace.symbols document) →
    x.toJson.CodedBy symbolCodes
  completions : ∀ document, ∀ c ∈ s.workspace.completions document,
    c.toJson.CodedBy completionCodes
  /-- The store never lacks the document of a scan. -/
  stored : ∀ document text,
    (s.workspace.results.put document (Outline.scan text).symbols).setCompletions
        (Outline.scan text).completions (some document)
      = .ok (s.workspace.update document text).2.results
  /-- No record of the server's own keeps the log from being read. -/
  readable : ∀ since limit cause, s.log.read since limit = .error cause → cause.ComesFrom found

namespace Server

theorem comesFrom_of_read_error {config : Config} {found : Option (List UInt8)} {clock : Clock}
    (hfound : Utf8.EndsLine (found.getD [])) {requests : List Incoming} {since : Option Text}
    {limit : Int} {cause : AuditLog.ReadError}
    (h : ((start config found clock).after requests).log.read since limit = .error cause) :
    cause.ComesFrom (found.getD []) := by
  rcases AuditLog.read_eq_error h with hrecords | ⟨records, hrecords, record, hrecord, hother, rfl⟩
  · cases hfile : Utf8.decode? (found.getD []) with
    | none =>
      rw [undecodable_run hfile requests] at hrecords
      cases hrecords
      exact .undecodable hfile
    | some file =>
      rw [records_of_run hfound hfile requests] at hrecords
      cases hrecords
  · cases hfile : Utf8.decode? (found.getD []) with
    | none =>
      rw [undecodable_run hfile requests] at hrecords
      cases hrecords
    | some file =>
      rw [records_of_run hfound hfile requests] at hrecords
      cases hrecords
      obtain ⟨hrecord, hother⟩ := other_record_iff.1 ⟨hrecord, hother⟩
      exact .malformed hfile hrecord hother

/-- **Nothing else goes wrong.**  Start a server on a file that is empty or ends with a line feed, and
let it answer any requests.  A request ends in an internal error exactly when it brings a surrogate to
a tool that measures texts, or asks for the log from a time on when the file that was found has a line
that is JSON and no object, or asks for the log when the file is not UTF-8.  Every line has its
response, every kind its code and every scan its place in the store, and the log is never kept from
being read by what the server wrote itself. -/
theorem robust_after (config : Config) (found : Option (List UInt8)) (clock : Clock)
    (hfound : Utf8.EndsLine (found.getD [])) (requests : List Incoming) :
    ((start config found clock).after requests).Robust (found.getD []) where
  internal r := isInternalError_receive_after hfound requests r
  answered lines := by
    rw [serve_eq, length_answers, requestsIn, List.length_map]
  symbols _ x _ := x.codedBy_toJson
  completions _ c _ := c.codedBy_toJson
  stored document text := Results.setCompletions_put _ document (Outline.scan text)
  readable _ _ _ h := comesFrom_of_read_error hfound h

def allRecords : Json :=
  .obj [("method", .str "server.audit_log"), ("params", .obj [("since", .str "")])]

/-- On a file with a number for a record, that question ends in an internal error, and so does a
document with a surrogate in it; the question for the last record does not. -/
theorem robust_after_foreign_record :
    let s := start (.ofRoot { segments := ["work"] }) (some [0x31, 0x37, 0x0A]) ⟨0, 0⟩
    let unpaired : Json := .obj [("method", .str "document.did_open"),
      ("params", .obj [("doc_id", .str "d"), ("text", .str [⟨0xD800, by decide⟩])])]
    let reached := s.after [.value unknownCall, .value unpaired]
    (reached.receive (.value allRecords)).1.IsInternalError
    ∧ (reached.receive (.value unpaired)).1.IsInternalError
    ∧ ¬ (reached.receive (.value lastRecord)).1.IsInternalError := by
  intro s unpaired reached
  have hfile : Utf8.decode? [0x31, 0x37, 0x0A] = some "17\n" := rfl
  have hrobust := robust_after (.ofRoot { segments := ["work"] }) (some [0x31, 0x37, 0x0A]) ⟨0, 0⟩
    (.inr ⟨[0x31, 0x37], rfl⟩) [.value unknownCall, .value unpaired]
  refine ⟨?_, ?_, ?_⟩
  · exact (hrobust.internal _).2 (.log rfl rfl hfile ⟨"17", by decide, .int 17, rfl, rfl⟩)
  · exact (hrobust.internal _).2 (.event (.inl rfl) rfl rfl (by decide) rfl ⟨_, .head _, by decide⟩)
  · have hcalled : ∀ {name arguments}, (Incoming.value lastRecord).Calls name arguments →
        ("server.audit_log" : Text) = name := by
      rintro _ _ ⟨⟩
      rfl
    intro h
    cases (hrobust.internal _).1 h with
    | event hname hcall =>
      rcases hname with rfl | rfl <;> exact absurd (hcalled hcall) (by decide)
    | tokens hcall => exact absurd (hcalled hcall) (by decide)
    | log hcall hsince =>
      cases hcall
      cases hsince
    | undecodable _ hundecodable =>
      rw [Option.getD_some, hfile] at hundecodable
      cases hundecodable

end Server

/-- A text has a surrogate that is no half of a pair. -/
def Text.HasLoneSurrogate (t : Text) : Prop := t.joined.HasSurrogate

/-- The causes of an internal error that come to mind: a text with a lone surrogate, and a time to
compare with a record that is no object. -/
inductive Incoming.HasUsualCause (found : List UInt8) (r : Incoming) : Prop
  | text {tool : Tool} {text : Text} {arguments : Fields}
      (htool : tool = .didOpen ∨ tool = .didChange ∨ tool = .semanticTokens)
      (hcall : r.Calls tool.name arguments)
      (htext : Keyed.get? "text" arguments = some (.str text)) (hlone : text.HasLoneSurrogate)
  | time {time file : Text} {arguments : Fields} (hcall : r.Calls "server.audit_log" arguments)
      (hsince : Keyed.get? "since" arguments = some (.str time))
      (hfile : Utf8.decode? found = some file) (hother : AuditLog.HoldsOther file)

namespace Server

/-- A document is opened whose text is a surrogate pair in two halves. -/
def pairedText : Json :=
  .obj [("id", .str "a"), ("method", .str "document.did_open"),
    ("params", .obj [("doc_id", .str "d"), ("text", .str [.ofNat 0xD83D, .ofNat 0xDE00])])]

/-- There are other causes: a file that is not UTF-8 when no time is given, and a pair of surrogates,
which is not one character where a text is measured. -/
theorem internal_error_without_usual_cause :
    let found : List UInt8 := [0xFF, 0x0A]
    let unreadable := start (.ofRoot { segments := ["work"] }) (some found) ⟨0, 0⟩
    let fresh := start (.ofRoot { segments := ["work"] }) none ⟨0, 0⟩
    ((unreadable.receive (.value lastRecord)).1.IsInternalError
      ∧ ¬ (Incoming.value lastRecord).HasUsualCause found)
    ∧ (fresh.receive (.value pairedText)).1.IsInternalError
      ∧ ¬ (Incoming.value pairedText).HasUsualCause [] := by
  intro found unreadable fresh
  refine ⟨⟨?_, ?_⟩, ?_, ?_⟩
  · have hcall : (Incoming.value lastRecord).Calls "server.audit_log" [("limit", .int 1)] := rfl
    exact (isInternalError_receive_after (.inr ⟨[0xFF], rfl⟩) [] _).2 (.undecodable hcall rfl)
  · rintro (⟨htool, hcall, -, -⟩ | ⟨hcall, hsince, -, -⟩)
    · have hname := (Prod.mk.inj (Option.some.inj hcall)).1
      rcases htool with rfl | rfl | rfl <;> exact absurd hname (by decide)
    · cases hcall
      cases hsince
  · exact (isInternalError_receive_after (.inl rfl) [] _).2
      (.event (.inl rfl) rfl rfl (by decide) rfl ⟨_, .head _, by decide⟩)
  · rintro (⟨-, hcall, htext, hlone⟩ | ⟨hcall, -, -, -⟩)
    · obtain ⟨-, rfl⟩ := Prod.mk.inj (Option.some.inj hcall)
      cases htext
      exact absurd (Text.isEncodable_eq_false.2 hlone) (by decide)
    · exact absurd (Prod.mk.inj (Option.some.inj hcall)).1 (by decide)

end Server

end OutlineServer
