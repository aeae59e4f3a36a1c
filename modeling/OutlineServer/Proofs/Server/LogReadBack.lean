import OutlineServer.Proofs.Audit.Records
import OutlineServer.Proofs.Json.Joined
import OutlineServer.Proofs.Server.Events
import OutlineServer.Proofs.Server.History

/-!
# The log reads back what was written

The file of a log only grows, by one line for each event, and reading the file gives the events of the
run after the records that were found in it, provided that what was found is UTF-8.  What comes back
of an event is the event itself, for requests in Unicode text (`Incoming.InUnicode`): a line of
characters always is, and so is a value unless it holds a high surrogate directly before a low one,
which no line of characters can bring about.

An event is made of texts that the request brought and of texts of the server's own, which are plain;
so it is enough to follow the texts of a request into the event (`joined_of_eventOf?`).
-/
namespace OutlineServer

/-! ## The texts of a request -/

/-- A request in Unicode text: a line is one of characters, and in a value no high surrogate stands
directly before a low one. -/
def Incoming.InUnicode : Incoming → Prop
  | line text => text.isEncodable = true
  | value payload => payload.IsJoined

theorem Incoming.InUnicode.payload {r : Incoming} (h : r.InUnicode) {payload : Json}
    (hpayload : r.payload? = some payload) : payload.IsJoined := by
  cases r with
  | line text => exact Json.isJoined_read? h hpayload
  | value given =>
    cases hpayload
    exact h

namespace Json

theorem IsJoined.field {fields : Fields} (h : IsJoined (.obj fields)) {key : Text} {value : Json}
    (hget : Keyed.get? key fields = some value) : value.IsJoined := by
  cases h with
  | obj _ hvalues => exact hvalues _ (Keyed.mem_of_get? hget)

theorem IsJoined.fields {fields : Fields} (h : IsJoined (.obj fields)) : FieldsJoined fields := by
  cases h with
  | obj hkeys hvalues => exact fun field hfield => ⟨hkeys field hfield, hvalues field hfield⟩

theorem IsJoined.text {t : Text} (h : IsJoined (.str t)) : t.IsJoined := by
  cases h with
  | str ht => exact ht

end Json

open Json (FieldsJoined)

theorem isJoined_name? {fields : Fields} (h : Json.IsJoined (.obj fields)) {key name : Text}
    (hname : Request.name? (Keyed.get? key fields) = some name) : name.IsJoined :=
  (h.field (Request.name?_eq_some.1 hname).1).text

theorem isJoined_object? {fields : Fields} (h : Json.IsJoined (.obj fields)) {key : Text}
    {params : Fields} (hparams : Request.object? (Keyed.get? key fields) = some params) :
    Json.IsJoined (.obj params) := by
  unfold Request.object? at hparams
  split at hparams
  · cases hparams
    exact .obj (by simp) (by simp)
  · rename_i given hget
    cases hparams
    exact h.field hget
  · cases hparams

theorem isJoined_dispatched? {payload : Json} (h : payload.IsJoined) {name : Text}
    {arguments : Fields} (hcall : dispatched? payload = some (name, arguments)) :
    name.IsJoined ∧ FieldsJoined arguments := by
  cases payload with
  | obj fields =>
    obtain ⟨method, hmethod, hcall⟩ := Option.bind_eq_some_iff.1 hcall
    obtain ⟨params, hparams, hcall⟩ := Option.bind_eq_some_iff.1 hcall
    have hparams' := isJoined_object? h hparams
    split at hcall
    · obtain ⟨name, hname, hcall⟩ := Option.bind_eq_some_iff.1 hcall
      obtain ⟨arguments, harguments, hcall⟩ := Option.bind_eq_some_iff.1 hcall
      cases hcall
      exact ⟨isJoined_name? hparams' hname, (isJoined_object? hparams' harguments).fields⟩
    · cases hcall
      exact ⟨isJoined_name? h hmethod, hparams'.fields⟩
  | _ => cases hcall

theorem isJoined_recordedAs? {r : Incoming} (h : r.InUnicode) {tool : Text} {arguments : Fields}
    (hrecorded : r.recordedAs? = some (tool, arguments)) :
    tool.IsJoined ∧ FieldsJoined arguments := by
  cases hpayload : r.payload? with
  | some payload =>
    rw [Incoming.recordedAs?_of_payload hpayload] at hrecorded
    unfold recordedAs? at hrecorded
    split at hrecorded
    · rename_i call hcall
      cases hrecorded
      exact isJoined_dispatched? (h.payload hpayload) hcall
    · split at hrecorded
      · cases hrecorded
      · cases hrecorded
        exact ⟨Text.isJoined_of_isPlain (by decide), by simp [FieldsJoined]⟩
  | none =>
    cases r with
    | value payload => cases hpayload
    | line text =>
      have hread : Json.read? text = none := hpayload
      simp only [Incoming.recordedAs?, hread] at hrecorded
      cases hrecorded
      refine ⟨Text.isJoined_of_isPlain (by decide), ?_⟩
      simp only [FieldsJoined, List.mem_singleton, forall_eq]
      exact ⟨Text.isJoined_of_isPlain (by decide), .int _⟩

theorem isJoined_givenId? {r : Incoming} (h : r.InUnicode) {id : Text}
    (hid : r.givenId? = some id) : id.IsJoined := by
  obtain ⟨payload, hpayload, hid⟩ := Option.bind_eq_some_iff.1 hid
  unfold Server.givenId? at hid
  split at hid
  · rename_i given hget
    split at hid
    · cases hid
    · cases hid
      cases payload with
      | obj fields => exact ((h.payload hpayload).field hget).text
      | _ => cases hget
  · cases hid
    exact Text.isJoined_of_isPlain (Text.isPlain_ofInt _)
  · cases hid

/-! ## The texts of an event -/

theorem isPlain_madeUpId (n : Nat) : (Server.madeUpId n).isPlain = true := by
  unfold Server.madeUpId
  rw [Text.isPlain_append, Text.isPlain_padded]
  decide

theorem joined_describe {key : Text} {value : Json} (hkey : key.IsJoined) (hvalue : value.IsJoined) :
    ∀ entry ∈ (Argument.json value).describe key,
      entry.1.IsJoined ∧ entry.2.joined = entry.2 := by
  have hname : ∀ {suffix : Text}, suffix.isPlain = true → (key ++ suffix).IsJoined := fun h =>
    Text.isJoined_append hkey (Text.not_low_of_isPlain h)
  cases value with
  | null => simp [Argument.describe, Json.joined, hkey]
  | bool value => simp [Argument.describe, Json.joined, hkey]
  | int value => simp [Argument.describe, Json.joined, hkey]
  | float value => simp [Argument.describe, Json.joined, hkey]
  | str t =>
    have ht := Text.joined_of_isJoined hvalue.text
    have hpresent : (Argument.presentName key).IsJoined := hname (by decide)
    have hlength : (Argument.lengthName key).IsJoined := hname (by decide)
    have hcount : (Argument.lineCountName key).IsJoined := hname (by decide)
    simp only [Argument.describe, Argument.describeText]
    split
    · simp [Json.joined, hkey, ht]
    · split <;> simp [Json.joined, Json.nat, hpresent, hlength, hcount]
  | arr items =>
    have htype : (Argument.typeName key).IsJoined := hname (by decide)
    have hlength : (Argument.lengthName key).IsJoined := hname (by decide)
    have hlist : Text.joined "list" = ("list" : Text) := by decide
    simp [Argument.describe, Json.joined, Json.nat, htype, hlength, hlist]
  | obj fields =>
    have htype : (Argument.typeName key).IsJoined := hname (by decide)
    have hkeys : (Argument.keysName key).IsJoined := hname (by decide)
    have hdict : Text.joined "dict" = ("dict" : Text) := by decide
    have hstrings : (Json.strings (Keyed.keys fields)).joined = .strings (Keyed.keys fields) := by
      refine Json.joined_strings (fun t ht => ?_)
      obtain ⟨field, hfield, rfl⟩ := List.mem_map.1 ht
      exact (hvalue.fields field hfield).1
    simp [Argument.describe, Json.joined, htype, hkeys, hdict, hstrings]

theorem joined_summary {arguments : Fields} (h : FieldsJoined arguments) :
    (Json.obj (Fields.summary arguments)).joined = .obj (Fields.summary arguments) := by
  have hentries : ∀ entry ∈ (arguments.map (fun field => (field.1, Argument.json field.2))).flatMap
      (fun argument => argument.2.describe argument.1),
      entry.1.IsJoined ∧ entry.2.joined = entry.2 := by
    intro entry hentry
    obtain ⟨_, hargument, hentry⟩ := List.mem_flatMap.1 hentry
    obtain ⟨field, hfield, rfl⟩ := List.mem_map.1 hargument
    exact joined_describe (h field hfield).1 (h field hfield).2 entry hentry
  exact Json.joined_object (fun entry hentry => (hentries entry hentry).1)
    (fun entry hentry => (hentries entry hentry).2)

theorem joined_toJson {e : AuditEvent} (htimestamp : e.timestamp.IsJoined)
    (hid : e.requestId.IsJoined) (htool : e.tool.IsJoined)
    (hcode : ∀ code ∈ e.errorCode, code.IsJoined)
    (hmetadata : (Json.obj e.metadata).joined = .obj e.metadata) : e.toJson.joined = e.toJson := by
  have hstr : ∀ {t : Text}, t.IsJoined → (Json.str t).joined = .str t := by
    intro t ht
    rw [Json.joined, Text.joined_of_isJoined ht]
  have herror : ((e.errorCode.map Json.str).getD .null).joined
      = (e.errorCode.map Json.str).getD .null := by
    cases hcase : e.errorCode with
    | none => rfl
    | some code => exact hstr (hcode code hcase)
  unfold AuditEvent.toJson
  refine Json.joined_object ?_ ?_
  · intro field hfield
    have hplain : ∀ key ∈ (["timestamp", "request_id", "tool", "ok", "blocked", "error_code",
        "metadata"] : List Text), key.isPlain = true := by decide
    exact Text.isJoined_of_isPlain (hplain field.1 (List.mem_map_of_mem hfield))
  · simp only [List.forall_mem_cons, List.not_mem_nil, false_imp_iff, implies_true, and_true]
    exact ⟨hstr htimestamp, hstr hid, hstr htool, rfl, rfl, herror, hmetadata⟩

namespace Server

theorem isPlain_code_of_requestError (e : RequestError) (id : Text) :
    ∀ code ∈ (e.response id).outcome.error?.map Prod.fst, code.isPlain = true := by
  cases e <;> (rintro _ ⟨⟩; decide)

theorem isPlain_code_of_toolError (e : ToolError) (id : Text) :
    ∀ code ∈ (e.response id).outcome.error?.map Prod.fst, code.isPlain = true := by
  cases e <;> (rintro _ ⟨⟩; dsimp only; decide)

theorem isPlain_code_of_callTool (s : Server) (id name : Text) (arguments : Fields) :
    ∀ code ∈ (s.callTool id name arguments).1.outcome.error?.map Prod.fst,
      code.isPlain = true := by
  cases hdispatch : s.dispatch name arguments with
  | ok answer =>
    rw [callTool_of_ok hdispatch]
    rw [limitResponse_eq]
    split
    · rintro _ ⟨⟩
    · rintro _ ⟨⟩
      decide
  | error e =>
    rw [callTool_of_error hdispatch]
    exact isPlain_code_of_toolError e id

theorem isPlain_code (s : Server) (r : Incoming) :
    ∀ code ∈ (s.receive r).1.outcome.error?.map Prod.fst, code.isPlain = true := by
  cases hpayload : r.payload? with
  | none =>
    obtain ⟨e, name, arguments, heq⟩ := receive_of_no_payload (s := s) hpayload
    rw [heq]
    exact isPlain_code_of_requestError e _
  | some payload =>
    rw [receive_of_payload hpayload]
    rcases s.handle_cases payload with ⟨_, _, -, -, heq⟩ | ⟨-, -, e, heq⟩ | ⟨-, -, e, heq⟩
    · rw [heq]
      exact isPlain_code_of_callTool _ _ _ _
    · rw [heq]
      exact isPlain_code_of_requestError e _
    · rw [heq]
      exact isPlain_code_of_requestError e _

theorem isJoined_idOf (s : Server) {r : Incoming} (h : r.InUnicode) : (s.idOf r).IsJoined := by
  rw [idOf]
  cases hgiven : r.givenId? with
  | none => exact Text.isJoined_of_isPlain (isPlain_madeUpId _)
  | some id => exact isJoined_givenId? h hgiven

/-- **The event of a request in Unicode text is read back as it is.** -/
theorem joined_of_eventOf? {s : Server} {r : Incoming} (h : r.InUnicode) {e : AuditEvent}
    (hevent : s.eventOf? r = some e) : e.toJson.joined = e.toJson := by
  obtain ⟨⟨tool, arguments⟩, hrecorded, rfl⟩ := Option.map_eq_some_iff.1 hevent
  obtain ⟨htool, harguments⟩ := isJoined_recordedAs? h hrecorded
  obtain ⟨hanswered, -⟩ := s.receive_eq r
  refine joined_toJson (Text.isJoined_of_isPlain (isPlain_timestamp _)) ?_ htool
    (fun code hcode => Text.isJoined_of_isPlain (s.isPlain_code r code hcode))
    (joined_summary harguments)
  show (s.receive r).1.requestId.IsJoined
  rw [hanswered]
  exact s.isJoined_idOf h

theorem mem_events {e : AuditEvent} : ∀ {s : Server} {requests : List Incoming},
    e ∈ s.events requests → ∃ (reached : Server), ∃ r ∈ requests, reached.eventOf? r = some e
  | _, [], h => by cases h
  | s, r :: rest, h => by
    rcases List.mem_append.1 h with h | h
    · exact ⟨s, r, List.mem_cons_self, Option.mem_toList.1 h⟩
    · obtain ⟨reached, r', hr', hevent⟩ := mem_events h
      exact ⟨reached, r', List.mem_cons_of_mem _ hr', hevent⟩

/-! ## Runs -/

theorem records_after (s : Server) (hlog : Utf8.EndsLine (s.log.octets?.getD []))
    (requests : List Incoming) : (s.after requests).log.records
      = s.log.records.map (· ++ (s.events requests).map (fun e => e.toJson.joined)) :=
  AuditLog.records_of_octets (s.octets_after requests) hlog

section

variable {config : Config} {found : Option (List UInt8)} {clock : Clock}

/-- **The records of a run** on a file that is UTF-8: those that were found in it, and the events. -/
theorem records_of_run (hfound : Utf8.EndsLine (found.getD [])) {file : Text}
    (hfile : Utf8.decode? (found.getD []) = some file) (requests : List Incoming) :
    ((start config found clock).after requests).log.records = .ok (AuditLog.recordsOf file
      ++ ((start config found clock).events requests).map (fun e => e.toJson.joined)) := by
  have hstart : (start config found clock).log.octets?.getD [] = found.getD [] :=
    AuditLog.octets_ofFile found
  have hfirst := AuditLog.records_eq_ok_iff.2 ⟨file, hstart.symm ▸ hfile, rfl⟩
  rw [records_after _ (hstart ▸ hfound), hfirst]
  rfl

theorem undecodable_run (hfile : Utf8.decode? (found.getD []) = none) (requests : List Incoming) :
    ((start config found clock).after requests).log.records = .error .undecodable := by
  have hstart : (start config found clock).log.octets?.getD [] = found.getD [] :=
    AuditLog.octets_ofFile found
  rw [AuditLog.records_eq_error_iff, octets_after, AuditLog.decode?_append_toOctets, hstart, hfile]
  exact ⟨rfl, rfl⟩

end

theorem receive_gains (s : Server) (r : Incoming) :
    (s.eventOf? r = none ∧ (s.receive r).2.log = s.log)
    ∨ ∃ e, s.eventOf? r = some e ∧ e.Describes (s.receive r).1 ∧ e.toJson.write.isPlain = true
      ∧ AuditLog.Gains s.log (s.receive r).2.log e.toJson := by
  have hlog := s.log_receive r
  unfold logAfter at hlog
  cases hevent : s.eventOf? r with
  | none =>
    rw [hevent] at hlog
    exact .inl ⟨rfl, hlog⟩
  | some e =>
    rw [hevent] at hlog
    refine .inr ⟨e, rfl, ?_, e.toJson.isPlain_write, ?_⟩
    · obtain ⟨⟨tool, arguments⟩, -, rfl⟩ := Option.map_eq_some_iff.1 hevent
      exact ⟨rfl, rfl, rfl, rfl⟩
    · rw [hlog]
      exact AuditLog.gains_append s.log e

end Server

/-! ## The log as an answer -/

/-- The number of records that a request asks for: a whole number brought between 1 and 500, a truth
value as the number it counts for, and 50 when neither is given. -/
def entriesWanted : Option Json → Nat
  | some (.int n) => (max 1 (min n 500)).toNat
  | some (.bool _) => 1
  | _ => 50

theorem toNat_entryLimit (arguments : Fields) : 1 ≤ Tool.entryLimit arguments
    ∧ (Tool.entryLimit arguments).toNat = entriesWanted (Keyed.get? "limit" arguments) := by
  refine ⟨Int.le_max_left _ _, ?_⟩
  unfold Tool.entryLimit Tool.mostEntries Tool.usualEntries entriesWanted
  rcases Keyed.get? "limit" arguments with - | value
  · rfl
  · cases value with
    | bool value => cases value <;> rfl
    | _ => rfl

namespace Server

/-- **The log is answered as it was before the request.** -/
theorem receive_auditLog {s : Server} {r : Incoming} {arguments : Fields} {records : List Json}
    (hcall : r.Calls "server.audit_log" arguments) (hrecords : s.log.records = .ok records)
    (hsince : ∀ time, Keyed.get? "since" arguments ≠ some (.str time)) :
    (s.receive r).1.Carries s.config.limits.responseBytes (.object [("entries",
      .arr (AuditLog.last (entriesWanted (Keyed.get? "limit" arguments)) records))]) := by
  obtain ⟨id, s', hconfig, -, hlog, hreceive⟩ := receive_of_dispatched (s := s) hcall
  obtain ⟨hpos, hlimit⟩ := toNat_entryLimit arguments
  have hsince : Tool.since arguments = none := by
    unfold Tool.since
    cases hget : Keyed.get? "since" arguments with
    | none => rfl
    | some value =>
      cases value with
      | str time => exact absurd hget (hsince time)
      | _ => rfl
  have hread : s'.log.read (Tool.since arguments) (Tool.entryLimit arguments)
      = .ok (AuditLog.last (entriesWanted (Keyed.get? "limit" arguments)) records) := by
    rw [hsince, AuditLog.read_of_pos _ hpos, hlimit, hlog, hrecords]
    rfl
  have hdispatch : s'.dispatch "server.audit_log" arguments = .ok (.object [("entries",
      .arr (AuditLog.last (entriesWanted (Keyed.get? "limit" arguments)) records))],
      s'.workspace) := by
    refine (s'.dispatch_of_name .auditLog arguments).trans ?_
    simp only [Tool.call, Tool.auditLogResult, hread, Except.map]
  rw [hreceive, callTool_of_ok hdispatch, ← hconfig]
  exact carries_limitResponse s' id _

/-- **The log only grows, and it reads back what was written.**  Start a server on a file that is
empty or ends with a line feed, and let it answer any requests.  Whatever else it is asked, the file
so far stays the beginning of the file.  The next request leaves the file as it is, or adds to it
the event that describes its response, as one line of printable ASCII.  If the file that was found is
UTF-8, then reading the file gives the last of the records that were found in it and of the events after
them, each as the object that was written for requests in Unicode text, and with split surrogate pairs
joined for any; and a request for the log is answered with the records before it.  If it is not UTF-8,
the file cannot be read. -/
theorem log_grows_and_reads_back (config : Config) (found : Option (List UInt8)) (clock : Clock)
    (hfound : Utf8.EndsLine (found.getD [])) (requests : List Incoming) :
    let s := start config found clock
    let reached := s.after requests
    let written := (s.events requests).map (fun e => e.toJson.joined)
    (∀ later : List Incoming,
      reached.log.octets?.getD [] <+: (s.after (requests ++ later)).log.octets?.getD [])
    ∧ (∀ r, (reached.eventOf? r = none ∧ (reached.receive r).2.log = reached.log)
      ∨ ∃ e, reached.eventOf? r = some e ∧ e.Describes (reached.receive r).1
        ∧ e.toJson.write.isPlain = true
        ∧ AuditLog.Gains reached.log (reached.receive r).2.log e.toJson)
    ∧ (∀ file, Utf8.decode? (found.getD []) = some file →
      let records := AuditLog.recordsOf file ++ written
      (∀ limit : Int, 1 ≤ limit →
        reached.log.read none limit = .ok (AuditLog.last limit.toNat records))
      ∧ ∀ r arguments, r.Calls "server.audit_log" arguments →
        (∀ time, Keyed.get? "since" arguments ≠ some (.str time)) →
        (reached.receive r).1.Carries config.limits.responseBytes (.object [("entries",
          .arr (AuditLog.last (entriesWanted (Keyed.get? "limit" arguments)) records))]))
    ∧ ((∀ r ∈ requests, r.InUnicode) → written = (s.events requests).map AuditEvent.toJson)
    ∧ (Utf8.decode? (found.getD []) = none → ∀ (since : Option Text) (limit : Int), 1 ≤ limit →
      reached.log.read since limit = .error .undecodable) := by
  intro s reached written
  refine ⟨?_, reached.receive_gains, fun file hfile => ?_, fun hunicode => ?_, fun hfile => ?_⟩
  · intro later
    have hlater : s.after (requests ++ later) = reached.after later := List.foldl_append
    rw [hlater, reached.octets_after later]
    exact List.prefix_append _ _
  · have hrecords : reached.log.records = .ok (AuditLog.recordsOf file ++ written) :=
      records_of_run hfound hfile requests
    refine ⟨fun limit hlimit => ?_, fun r arguments hcall hsince => ?_⟩
    · rw [AuditLog.read_of_pos _ hlimit, hrecords]
      rfl
    · have hanswer := receive_auditLog hcall hrecords hsince
      rw [(after_reflects requests (start_reflects config found clock)).config] at hanswer
      exact hanswer
  · refine List.map_congr_left (fun e he => ?_)
    obtain ⟨_, r, hr, hevent⟩ := mem_events he
    exact joined_of_eventOf? (hunicode r hr) hevent
  · exact fun since limit hlimit =>
      AuditLog.read_of_records_eq_error (undecodable_run hfile requests) since hlimit

/-- A tool is called that there is not, under an id past U+FFFF and with the name of a document. -/
def unknownCall : Json :=
  .obj [("id", .str "𝒜"), ("method", .str "no.such.tool"),
    ("params", .obj [("doc_id", .str "ü"), ("text", .str "a")])]

theorem isJoined_unknownCall : unknownCall.IsJoined := by
  have hparams : Json.IsJoined (.obj [("doc_id", .str "ü"), ("text", .str "a")]) := by
    refine .obj (List.forall_mem_cons.2 ⟨?_, List.forall_mem_singleton.2 ?_⟩)
      (List.forall_mem_cons.2 ⟨.str ?_, List.forall_mem_singleton.2 (.str ?_)⟩) <;>
    exact Text.isJoined_of_no_low (by decide)
  refine .obj (List.forall_mem_cons.2 ⟨?_, List.forall_mem_cons.2 ⟨?_,
      List.forall_mem_singleton.2 ?_⟩⟩)
    (List.forall_mem_cons.2 ⟨.str ?_, List.forall_mem_cons.2 ⟨.str ?_,
      List.forall_mem_singleton.2 hparams⟩⟩) <;>
  exact Text.isJoined_of_no_low (by decide)

theorem response_unknownCall (s : Server) : (s.receive (.value unknownCall)).1
    = (ToolError.unknownTool "no.such.tool").response "𝒜" := by
  have hcall : s.receive (.value unknownCall) = s.callTool "𝒜" "no.such.tool"
      [("doc_id", .str "ü"), ("text", .str "a")] := rfl
  have hname : ∀ tool : Tool, tool.name ≠ ("no.such.tool" : Text) := by
    intro tool
    cases tool <;> decide
  rw [hcall, callTool_of_error (dispatch_unknown hname s _)]

def unknownCallEvent : AuditEvent where
  timestamp := "1970-01-01T00:00:00.000Z"
  requestId := "𝒜"
  tool := "no.such.tool"
  ok := false
  blocked := false
  errorCode := some "UNKNOWN_TOOL"
  metadata := [("doc_id", .str "ü"), ("text_length", .int 1), ("text_line_count", .int 1),
    ("text_present", .bool true)]

def lastRecord : Json :=
  .obj [("id", .str "a"), ("method", .str "server.audit_log"), ("params", .obj [("limit", .int 1)])]

/-- On a file with a record of someone else, the log then reads as that record and the event, and a
request for the last record is answered with the event and not with its own. -/
theorem log_of_unknownCall :
    let reached := (start (.ofRoot { segments := ["work"] }) (some [0x31, 0x37, 0x0A]) ⟨0, 0⟩).after
      [.value unknownCall]
    reached.log.read none 2 = .ok [.int 17, unknownCallEvent.toJson]
    ∧ (reached.receive (.value lastRecord)).1.Carries
      (Config.ofRoot { segments := ["work"] }).limits.responseBytes
      (.object [("entries", .arr [unknownCallEvent.toJson])]) := by
  obtain ⟨-, -, hreads, hunicode, -⟩ := log_grows_and_reads_back (.ofRoot { segments := ["work"] })
    (some [0x31, 0x37, 0x0A]) ⟨0, 0⟩ (.inr ⟨[0x31, 0x37], rfl⟩) [.value unknownCall]
  obtain ⟨hread, hanswer⟩ := hreads "17\n" rfl
  have hwritten := hunicode (List.forall_mem_singleton.2 isJoined_unknownCall)
  simp only [events, eventOf?, response_unknownCall] at hwritten hread hanswer
  have hevent : _ = [unknownCallEvent.toJson] := hwritten
  refine ⟨?_, ?_⟩
  · rw [hread 2 (by decide), hevent]
    rfl
  · have hlast := hanswer (.value lastRecord) [("limit", .int 1)] rfl (by rintro _ ⟨⟩)
    rw [hevent] at hlast
    exact hlast

/-- Whatever is asked, reading the log gives the last of what was found in the file and of the events
since, each as the object that was written. -/
def ReadsBack (s : Server) : Prop :=
  ∃ others : List Json, ∀ (requests : List Incoming) (limit : Int), 1 ≤ limit →
    (s.after requests).log.read none limit
      = .ok (AuditLog.last limit.toNat (others ++ (s.events requests).map AuditEvent.toJson))

/-- A tool is called that there is not, with two arguments: the name of one is the surrogate pair of
the name of the other. -/
def pairedNames : Json :=
  .obj [("method", .str "no.such.tool"),
    ("params", .obj [([.ofNat 0xD83D, .ofNat 0xDE00], .int 1), ("😀", .int 2)])]

/-- The log does not read back on a file that is not UTF-8, which cannot be read; and not on an empty
file, because a name is lost when a surrogate pair becomes the character that is there already. -/
theorem log_not_read_back :
    ¬ (start (.ofRoot { segments := ["work"] }) (some [0xFF, 0x0A]) ⟨0, 0⟩).ReadsBack
    ∧ ¬ (start (.ofRoot { segments := ["work"] }) none ⟨0, 0⟩).ReadsBack := by
  constructor
  · rintro ⟨others, h⟩
    have hread := h [] 1 (by decide)
    rw [AuditLog.read_of_records_eq_error (undecodable_run rfl []) none (by decide)] at hread
    cases hread
  · rintro ⟨others, h⟩
    have hread := h [.value pairedNames] 1 (by decide)
    obtain ⟨e, hevent, hmetadata⟩ : ∃ e,
        (start (.ofRoot { segments := ["work"] }) none ⟨0, 0⟩).events [.value pairedNames] = [e]
          ∧ e.metadata = [([.ofNat 0xD83D, .ofNat 0xDE00], .int 1), ("😀", .int 2)] := ⟨_, rfl, rfl⟩
    have hrecords := records_after (start (.ofRoot { segments := ["work"] }) none ⟨0, 0⟩) (.inl rfl)
      [.value pairedNames]
    rw [AuditLog.read_of_pos _ (by decide), hrecords, hevent] at hread
    have hlast : AuditLog.last 1 (AuditLog.recordsOf [] ++ [e.toJson.joined])
        = AuditLog.last 1 (others ++ [e.toJson]) := Except.ok.inj hread
    rw [AuditLog.last_one_concat, AuditLog.last_one_concat] at hlast
    have hsame : e.toJson.joined = e.toJson := List.singleton_inj.1 hlast
    have hnames := congrArg (fun record => record.get? "metadata") hsame
    have hjoined : (Json.obj e.metadata).joined = .obj e.metadata := Option.some.inj hnames
    rw [hmetadata] at hjoined
    exact absurd (congrArg (fun value => value.obj?.map List.length) hjoined) (by decide)

end Server

end OutlineServer
