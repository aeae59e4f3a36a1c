import OutlineServer.Proofs.Json.Canonical
import OutlineServer.Proofs.Server.LogReadBack
import OutlineServer.Proofs.Server.ToolErrors
import OutlineServer.Proofs.Token.Characters

/-!
# Answers that read back as they are

A response holds texts of the request, of the documents, of the log and of the server's own.  As long
as no high surrogate stands directly before a low one in what the server keeps (`Server.InUnicode`), a
request in Unicode text is answered with a value that reads back as it is
(`InUnicode.joined_response`), and the server stays that way (`InUnicode.receive`).

Documents and their outlines come in through texts that were measured, which have no surrogates; the
records of the log come from a file of characters.  So neither needs more than to know where its
characters are from.
-/
namespace OutlineServer

namespace Text

theorem isEncodable_of_subset {t u : Text} (ht : t.isEncodable = true) (h : u ⊆ t) :
    u.isEncodable = true :=
  isEncodable_iff.2 (fun c hc => isEncodable_iff.1 ht c (h hc))

theorem isJoined_of_subset {t u : Text} (ht : t.isEncodable = true) (h : u ⊆ t) : u.IsJoined :=
  isJoined_of_no_low (fun c hc => (isEncodable_iff.1 ht c (h hc)).2)

theorem strip_subset (t : Text) : t.strip ⊆ t := by
  intro c hc
  have hc := List.dropWhile_subset _ (List.mem_reverse.1 hc)
  exact List.dropWhile_subset _ (List.mem_reverse.1 hc)

theorem isJoined_plain_append {t u : Text} (ht : t.isPlain = true) (hu : u.IsJoined) :
    (t ++ u).IsJoined := by
  refine List.isChain_append.2 ⟨isJoined_of_isPlain ht, hu, ?_⟩
  rintro a ha b - ⟨hhigh, -⟩
  have hencodable := isEncodable_iff.1 (isEncodable_of_isPlain ht) a (List.mem_of_getLast? ha)
  simp [hencodable.1] at hhigh

end Text

/-! ## Values -/

namespace Json

@[simp] theorem joined_bool (value : Bool) : (bool value).joined = bool value := rfl

@[simp] theorem joined_int (value : Int) : (int value).joined = int value := rfl

@[simp] theorem joined_nat (value : Nat) : (nat value).joined = nat value := rfl

theorem joined_str {t : Text} (h : t.IsJoined) : (str t).joined = str t := by
  rw [joined, Text.joined_of_isJoined h]

theorem joined_arr {items : List Json} (h : ∀ item ∈ items, item.joined = item) :
    (arr items).joined = arr items := by
  rw [joined, joinedItems_eq_map, List.map_congr_left h, List.map_id']

theorem joined_record {fields : List (Text × Json)}
    (hkeys : (fields.map Prod.fst).all Text.isPlain = true)
    (hvalues : ∀ value ∈ fields.map Prod.snd, value.joined = value) :
    (object fields).joined = object fields :=
  joined_object
    (fun _ hfield => Text.isJoined_of_isPlain
      (List.all_eq_true.1 hkeys _ (List.mem_map_of_mem hfield)))
    (fun _ hfield => hvalues _ (List.mem_map_of_mem hfield))

end Json

open Json (joined_str joined_arr joined_record FieldsJoined)

theorem Range.joined_toJson (r : Range) : r.toJson.joined = r.toJson := by
  have hposition : ∀ p : Position, p.toJson.joined = p.toJson := fun p =>
    joined_record rfl (by simp)
  exact joined_record rfl (by simp [hposition])

namespace Symbol

theorem OccursIn.mono {x : Symbol} {symbols others : List Symbol} (h : x.OccursIn symbols)
    (hsub : symbols ⊆ others) : x.OccursIn others := by
  cases h with
  | here hx => exact .here (hsub hx)
  | inside hparent hx => exact .inside (hsub hparent) hx

def AllJoined (symbols : List Symbol) : Prop :=
  ∀ x : Symbol, x.OccursIn symbols → x.name.IsJoined ∧ x.detail.IsJoined

theorem AllJoined.mono {symbols others : List Symbol} (h : AllJoined others)
    (hsub : symbols ⊆ others) : AllJoined symbols := fun x hx => h x (hx.mono hsub)

mutual

theorem joined_toJson : ∀ x : Symbol, AllJoined [x] → x.toJson.joined = x.toJson
  | ⟨name, detail, kind, range, selection, children⟩, h => by
    obtain ⟨hname, hdetail⟩ := h _ (.here List.mem_cons_self)
    have hkind : kind.name.IsJoined := Text.isJoined_of_isPlain (by cases kind <;> decide)
    have hchildren := joined_listToJson children
      (fun x hx => h x (.inside List.mem_cons_self hx))
    rw [toJson]
    refine joined_record rfl ?_
    simp [joined_str hname, joined_str hdetail, joined_str hkind, Range.joined_toJson,
      joined_arr hchildren]

theorem joined_listToJson : ∀ symbols : List Symbol, AllJoined symbols →
    ∀ value ∈ listToJson symbols, value.joined = value
  | [], _ => by simp [listToJson]
  | x :: rest, h => by
    rw [listToJson, List.forall_mem_cons]
    exact ⟨joined_toJson x (h.mono (by simp)), joined_listToJson rest (h.mono (by simp))⟩

end

end Symbol

theorem Completion.joined_toJson {c : Completion} (h : c.name.IsJoined) :
    c.toJson.joined = c.toJson := by
  have hkind : c.kind.name.IsJoined := Text.isJoined_of_isPlain (by cases c.kind; decide)
  exact joined_record rfl (by simp [joined_str h, joined_str hkind])

theorem TokenSpan.joined_toJson {span : TokenSpan} (htype : span.type.IsJoined)
    (hmodifiers : ∀ modifier ∈ span.modifiers, modifier.IsJoined) :
    span.toJson.joined = span.toJson :=
  joined_record rfl (by simp [joined_str htype, Json.joined_strings hmodifiers])

theorem TokenSpan.joined_of_mem_classify {strategy : TokenStrategy} {text : Text} {span : TokenSpan}
    (htext : text.isEncodable = true) (h : span ∈ strategy.classify text) :
    span.toJson.joined = span.toJson := by
  obtain ⟨htype, hmodifiers⟩ := Token.characters_of_span h
  refine joined_toJson ?_ (fun modifier hm => Text.isJoined_of_subset htext (hmodifiers modifier hm))
  rcases htype with htype | ⟨kind, htype⟩
  · exact Text.isJoined_of_subset htext htype
  · rw [htype]
    exact Text.isJoined_of_isPlain (by cases kind <;> decide)

theorem TokenStrategy.isJoined_name (strategy : TokenStrategy) : strategy.name.IsJoined :=
  Text.isJoined_of_isPlain (by cases strategy <;> decide)

theorem CompletionScope.isJoined_name (scope : CompletionScope) : scope.name.IsJoined :=
  Text.isJoined_of_isPlain (by cases scope <;> decide)

theorem Config.joined_toJson {c : Config} (hroot : c.root.toText.IsJoined)
    (hdataDir : c.dataDir.toText.IsJoined) : c.toJson.joined = c.toJson := by
  refine joined_record rfl ?_
  simp only [List.map_cons, List.map_nil, List.forall_mem_cons, List.not_mem_nil, false_imp_iff,
    implies_true, and_true]
  exact ⟨joined_str hroot, joined_str hdataDir, joined_record rfl (by simp),
    joined_record rfl (by simp [joined_str c.strategy.isJoined_name]),
    joined_record rfl (by simp [joined_str c.scope.isJoined_name])⟩

namespace AuditLog

theorem subset_of_recordsSince {since : Text} {records shown : List Json}
    (h : recordsSince since records = .ok shown) : shown ⊆ records := by
  unfold recordsSince at h
  split at h
  · cases h
  · cases h
    exact List.filter_subset_self _

theorem exists_records_of_read {log : AuditLog} {since : Option Text} {limit : Int} {shown : List Json}
    (h : log.read since limit = .ok shown) {record : Json} (hrecord : record ∈ shown) :
    ∃ records, log.records = .ok records ∧ record ∈ records := by
  unfold read at h
  split at h
  · cases h
    cases hrecord
  · obtain ⟨records, hrecords, h⟩ := exists_of_bind_eq_ok h
    refine ⟨records, hrecords, ?_⟩
    cases since with
    | none =>
      cases h
      exact List.drop_subset _ _ hrecord
    | some since =>
      obtain ⟨found, hfound, h⟩ := exists_of_bind_eq_ok h
      cases h
      exact subset_of_recordsSince hfound (List.drop_subset _ _ hrecord)

theorem joined_of_mem_records {log : AuditLog} {records : List Json}
    (hrecords : log.records = .ok records) {record : Json} (hrecord : record ∈ records) :
    record.joined = record := by
  obtain ⟨file, hfile, rfl⟩ := records_eq_ok_iff.1 hrecords
  obtain ⟨line, hline, hread⟩ := List.mem_filterMap.1 hrecord
  dsimp only at hread
  split at hread
  · cases hread
  · have hchars : line.strip ⊆ file :=
      List.Subset.trans (Text.strip_subset line) (Text.subset_of_mem_lines hline)
    have hencodable := Utf8.isEncodable_of_decode? hfile
    exact Json.joined_read? (Text.isEncodable_of_subset hencodable hchars) hread

theorem joined_entries {log : AuditLog} {since : Option Text} {limit : Int} {shown : List Json}
    (hread : log.read since limit = .ok shown) :
    (Json.object [("entries", .arr shown)]).joined = .object [("entries", .arr shown)] := by
  have harr : (Json.arr shown).joined = .arr shown := by
    refine joined_arr (fun record hrecord => ?_)
    obtain ⟨records, hrecords, hmem⟩ := exists_records_of_read hread hrecord
    exact joined_of_mem_records hrecords hmem
  exact joined_record rfl (by simp [harr])

end AuditLog

/-! ## Servers -/

/-- What a server keeps has no high surrogate directly before a low one.  Nothing is asked of its log,
which is either a file of characters or not read at all. -/
structure Server.InUnicode (s : Server) : Prop where
  root : s.config.root.toText.IsJoined
  dataDir : s.config.dataDir.toText.IsJoined
  documents : ∀ document ∈ s.workspace.results.documents, document.IsJoined
  symbols : ∀ document, Symbol.AllJoined (s.workspace.symbols document)
  completions : ∀ document, ∀ c ∈ s.workspace.completions document, c.name.IsJoined
  classifier : s.workspace.classifier.name.IsJoined
  legend : ∀ name ∈ s.workspace.legend.types ++ s.workspace.legend.modifiers, name.IsJoined

theorem isJoined_call {r : Incoming} (h : r.InUnicode) {name : Text} {arguments : Fields}
    (hcall : r.dispatched? = some (name, arguments)) : name.IsJoined ∧ FieldsJoined arguments := by
  obtain ⟨payload, hpayload, hcall⟩ := Option.bind_eq_some_iff.1 hcall
  exact isJoined_dispatched? (h.payload hpayload) hcall

namespace Server

theorem inUnicode_start {config : Config} (found : Option (List UInt8)) (clock : Clock)
    (hroot : config.root.toText.IsJoined) (hdataDir : config.dataDir.toText.IsJoined) :
    (start config found clock).InUnicode where
  root := hroot
  dataDir := hdataDir
  documents := by rintro _ ⟨⟩
  symbols := by
    rintro document x hx
    exact absurd hx Outline.not_occursIn_nil
  completions := by
    intro document c hc
    simp only [start, Workspace.completions, Results.completions] at hc
    split at hc <;> cases hc
  classifier := config.strategy.isJoined_name
  legend := by
    have hplain : ∀ name ∈ Legend.standard.types ++ Legend.standard.modifiers,
        name.isPlain = true := by decide +kernel
    exact fun name hname => Text.isJoined_of_isPlain (hplain name hname)

namespace InUnicode

variable {s : Server}

theorem update (h : s.InUnicode) {document text : Text} (hdocument : document.IsJoined)
    (htext : text.isEncodable = true) :
    { s with workspace := (s.workspace.update document text).2 }.InUnicode where
  root := h.root
  dataDir := h.dataDir
  classifier := h.classifier
  legend := h.legend
  documents := by
    show ∀ other ∈ (s.workspace.results.record document (Outline.scan text)).documents, other.IsJoined
    rw [Results.documents_record]
    split
    · exact h.documents
    · exact List.forall_mem_append.2 ⟨h.documents, List.forall_mem_singleton.2 hdocument⟩
  symbols other := by
    show Symbol.AllJoined ((s.workspace.results.record document (Outline.scan text)).get other)
    rw [Results.get_record]
    split
    · intro x hx
      obtain ⟨hname, hdetail⟩ := Outline.characters_of_symbol hx
      exact ⟨Text.isJoined_of_subset htext hname, Text.isJoined_of_subset htext hdetail⟩
    · exact h.symbols other
  completions other := by
    have hscanned : ∀ c ∈ (Outline.scan text).completions, c.name.IsJoined := fun c hc =>
      Text.isJoined_of_subset htext (Outline.characters_of_completion hc)
    show ∀ c ∈ (s.workspace.results.record document (Outline.scan text)).completions other,
      c.name.IsJoined
    cases hscope : s.workspace.results.scope with
    | everywhere =>
      rw [Results.completions_record_everywhere hscope]
      exact hscanned
    | perDocument =>
      cases other with
      | none =>
        rw [Results.completions_perDocument_none ((Results.scope_record ..).trans hscope)]
        simp
      | some other =>
        rw [Results.completions_record_perDocument hscope]
        split
        · exact hscanned
        · exact h.completions (some other)

/-- **A request in Unicode text leaves the server in Unicode.** -/
theorem receive (h : s.InUnicode) {r : Incoming} (hr : r.InUnicode) :
    (s.receive r).2.InUnicode := by
  -- only an update that is accepted changes more than the log
  have hworkspace : { s with workspace := (s.receive r).2.workspace }.InUnicode := by
    rw [receive_workspace]
    cases haccepted : accepted? s.config.limits r with
    | none => exact h
    | some u =>
      obtain ⟨tool, arguments, -, hcall, hdocument, -, -, htext, -⟩ := accepted?_eq_some.1 haccepted
      have harguments := (isJoined_call hr hcall).2
      exact h.update (harguments _ (Keyed.mem_of_get? hdocument)).2.text htext
  have hconfig := s.receive_config r
  exact {
    hworkspace with
    root := by
      rw [hconfig]
      exact h.root
    dataDir := by
      rw [hconfig]
      exact h.dataDir }

/-! ## Answers -/

theorem joined_status (h : s.InUnicode) :
    (Tool.statusResult s.config s.workspace).joined = Tool.statusResult s.config s.workspace := by
  have hscope := s.workspace.results.scope.isJoined_name
  have hconfig := Config.joined_toJson h.root h.dataDir
  exact joined_record rfl (by simp [joined_str h.root, Json.joined_strings h.documents,
    joined_str h.classifier, joined_str hscope, hconfig])

theorem joined_tokens (h : s.InUnicode) {text : Text} (htext : text.isEncodable = true)
    (encoded : Bool) : (Tool.tokensResult s.workspace text encoded).joined
      = Tool.tokensResult s.workspace text encoded := by
  have hspans : (Json.arr ((s.workspace.tokens text).map TokenSpan.toJson)).joined
      = .arr ((s.workspace.tokens text).map TokenSpan.toJson) :=
    joined_arr (List.forall_mem_map.2 (fun _ => TokenSpan.joined_of_mem_classify htext))
  have hnumbers : ∀ numbers : List Int, (Json.arr (numbers.map .int)).joined
      = .arr (numbers.map .int) := fun numbers => joined_arr (by simp)
  unfold Tool.tokensResult
  cases encoded with
  | false => exact joined_record rfl (by simp [joined_str h.classifier, hspans])
  | true => exact joined_record rfl (by simp [joined_str h.classifier, hspans, hnumbers])

theorem joined_legend (h : s.InUnicode) :
    s.workspace.legend.toJson.joined = s.workspace.legend.toJson := by
  obtain ⟨htypes, hmodifiers⟩ := List.forall_mem_append.1 h.legend
  exact joined_record rfl
    (by simp [Json.joined_strings htypes, Json.joined_strings hmodifiers])

/-- **What a tool answers reads back as it is.** -/
theorem joined_answer (h : s.InUnicode) {name : Text} {arguments : Fields}
    (harguments : FieldsJoined arguments) {answer : Json × Workspace}
    (hanswer : s.dispatch name arguments = .ok answer) : answer.1.joined = answer.1 := by
  have hargument : ∀ {key t : Text}, Keyed.get? key arguments = some (.str t) → t.IsJoined :=
    fun hget => (harguments _ (Keyed.mem_of_get? hget)).2.text
  have hupdate : ∀ tool : Tool,
      tool.update s.config.limits s.workspace arguments = .ok answer →
        answer.1.joined = answer.1 := by
    intro tool hupdate
    obtain ⟨id, text, hid, -, -, -, -, rfl⟩ := Tool.update_eq_ok.1 hupdate
    exact joined_record rfl (by simp [joined_str (hargument hid)])
  obtain ⟨tool, rfl⟩ := tool_of_dispatch hanswer
  rw [dispatch_of_name] at hanswer
  cases tool with
  | status =>
    cases hanswer
    exact h.joined_status
  | didOpen => exact hupdate .didOpen hanswer
  | didChange => exact hupdate .didChange hanswer
  | symbols =>
    obtain ⟨id, hid, -, rfl⟩ := Tool.call_symbols_eq_ok.1 hanswer
    have hsymbols : (Json.arr ((s.workspace.symbols id).map Symbol.toJson)).joined
        = .arr ((s.workspace.symbols id).map Symbol.toJson) :=
      joined_arr (List.forall_mem_map.2 (fun x hx =>
        x.joined_toJson ((h.symbols id).mono (by simpa using hx))))
    exact joined_record rfl (by simp [joined_str (hargument hid), hsymbols])
  | completions =>
    obtain ⟨document, -, rfl⟩ := Tool.call_completions_eq_ok.1 hanswer
    have hitems : (Json.arr ((s.workspace.completions document).map Completion.toJson)).joined
        = .arr ((s.workspace.completions document).map Completion.toJson) :=
      joined_arr (List.forall_mem_map.2 (fun c hc =>
        Completion.joined_toJson (h.completions document c hc)))
    exact joined_record rfl (by simp [hitems])
  | semanticTokens =>
    obtain ⟨text, encoded, -, -, htext, -, rfl⟩ := Tool.call_semanticTokens_eq_ok.1 hanswer
    exact h.joined_tokens htext encoded
  | tokenLegend =>
    cases hanswer
    exact h.joined_legend
  | auditLog =>
    simp only [Tool.call, Tool.auditLogResult] at hanswer
    split at hanswer
    · rename_i records hread
      cases hanswer
      exact AuditLog.joined_entries hread
    · cases hanswer

end InUnicode

end Server

/-! ## Responses -/

structure Outcome.InUnicode (outcome : Outcome) : Prop where
  result : outcome.result.joined = outcome.result
  warnings : ∀ warning ∈ outcome.warnings, warning.IsJoined
  error : ∀ error ∈ outcome.error?, error.1.IsJoined ∧ error.2.IsJoined

theorem Response.joined_toJson {response : Response} (hid : response.requestId.IsJoined)
    (h : response.outcome.InUnicode) : response.toJson.joined = response.toJson := by
  have hresult := h.result
  have hwarnings := Json.joined_strings h.warnings
  have herror := h.error
  unfold toJson commonFields errorFields
  cases hcase : response.outcome.error? with
  | none => exact joined_record rfl (by simp [joined_str hid, hresult, hwarnings])
  | some error =>
    obtain ⟨hcode, hmessage⟩ := herror error hcase
    have hobject : (Json.object [("code", .str error.1), ("message", .str error.2)]).joined
        = .object [("code", .str error.1), ("message", .str error.2)] :=
      joined_record rfl (by simp [joined_str hcode, joined_str hmessage])
    exact joined_record rfl (by simp [joined_str hid, hresult, hwarnings, hobject])

namespace Server

theorem inUnicode_failure {code message : Text} (hcode : code.isPlain = true)
    (hmessage : message.IsJoined) : (Outcome.failure code message).InUnicode where
  result := rfl
  warnings := by rintro _ ⟨⟩
  error := by
    rintro _ ⟨⟩
    exact ⟨Text.isJoined_of_isPlain hcode, hmessage⟩

theorem inUnicode_blocked (refusal : Refusal) :
    (Outcome.blocked refusal.reason refusal.hint).InUnicode := by
  have hreason := Text.isJoined_of_isPlain refusal.isPlain_reason
  have hhint := Text.isJoined_of_isPlain refusal.isPlain_hint
  have hcode : Text.IsJoined "POLICY_BLOCKED" := Text.isJoined_of_isPlain (by decide)
  refine ⟨joined_record rfl (by simp [joined_str hreason, joined_str hhint]), ?_, ?_⟩
  · rintro _ ⟨⟩
  · rintro _ ⟨⟩
    exact ⟨hcode, hreason⟩

theorem inUnicode_requestError (e : RequestError) (id : Text) :
    (e.response id).outcome.InUnicode := by
  cases e <;>
    exact inUnicode_failure (by decide +kernel) (Text.isJoined_of_isPlain (by decide +kernel))

theorem inUnicode_toolError {e : ToolError} (h : e.message.IsJoined) (id : Text) :
    (e.response id).outcome.InUnicode := by
  cases e with
  | refused refusal => exact inUnicode_blocked refusal
  | _ => exact inUnicode_failure (by decide) h

namespace InUnicode

variable {s : Server}

theorem outcome_callTool (h : s.InUnicode) (id : Text) {name : Text} {arguments : Fields}
    (hname : name.IsJoined) (harguments : FieldsJoined arguments) :
    (s.callTool id name arguments).1.outcome.InUnicode := by
  cases hdispatch : s.dispatch name arguments with
  | ok answer =>
    rw [callTool_of_ok hdispatch]
    dsimp only
    rw [limitResponse_eq]
    split
    · exact ⟨h.joined_answer harguments hdispatch, by rintro _ ⟨⟩, by rintro _ ⟨⟩⟩
    · exact inUnicode_blocked .responseTooLarge
  | error e =>
    rw [callTool_of_error hdispatch]
    refine inUnicode_toolError ?_ id
    rcases message_of_dispatch hdispatch with rfl | hplain
    · exact Text.isJoined_plain_append (by decide) hname
    · exact Text.isJoined_of_isPlain hplain

theorem outcome_receive (h : s.InUnicode) {r : Incoming} (hr : r.InUnicode) :
    (s.receive r).1.outcome.InUnicode := by
  cases hpayload : r.payload? with
  | none =>
    obtain ⟨e, name, arguments, heq⟩ := receive_of_no_payload (s := s) hpayload
    rw [heq]
    exact inUnicode_requestError e _
  | some payload =>
    rw [receive_of_payload hpayload]
    rcases s.handle_cases payload with ⟨name, arguments, hcall, -, heq⟩ | ⟨-, -, e, heq⟩ |
      ⟨-, -, e, heq⟩
    · obtain ⟨hname, harguments⟩ := isJoined_dispatched? (hr.payload hpayload) hcall
      have hsame : (s.identify payload).2.InUnicode := by
        rw [identify_eq]
        exact { h with }
      rw [heq]
      exact hsame.outcome_callTool _ hname harguments
    · rw [heq]
      exact inUnicode_requestError e _
    · rw [heq]
      exact inUnicode_requestError e _

/-- **The answer to a request in Unicode text reads back as it is.** -/
theorem joined_response (h : s.InUnicode) {r : Incoming} (hr : r.InUnicode) :
    (s.receive r).1.toJson.joined = (s.receive r).1.toJson := by
  refine Response.joined_toJson ?_ (h.outcome_receive hr)
  rw [(s.receive_eq r).1]
  exact s.isJoined_idOf hr

end InUnicode

end Server

end OutlineServer
