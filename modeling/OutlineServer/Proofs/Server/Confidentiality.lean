import Mathlib.Data.List.Forall2
import OutlineServer.Proofs.Server.Events

/-!
# What the log does not show

Take two runs of one server on requests that are the same but for content inside the arguments of
tools: texts of the same length under keys that hold content, lists of the same length, objects with
the same keys (`SameShape`).  The answers may differ in everything, and so may the workspaces.  The
records do not, except in how the requests ended (`records_hide_content`).

The two servers agree on their clocks and on the number of ids they made up (`Synchronous`), which is
all that a record takes from a server, and requests that differ in content only have the same id, the
same tool and the same summary (`Incoming.Alike.recorded`).
-/
namespace OutlineServer

/-! ## Requests that differ in content only -/

/-- Two values under a key that differ in content only. -/
inductive SameShape (key : Text) : Json → Json → Prop where
  | same (value : Json) : SameShape key value value
  | text {t u : Text} : key ∉ (["doc_id", "strategy", "since"] : List Text) →
      t.length = u.length →
      (key = ("text" : Text) → t.count CodePoint.lineFeed = u.count CodePoint.lineFeed) →
      SameShape key (.str t) (.str u)
  | list {items others : List Json} : items.length = others.length →
      SameShape key (.arr items) (.arr others)
  | object {fields others : Fields} : Keyed.keys fields = Keyed.keys others →
      SameShape key (.obj fields) (.obj others)

def ArgumentsAlike (arguments others : Fields) : Prop :=
  List.Forall₂ (fun a b => a.1 = b.1 ∧ SameShape a.1 a.2 b.2) arguments others

def SameExcept (key : Text) (fields others : Fields) : Prop :=
  ∀ other, other ≠ key → Keyed.get? other fields = Keyed.get? other others

/-- Requests that differ in the content of tool arguments only, the arguments being the parameters
of a direct request or the `arguments` of a `tools/call`. -/
inductive PayloadsAlike : Json → Json → Prop where
  | same (payload : Json) : PayloadsAlike payload payload
  | direct {fields others arguments given : Fields} :
      Keyed.get? "method" fields ≠ some (.str "tools/call") →
      SameExcept "params" fields others →
      Keyed.get? "params" fields = some (.obj arguments) →
      Keyed.get? "params" others = some (.obj given) →
      ArgumentsAlike arguments given →
      PayloadsAlike (.obj fields) (.obj others)
  | call {fields others params paramsOfOther arguments given : Fields} :
      Keyed.get? "method" fields = some (.str "tools/call") →
      SameExcept "params" fields others →
      Keyed.get? "params" fields = some (.obj params) →
      Keyed.get? "params" others = some (.obj paramsOfOther) →
      SameExcept "arguments" params paramsOfOther →
      Keyed.get? "arguments" params = some (.obj arguments) →
      Keyed.get? "arguments" paramsOfOther = some (.obj given) →
      ArgumentsAlike arguments given →
      PayloadsAlike (.obj fields) (.obj others)

/-- Requests of either form that are the same, or whose values differ in content only. -/
def Incoming.Alike (r other : Incoming) : Prop :=
  r = other ∨ ∃ payload payloadOfOther, r.payload? = some payload
    ∧ other.payload? = some payloadOfOther ∧ PayloadsAlike payload payloadOfOther

/-! ## Summaries -/

theorem describeText_alike {key t u : Text}
    (hkey : key ∉ (["doc_id", "strategy", "since"] : List Text)) (hlength : t.length = u.length)
    (hlines : key = ("text" : Text) → t.count CodePoint.lineFeed = u.count CodePoint.lineFeed) :
    Argument.describeText key t = Argument.describeText key u := by
  have hcontent : Argument.verbatimKeys.contains key = false := by
    simpa [Argument.verbatimKeys] using hkey
  have hempty : t.isEmpty = u.isEmpty := by
    cases t <;> cases u <;> simp_all
  unfold Argument.describeText
  rw [hcontent, hlength]
  by_cases htext : key = Argument.textKey
  · have hcount : Argument.lineCount t = Argument.lineCount u := by
      unfold Argument.lineCount
      rw [hempty, hlines htext]
    simp only [Bool.false_eq_true, if_false, hcount]
  · simp only [Bool.false_eq_true, if_false, htext]

theorem describe_alike {key : Text} {value other : Json} (h : SameShape key value other) :
    Argument.describe key (.json value) = Argument.describe key (.json other) := by
  cases h with
  | same => rfl
  | text hkey hlength hlines => exact describeText_alike hkey hlength hlines
  | list hlength => simp only [Argument.describe, hlength]
  | object hkeys => simp only [Argument.describe, hkeys]

/-- **Arguments that differ in content only have the same summary.** -/
theorem summary_alike {arguments others : Fields} (h : ArgumentsAlike arguments others) :
    Fields.summary arguments = Fields.summary others := by
  unfold Fields.summary Argument.summary
  congr 1
  induction h with
  | nil => rfl
  | @cons a b rest others hab _ ih =>
    obtain ⟨key, value⟩ := a
    obtain ⟨_, other⟩ := b
    obtain ⟨rfl, hshape⟩ := hab
    simp only [List.map_cons, List.flatMap_cons]
    rw [ih, describe_alike hshape]

/-! ## What is recorded -/

theorem dispatched?_direct {fields params : Fields}
    (hmethod : Keyed.get? "method" fields ≠ some (.str "tools/call"))
    (hparams : Keyed.get? "params" fields = some (.obj params)) :
    dispatched? (.obj fields)
      = (Request.name? (Keyed.get? "method" fields)).map (fun name => (name, params)) := by
  simp only [dispatched?, hparams]
  cases hname : Request.name? (Keyed.get? "method" fields) with
  | none => rfl
  | some name =>
    have hne : name ≠ ("tools/call" : Text) := by
      rintro rfl
      exact hmethod (Request.name?_eq_some.1 hname).1
    simp [Request.object?, hne]

theorem isCall_direct {fields : Fields}
    (hmethod : Keyed.get? "method" fields ≠ some (.str "tools/call")) :
    isCall (.obj fields) = false := by
  have hname : Request.name? (Keyed.get? "method" fields) ≠ some Request.callMethod :=
    fun h => hmethod (Request.name?_eq_some.1 h).1
  simp [isCall, Json.get?, hname]

theorem dispatched?_call {fields params arguments : Fields}
    (hmethod : Keyed.get? "method" fields = some (.str "tools/call"))
    (hparams : Keyed.get? "params" fields = some (.obj params))
    (harguments : Keyed.get? "arguments" params = some (.obj arguments)) :
    dispatched? (.obj fields)
      = (Request.name? (Keyed.get? "name" params)).map (fun name => (name, arguments)) := by
  have hname : Request.name? (some (.str "tools/call")) = some ("tools/call" : Text) := rfl
  simp only [dispatched?, hmethod, hparams, hname]
  cases hgiven : Request.name? (Keyed.get? "name" params) <;>
    simp [Request.object?, hgiven, harguments]

def Incoming.recorded? (r : Incoming) : Option (Text × Fields) :=
  r.recordedAs?.map (fun (tool, arguments) => (tool, Fields.summary arguments))

theorem recordedAs?_of_dispatched_map {payload : Json} {name? : Option Text} {arguments : Fields}
    (h : dispatched? payload = name?.map (fun name => (name, arguments))) :
    (recordedAs? payload).map (fun (tool, given) => (tool, Fields.summary given))
      = match name? with
        | some name => some (name, Fields.summary arguments)
        | none => if isCall payload then none else some ("invalid_request", Fields.summary []) := by
  unfold recordedAs?
  rw [h]
  cases name? with
  | some name => rfl
  | none =>
    cases isCall payload <;> rfl

theorem PayloadsAlike.recorded {payload other : Json} (h : PayloadsAlike payload other) :
    payload.get? "id" = other.get? "id"
    ∧ (recordedAs? payload).map (fun (tool, arguments) => (tool, Fields.summary arguments))
      = (recordedAs? other).map (fun (tool, arguments) => (tool, Fields.summary arguments)) := by
  cases h with
  | same => exact ⟨rfl, rfl⟩
  | @direct fields others arguments given hmethod hsame hparams hparams' halike =>
    have hmethod' : Keyed.get? "method" others = Keyed.get? "method" fields :=
      (hsame _ (by decide)).symm
    refine ⟨hsame _ (by decide), ?_⟩
    rw [recordedAs?_of_dispatched_map (dispatched?_direct hmethod hparams),
      recordedAs?_of_dispatched_map (dispatched?_direct (hmethod' ▸ hmethod) hparams'),
      isCall_direct hmethod, isCall_direct (hmethod' ▸ hmethod), hmethod', summary_alike halike]
  | @call fields others params params' arguments given hmethod hsame hparams hparams' hinner hgiven
      hgiven' halike =>
    have hmethod' : Keyed.get? "method" others = Keyed.get? "method" fields :=
      (hsame _ (by decide)).symm
    have hcall : isCall (.obj fields) = isCall (.obj others) := by
      have hfields : (Json.obj fields).get? "method" = (Json.obj others).get? "method" :=
        hmethod'.symm
      have hsome : (Json.obj fields).get? "params" = some (.obj params) := hparams
      have hsome' : (Json.obj others).get? "params" = some (.obj params') := hparams'
      unfold isCall
      rw [hfields, hsome, hsome']
      rfl
    refine ⟨hsame _ (by decide), ?_⟩
    rw [recordedAs?_of_dispatched_map (dispatched?_call hmethod hparams hgiven),
      recordedAs?_of_dispatched_map (dispatched?_call (hmethod'.trans hmethod) hparams' hgiven'),
      hinner "name" (by decide), hcall, summary_alike halike]

theorem Incoming.Alike.recorded {r other : Incoming} (h : r.Alike other) :
    r.givenId? = other.givenId? ∧ r.recorded? = other.recorded? := by
  rcases h with rfl | ⟨payload, payloadOfOther, hpayload, hother, halike⟩
  · exact ⟨rfl, rfl⟩
  · obtain ⟨hid, hrecorded⟩ := halike.recorded
    unfold givenId? recorded?
    rw [hpayload, hother, recordedAs?_of_payload hpayload, recordedAs?_of_payload hother]
    exact ⟨congrArg Server.givenId? hid, hrecorded⟩

/-! ## Two runs -/

/-- Events that differ at most in how the request ended. -/
structure AuditEvent.SameButEnding (event other : AuditEvent) : Prop where
  timestamp : event.timestamp = other.timestamp
  requestId : event.requestId = other.requestId
  tool : event.tool = other.tool
  metadata : event.metadata = other.metadata

/-- Two servers that make up the same ids and read the same times. -/
structure Server.Synchronous (s other : Server) : Prop where
  clock : s.clock = other.clock
  issuedIds : s.issuedIds = other.issuedIds

namespace Server

theorem Synchronous.eventOf? {s s' : Server} (h : s.Synchronous s') {r r' : Incoming}
    (halike : r.Alike r') :
    (s.eventOf? r = none ∧ s'.eventOf? r' = none)
    ∨ ∃ event event', s.eventOf? r = some event ∧ s'.eventOf? r' = some event'
      ∧ event.SameButEnding event' := by
  obtain ⟨hid, hrecorded⟩ := halike.recorded
  have hname : (s.receive r).1.requestId = (s'.receive r').1.requestId := by
    rw [(s.receive_eq r).1, (s'.receive_eq r').1]
    unfold idOf
    rw [hid, h.issuedIds]
  unfold Incoming.recorded? at hrecorded
  unfold Server.eventOf?
  cases hr : r.recordedAs? with
  | none =>
    rw [hr] at hrecorded
    have hr' : r'.recordedAs? = none := Option.map_eq_none_iff.1 hrecorded.symm
    rw [hr']
    exact .inl ⟨rfl, rfl⟩
  | some call =>
    obtain ⟨tool, arguments⟩ := call
    rw [hr, Option.map_some] at hrecorded
    obtain ⟨⟨tool', arguments'⟩, hr', hsame⟩ := Option.map_eq_some_iff.1 hrecorded.symm
    rw [Prod.mk.injEq] at hsame
    rw [hr']
    refine .inr ⟨_, _, rfl, rfl, ?_, hname, hsame.1.symm, hsame.2.symm⟩
    simp only [AuditEvent.ofResponse, h.clock]

/-- **Requests that differ in content only keep two servers synchronous.** -/
theorem Synchronous.receive {s s' : Server} (h : s.Synchronous s') {r r' : Incoming}
    (halike : r.Alike r') : (s.receive r).2.Synchronous (s'.receive r').2 := by
  obtain ⟨hid, hrecorded⟩ := halike.recorded
  obtain ⟨-, workspace, heq⟩ := s.receive_eq r
  obtain ⟨-, workspace', heq'⟩ := s'.receive_eq r'
  have hsome : r.recordedAs?.isSome = r'.recordedAs?.isSome := by
    have := congrArg Option.isSome hrecorded
    simpa [Incoming.recorded?] using this
  rw [heq, heq']
  constructor
  · simp only [clockAfter, h.clock, hsome]
  · simp only [issuedAfter, h.issuedIds, hid]

/-- **Two runs on requests that differ in content only leave the same events**, apart from how the
requests ended. -/
theorem Synchronous.events {requests requests' : List Incoming}
    (halike : List.Forall₂ Incoming.Alike requests requests') {s s' : Server}
    (h : s.Synchronous s') :
    List.Forall₂ AuditEvent.SameButEnding (s.events requests) (s'.events requests') := by
  induction halike generalizing s s' with
  | nil => exact List.Forall₂.nil
  | cons hfirst _ ih =>
    have hrest := ih (h.receive hfirst)
    unfold Server.events
    rcases h.eventOf? hfirst with ⟨hnone, hnone'⟩ | ⟨event, event', hsome, hsome', hsame⟩
    · rw [hnone, hnone']
      exact hrest
    · rw [hsome, hsome']
      exact List.Forall₂.cons hsame hrest

end Server

theorem AuditEvent.toJson_eq (event : AuditEvent) : event.toJson = .obj [
    ("blocked", .bool event.blocked),
    ("error_code", (event.errorCode.map Json.str).getD .null),
    ("metadata", .obj event.metadata),
    ("ok", .bool event.ok),
    ("request_id", .str event.requestId),
    ("timestamp", .str event.timestamp),
    ("tool", .str event.tool)] := rfl

theorem get?_toJson_of_sameButEnding {event other : AuditEvent} (h : event.SameButEnding other)
    {key : Text} (hkey : key ∉ (["ok", "blocked", "error_code"] : List Text)) :
    event.toJson.get? key = other.toJson.get? key := by
  simp only [List.mem_cons, List.not_mem_nil, or_false, not_or] at hkey
  obtain ⟨hok, hblocked, hcode⟩ := hkey
  rw [AuditEvent.toJson_eq, AuditEvent.toJson_eq]
  simp only [Json.get?, Keyed.get?, hok, hblocked, hcode, if_false, h.timestamp, h.requestId, h.tool,
    h.metadata]

/-- **The log hides content.**  Two runs of one server on requests that differ only in the content of
tool arguments add as many records to the file, and of two that correspond every field is the same
but for `ok`, `blocked` and `error_code`. -/
theorem records_hide_content (s : Server) (requests requests' : List Incoming)
    (halike : List.Forall₂ Incoming.Alike requests requests') :
    (s.after requests).log.octets?.getD []
        = s.log.octets?.getD [] ++ (s.events requests).flatMap AuditEvent.toOctets
    ∧ (s.after requests').log.octets?.getD []
        = s.log.octets?.getD [] ++ (s.events requests').flatMap AuditEvent.toOctets
    ∧ List.Forall₂ (fun event event' =>
        ∀ key, key ∉ (["ok", "blocked", "error_code"] : List Text) →
          event.toJson.get? key = event'.toJson.get? key)
      (s.events requests) (s.events requests') := by
  have hself : s.Synchronous s := ⟨rfl, rfl⟩
  have hevents := Server.Synchronous.events halike hself
  refine ⟨s.octets_after requests, s.octets_after requests', hevents.imp ?_⟩
  intro event event' hsame key hkey
  exact get?_toJson_of_sameButEnding hsame hkey

def openDocument (text : Text) : Json :=
  .obj [("id", .str "a"), ("method", .str "document.did_open"),
    ("params", .obj [("doc_id", .str "d"), ("text", .str text)])]

theorem openDocument_alike {t u : Text} (hlength : t.length = u.length)
    (hlines : t.count CodePoint.lineFeed = u.count CodePoint.lineFeed) :
    (Incoming.value (openDocument t)).Alike (.value (openDocument u)) := by
  have hkey : ("text" : Text) ∉ (["doc_id", "strategy", "since"] : List Text) := by decide
  refine .inr ⟨_, _, rfl, rfl, .direct ?_ ?_ rfl rfl ?_⟩
  · intro h
    have hmethod : some (Json.str "document.did_open") = some (.str "tools/call") := h
    rw [Option.some.injEq, Json.str.injEq] at hmethod
    exact absurd hmethod (by decide)
  · intro other hne
    simp only [Keyed.get?, hne, if_false]
  · exact .cons ⟨rfl, .same _⟩ (.cons ⟨rfl, .text hkey hlength (fun _ => hlines)⟩ .nil)

/-- Opening a document with a variable and opening it with something else of that length leave records
that say the same. -/
theorem records_hide_content_of_open :
    List.Forall₂ (fun event event' =>
        ∀ key, key ∉ (["ok", "blocked", "error_code"] : List Text) →
          event.toJson.get? key = event'.toJson.get? key)
      ((Server.start (.ofRoot { segments := ["work"] }) none ⟨0, 0⟩).events
        [.value (openDocument "var x")])
      ((Server.start (.ofRoot { segments := ["work"] }) none ⟨0, 0⟩).events
        [.value (openDocument "12345")]) :=
  (records_hide_content _ _ _
    (.cons (openDocument_alike (by decide) (by decide)) .nil)).2.2

end OutlineServer
