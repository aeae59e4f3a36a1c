import OutlineServer.Server.Basic

/-!
# What a request does to a server

A request reaches a server as a line of text or as a value that was read already.  What happens to
it depends on its value alone: it calls a tool with arguments, directly or through `tools/call`
(`dispatched?`), it is a `tools/call` that does not say what to call (`MalformedCall`), or it is no
request at all.  `handle_cases` says what a server does in each of these cases; everything that is
proved of a request, and from there of a run, starts from it.
-/
namespace OutlineServer

/-! ## The value of a request -/

/-- The tool that a request calls, directly or through `tools/call`, with the arguments. -/
def dispatched? : Json → Option (Text × Fields)
  | .obj fields => do
    let method ← Request.name? (Keyed.get? "method" fields)
    let params ← Request.object? (Keyed.get? "params" fields)
    if method = ("tools/call" : Text) then
      let name ← Request.name? (Keyed.get? "name" params)
      let arguments ← Request.object? (Keyed.get? "arguments" params)
      return (name, arguments)
    else return (method, params)
  | _ => none

/-- A `tools/call` with parameters that name no tool, or whose arguments are no object. -/
def MalformedCall (payload : Json) : Prop :=
  ∃ fields params, payload = .obj fields
    ∧ Keyed.get? "method" fields = some (.str "tools/call")
    ∧ Request.object? (Keyed.get? "params" fields) = some params
    ∧ (Request.name? (Keyed.get? "name" params) = none
      ∨ Request.object? (Keyed.get? "arguments" params) = none)

namespace Request

theorem name?_eq_some {value : Option Json} {name : Text} :
    name? value = some name ↔ value = some (.str name) ∧ name ≠ [] := by
  unfold name?
  split
  · rename_i given
    cases given with
    | nil =>
      constructor
      · intro h
        cases h
      · rintro ⟨h, hne⟩
        cases h
        exact absurd rfl hne
    | cons c rest =>
      constructor
      · intro h
        cases h
        exact ⟨rfl, List.cons_ne_nil _ _⟩
      · rintro ⟨h, -⟩
        cases h
        rfl
  · rename_i hno
    constructor
    · intro h
      cases h
    · rintro ⟨rfl, -⟩
      exact absurd rfl (hno name)

theorem target_direct {id method : Text} {params : Fields} (h : method ≠ callMethod) :
    target ⟨id, method, params⟩ = .ok (method, params) := if_neg h

theorem target_call {id : Text} {params : Fields} :
    target ⟨id, callMethod, params⟩ =
      match name? (Keyed.get? "name" params), object? (Keyed.get? "arguments" params) with
      | none, _ => .error .toolNameMissing
      | some _, none => .error .argumentsNotAnObject
      | some name, some arguments => .ok (name, arguments) := if_pos rfl

end Request

theorem malformedCall_obj {fields : Fields} : MalformedCall (.obj fields) ↔
    ∃ params, Request.name? (Keyed.get? "method" fields) = some Request.callMethod
      ∧ Request.object? (Keyed.get? "params" fields) = some params
      ∧ (Request.name? (Keyed.get? "name" params) = none
        ∨ Request.object? (Keyed.get? "arguments" params) = none) := by
  constructor
  · rintro ⟨_, params, heq, hmethod, hrest⟩
    cases heq
    exact ⟨params, Request.name?_eq_some.2 ⟨hmethod, by decide⟩, hrest⟩
  · rintro ⟨params, hmethod, hrest⟩
    exact ⟨fields, params, rfl, (Request.name?_eq_some.1 hmethod).1, hrest⟩

theorem target_cases {fields : Fields} {method : Text} {params : Fields}
    (hmethod : Request.name? (Keyed.get? "method" fields) = some method)
    (hparams : Request.object? (Keyed.get? "params" fields) = some params) (id : Text) :
    (∃ name arguments, dispatched? (.obj fields) = some (name, arguments)
      ∧ ¬ MalformedCall (.obj fields)
      ∧ Request.target ⟨id, method, params⟩ = .ok (name, arguments))
    ∨ (dispatched? (.obj fields) = none ∧ MalformedCall (.obj fields)
      ∧ ∃ e, Request.target ⟨id, method, params⟩ = .error e) := by
  rw [malformedCall_obj]
  by_cases hcall : method = Request.callMethod
  · subst hcall
    rw [Request.target_call]
    cases hname : Request.name? (Keyed.get? "name" params) with
    | none =>
      refine .inr ⟨?_, ⟨params, hmethod, hparams, .inl hname⟩, _, rfl⟩
      simp [dispatched?, hmethod, hparams, Request.callMethod, hname]
    | some name =>
      cases harguments : Request.object? (Keyed.get? "arguments" params) with
      | none =>
        refine .inr ⟨?_, ⟨params, hmethod, hparams, .inr harguments⟩, _, rfl⟩
        simp [dispatched?, hmethod, hparams, Request.callMethod, hname, harguments]
      | some arguments =>
        refine .inl ⟨name, arguments, ?_, ?_, rfl⟩
        · simp [dispatched?, hmethod, hparams, Request.callMethod, hname, harguments]
        · rintro ⟨_, -, h, hbad⟩
          rw [hparams, Option.some.injEq] at h
          subst h
          rcases hbad with hbad | hbad
          · rw [hname] at hbad
            cases hbad
          · rw [harguments] at hbad
            cases hbad
  · refine .inl ⟨method, params, ?_, ?_, Request.target_direct hcall⟩
    · have hcall : method ≠ ("tools/call" : Text) := hcall
      simp [dispatched?, hmethod, hparams, hcall]
    · rintro ⟨_, h, -⟩
      rw [hmethod, Option.some.injEq] at h
      exact hcall h

/-! ## Parts that a request leaves alone -/

namespace Server

def identify (s : Server) (payload : Json) : Text × Server := s.idFor (payload.get? "id")

@[simp] theorem identify_config (s : Server) (payload : Json) :
    (s.identify payload).2.config = s.config := by
  unfold identify idFor
  split <;> rfl

@[simp] theorem identify_workspace (s : Server) (payload : Json) :
    (s.identify payload).2.workspace = s.workspace := by
  unfold identify idFor
  split <;> rfl

@[simp] theorem identify_log (s : Server) (payload : Json) :
    (s.identify payload).2.log = s.log := by
  unfold identify idFor
  split <;> rfl

@[simp] theorem record_config (s : Server) (requestId tool : Text) (arguments : Fields)
    (response : Json) : (s.record requestId tool arguments response).config = s.config := rfl

@[simp] theorem record_workspace (s : Server) (requestId tool : Text) (arguments : Fields)
    (response : Json) : (s.record requestId tool arguments response).workspace = s.workspace := rfl

/-! ## The cases of a request -/

/-- **What a server does with a request**, under the id that it finds for it: it calls the tool, or
answers a malformed call and does nothing else, or rejects what is no request. -/
theorem handle_cases (s : Server) (payload : Json) :
    (∃ name arguments, dispatched? payload = some (name, arguments) ∧ ¬ MalformedCall payload
      ∧ s.handle payload = (s.identify payload).2.callTool (s.identify payload).1 name arguments)
    ∨ (dispatched? payload = none ∧ MalformedCall payload
      ∧ ∃ e : RequestError,
          s.handle payload = (e.response (s.identify payload).1, (s.identify payload).2))
    ∨ (dispatched? payload = none ∧ ¬ MalformedCall payload
      ∧ ∃ e, s.handle payload
          = (s.identify payload).2.reject (s.identify payload).1 e "invalid_request" []) := by
  cases payload with
  | obj fields =>
    have hid : s.idFor (Keyed.get? "id" fields) = s.identify (.obj fields) := rfl
    cases hmethod : Request.name? (Keyed.get? "method" fields) with
    | none =>
      refine .inr (.inr ⟨?_, ?_, .methodMissing, ?_⟩)
      · simp [dispatched?, hmethod]
      · rw [malformedCall_obj, hmethod]
        rintro ⟨_, h, -⟩
        cases h
      · simp [handle, hid, Request.ofFields, hmethod]
    | some method =>
      cases hparams : Request.object? (Keyed.get? "params" fields) with
      | none =>
        refine .inr (.inr ⟨?_, ?_, .paramsNotAnObject, ?_⟩)
        · simp [dispatched?, hmethod, hparams]
        · rw [malformedCall_obj, hparams]
          rintro ⟨_, -, h, -⟩
          cases h
        · simp [handle, hid, Request.ofFields, hmethod, hparams]
      | some params =>
        rcases target_cases hmethod hparams (s.identify (.obj fields)).1 with
          ⟨name, arguments, hcall, hwell, htarget⟩ | ⟨hcall, hmalformed, e, htarget⟩
        · refine .inl ⟨name, arguments, hcall, hwell, ?_⟩
          simp [handle, hid, Request.ofFields, hmethod, hparams, htarget]
        · refine .inr (.inl ⟨hcall, hmalformed, e, ?_⟩)
          simp [handle, hid, Request.ofFields, hmethod, hparams, htarget]
  | _ =>
    refine .inr (.inr ⟨rfl, ?_, .notAnObject, rfl⟩)
    rintro ⟨_, _, h, -⟩
    cases h

end Server

/-! ## Requests of both forms, and runs -/

/-- A request as it reaches a server: a line of text, or a value. -/
inductive Incoming where
  | line (text : Text)
  | value (payload : Json)

namespace Incoming

/-- The value of a request; a line that is no JSON has none. -/
def payload? : Incoming → Option Json
  | line text => Json.read? text
  | value payload => some payload

def dispatched? (r : Incoming) : Option (Text × Fields) := r.payload?.bind OutlineServer.dispatched?

end Incoming

namespace Server

def receive (s : Server) : Incoming → Response × Server
  | .line text => s.handleLine text
  | .value payload => s.handle payload

def after (s : Server) (requests : List Incoming) : Server :=
  requests.foldl (fun s r => (s.receive r).2) s

theorem receive_of_payload {s : Server} {r : Incoming} {payload : Json}
    (h : r.payload? = some payload) : s.receive r = s.handle payload := by
  cases r with
  | line text =>
    have h : Json.read? text = some payload := h
    simp only [receive, handleLine, h]
  | value given =>
    cases h
    rfl

theorem receive_of_no_payload {s : Server} {r : Incoming} (h : r.payload? = none) :
    ∃ e name arguments, s.receive r = s.nextId.2.reject s.nextId.1 e name arguments := by
  cases r with
  | line text =>
    have h : Json.read? text = none := h
    simp only [receive, handleLine, h]
    exact ⟨_, _, _, rfl⟩
  | value given => cases h

/-- **A request that calls a tool is answered by that call**, and nothing but ids changes before. -/
theorem receive_of_dispatched {s : Server} {r : Incoming} {name : Text} {arguments : Fields}
    (h : r.dispatched? = some (name, arguments)) :
    ∃ (id : Text) (s' : Server), s'.config = s.config ∧ s'.workspace = s.workspace ∧ s'.log = s.log
      ∧ s.receive r = s'.callTool id name arguments := by
  obtain ⟨payload, hpayload, hcall⟩ := Option.bind_eq_some_iff.1 h
  refine ⟨(s.identify payload).1, (s.identify payload).2, by simp, by simp, by simp, ?_⟩
  rw [receive_of_payload hpayload]
  rcases s.handle_cases payload with ⟨_, _, h, -, heq⟩ | ⟨h, -⟩ | ⟨h, -⟩
  · rw [hcall, Option.some.injEq, Prod.mk.injEq] at h
    rw [heq, h.1, h.2]
  · rw [hcall] at h
    cases h
  · rw [hcall] at h
    cases h

/-- **A request that calls no tool fails** and leaves configuration and workspace alone. -/
theorem receive_of_not_dispatched {s : Server} {r : Incoming} (h : r.dispatched? = none) :
    (s.receive r).1.outcome.isOk = false ∧ (s.receive r).2.config = s.config
      ∧ (s.receive r).2.workspace = s.workspace := by
  cases hpayload : r.payload? with
  | none =>
    obtain ⟨e, name, arguments, heq⟩ := receive_of_no_payload (s := s) hpayload
    rw [heq]
    exact ⟨rfl, rfl, rfl⟩
  | some payload =>
    rw [Incoming.dispatched?, hpayload, Option.bind_some] at h
    rw [receive_of_payload hpayload]
    rcases s.handle_cases payload with ⟨_, _, hcall, -⟩ | ⟨-, -, e, heq⟩ | ⟨-, -, e, heq⟩
    · rw [h] at hcall
      cases hcall
    · rw [heq]
      exact ⟨rfl, by simp, by simp⟩
    · rw [heq]
      exact ⟨rfl, by simp [reject], by simp [reject]⟩

end Server

end OutlineServer
