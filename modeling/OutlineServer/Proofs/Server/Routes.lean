import OutlineServer.Proofs.Server.Events

/-!
# Two ways to call a tool

A tool is called by a request whose method is its name, or through `tools/call` with the name among
the parameters.  All that a server takes from such a request is the tool, the arguments and the id
that it brings (`handle_congr`), and both ways bring the same of these.  So they have the same
response, and leave the same server behind (`handle_direct_eq_wrapped`).
-/
namespace OutlineServer

/-! ## The two forms -/

namespace Request

def ofGiven (fields : List (Text × Option Json)) : Json :=
  .object (fields.filterMap (fun (key, value?) => value?.map (fun value => (key, value))))

/-- The request that calls a tool by its method.  The id and the arguments may be left out. -/
def direct (id : Option Json) (name : Text) (arguments : Option Fields) : Json :=
  ofGiven [("id", id), ("method", some (.str name)), ("params", arguments.map .obj)]

def wrapped (id : Option Json) (name : Text) (arguments : Option Fields) : Json :=
  ofGiven [("id", id), ("method", some (.str "tools/call")),
    ("params", some (ofGiven [("name", some (.str name)), ("arguments", arguments.map .obj)]))]

theorem dispatched?_of_method {fields params : Fields} {name : Text} (hne : name ≠ [])
    (hother : name ≠ callMethod) (hmethod : Keyed.get? "method" fields = some (.str name))
    (hparams : object? (Keyed.get? "params" fields) = some params) :
    dispatched? (.obj fields) = some (name, params) := by
  have hname : name? (some (.str name)) = some name := name?_eq_some.2 ⟨rfl, hne⟩
  have hother : name ≠ ("tools/call" : Text) := hother
  simp [dispatched?, hmethod, hname, hparams, hother]

theorem dispatched?_of_call {fields params arguments : Fields} {name : Text} (hne : name ≠ [])
    (hmethod : Keyed.get? "method" fields = some (.str "tools/call"))
    (hparams : Keyed.get? "params" fields = some (.obj params))
    (hname : Keyed.get? "name" params = some (.str name))
    (harguments : object? (Keyed.get? "arguments" params) = some arguments) :
    dispatched? (.obj fields) = some (name, arguments) := by
  have hcalled : name? (Keyed.get? "name" params) = some name := name?_eq_some.2 ⟨hname, hne⟩
  have hcall : name? (some (.str "tools/call")) = some ("tools/call" : Text) := rfl
  have hobject : object? (some (.obj params)) = some params := rfl
  simp [dispatched?, hmethod, hcall, hparams, hobject, hcalled, harguments]

theorem dispatched?_direct (id : Option Json) {name : Text} (hne : name ≠ [])
    (hother : name ≠ callMethod) (arguments : Option Fields) :
    dispatched? (direct id name arguments) = some (name, arguments.getD []) := by
  cases id <;> cases arguments <;> exact dispatched?_of_method hne hother rfl rfl

theorem dispatched?_wrapped (id : Option Json) {name : Text} (hne : name ≠ [])
    (arguments : Option Fields) :
    dispatched? (wrapped id name arguments) = some (name, arguments.getD []) := by
  cases id <;> cases arguments <;> exact dispatched?_of_call hne rfl rfl rfl rfl

theorem get?_id_direct (id : Option Json) (name : Text) (arguments : Option Fields) :
    (direct id name arguments).get? "id" = id := by
  cases id <;> cases arguments <;> rfl

theorem get?_id_wrapped (id : Option Json) (name : Text) (arguments : Option Fields) :
    (wrapped id name arguments).get? "id" = id := by
  cases id <;> cases arguments <;> rfl

end Request

/-! ## The same call -/

namespace Server

theorem handle_of_dispatched {payload : Json} {name : Text} {arguments : Fields}
    (h : dispatched? payload = some (name, arguments)) (s : Server) :
    s.handle payload
      = (s.identify payload).2.callTool (s.identify payload).1 name arguments := by
  rcases s.handle_cases payload with ⟨_, _, hcall, -, heq⟩ | ⟨hnone, -⟩ | ⟨hnone, -⟩
  · rw [h, Option.some.injEq, Prod.mk.injEq] at hcall
    rw [heq, hcall.1, hcall.2]
  · rw [h] at hnone
    cases hnone
  · rw [h] at hnone
    cases hnone

/-- **Requests that call the same tool with the same arguments under the same id are the same** to a
server. -/
theorem handle_congr {payload other : Json} {call : Text × Fields}
    (h : dispatched? payload = some call) (h' : dispatched? other = some call)
    (hid : payload.get? "id" = other.get? "id") (s : Server) :
    s.handle payload = s.handle other := by
  obtain ⟨name, arguments⟩ := call
  have hidentify : s.identify payload = s.identify other := by
    unfold identify
    rw [hid]
  rw [handle_of_dispatched h, handle_of_dispatched h', hidentify]

/-- **The two ways to call a tool are the same.**  Whatever the server, the id, the arguments and the
tool, which need not exist, the two requests have the same response and leave the same server: its
workspace, its log, its clock and the number of ids it made up.  One event is added to the log, the
same in both cases.  To leave the arguments out is to give none. -/
theorem handle_direct_eq_wrapped (s : Server) (id : Option Json) (name : Text) (hne : name ≠ [])
    (hother : name ≠ ("tools/call" : Text)) (arguments : Fields) :
    s.handle (Request.direct id name (some arguments))
        = s.handle (Request.wrapped id name (some arguments))
    ∧ s.handle (Request.direct id name none) = s.handle (Request.direct id name (some []))
    ∧ s.handle (Request.wrapped id name none) = s.handle (Request.wrapped id name (some []))
    ∧ (s.handle (Request.direct id name (some arguments))).2.log
        = s.log.append (.ofResponse s.clock.now name arguments
          (s.handle (Request.direct id name (some arguments))).1) := by
  have hdirect := Request.dispatched?_direct id hne hother
  have hwrapped := Request.dispatched?_wrapped id hne
  refine ⟨?_, ?_, ?_, ?_⟩
  · refine handle_congr (hdirect (some arguments)) (hwrapped (some arguments)) ?_ s
    rw [Request.get?_id_direct, Request.get?_id_wrapped]
  · refine handle_congr (hdirect none) (hdirect (some [])) ?_ s
    rw [Request.get?_id_direct, Request.get?_id_direct]
  · refine handle_congr (hwrapped none) (hwrapped (some [])) ?_ s
    rw [Request.get?_id_wrapped, Request.get?_id_wrapped]
  · have hlog := s.log_receive (.value (Request.direct id name (some arguments)))
    have hrecorded : (Incoming.value (Request.direct id name (some arguments))).recordedAs?
        = some (name, arguments) := by
      simp only [Incoming.recordedAs?, recordedAs?, hdirect (some arguments), Option.getD_some]
    simp only [logAfter, eventOf?, hrecorded, Option.map_some] at hlog
    exact hlog

/-- A document that is too large is refused in the same way however the tool is called, and so is a
tool that there is not. -/
theorem handle_direct_eq_wrapped_of_refused :
    let config := { Config.ofRoot { segments := ["work"] } with limits := { documentBytes := 4 } }
    let s := start config none ⟨0, 0⟩
    let arguments : Fields := [("doc_id", .str "d"), ("text", .str "var x")]
    (s.handle (Request.direct (some .null) "document.did_open" (some arguments))).1.outcome.isBlocked
        = true
    ∧ s.handle (Request.direct (some .null) "document.did_open" (some arguments))
        = s.handle (Request.wrapped (some .null) "document.did_open" (some arguments))
    ∧ s.handle (Request.direct none "no.such.tool" (some arguments))
        = s.handle (Request.wrapped none "no.such.tool" (some arguments)) :=
  ⟨by decide +kernel,
    (handle_direct_eq_wrapped _ _ "document.did_open" (by decide) (by decide) _).1,
    (handle_direct_eq_wrapped _ _ "no.such.tool" (by decide) (by decide) _).1⟩

end Server

end OutlineServer
