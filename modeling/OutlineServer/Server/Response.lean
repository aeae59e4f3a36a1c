import OutlineServer.Json.Writer
import OutlineServer.Limits

/-!
# Responses

Every request is answered by one object of the same shape: the request's id, whether it succeeded,
the result, warnings, whether it was blocked, and the error unless it succeeded.
-/
namespace OutlineServer

inductive Outcome where
  | success (result : Json) (warnings : List Text)
  | failure (code message : Text)
  | blocked (reason hint : Text)

structure Response where
  requestId : Text
  outcome : Outcome

namespace Outcome

def isOk : Outcome → Bool
  | success _ _ => true
  | _ => false

def isBlocked : Outcome → Bool
  | blocked _ _ => true
  | _ => false

def error? : Outcome → Option (Text × Text)
  | success _ _ => none
  | failure code message => some (code, message)
  | blocked reason _ => some ("POLICY_BLOCKED", reason)

def result : Outcome → Json
  | success result _ => result
  | failure _ _ => .obj []
  | blocked reason hint => .object [("reason", .str reason), ("hint", .str hint)]

def warnings : Outcome → List Text
  | success _ warnings => warnings
  | _ => []

end Outcome

namespace Response

def success (requestId : Text) (result : Json) : Response := ⟨requestId, .success result []⟩

def failure (requestId code message : Text) : Response := ⟨requestId, .failure code message⟩

def blocked (requestId : Text) (refusal : Refusal) : Response :=
  ⟨requestId, .blocked refusal.reason refusal.hint⟩

def commonFields (r : Response) : List (Text × Json) := [
  ("request_id", .str r.requestId),
  ("ok", .bool r.outcome.isOk),
  ("result", r.outcome.result),
  ("warnings", .strings r.outcome.warnings),
  ("blocked", .bool r.outcome.isBlocked)]

/-- The field that only a response to a request that did not succeed has. -/
def errorFields (r : Response) : List (Text × Json) :=
  match r.outcome.error? with
  | some (code, message) =>
    [("error", .object [("code", .str code), ("message", .str message)])]
  | none => []

def toJson (r : Response) : Json := .object (r.commonFields ++ r.errorFields)

/-- Whether a document to be sent is within a limit.  What is written is ASCII, so its length is
its number of octets. -/
def fits (limit : Int) (document : Json) : Bool := (document.write.length : Int) ≤ limit

end Response

end OutlineServer
