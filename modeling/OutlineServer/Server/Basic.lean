import OutlineServer.Server.Response
import OutlineServer.Server.Tool

/-!
# The server

A server answers one request at a time and threads its state through: the workspace, the audit log,
a clock and the number of ids it made up.  A request is an object with a method and parameters; the
method is the name of a tool, or `tools/call` with the name and the arguments in the parameters.

Every request is recorded in the audit log after it was answered, except a `tools/call` that does not
say what to call.
-/
namespace OutlineServer

structure Server where
  config : Config
  workspace : Workspace
  log : AuditLog
  clock : Clock
  /-- The number of ids made up so far. -/
  issuedIds : Nat := 0

inductive RequestError where
  | invalidJson
  | notAnObject
  | methodMissing
  | paramsNotAnObject
  | toolNameMissing
  | argumentsNotAnObject
deriving DecidableEq

namespace RequestError

def code : RequestError → Text
  | invalidJson => "INVALID_JSON"
  | notAnObject => "INVALID_REQUEST"
  | methodMissing => "INVALID_REQUEST"
  | paramsNotAnObject => "INVALID_PARAMS"
  | toolNameMissing => "INVALID_PARAMS"
  | argumentsNotAnObject => "INVALID_PARAMS"

def message : RequestError → Text
  | invalidJson => "Request must be valid JSON."
  | notAnObject => "Request must be an object."
  | methodMissing => "Request method must be a non-empty string."
  | paramsNotAnObject => "Request params must be an object."
  | toolNameMissing => "tools/call params.name must be a non-empty string."
  | argumentsNotAnObject => "tools/call params.arguments must be an object."

def response (e : RequestError) (requestId : Text) : Response :=
  .failure requestId e.code e.message

end RequestError

namespace ToolError

def response (e : ToolError) (requestId : Text) : Response :=
  match e with
  | unknownTool _ => .failure requestId "UNKNOWN_TOOL" e.message
  | refused refusal => .blocked requestId refusal
  | unencodable | unreadableLog _ => .failure requestId "INTERNAL_ERROR" e.message
  | _ => .failure requestId "INVALID_PARAMS" e.message

end ToolError

structure Request where
  id : Text
  method : Text
  params : Fields

namespace Request

/-- The name of a method or tool, which may not be empty. -/
def name? (value : Option Json) : Option Text :=
  match value with
  | some (.str name) => if name.isEmpty then none else some name
  | _ => none

def object? (value : Option Json) : Option Fields :=
  match value with
  | none => some []
  | some (.obj fields) => some fields
  | some _ => none

def ofFields (id : Text) (fields : Fields) : Except RequestError Request :=
  match name? (Keyed.get? "method" fields), object? (Keyed.get? "params" fields) with
  | none, _ => .error .methodMissing
  | some _, none => .error .paramsNotAnObject
  | some method, some params => .ok { id, method, params }

def callMethod : Text := "tools/call"

def target (r : Request) : Except RequestError (Text × Fields) :=
  if r.method = callMethod then
    match name? (Keyed.get? "name" r.params), object? (Keyed.get? "arguments" r.params) with
    | none, _ => .error .toolNameMissing
    | some _, none => .error .argumentsNotAnObject
    | some name, some arguments => .ok (name, arguments)
  else .ok (r.method, r.params)

end Request

namespace Server

/-- A server with an empty workspace on the octets found in its log file. -/
def start (config : Config) (found : Option (List UInt8)) (clock : Clock) : Server where
  config
  workspace := {
    results := { scope := config.scope }
    classifier := .standard config.strategy }
  log := .ofFile found
  clock

def logFileName : Text := "audit.jsonl"

def logPath (config : Config) : AbsolutePath := config.dataDir.child logFileName

/-! ## Ids -/

def madeUpId (n : Nat) : Text := ("req-" : Text) ++ Text.padded 6 n

def nextId (s : Server) : Text × Server :=
  (madeUpId (s.issuedIds + 1), { s with issuedIds := s.issuedIds + 1 })

/-- The id that a request brings along: a text that is not empty, or a whole number. -/
def givenId? (value : Option Json) : Option Text :=
  match value with
  | some (.str id) => if id.isEmpty then none else some id
  | some (.int n) => some (Text.ofInt n)
  | _ => none

def idFor (s : Server) (value : Option Json) : Text × Server :=
  match givenId? value with
  | some id => (id, s)
  | none => s.nextId

/-! ## The log -/

def errorCode? (response : Json) : Option Text := do
  let error ← response.get? "error"
  let code ← error.get? "code"
  code.str?

def isSet (response : Json) (name : Text) : Bool :=
  match response.get? name with
  | some value => value.truthy
  | none => false

def record (s : Server) (requestId tool : Text) (arguments : Fields) (response : Json) : Server :=
  let (now, clock) := s.clock.read
  let event : AuditEvent := {
    timestamp := timestamp now
    requestId
    tool
    ok := isSet response "ok"
    blocked := isSet response "blocked"
    errorCode := errorCode? response
    metadata := Fields.summary arguments }
  { s with log := s.log.append event, clock }

/-! ## Answering -/

/-- The response that takes the place of a document which is too large to be sent. -/
def blocked? (s : Server) (requestId : Text) (document : Json) : Option Response :=
  if Response.fits s.config.limits.responseBytes document then none
  else some (.blocked requestId .responseTooLarge)

/-- A response, or a blocked one in its place when it is too large. -/
def limitResponse (s : Server) (response : Response) : Response :=
  (s.blocked? response.requestId response.toJson).getD response

def dispatch (s : Server) (name : Text) (arguments : Fields) :
    Except ToolError (Json × Workspace) :=
  match Tool.registry.find name with
  | .ok tool => tool.call s.config s.workspace s.log arguments
  | .error _ => .error (.unknownTool name)

def callTool (s : Server) (requestId name : Text) (arguments : Fields) : Response × Server :=
  let (response, workspace) :=
    match s.dispatch name arguments with
    | .ok (result, workspace) => (s.limitResponse (.success requestId result), workspace)
    | .error e => (e.response requestId, s.workspace)
  (response, { s with workspace }.record requestId name arguments response.toJson)

/-- Answers a request that could not be understood and records it under a name. -/
def reject (s : Server) (requestId : Text) (e : RequestError) (name : Text) (arguments : Fields) :
    Response × Server :=
  let response := e.response requestId
  (response, s.record requestId name arguments response.toJson)

def handle (s : Server) (payload : Json) : Response × Server :=
  match payload with
  | .obj fields =>
    let (id, s) := s.idFor (Keyed.get? "id" fields)
    match Request.ofFields id fields with
    | .error e => s.reject id e "invalid_request" []
    | .ok request =>
      match request.target with
      | .error e => (e.response id, s)
      | .ok (name, arguments) => s.callTool id name arguments
  | _ =>
    let (id, s) := s.nextId
    s.reject id .notAnObject "invalid_request" []

def handleLine (s : Server) (line : Text) : Response × Server :=
  match Json.read? line with
  | some payload => s.handle payload
  | none =>
    let (id, s) := s.nextId
    s.reject id .invalidJson "invalid_json" [("raw_line_length", .nat line.length)]

/-! ## Serving -/

/-- Answers the lines that are not blank, each without the blanks around it.  The responses are in
the order of the lines. -/
def serve (s : Server) (lines : List Text) : List Response × Server :=
  let (responses, s) := lines.foldl
    (fun (responses, s) line =>
      let line := Text.strip line
      if line.isEmpty then (responses, s)
      else
        let (response, s) := handleLine s line
        (response :: responses, s))
    ([], s)
  (responses.reverse, s)

def outputLine (response : Response) : Text := response.toJson.write ++ [CodePoint.lineFeed]

end Server

end OutlineServer
