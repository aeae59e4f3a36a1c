import OutlineServer.Audit.Summary
import OutlineServer.Audit.Timestamp
import OutlineServer.Json.Reader
import OutlineServer.Json.Writer
import OutlineServer.Text.Lines
import OutlineServer.Text.Utf8

/-!
# The audit log

The log is a file of lines, one JSON object a line, that only grows.  It is kept as the octets in the
pieces in which they were written, those found at the start being the first; no piece means no file.
Reading takes what is JSON among the lines and passes over the rest, so a line spoilt by someone else
does no harm as long as the file is UTF-8; a file that is not cannot be read at all.
-/
namespace OutlineServer

structure AuditEvent where
  timestamp : Text
  requestId : Text
  tool : Text
  ok : Bool
  blocked : Bool
  errorCode : Option Text
  metadata : Fields

namespace AuditEvent

def toJson (e : AuditEvent) : Json :=
  .object [
    ("timestamp", .str e.timestamp),
    ("request_id", .str e.requestId),
    ("tool", .str e.tool),
    ("ok", .bool e.ok),
    ("blocked", .bool e.blocked),
    ("error_code", (e.errorCode.map Json.str).getD .null),
    ("metadata", .obj e.metadata)]

def toLine (e : AuditEvent) : Text := e.toJson.write ++ [CodePoint.lineFeed]

def toOctets (e : AuditEvent) : List UInt8 := Utf8.encode e.toLine

end AuditEvent

structure AuditLog where
  pieces : Array (List UInt8) := #[]

namespace AuditLog

inductive ReadError where
  /-- The file is not UTF-8. -/
  | undecodable
  /-- A record is no object, so it cannot be compared by time. -/
  | malformed (record : Json)

/-- The log on a file with these octets, or on no file yet. -/
def ofFile (found : Option (List UInt8)) : AuditLog := ⟨found.toList.toArray⟩

def octets? (log : AuditLog) : Option (List UInt8) :=
  if log.pieces.isEmpty then none else some log.pieces.toList.flatten

/-- Adds octets at the end of the file, which comes into being if need be. -/
def write (log : AuditLog) (octets : List UInt8) : AuditLog := ⟨log.pieces.push octets⟩

def append (log : AuditLog) (event : AuditEvent) : AuditLog := log.write event.toOctets

/-- The text of the file, nothing when there is no file. -/
def text (log : AuditLog) : Except ReadError Text :=
  match Utf8.decode? (log.octets?.getD []) with
  | some text => .ok text
  | none => .error .undecodable

/-- The JSON values among the lines of a text. -/
def recordsOf (text : Text) : List Json :=
  text.lines.filterMap (fun line =>
    let line := line.strip
    if line.isEmpty then none else Json.read? line)

def records (log : AuditLog) : Except ReadError (List Json) := log.text.map recordsOf

/-- Whether a record is not from before `since`.  A record without a timestamp is. -/
def isSince (since : Text) (record : Json) : Bool :=
  match record.get? "timestamp" with
  | some (.str time) => !(time < since)
  | _ => false

def recordsSince (since : Text) (records : List Json) : Except ReadError (List Json) :=
  match records.find? (fun record => record.obj?.isNone) with
  | some record => .error (.malformed record)
  | none => .ok (records.filter (isSince since))

def last (limit : Nat) (records : List Json) : List Json :=
  records.drop (records.length - limit)

/-- The last `limit` records, from `since` on when it is given. -/
def read (log : AuditLog) (since : Option Text) (limit : Int) : Except ReadError (List Json) :=
  if limit < 1 then .ok []
  else do
    let records ← log.records
    let shown ← match since with
      | none => .ok records
      | some since => recordsSince since records
    return last limit.toNat shown

end AuditLog

end OutlineServer
