import OutlineServer.Audit.Log
import OutlineServer.Proofs.Json.Joined
import OutlineServer.Proofs.Text.Parts
import OutlineServer.Proofs.Text.Utf8

/-!
# The records of a log

A log is read line by line, so the records of a file that ends with a complete line and of what is
added to it are read one after the other (`recordsOf_append`).  An event is written as one line, and
the line is read back as the event (`recordsOf_toLine`): it holds no break, it has no blanks at its
ends that reading would take off, and what is written of a value is read back as the value.
-/
namespace OutlineServer

namespace Json

theorem writeFields_ends (fields : List (Text × Json)) :
    ∃ inner, writeFields fields = inner ++ [CodePoint.ofChar '}'] := by
  induction fields with
  | nil => exact ⟨[], by rw [writeFields]; rfl⟩
  | cons field fields ih =>
    obtain ⟨key, value⟩ := field
    cases fields with
    | nil => exact ⟨_, by rw [writeFields]⟩
    | cons next fields =>
      obtain ⟨inner, hinner⟩ := ih
      refine ⟨quoted key ++ (": " : Text) ++ value.write ++ (", " : Text) ++ inner, ?_⟩
      rw [writeFields, hinner, List.append_assoc _ inner]
      simp

theorem strip_write_obj (fields : Fields) :
    (Json.obj fields).write.strip = (Json.obj fields).write ∧ (Json.obj fields).write ≠ [] := by
  obtain ⟨inner, hinner⟩ := writeFields_ends fields
  rw [write, hinner]
  exact ⟨Text.strip_of_ends (by decide) (by decide) inner, List.cons_ne_nil _ _⟩

end Json

/-- A file is empty or ends with a line feed. -/
def Utf8.EndsLine (octets : List UInt8) : Prop := octets = [] ∨ ∃ front, octets = front ++ [0x0A]

theorem Utf8.EndsLine.text {octets : List UInt8} (h : EndsLine octets) {file : Text}
    (hfile : decode? octets = some file) : file.EndsLine := by
  rcases h with rfl | ⟨front, rfl⟩
  · cases hfile
    exact .inl rfl
  · have hencode : ([0x0A] : List UInt8) = encode [CodePoint.lineFeed] := rfl
    rw [hencode, decode?_append_encode front rfl] at hfile
    obtain ⟨before, -, rfl⟩ := Option.map_eq_some_iff.1 hfile
    exact .inr ⟨before, rfl⟩

theorem isPlain_timestamp (now : Int) : (timestamp now).isPlain = true := by
  have hliteral : (("-" : Text).isPlain && ("T" : Text).isPlain && (":" : Text).isPlain
      && ("." : Text).isPlain && ("Z" : Text).isPlain) = true := by decide
  simp only [Bool.and_eq_true] at hliteral
  obtain ⟨⟨⟨⟨hdash, ht⟩, hcolon⟩, hpoint⟩, hz⟩ := hliteral
  simp only [timestamp, CalendarDate.toText, timeOfDayText, Text.isPlain_append,
    Text.isPlain_padded, hdash, ht, hcolon, hpoint, hz, Bool.and_self]

theorem AuditEvent.get?_timestamp_joined (e : AuditEvent) :
    e.toJson.joined.get? "timestamp" = some (.str e.timestamp.joined) := rfl

theorem joined_timestamp (now : Int) : (timestamp now).joined = timestamp now :=
  Text.joined_of_isJoined (Text.isJoined_of_isPlain (isPlain_timestamp now))

namespace AuditLog

/-- **What is added to complete lines is read after them.** -/
theorem recordsOf_append {t : Text} (ht : t.EndsLine) (u : Text) :
    recordsOf (t ++ u) = recordsOf t ++ recordsOf u := by
  obtain ⟨done, hlines, happend⟩ := Text.lines_append ht
  unfold recordsOf
  rw [happend, hlines, List.filterMap_append, List.filterMap_append]
  have hempty : Text.strip [] = [] := rfl
  simp [hempty]

/-- **An event's line is read back as the event.** -/
theorem recordsOf_toLine (e : AuditEvent) : recordsOf e.toLine = [e.toJson.joined] := by
  have hplain := e.toJson.isPlain_write
  obtain ⟨hstrip, hne⟩ :
      e.toJson.write.strip = e.toJson.write ∧ e.toJson.write ≠ [] := Json.strip_write_obj _
  have hempty : Text.strip [] = [] := rfl
  unfold recordsOf AuditEvent.toLine
  rw [Text.lines_of_no_break (Text.not_mem_lineFeed hplain) (Text.not_mem_carriageReturn hplain)]
  simp [hstrip, hne, hempty, Json.read?_write]

theorem endsLine_toLine (e : AuditEvent) : e.toLine.EndsLine := .inr ⟨_, rfl⟩

theorem recordsOf_toLines {t : Text} (ht : t.EndsLine) : ∀ events : List AuditEvent,
    recordsOf (t ++ events.flatMap AuditEvent.toLine)
      = recordsOf t ++ events.map (fun e => e.toJson.joined)
  | [] => by simp
  | e :: rest => by
    have hnext := recordsOf_toLines (Text.endsLine_append ht (endsLine_toLine e)) rest
    rw [List.flatMap_cons, ← List.append_assoc, hnext, recordsOf_append ht, recordsOf_toLine,
      List.append_assoc, List.map_cons, List.singleton_append]

/-! ## Octets -/

theorem octets_ofFile (found : Option (List UInt8)) :
    (ofFile found).octets?.getD [] = found.getD [] := by
  cases found with
  | none => rfl
  | some octets => exact List.append_nil octets

theorem isEncodable_toLines (events : List AuditEvent) :
    Text.isEncodable (events.flatMap AuditEvent.toLine) = true := by
  rw [Text.isEncodable_iff]
  intro c hc
  obtain ⟨e, -, hc⟩ := List.mem_flatMap.1 hc
  have hline : e.toLine.isEncodable = true :=
    Text.isEncodable_append.2 ⟨Text.isEncodable_of_isPlain e.toJson.isPlain_write, by decide⟩
  exact Text.isEncodable_iff.1 hline c hc

theorem decode?_append_toOctets (octets : List UInt8) (events : List AuditEvent) :
    Utf8.decode? (octets ++ events.flatMap AuditEvent.toOctets)
      = (Utf8.decode? octets).map (· ++ events.flatMap AuditEvent.toLine) := by
  have hencode : events.flatMap AuditEvent.toOctets
      = Utf8.encode (events.flatMap AuditEvent.toLine) := List.flatMap_assoc.symm
  rw [hencode]
  exact Utf8.decode?_append_encode octets (isEncodable_toLines events)

/-- **The records of a file to which events were added**, when it is UTF-8, are its own and the events;
any other file cannot be read before or after. -/
theorem records_of_octets {log later : AuditLog} {events : List AuditEvent}
    (hlater : later.octets?.getD [] = log.octets?.getD [] ++ events.flatMap AuditEvent.toOctets)
    (hlog : Utf8.EndsLine (log.octets?.getD [])) :
    later.records = log.records.map (· ++ events.map (fun e => e.toJson.joined)) := by
  unfold records text
  rw [hlater, decode?_append_toOctets]
  cases hfile : Utf8.decode? (log.octets?.getD []) with
  | none => rfl
  | some file => exact congrArg Except.ok (recordsOf_toLines (hlog.text hfile) events)

theorem records_eq_ok_iff {log : AuditLog} {records : List Json} : log.records = .ok records
    ↔ ∃ file, Utf8.decode? (log.octets?.getD []) = some file ∧ recordsOf file = records := by
  unfold AuditLog.records text
  cases Utf8.decode? (log.octets?.getD []) with
  | none => exact iff_of_false nofun (by rintro ⟨_, ⟨⟩, _⟩)
  | some file => simp [Except.map]

theorem records_eq_error_iff {log : AuditLog} {cause : ReadError} : log.records = .error cause
    ↔ Utf8.decode? (log.octets?.getD []) = none ∧ cause = .undecodable := by
  unfold AuditLog.records text
  cases Utf8.decode? (log.octets?.getD []) with
  | none => simp [Except.map, eq_comm]
  | some file => exact iff_of_false nofun (by rintro ⟨⟨⟩, _⟩)

theorem last_one_concat (records : List Json) (record : Json) :
    last 1 (records ++ [record]) = [record] := by
  simp [last]

/-- **To read a log is to take the last of its records**, if it can be read. -/
theorem read_of_pos (log : AuditLog) {limit : Int} (h : 1 ≤ limit) :
    log.read none limit = log.records.map (last limit.toNat) := by
  rw [read, if_neg (by omega)]
  cases log.records <;> rfl

theorem read_since_of_pos (log : AuditLog) (since : Text) {limit : Int} (h : 1 ≤ limit) :
    log.read (some since) limit
      = (log.records >>= recordsSince since).map (last limit.toNat) := by
  rw [read, if_neg (by omega)]
  cases log.records with
  | error cause => rfl
  | ok records =>
    change (recordsSince since records >>= fun shown => pure (last limit.toNat shown))
      = (recordsSince since records).map (last limit.toNat)
    cases recordsSince since records <;> rfl

theorem read_of_records_eq_error {log : AuditLog} {cause : ReadError}
    (h : log.records = .error cause) (since : Option Text) {limit : Int} (hlimit : 1 ≤ limit) :
    log.read since limit = .error cause := by
  cases since with
  | none =>
    rw [read_of_pos log hlimit, h]
    rfl
  | some time =>
    rw [read_since_of_pos log time hlimit, h]
    rfl

end AuditLog

end OutlineServer
