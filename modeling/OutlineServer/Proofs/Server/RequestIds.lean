import OutlineServer.Proofs.Server.InternalErrors

/-!
# The ids of requests

A line is answered under the id that it brings along, if it is one (`UsableId`), and the ids that a
server makes up for the other lines are numbered.  The number of a made-up id is the number of lines
so far that brought none: nothing but such a line uses up a number, and each uses up one
(`issuedIds_after`).  Padding does not hide the number, also where the digits are more than there is
padding for, so a server makes no id up twice.
-/
namespace OutlineServer

namespace Text

theorem ofNat_eq_repr (n : Nat) : ofNat n = ofString n.repr := by
  unfold ofNat ofString Nat.repr
  simp

theorem ofInt_eq_repr (n : Int) : ofInt n = ofString n.repr := by
  cases n with
  | ofNat n => exact ofNat_eq_repr n
  | negSucc n =>
    rw [ofInt, ofNat_eq_repr, Int.repr]
    simp [ofString]

end Text

/-! ## Ids that are brought along -/

/-- A line is an object with this id: a text that is not empty, or a whole number in decimal. -/
inductive UsableId (line : Text) : Text → Prop
  | text {fields : Fields} {id : Text} (hread : Json.read? line = some (.obj fields))
      (hid : Keyed.get? "id" fields = some (.str id)) (hne : id ≠ []) : UsableId line id
  | number {fields : Fields} {n : Int} (hread : Json.read? line = some (.obj fields))
      (hid : Keyed.get? "id" fields = some (.int n)) : UsableId line (Text.ofString n.repr)

def Unnamed (line : Text) : Prop := ∀ id, ¬ UsableId line id

theorem Server.givenId?_eq_some {value : Option Json} {id : Text} :
    Server.givenId? value = some id ↔
      (value = some (.str id) ∧ id ≠ []) ∨ ∃ n : Int, value = some (.int n) ∧ id = Text.ofInt n := by
  cases value with
  | none => simp [givenId?]
  | some value =>
    cases value with
    | str given =>
      by_cases hempty : given = []
      · subst hempty
        simp [givenId?]
      · have hne : given.isEmpty = false := by simpa using hempty
        simp only [givenId?, hne, Bool.false_eq_true, if_false, Option.some.injEq, Json.str.injEq,
          reduceCtorEq, false_and, exists_false, or_false]
        constructor
        · rintro rfl
          exact ⟨rfl, hempty⟩
        · exact fun h => h.1
    | int n => simp [givenId?, eq_comm]
    | _ => simp [givenId?]

theorem givenId?_line {line id : Text} :
    (Incoming.line line).givenId? = some id ↔ UsableId line id := by
  have hpayload : (Incoming.line line).payload? = Json.read? line := rfl
  rw [Incoming.givenId?, Option.bind_eq_some_iff, hpayload]
  constructor
  · rintro ⟨payload, hread, hgiven⟩
    cases payload with
    | obj fields =>
      rcases Server.givenId?_eq_some.1 hgiven with ⟨hid, hne⟩ | ⟨n, hid, rfl⟩
      · exact .text hread hid hne
      · rw [Text.ofInt_eq_repr]
        exact .number hread hid
    | _ => cases hgiven
  · rintro (⟨hread, hid, hne⟩ | ⟨hread, hid⟩)
    · exact ⟨_, hread, Server.givenId?_eq_some.2 (.inl ⟨hid, hne⟩)⟩
    · exact ⟨_, hread, Server.givenId?_eq_some.2 (.inr ⟨_, hid, (Text.ofInt_eq_repr _).symm⟩)⟩

theorem givenId?_line_eq_none {line : Text} :
    (Incoming.line line).givenId? = none ↔ Unnamed line := by
  simp only [Option.eq_none_iff_forall_ne_some, ne_eq, givenId?_line]
  rfl

instance : DecidablePred Unnamed := fun line =>
  decidable_of_iff ((Incoming.line line).givenId? = none) givenId?_line_eq_none

/-! ## Ids that are made up -/

/-- The made-up id of this number: in decimal, with zeros in front up to six digits. -/
def numberedId (k : Nat) : Text :=
  ("req-" : Text) ++ List.leftpad 6 (CodePoint.ofChar '0') (Text.ofString k.repr)

theorem madeUpId_eq (k : Nat) : Server.madeUpId k = numberedId k := by
  unfold Server.madeUpId Text.padded numberedId List.leftpad
  rw [Text.ofNat_eq_repr]

theorem numberedId_inj {k k' : Nat} (h : numberedId k = numberedId k') : k = k' := by
  rw [← madeUpId_eq, ← madeUpId_eq] at h
  have hpadded := List.append_cancel_left h
  rw [← Text.decimalValue_padded 6 k, hpadded, Text.decimalValue_padded]

example : numberedId 7 = "req-000007" ∧ numberedId 1234567 = "req-1234567" := by decide +kernel

namespace Server

theorem id_handleLine (s : Server) (line : Text) :
    (∀ id, UsableId line id →
      (s.handleLine line).1.requestId = id ∧ (s.handleLine line).2.issuedIds = s.issuedIds)
    ∧ (Unnamed line → (s.handleLine line).1.requestId = numberedId (s.issuedIds + 1)
      ∧ (s.handleLine line).2.issuedIds = s.issuedIds + 1) := by
  have hreceive : s.receive (.line line) = s.handleLine line := rfl
  obtain ⟨hid, workspace, hafter⟩ := s.receive_eq (.line line)
  rw [hreceive] at hid hafter
  constructor
  · intro id husable
    have hgiven := givenId?_line.2 husable
    rw [hid, hafter]
    simp [idOf, issuedAfter, hgiven]
  · intro hunnamed
    have hgiven := givenId?_line_eq_none.2 hunnamed
    rw [hid, hafter, ← madeUpId_eq]
    simp [idOf, issuedAfter, hgiven]

/-- The ids of the responses to those lines of a run that bring none along. -/
def madeUpIds (s : Server) (lines : List Text) : List Text :=
  (lines.zip (s.answers (lines.map .line))).filterMap (fun (line, response) =>
    if Unnamed line then some response.requestId else none)

theorem madeUpIds_cons (s : Server) (line : Text) (rest : List Text) :
    s.madeUpIds (line :: rest) = (if Unnamed line then [(s.handleLine line).1.requestId] else [])
      ++ (s.handleLine line).2.madeUpIds rest := by
  have hanswers : s.answers ((line :: rest).map .line)
      = (s.handleLine line).1 :: (s.handleLine line).2.answers (rest.map .line) := rfl
  unfold madeUpIds
  rw [hanswers, List.zip_cons_cons, List.filterMap_cons]
  by_cases hunnamed : Unnamed line <;> simp [hunnamed]

/-- **The number of made-up ids is the number of lines that bring none along.** -/
theorem issuedIds_after : ∀ (lines : List Text) (s : Server),
    (s.after (lines.map .line)).issuedIds = s.issuedIds + lines.countP (fun line => Unnamed line)
  | [], _ => rfl
  | line :: rest, s => by
    have hstep : s.after ((line :: rest).map .line)
        = (s.handleLine line).2.after (rest.map .line) := rfl
    obtain ⟨husable, hunnamed⟩ := s.id_handleLine line
    rw [hstep, issuedIds_after rest, List.countP_cons]
    by_cases h : Unnamed line
    · rw [(hunnamed h).2]
      simp only [h, decide_true, if_true]
      omega
    · obtain ⟨id, hid⟩ := not_forall_not.1 h
      rw [(husable id hid).2]
      simp [h]

/-- **Made-up ids are numbered one after the other**, from where the server stands. -/
theorem madeUpIds_eq : ∀ (lines : List Text) (s : Server),
    s.madeUpIds lines
      = (List.range' (s.issuedIds + 1) (lines.countP (fun line => Unnamed line))).map numberedId
  | [], _ => rfl
  | line :: rest, s => by
    obtain ⟨husable, hunnamed⟩ := s.id_handleLine line
    rw [madeUpIds_cons, madeUpIds_eq rest, List.countP_cons]
    by_cases h : Unnamed line
    · simp only [h, decide_true, if_true, (hunnamed h).1, (hunnamed h).2]
      rw [List.range'_succ, List.map_cons, List.singleton_append]
    · obtain ⟨id, hid⟩ := not_forall_not.1 h
      simp only [h, decide_false, if_false, (husable id hid).2]
      rfl

theorem nodup_map_numberedId (start count : Nat) :
    ((List.range' start count).map numberedId).Nodup :=
  (List.nodup_map_iff (fun _ _ => numberedId_inj)).2 (List.nodup_range' 1)

/-- **The ids of a run.**  Start a server and let it answer any lines.  The ids of the responses to
lines that bring none along are numbered 1, 2, 3 and so on in the order of the lines, and no two of
them are the same.  The next line is answered under the id that it brings along, which leaves the
numbering alone, or else under the next number; and what it adds to the log, if anything, is a record
with the id of the response. -/
theorem ids_of_run (config : Config) (found : Option (List UInt8)) (clock : Clock) (lines : List Text) :
    let s := start config found clock
    let unnamed := lines.countP (fun line => Unnamed line)
    s.madeUpIds lines = (List.range' 1 unnamed).map numberedId
    ∧ (s.madeUpIds lines).Nodup
    ∧ ∀ line : Text,
      let reached := s.after (lines.map .line)
      let answer := reached.handleLine line
      (∀ id, UsableId line id →
        answer.1.requestId = id ∧ answer.2.issuedIds = reached.issuedIds)
      ∧ (Unnamed line → answer.1.requestId = numberedId (unnamed + 1)
        ∧ answer.2.issuedIds = reached.issuedIds + 1)
      ∧ (answer.2.log = reached.log
        ∨ ∃ record, record.get? "request_id" = some (.str answer.1.requestId)
          ∧ AuditLog.Gains reached.log answer.2.log record) := by
  intro s unnamed
  have hids : s.madeUpIds lines = (List.range' 1 unnamed).map numberedId := s.madeUpIds_eq lines
  refine ⟨hids, ?_, fun line => ?_⟩
  · rw [hids]
    exact nodup_map_numberedId 1 unnamed
  · intro reached answer
    have hissued : reached.issuedIds = unnamed := by
      have hcount := issuedIds_after lines s
      rw [show s.issuedIds = 0 from rfl, Nat.zero_add] at hcount
      exact hcount
    obtain ⟨husable, hunnamed⟩ := reached.id_handleLine line
    rw [hissued] at hunnamed ⊢
    refine ⟨?_, hunnamed, ?_⟩
    · rw [hissued] at husable
      exact husable
    · rcases reached.receive_gains (.line line) with ⟨-, hlog⟩ | ⟨e, -, hevent, -, hgains⟩
      · exact .inl hlog
      · refine .inr ⟨e.toJson, ?_, hgains⟩
        have hid : e.requestId = answer.1.requestId := hevent.requestId
        rw [← hid]
        rfl

end Server

end OutlineServer
