import OutlineServer.Proofs.Audit.Records
import OutlineServer.Proofs.Audit.Timestamps

/-!
# Records since a time

A log whose records bear timestamps is read from a given text on by comparing texts, so which records
are shown is a matter of how the text compares with timestamps (`read_since`).

A timestamp has milliseconds.  A time in whole seconds that is written without them ends with `Z` where a
timestamp goes on with a point, and the point comes before the letter; so such a text is later than every
timestamp of its own second (`timestamp_lt_wholeSecondText_iff`), and the records of that second are not
shown (`records_since_whole_second`).
-/
namespace OutlineServer

/-- The records of the log, and for each an instant of the years 1 to 9999 whose timestamp it bears. -/
structure AuditLog.Stamped (log : AuditLog) (stamped : List (Int × Json)) : Prop where
  records : log.records = .ok (stamped.map Prod.snd)
  inYears : ∀ r ∈ stamped, InYears r.1
  timestamps : ∀ r ∈ stamped, r.2.get? "timestamp" = some (.str (timestamp r.1))

namespace AuditLog

/-- **Reading from a text on shows the records whose timestamps are not before the text.** -/
theorem read_since {log : AuditLog} {stamped : List (Int × Json)} (h : log.Stamped stamped)
    {since : Text} (shown : Int → Bool)
    (hshown : ∀ r ∈ stamped, (timestamp r.1 < since ↔ shown r.1 = false)) {limit : Int}
    (hlimit : 1 ≤ limit) :
    log.read (some since) limit
      = .ok (last limit.toNat ((stamped.filter (fun r => shown r.1)).map Prod.snd)) := by
  have hobjects : (stamped.map Prod.snd).find? (fun record => record.obj?.isNone) = none := by
    rw [List.find?_eq_none]
    intro record hrecord
    obtain ⟨r, hr, rfl⟩ := List.mem_map.1 hrecord
    have htimestamp := h.timestamps r hr
    cases hvalue : r.2 with
    | obj fields => simp [Json.obj?]
    | _ =>
      rw [hvalue] at htimestamp
      cases htimestamp
  have hfilter : (stamped.map Prod.snd).filter (isSince since)
      = (stamped.filter (fun r => shown r.1)).map Prod.snd := by
    rw [List.filter_map]
    refine congrArg (List.map Prod.snd) (List.filter_congr (fun r hr => ?_))
    have hsince : isSince since r.2 = !decide (timestamp r.1 < since) := by
      unfold isSince
      rw [h.timestamps r hr]
    rw [Function.comp_apply, hsince, Bool.eq_iff_iff, Bool.not_eq_true', decide_eq_false_iff_not,
      hshown r hr, Bool.not_eq_false]
  have hsince : recordsSince since (stamped.map Prod.snd)
      = .ok ((stamped.filter (fun r => shown r.1)).map Prod.snd) := by
    rw [recordsSince, hobjects, ← hfilter]
  rw [read_since_of_pos log since hlimit, h.records]
  exact congrArg (Except.map (last limit.toNat)) hsince

theorem last_of_length_le {limit : Nat} {records : List Json} (h : records.length ≤ limit) :
    last limit records = records := by
  unfold last
  rw [Nat.sub_eq_zero_of_le h, List.drop_zero]

theorem last_eq_iff {records others : List Json} :
    (∀ limit : Int, 1 ≤ limit → last limit.toNat records = last limit.toNat others)
      ↔ records = others := by
  constructor
  · intro h
    have hall := h (records.length + others.length + 1) (by omega)
    rwa [last_of_length_le (by omega), last_of_length_le (by omega)] at hall
  · rintro rfl _ _
    rfl

end AuditLog

/-- A filter that lets less through gives the same only if it takes nothing away. -/
theorem map_filter_eq_iff {α β : Type} {f : α → β} {p q : α → Bool} {l : List α}
    (h : ∀ a ∈ l, p a = true → q a = true) :
    (l.filter p).map f = (l.filter q).map f ↔ ∀ a ∈ l, q a = true → p a = true := by
  constructor
  · intro heq a ha hq
    have hwithin : l.filter p = (l.filter q).filter p := by
      rw [List.filter_filter]
      refine List.filter_congr (fun b hb => ?_)
      rw [Bool.eq_iff_iff, Bool.and_eq_true]
      exact ⟨fun hp => ⟨hp, h b hb hp⟩, And.left⟩
    have hlength := congrArg List.length heq
    rw [List.length_map, List.length_map, hwithin, List.length_filter_eq_length_iff] at hlength
    exact hlength a (List.mem_filter.2 ⟨ha, hq⟩)
  · intro hkept
    rw [List.filter_congr (fun a ha => Bool.eq_iff_iff.2 ⟨h a ha, hkept a ha⟩)]

/-! ## Times in whole seconds -/

/-- A second, counted from the start of 1970, written without a fraction. -/
def wholeSecondText (seconds : Int) : Text := secondText seconds ++ ("Z" : Text)

example : wholeSecondText 1700000000 = ("2023-11-14T22:13:20Z" : Text) := by decide +kernel

/-- **A second is written later than every timestamp in it.** -/
theorem timestamp_lt_wholeSecondText_iff {t seconds : Int} (ht : InYears t)
    (hseconds : InYears (1000000 * seconds)) :
    timestamp t < wholeSecondText seconds ↔ t / 1000000 ≤ seconds := by
  -- At the first place that differs a point is compared with the letter.
  have hpoint : ("." : Text) ++ Text.padded 3 (t / 1000 % 1000).toNat ++ ("Z" : Text)
      < ("Z" : Text) := List.cons_lt_cons_iff.2 (.inl (by decide))
  unfold wholeSecondText
  rw [timestamp_eq, secondText_append_lt_iff ht.second hseconds]
  simp only [hpoint, and_true]
  omega

/-- **What is shown from a time in whole seconds on.**  The records of the second itself are left out,
and all that come later are shown.  So the records at or after the time are shown exactly when none of
them is in that second. -/
theorem records_since_whole_second {log : AuditLog} {stamped : List (Int × Json)}
    (h : log.Stamped stamped) (seconds : Int) (hseconds : InYears (1000000 * seconds)) :
    (∀ limit : Int, 1 ≤ limit → log.read (some (wholeSecondText seconds)) limit
      = .ok (AuditLog.last limit.toNat
        ((stamped.filter (fun r => 1000000 * (seconds + 1) ≤ 1000 * (r.1 / 1000))).map Prod.snd)))
    ∧ ((∀ limit : Int, 1 ≤ limit → log.read (some (wholeSecondText seconds)) limit
        = .ok (AuditLog.last limit.toNat
          ((stamped.filter (fun r => 1000000 * seconds ≤ 1000 * (r.1 / 1000))).map Prod.snd)))
      ↔ ∀ r ∈ stamped, r.1 / 1000000 ≠ seconds) := by
  have hread : ∀ limit : Int, 1 ≤ limit → log.read (some (wholeSecondText seconds)) limit
      = .ok (AuditLog.last limit.toNat ((stamped.filter
        (fun r => 1000000 * (seconds + 1) ≤ 1000 * (r.1 / 1000))).map Prod.snd)) := by
    intro limit hlimit
    refine AuditLog.read_since h (fun t => 1000000 * (seconds + 1) ≤ 1000 * (t / 1000))
      (fun r hr => ?_) hlimit
    rw [timestamp_lt_wholeSecondText_iff (h.inYears r hr) hseconds, decide_eq_false_iff_not]
    omega
  refine ⟨hread, ?_⟩
  have hlast : (∀ limit : Int, 1 ≤ limit → log.read (some (wholeSecondText seconds)) limit
        = .ok (AuditLog.last limit.toNat
          ((stamped.filter (fun r => 1000000 * seconds ≤ 1000 * (r.1 / 1000))).map Prod.snd)))
      ↔ (stamped.filter (fun r => 1000000 * (seconds + 1) ≤ 1000 * (r.1 / 1000))).map Prod.snd
        = (stamped.filter (fun r => 1000000 * seconds ≤ 1000 * (r.1 / 1000))).map Prod.snd := by
    rw [← AuditLog.last_eq_iff]
    refine forall₂_congr (fun limit hlimit => ?_)
    rw [hread limit hlimit, Except.ok.injEq]
  rw [hlast, map_filter_eq_iff (fun r _ hlater => ?_)]
  · refine forall₂_congr (fun r _ => ?_)
    rw [decide_eq_true_iff, decide_eq_true_iff]
    omega
  · rw [decide_eq_true_iff] at hlater ⊢
    omega

def statusEvent (now : Int) : AuditEvent where
  timestamp := timestamp now
  requestId := "a"
  tool := "server.status"
  ok := true
  blocked := false
  errorCode := none
  metadata := []

def statusLog (times : List Int) : AuditLog :=
  .ofFile (some ((times.map statusEvent).flatMap AuditEvent.toOctets))

theorem stamped_statusLog (times : List Int) (h : ∀ t ∈ times, InYears t) :
    (statusLog times).Stamped (times.map (fun t => (t, (statusEvent t).toJson.joined))) where
  records := by
    have hoctets : (statusLog times).octets?.getD []
        = (AuditLog.ofFile none).octets?.getD []
          ++ (times.map statusEvent).flatMap AuditEvent.toOctets := AuditLog.octets_ofFile _
    rw [AuditLog.records_of_octets hoctets (.inl rfl), List.map_map, List.map_map]
    rfl
  inYears := by
    intro r hr
    obtain ⟨t, ht, rfl⟩ := List.mem_map.1 hr
    exact h t ht
  timestamps := by
    intro r hr
    obtain ⟨t, ht, rfl⟩ := List.mem_map.1 hr
    rw [AuditEvent.get?_timestamp_joined]
    exact congrArg (fun t => some (Json.str t)) (joined_timestamp t)

/-- Half a second after the time and a second after it: only the later record is shown. -/
theorem records_since_whole_second_of_two :
    (statusLog [1700000000500000, 1700000001000000]).read (some (wholeSecondText 1700000000)) 50
      = .ok [(statusEvent 1700000001000000).toJson.joined]
    ∧ ¬ ∀ limit : Int, 1 ≤ limit →
      (statusLog [1700000000500000, 1700000001000000]).read (some (wholeSecondText 1700000000)) limit
        = .ok (AuditLog.last limit.toNat [(statusEvent 1700000000500000).toJson.joined,
          (statusEvent 1700000001000000).toJson.joined]) := by
  obtain ⟨hread, hiff⟩ := records_since_whole_second
    (stamped_statusLog [1700000000500000, 1700000001000000] (by decide)) 1700000000 (by decide)
  refine ⟨hread 50 (by decide), fun hall => ?_⟩
  exact hiff.1 hall _ List.mem_cons_self rfl

/-- Not every record at or after a time in whole seconds is shown from it on: one at the very time is
not. -/
theorem record_at_whole_second_lost :
    ¬ ∀ (log : AuditLog) (stamped : List (Int × Json)) (seconds limit : Int), log.Stamped stamped →
      InYears (1000000 * seconds) → 1 ≤ limit →
      log.read (some (wholeSecondText seconds)) limit = .ok (AuditLog.last limit.toNat
        ((stamped.filter (fun r => 1000000 * seconds ≤ 1000 * (r.1 / 1000))).map Prod.snd)) := by
  intro h
  have hstamped := stamped_statusLog [1700000000000000] (by decide)
  have hlost : (statusLog [1700000000000000]).read (some (wholeSecondText 1700000000)) 1
      = .ok [] := by
    refine AuditLog.read_since hstamped (fun _ => false) (fun r hr => ?_) (by decide)
    obtain rfl := List.mem_singleton.1 hr
    rw [timestamp_lt_wholeSecondText_iff (by decide) (by decide)]
    decide
  have hshown := h _ _ 1700000000 1 hstamped (by decide) (by decide)
  rw [hlost] at hshown
  cases hshown

end OutlineServer
