import OutlineServer.Proofs.Audit.Since
import OutlineServer.Proofs.Server.LogReadBack

/-!
# The log since a time

A run in which every request comes at its own time (`afterAt`) logs every event with the time of its
request (`eventsAt`).  If the times never go back, then the records since a time are the end of the log,
and asking the log for the records since a timestamp gives those that were logged at or after its
millisecond (`log_since_timestamp`).

A clock that moves on by a fixed step makes such a run (`after_eq_afterAt`).
-/
namespace OutlineServer.Server

/-! ## Runs in time -/

def atTime (s : Server) (now : Int) : Server := { s with clock := { s.clock with now } }

/-- The server after requests that come at these times. -/
def afterAt (s : Server) : List (Int × Incoming) → Server
  | [] => s
  | (now, r) :: rest => ((s.atTime now).receive r).2.afterAt rest

def eventsAt (s : Server) : List (Int × Incoming) → List (Int × AuditEvent)
  | [] => []
  | (now, r) :: rest => ((s.atTime now).eventOf? r).toList.map (fun e => (now, e))
    ++ ((s.atTime now).receive r).2.eventsAt rest

/-- **A run in time writes its events one after the other.** -/
theorem log_afterAt : ∀ (requests : List (Int × Incoming)) (s : Server),
    (s.afterAt requests).log
      = ((s.eventsAt requests).map Prod.snd).foldl AuditLog.append s.log
  | [], _ => rfl
  | (now, r) :: rest, s => by
    have hlog : (s.atTime now).log = s.log := rfl
    rw [afterAt, log_afterAt rest, log_receive, logAfter, eventsAt, List.map_append,
      List.foldl_append, hlog]
    cases (s.atTime now).eventOf? r <;> rfl

theorem mem_eventsAt {now : Int} {e : AuditEvent} : ∀ {requests : List (Int × Incoming)} {s : Server},
    (now, e) ∈ s.eventsAt requests →
      ∃ (reached : Server) (r : Incoming), (now, r) ∈ requests
        ∧ (reached.atTime now).eventOf? r = some e
  | [], _, h => by cases h
  | (time, r) :: rest, s, h => by
    rcases List.mem_append.1 h with h | h
    · obtain ⟨event, hevent, heq⟩ := List.mem_map.1 h
      cases heq
      exact ⟨s, r, List.mem_cons_self, Option.mem_toList.1 hevent⟩
    · obtain ⟨reached, r', hr', hevent⟩ := mem_eventsAt h
      exact ⟨reached, r', List.mem_cons_of_mem _ hr', hevent⟩

theorem times_eventsAt : ∀ (requests : List (Int × Incoming)) (s : Server),
    ((s.eventsAt requests).map Prod.fst).Sublist (requests.map Prod.fst)
  | [], _ => List.Sublist.slnil
  | (now, r) :: rest, s => by
    have hrest := times_eventsAt rest ((s.atTime now).receive r).2
    rw [eventsAt, List.map_append, List.map_cons]
    cases (s.atTime now).eventOf? r with
    | none => exact hrest.cons now
    | some e => exact hrest.cons_cons now

theorem timestamp_of_eventOf? {s : Server} {now : Int} {r : Incoming} {e : AuditEvent}
    (h : (s.atTime now).eventOf? r = some e) : e.timestamp = timestamp now := by
  obtain ⟨_, -, rfl⟩ := Option.map_eq_some_iff.1 h
  rfl

/-- On an empty file, the log of a run in time bears the times of the events. -/
theorem stamped_afterAt {s : Server} (hempty : s.log.octets?.getD [] = [])
    {requests : List (Int × Incoming)} (hyears : ∀ r ∈ requests, InYears r.1) :
    (s.afterAt requests).log.Stamped
      ((s.eventsAt requests).map (fun e => (e.1, e.2.toJson.joined))) where
  records := by
    have hoctets := octets_foldl_append ((s.eventsAt requests).map Prod.snd) s.log
    rw [← log_afterAt] at hoctets
    have hfirst := AuditLog.records_eq_ok_iff.2 ⟨[], by rw [hempty]; rfl, rfl⟩
    rw [AuditLog.records_of_octets hoctets (.inl hempty), hfirst, List.map_map, List.map_map]
    rfl
  inYears := by
    intro stamped hstamped
    obtain ⟨⟨now, e⟩, he, rfl⟩ := List.mem_map.1 hstamped
    obtain ⟨_, r, hr, -⟩ := mem_eventsAt he
    exact hyears (now, r) hr
  timestamps := by
    intro stamped hstamped
    obtain ⟨⟨now, e⟩, he, rfl⟩ := List.mem_map.1 hstamped
    obtain ⟨reached, r, -, hevent⟩ := mem_eventsAt he
    rw [AuditEvent.get?_timestamp_joined, timestamp_of_eventOf? hevent, joined_timestamp]

/-! ## A clock with a fixed step -/

/-- The requests of a run with the times that the clock shows when they come. -/
def timed (s : Server) : List Incoming → List (Int × Incoming)
  | [] => []
  | r :: rest => (s.clock.now, r) :: (s.receive r).2.timed rest

theorem after_eq_afterAt : ∀ (requests : List Incoming) (s : Server),
    s.after requests = s.afterAt (s.timed requests)
  | [], _ => rfl
  | r :: rest, s => after_eq_afterAt rest (s.receive r).2

theorem clock_receive (s : Server) (r : Incoming) : (s.receive r).2.clock = s.clockAfter r := by
  obtain ⟨-, workspace, h⟩ := s.receive_eq r
  rw [h]

theorem clock_receive_le (s : Server) (hstep : 0 ≤ s.clock.step) (r : Incoming) :
    s.clock.now ≤ (s.receive r).2.clock.now ∧ 0 ≤ (s.receive r).2.clock.step := by
  rw [clock_receive]
  unfold clockAfter
  split
  · exact ⟨Int.le_add_of_nonneg_right hstep, hstep⟩
  · exact ⟨Int.le_refl _, hstep⟩

/-- **A clock whose step is not negative never goes back.** -/
theorem pairwise_timed : ∀ (requests : List Incoming) (s : Server), 0 ≤ s.clock.step →
    (∀ time ∈ (s.timed requests).map Prod.fst, s.clock.now ≤ time)
    ∧ ((s.timed requests).map Prod.fst).Pairwise (· ≤ ·)
  | [], _, _ => ⟨by simp [timed], List.Pairwise.nil⟩
  | r :: rest, s, hstep => by
    obtain ⟨hnow, hstep⟩ := s.clock_receive_le hstep r
    obtain ⟨hbound, hpairwise⟩ := pairwise_timed rest (s.receive r).2 hstep
    have hrest : ∀ time ∈ ((s.receive r).2.timed rest).map Prod.fst, s.clock.now ≤ time :=
      fun time htime => Int.le_trans hnow (hbound time htime)
    exact ⟨List.forall_mem_cons.2 ⟨Int.le_refl _, hrest⟩, List.pairwise_cons.2 ⟨hrest, hpairwise⟩⟩

/-! ## The end of the log -/

theorem filter_suffix {α : Type} {p : α → Bool} : ∀ {l : List α},
    l.Pairwise (fun a b => p a = true → p b = true) → l.filter p <:+ l
  | [], _ => List.suffix_rfl
  | a :: l, h => by
    obtain ⟨hfirst, hrest⟩ := List.pairwise_cons.1 h
    by_cases ha : p a = true
    · rw [List.filter_eq_self.2 (List.forall_mem_cons.2 ⟨ha, fun b hb => hfirst b hb ha⟩)]
    · rw [List.filter_cons_of_neg ha]
      exact (filter_suffix hrest).trans (List.suffix_cons a l)

/-- **Timestamps order as time does, so the log can be asked for the records since a time.**  Two
timestamps of the years 1 to 9999 are ordered as their milliseconds are.  On an empty file, a run in
which time never goes back leaves the records of its events, and those that were logged at or after the
millisecond of an instant are the end of the log; reading the log from the timestamp of the instant on
shows the last of exactly these.  What is read back of an event is the event itself, for requests in
Unicode text.  A clock with a step that is not negative makes such a run. -/
theorem log_since_timestamp :
    (∀ t u : Int, InYears t → InYears u → (timestamp t < timestamp u ↔ t / 1000 < u / 1000))
    ∧ (∀ (config : Config) (found : Option (List UInt8)) (clock : Clock)
        (requests : List (Int × Incoming)), found.getD [] = [] →
      (requests.map Prod.fst).Pairwise (· ≤ ·) → (∀ r ∈ requests, InYears r.1) →
      let s := start config found clock
      let reached := s.afterAt requests
      let logged := s.eventsAt requests
      reached.log.records = .ok (logged.map (fun e => e.2.toJson.joined))
      ∧ ((∀ r ∈ requests, r.2.InUnicode) → ∀ e ∈ logged, e.2.toJson.joined = e.2.toJson)
      ∧ ∀ instant : Int, InYears instant →
        let since := logged.filter (fun e => instant / 1000 ≤ e.1 / 1000)
        since <:+ logged
        ∧ ∀ limit : Int, 1 ≤ limit → reached.log.read (some (timestamp instant)) limit
          = .ok (AuditLog.last limit.toNat (since.map (fun e => e.2.toJson.joined))))
    ∧ ∀ (s : Server) (requests : List Incoming), 0 ≤ s.clock.step →
      s.after requests = s.afterAt (s.timed requests)
      ∧ ((s.timed requests).map Prod.fst).Pairwise (· ≤ ·) := by
  refine ⟨fun t u ht hu => timestamp_lt_iff ht hu, ?_,
    fun s requests hstep => ⟨after_eq_afterAt requests s, (pairwise_timed requests s hstep).2⟩⟩
  intro config found clock requests hfound hordered hyears s reached logged
  have hempty : s.log.octets?.getD [] = [] := (AuditLog.octets_ofFile found).trans hfound
  have hstamped := stamped_afterAt hempty hyears
  refine ⟨?_, ?_, ?_⟩
  · have hrecords := hstamped.records
    rw [List.map_map] at hrecords
    exact hrecords
  · rintro hunicode ⟨now, e⟩ he
    obtain ⟨_, r, hr, hevent⟩ := mem_eventsAt he
    exact joined_of_eventOf? (hunicode _ hr) hevent
  · intro instant hinstant since
    refine ⟨filter_suffix ?_, fun limit hlimit => ?_⟩
    · have htimes := List.pairwise_map.1 (hordered.sublist (times_eventsAt requests s))
      refine htimes.imp (fun {a b} hab hsince => ?_)
      rw [decide_eq_true_iff] at hsince ⊢
      omega
    · have hshown : ∀ r ∈ (s.eventsAt requests).map (fun e => (e.1, e.2.toJson.joined)),
          (timestamp r.1 < timestamp instant
            ↔ decide (instant / 1000 ≤ r.1 / 1000) = false) := by
        intro r hr
        rw [timestamp_lt_iff (hstamped.inYears r hr) hinstant, decide_eq_false_iff_not, Int.not_le]
      have hread := AuditLog.read_since hstamped (fun t => instant / 1000 ≤ t / 1000) hshown hlimit
      rw [List.filter_map, List.map_map] at hread
      exact hread

def unknownCallEventAt (now : Int) : AuditEvent := { unknownCallEvent with timestamp := timestamp now }

theorem eventsAt_unknownCall : ∀ (times : List Int) (s : Server),
    s.eventsAt (times.map (fun now => (now, .value unknownCall)))
      = times.map (fun now => (now, unknownCallEventAt now))
  | [], _ => rfl
  | now :: rest, s => by
    have hevent : (s.atTime now).eventOf? (.value unknownCall) = some (unknownCallEventAt now) := by
      unfold eventOf?
      rw [response_unknownCall]
      rfl
    rw [List.map_cons, eventsAt, eventsAt_unknownCall rest, hevent]
    rfl

/-- Of two calls in the last microsecond of 1969 and in the first of 1970, the log shows the second
when it is asked for the records since 1970. -/
theorem log_since_1970 :
    let reached := (start (.ofRoot { segments := ["work"] }) none ⟨0, 0⟩).afterAt
      [(-1, .value unknownCall), (0, .value unknownCall)]
    timestamp (-1) < timestamp 0
    ∧ reached.log.records
      = .ok [(unknownCallEventAt (-1)).toJson, (unknownCallEventAt 0).toJson]
    ∧ reached.log.read (some (timestamp 0)) 50 = .ok [(unknownCallEventAt 0).toJson] := by
  obtain ⟨horder, hrun, -⟩ := log_since_timestamp
  have hunicode : ∀ r ∈ [((-1 : Int), Incoming.value unknownCall), (0, .value unknownCall)],
      r.2.InUnicode := by
    simp only [List.forall_mem_cons, List.not_mem_nil, false_imp_iff, implies_true, and_true]
    exact ⟨isJoined_unknownCall, isJoined_unknownCall⟩
  obtain ⟨hrecords, hjoined, hsince⟩ := hrun (.ofRoot { segments := ["work"] }) none ⟨0, 0⟩
    [(-1, .value unknownCall), (0, .value unknownCall)] rfl (by decide) (by decide)
  have hevents := eventsAt_unknownCall [-1, 0] (start (.ofRoot { segments := ["work"] }) none ⟨0, 0⟩)
  have hread := (hsince 0 (by decide)).2 50 (by decide)
  have hjoined := hjoined hunicode
  simp only [List.map_cons, List.map_nil] at hevents
  rw [hevents] at hrecords hread hjoined
  have hfirst := hjoined _ List.mem_cons_self
  have hsecond := hjoined _ (List.mem_cons_of_mem _ List.mem_cons_self)
  refine ⟨(horder _ _ (by decide) (by decide)).2 (by decide), ?_, ?_⟩
  · rw [hrecords]
    simp only [List.map_cons, List.map_nil, hfirst, hsecond]
  · rw [hread, ← hsecond]
    rfl

end OutlineServer.Server
