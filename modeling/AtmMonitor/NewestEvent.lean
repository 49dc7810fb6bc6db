import AtmMonitor.CallRuns

namespace AtmMonitor.NewestEvent

open ParserModels DatabaseModels LiveStatus EventProcessor EventTransaction Ledger CallRuns

/-- The live row shows the event `e`, the newest stored one of its machine. -/
structure Shows (db : Database) (atmId : Nat) (row : ATMLiveStatus) (e : ATMEvent) : Prop where
  stored : e ∈ db.events
  ofMachine : e.atmId = atmId
  newest : ∀ e' ∈ db.events, e'.atmId = atmId → e'.eventTime ≤ e.eventTime
  time : row.lastEventTime = some e.eventTime
  heartbeat : row.lastHeartbeat = some e.eventTime
  type : row.lastEventType = some e.eventType

/-- A machine has a live row exactly if it has a stored event, and the row shows a newest one. -/
structure Reflects (db : Database) (atmId : Nat) : Prop where
  exists_iff : (db.liveStatus atmId).isSome ↔ ∃ e ∈ db.events, e.atmId = atmId
  shows_newest : ∀ row, db.liveStatus atmId = some row → ∃ e, Shows db atmId row e

theorem reflects_empty (atmId : Nat) : Reflects {} atmId := by
  constructor
  · simp
  · intro row h
    cases h

theorem reflects_sameRows {d d' : Database} (h : SameRows d d') {atmId : Nat}
    (hd : Reflects d atmId) : Reflects d' atmId := by
  constructor
  · rw [h.liveStatus, h.events]
    exact hd.exists_iff
  · intro row hrow
    rw [h.liveStatus] at hrow
    obtain ⟨e, he⟩ := hd.shows_newest row hrow
    refine ⟨e, ?_, he.ofMachine, ?_, he.time, he.heartbeat, he.type⟩
    · rw [h.events]
      exact he.stored
    · rw [h.events]
      exact he.newest

section Step

variable (now : Timestamp) (atmId : Nat) (snapshots : List CassetteSnapshot) (ev : ATMParsedEvent)
  {db : Database}

theorem reflects_other {other : Nat} (hne : other ≠ atmId) (h : Reflects db other) :
    Reflects (storeEvent now atmId snapshots ev db) other := by
  have hev := storeEvent_events now atmId snapshots ev db
  have hmem : ∀ e, e ∈ (storeEvent now atmId snapshots ev db).events → e.atmId = other →
      e ∈ db.events := by
    intro e he hm
    rw [hev, List.mem_append, List.mem_singleton] at he
    apply he.resolve_right
    rintro rfl
    exact hne hm.symm
  constructor
  · rw [storeEvent_other now atmId snapshots ev db hne, h.exists_iff]
    constructor
    · rintro ⟨e, he, hm⟩
      exact ⟨e, by rw [hev]; exact List.mem_append_left _ he, hm⟩
    · rintro ⟨e, he, hm⟩
      exact ⟨e, hmem e he hm, hm⟩
  · intro row hrow
    rw [storeEvent_other now atmId snapshots ev db hne] at hrow
    obtain ⟨e, he⟩ := h.shows_newest row hrow
    refine ⟨e, ?_, he.ofMachine, ?_, he.time, he.heartbeat, he.type⟩
    · rw [hev]
      exact List.mem_append_left _ he.stored
    · exact fun e' he' hm => he.newest e' (hmem e' he' hm) hm

theorem recordLive_fresh (live : Option ATMLiveStatus) (snaps : List CassetteSnapshot)
    (h : isStale (live.getD initialStatus) ev = false) :
    (recordLive live ev snaps).lastEventTime = some ev.eventTime ∧
      (recordLive live ev snaps).lastEventType = some ev.eventType ∧
      (recordLive live ev snaps).lastHeartbeat = some ev.eventTime := by
  rw [recordLive, if_neg (by simp [h])]
  exact applyStatusUpdates_lastEvent 0 (live.getD initialStatus) ev snaps

theorem recordLive_stale (live : Option ATMLiveStatus) (snaps : List CassetteSnapshot)
    (h : isStale (live.getD initialStatus) ev = true) :
    recordLive live ev snaps = live.getD initialStatus := if_pos h

/-- A stale event meets a row that shows a later time. -/
theorem isStale_iff {status : ATMLiveStatus} :
    isStale status ev = true ↔ ∃ t, status.lastEventTime = some t ∧ ev.eventTime < t := by
  rw [isStale]
  cases status.lastEventTime <;> simp

theorem shows_stale (h : Reflects db atmId) {row : ATMLiveStatus}
    (hcontent : content row = recordLive ((db.liveStatus atmId).map content) ev
      (matchingSnaps snapshots ev))
    (hs : isStale (((db.liveStatus atmId).map content).getD initialStatus) ev = true) :
    ∃ e, Shows (storeEvent now atmId snapshots ev db) atmId row e := by
  have hev := storeEvent_events now atmId snapshots ev db
  obtain ⟨t, ht, hlt⟩ := (isStale_iff ev).mp hs
  rw [recordLive_stale ev _ _ hs] at hcontent
  cases hl : db.liveStatus atmId with
  | none =>
    rw [hl] at ht
    cases ht
  | some old =>
    obtain ⟨e, he⟩ := h.shows_newest old hl
    have hkeep : content row = content old := by
      rw [hcontent, hl]
      rfl
    have htime : row.lastEventTime = old.lastEventTime := congrArg (·.lastEventTime) hkeep
    have htype : row.lastEventType = old.lastEventType := congrArg (·.lastEventType) hkeep
    have hbeat : row.lastHeartbeat = old.lastHeartbeat := congrArg (·.lastHeartbeat) hkeep
    rw [hl] at ht
    have het : e.eventTime = t := Option.some.inj (he.time.symm.trans ht)
    refine ⟨e, ?_, he.ofMachine, ?_, htime.trans he.time, hbeat.trans he.heartbeat,
      htype.trans he.type⟩
    · rw [hev]
      exact List.mem_append_left _ he.stored
    · intro e' he' hm
      rw [hev, List.mem_append, List.mem_singleton] at he'
      obtain he' | rfl := he'
      · exact he.newest e' he' hm
      · exact het ▸ hlt.le

theorem shows_fresh (h : Reflects db atmId) {row : ATMLiveStatus}
    (hcontent : content row = recordLive ((db.liveStatus atmId).map content) ev
      (matchingSnaps snapshots ev))
    (hs : isStale (((db.liveStatus atmId).map content).getD initialStatus) ev = false) :
    ∃ e, Shows (storeEvent now atmId snapshots ev db) atmId row e := by
  have hev := storeEvent_events now atmId snapshots ev db
  obtain ⟨htime, htype, hbeat⟩ := recordLive_fresh ev _ (matchingSnaps snapshots ev) hs
  rw [← hcontent] at htime htype hbeat
  refine ⟨ATMEvent.ofParsed db.nextEventId atmId ev, ?_, rfl, ?_, htime, hbeat, htype⟩
  · rw [hev]
    exact List.mem_append_right _ (List.mem_singleton_self _)
  · intro e' he' hm
    rw [hev, List.mem_append, List.mem_singleton] at he'
    obtain he' | rfl := he'
    · obtain ⟨old, hold⟩ := Option.isSome_iff_exists.mp (h.exists_iff.mpr ⟨e', he', hm⟩)
      obtain ⟨e, he⟩ := h.shows_newest old hold
      have hnot : ¬ ev.eventTime < e.eventTime := by
        intro hlt
        have hstale := (isStale_iff ev).mpr ⟨e.eventTime, he.time, hlt⟩
        rw [hold] at hs
        exact Bool.false_ne_true (hs.symm.trans hstale)
      exact (he.newest e' he' hm).trans (not_lt.mp hnot)
    · exact le_rfl

theorem reflects_self (h : Reflects db atmId) :
    Reflects (storeEvent now atmId snapshots ev db) atmId := by
  obtain ⟨row, hrow, hcontent⟩ := storeEvent_self now atmId snapshots ev db
  constructor
  · rw [hrow]
    refine ⟨fun _ => ⟨ATMEvent.ofParsed db.nextEventId atmId ev, ?_, rfl⟩, fun _ => rfl⟩
    rw [storeEvent_events]
    exact List.mem_append_right _ (List.mem_singleton_self _)
  · intro row' hrow'
    obtain rfl : row = row' := by simpa [hrow] using hrow'
    cases hs : isStale (((db.liveStatus atmId).map content).getD initialStatus) ev with
    | true => exact shows_stale now atmId snapshots ev h hcontent hs
    | false => exact shows_fresh now atmId snapshots ev h hcontent hs

end Step

/-- No machine loses its live row or has its last event time set back. -/
def Advances (d d' : Database) : Prop :=
  ∀ atmId row, d.liveStatus atmId = some row →
    ∃ row', d'.liveStatus atmId = some row' ∧
      ∀ t, row.lastEventTime = some t → ∃ t', row'.lastEventTime = some t' ∧ t ≤ t'

theorem Advances.refl (d : Database) : Advances d d :=
  fun _ row h => ⟨row, h, fun t ht => ⟨t, ht, le_rfl⟩⟩

theorem advances_sameRows (d d' : Database) (h : SameRows d d') : Advances d d' := by
  intro atmId row hrow
  rw [← h.liveStatus] at hrow
  exact ⟨row, hrow, fun t ht => ⟨t, ht, le_rfl⟩⟩

theorem advances_storeEvent (now : Timestamp) (atmId : Nat) (snapshots : List CassetteSnapshot)
    (ev : ATMParsedEvent) (d : Database) : Advances d (storeEvent now atmId snapshots ev d) := by
  intro other old hold
  by_cases hne : other = atmId
  · subst hne
    obtain ⟨row, hrow, hcontent⟩ := storeEvent_self now other snapshots ev d
    refine ⟨row, hrow, fun t ht => ?_⟩
    rw [hold, Option.map_some] at hcontent
    have htime : row.lastEventTime = (content row).lastEventTime := rfl
    cases hs : isStale old ev with
    | true =>
      rw [hcontent, recordLive_stale ev (some (content old)) _ hs] at htime
      exact ⟨t, htime.trans ht, le_rfl⟩
    | false =>
      rw [hcontent, (recordLive_fresh ev (some (content old)) _ hs).1] at htime
      refine ⟨ev.eventTime, htime, not_lt.mp fun hlt => ?_⟩
      have hstale := (isStale_iff ev).mpr ⟨t, ht, hlt⟩
      rw [hs] at hstale
      cases hstale
  · rw [← storeEvent_other now atmId snapshots ev d hne] at hold
    exact ⟨old, hold, fun t ht => ⟨t, ht, le_rfl⟩⟩

/-- In every run of calls from empty tables, whatever fails, the live status of every machine
reflects its newest stored event, and its time never moves back. -/
theorem liveStatus_reflects_newest (calls : List Call) :
    (∀ db ∈ trace calls {}, ∀ atmId, Reflects db atmId) ∧ (trace calls {}).IsChain Advances := by
  refine ⟨trace_invariant (P := fun db => ∀ atmId, Reflects db atmId) ?_ ?_ reflects_empty, ?_⟩
  · exact fun d d' hs h atmId => reflects_sameRows hs (h atmId)
  · intro c _ ev _ now d _ h other
    by_cases hne : other = c.atmId
    · exact hne ▸ reflects_self now c.atmId c.result.cassetteSnapshots ev (h c.atmId)
    · exact reflects_other now c.atmId c.result.cassetteSnapshots ev hne (h other)
  · exact trace_chain Advances.refl advances_sameRows advances_storeEvent calls {}

end AtmMonitor.NewestEvent
