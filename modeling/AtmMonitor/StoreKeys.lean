import AtmMonitor.CallRuns

namespace AtmMonitor.StoreKeys

open Library.Runs ParserModels DatabaseModels Repositories LiveStatus EventProcessor
  EventTransaction Ledger CallRuns

def eventKey (e : ATMEvent) : Nat × Option Nat := (e.atmId, e.eventSequenceNumber)

def historyKey (h : CassetteBalanceHistory) : Nat × Option Nat × Nat :=
  (h.atmId, h.eventSequenceNumber, h.cassetteNo)

structure Names (h : CassetteBalanceHistory) (e : ATMEvent) : Prop where
  id : h.eventId = e.id
  machine : h.atmId = e.atmId
  sequence : h.eventSequenceNumber = e.eventSequenceNumber
  time : h.eventTime = e.eventTime

/-- The keys and references of the two tables, over numbered events. -/
structure Keyed (db : Database) : Prop where
  drawn : ∀ e ∈ db.events, e.id < db.nextEventId
  ids : (db.events.map (·.id)).Nodup
  sequences : (db.events.map eventKey).Nodup
  cassettes : (db.history.map historyKey).Nodup
  references : ∀ h ∈ db.history, ∃ e ∈ db.events, Names h e

theorem keyed_empty : Keyed {} where
  drawn := fun _ h => absurd h List.not_mem_nil
  ids := List.nodup_nil
  sequences := List.nodup_nil
  cassettes := List.nodup_nil
  references := fun _ h => absurd h List.not_mem_nil

theorem keyed_sameRows {d d' : Database} (hs : SameRows d d') (h : Keyed d) : Keyed d' where
  drawn := by
    rw [hs.events]
    exact fun e he => (h.drawn e he).trans_le hs.nextEventId
  ids := by rw [hs.events]; exact h.ids
  sequences := by rw [hs.events]; exact h.sequences
  cassettes := by rw [hs.history]; exact h.cassettes
  references := by rw [hs.history, hs.events]; exact h.references

theorem duplicateCheck_eq_false {db : Database} {atmId n : Nat}
    (h : duplicateCheck db atmId (some n) = false) : (atmId, some n) ∉ db.events.map eventKey := by
  intro hm
  obtain ⟨e, he, hk⟩ := List.mem_map.mp hm
  have hne := List.any_eq_false.mp h e he
  simp only [eventKey, Prod.mk.injEq] at hk
  simp [hk.1, hk.2] at hne

theorem duplicateSnapshotCheck_eq_false {db : Database} {atmId n cassetteNo : Nat}
    (h : duplicateSnapshotCheck db atmId (some n) cassetteNo = false) :
    (atmId, some n, cassetteNo) ∉ db.history.map historyKey := by
  intro hm
  obtain ⟨r, hr, hk⟩ := List.mem_map.mp hm
  have hne := List.any_eq_false.mp h r hr
  simp only [historyKey, Prod.mk.injEq] at hk
  simp [hk.1, hk.2.1, hk.2.2] at hne

theorem nodup_concat {α : Type} {l : List α} {a : α} (hl : l.Nodup) (ha : a ∉ l) :
    (l ++ [a]).Nodup :=
  List.nodup_append.mpr ⟨hl, List.nodup_singleton a, fun _ hx _ hy hxy =>
    ha (by rwa [← List.mem_singleton.mp hy, ← hxy])⟩

theorem keyed_insertEvent {db : Database} (h : Keyed db) {atmId n : Nat} {ev : ATMParsedEvent}
    (hn : ev.eventSequenceNumber = some n) (hdup : duplicateCheck db atmId (some n) = false) :
    Keyed (insertEvent db atmId ev) where
  drawn := by
    intro e he
    obtain he | he := List.mem_append.mp he
    · exact (h.drawn e he).trans (Nat.lt_succ_self _)
    · rw [List.mem_singleton.mp he]
      exact Nat.lt_succ_self _
  ids := by
    rw [insertEvent, List.map_append]
    apply nodup_concat h.ids
    intro hm
    obtain ⟨e, he, hid⟩ := List.mem_map.mp hm
    exact (h.drawn e he).ne hid
  sequences := by
    rw [insertEvent, List.map_append]
    apply nodup_concat h.sequences
    rw [eventKey, ATMEvent.ofParsed, hn]
    exact duplicateCheck_eq_false hdup
  cassettes := h.cassettes
  references := by
    intro r hr
    obtain ⟨e, he, hnames⟩ := h.references r hr
    exact ⟨e, List.mem_append_left _ he, hnames⟩

theorem keyed_insertHistory {db : Database} (h : Keyed db) {atmId eventId n : Nat}
    {ev : ATMParsedEvent} {snap : CassetteSnapshot} (hn : ev.eventSequenceNumber = some n)
    (hstored : ATMEvent.ofParsed eventId atmId ev ∈ db.events)
    (hdup : duplicateSnapshotCheck db atmId (some n) snap.cassetteNo = false) :
    Keyed (insertHistory db atmId eventId ev snap) where
  drawn := h.drawn
  ids := h.ids
  sequences := h.sequences
  cassettes := by
    rw [insertHistory, List.map_append]
    apply nodup_concat h.cassettes
    rw [historyKey, CassetteBalanceHistory.ofSnapshot, hn]
    exact duplicateSnapshotCheck_eq_false hdup
  references := by
    intro r hr
    obtain hr | hr := List.mem_append.mp hr
    · exact h.references r hr
    · rw [List.mem_singleton.mp hr]
      exact ⟨_, hstored, rfl, rfl, rfl, rfl⟩

theorem keyed_recordSnapshots {db : Database} (h : Keyed db) {atmId eventId n : Nat}
    {ev : ATMParsedEvent} (snaps : List CassetteSnapshot) (hn : ev.eventSequenceNumber = some n)
    (hstored : ATMEvent.ofParsed eventId atmId ev ∈ db.events) :
    Keyed (recordSnapshots atmId eventId ev snaps db) := by
  refine (foldl_invariant
    (P := fun d => Keyed d ∧ ATMEvent.ofParsed eventId atmId ev ∈ d.events) ⟨h, hstored⟩ ?_).1
  rintro d snap - ⟨hd, hm⟩
  split_ifs with hdup
  · exact ⟨hd, hm⟩
  · rw [hn, Bool.not_eq_true] at hdup
    exact ⟨keyed_insertHistory hd hn hm hdup, hm⟩

theorem keyed_storeEvent {db : Database} (h : Keyed db) {atmId n : Nat} {ev : ATMParsedEvent}
    (now : Timestamp) (snapshots : List CassetteSnapshot) (hn : ev.eventSequenceNumber = some n)
    (hdup : duplicateCheck db atmId (some n) = false) :
    Keyed (storeEvent now atmId snapshots ev db) := by
  have hstored : ATMEvent.ofParsed db.nextEventId atmId ev ∈ (insertEvent db atmId ev).events :=
    List.mem_append_right _ (List.mem_singleton_self _)
  have hrec := keyed_recordSnapshots (keyed_insertEvent h hn hdup) (matchingSnaps snapshots ev)
    hn hstored
  obtain ⟨he, hh, -, hi⟩ := recordStatus_frame now atmId ev (matchingSnaps snapshots ev)
    (recordSnapshots atmId db.nextEventId ev (matchingSnaps snapshots ev) (insertEvent db atmId ev))
  constructor
  · rw [storeEvent, he, hi]
    exact hrec.drawn
  · rw [storeEvent, he]
    exact hrec.ids
  · rw [storeEvent, he]
    exact hrec.sequences
  · rw [storeEvent, hh]
    exact hrec.cassettes
  · rw [storeEvent, hh, he]
    exact hrec.references

theorem trace_keyed {calls : List Call} {start : Database} (h : Keyed start)
    (hseq : ∀ c ∈ calls, ∀ ev ∈ c.result.events, ev.eventSequenceNumber.isSome) :
    ∀ db ∈ trace calls start, Keyed db := by
  refine trace_invariant (fun d d' => keyed_sameRows) ?_ h
  intro c hc ev hev now d hdup hd
  obtain ⟨n, hn⟩ := Option.isSome_iff_exists.mp (hseq c hc ev hev)
  rw [hn] at hdup
  exact keyed_storeEvent hd now c.result.cassetteSnapshots hn hdup

/-- In every run of calls on numbered events from empty tables, whatever fails, the sequence
number identifies an event of a machine, with the cassette it identifies a history row, and the
`EventId` of a history row names exactly one stored event, the one it was written for. -/
theorem store_keys (calls : List Call)
    (hseq : ∀ c ∈ calls, ∀ ev ∈ c.result.events, ev.eventSequenceNumber.isSome) :
    ∀ db ∈ trace calls {},
      (db.events.map eventKey).Nodup ∧ (db.history.map historyKey).Nodup ∧
        ∀ h ∈ db.history, ∃ e ∈ db.events, Names h e ∧ ∀ e' ∈ db.events, e'.id = h.eventId → e' = e := by
  intro db hdb
  have hk := trace_keyed keyed_empty hseq db hdb
  refine ⟨hk.sequences, hk.cassettes, fun h hh => ?_⟩
  obtain ⟨e, he, hnames⟩ := hk.references h hh
  refine ⟨e, he, hnames, fun e' he' hid => ?_⟩
  exact List.inj_on_of_nodup_map hk.ids he' he (hid.trans hnames.id)

def reportedTwice : ParserResult where
  events := [.bare 1 10 .cashAdded]
  cassetteSnapshots := [{ cassetteNo := 1, cassetteStatus := .low },
    { cassetteNo := 1, cassetteStatus := .normal }]

/-- The calls: the second cannot look for duplicates. -/
def reportingCalls : List Call :=
  [calm 1 reportedTwice,
    ⟨fun _ => { raises := fun s => if s = .duplicateCheck then some .other else none }, 1,
      reportedTwice⟩]

def reportedDb : Database := reportingCalls.foldl (fun d c => c.run d) {}

theorem store_keys_reported :
    reportedDb.history.length = 1 ∧ (reportedDb.events.map eventKey).Nodup ∧
      (reportedDb.history.map historyKey).Nodup ∧
        ∀ h ∈ reportedDb.history, ∃ e ∈ reportedDb.events,
          Names h e ∧ ∀ e' ∈ reportedDb.events, e'.id = h.eventId → e' = e :=
  ⟨by decide, store_keys reportingCalls (by decide) reportedDb (run_mem_trace reportingCalls {})⟩

end AtmMonitor.StoreKeys
