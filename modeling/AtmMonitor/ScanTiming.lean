import AtmMonitor.NewestEvent
import AtmMonitor.Replay

namespace AtmMonitor.ScanTiming

open ParserModels DatabaseModels LiveStatus EventProcessor Ledger CallRuns NewestEvent Replay

def foldLive (snaps : ATMParsedEvent → List CassetteSnapshot) (live : Option ATMLiveStatus)
    (events : List ATMParsedEvent) : Option ATMLiveStatus :=
  events.foldl (fun l ev => some (recordLive l ev (snaps ev))) live

theorem foldLive_append (snaps : ATMParsedEvent → List CassetteSnapshot)
    (live : Option ATMLiveStatus) (events events' : List ATMParsedEvent) :
    foldLive snaps live (events ++ events') = foldLive snaps (foldLive snaps live events) events' :=
  List.foldl_append ..

/-- The row shows the event, the newest of the list. -/
structure ShowsNewest (events : List ATMParsedEvent) (row : ATMLiveStatus) (ev : ATMParsedEvent) :
    Prop where
  mem : ev ∈ events
  newest : ∀ ev' ∈ events, ev'.eventTime ≤ ev.eventTime
  time : row.lastEventTime = some ev.eventTime
  heartbeat : row.lastHeartbeat = some ev.eventTime
  type : row.lastEventType = some ev.eventType

theorem foldLive_newest (snaps : ATMParsedEvent → List CassetteSnapshot)
    (events : List ATMParsedEvent) (h : events ≠ []) :
    ∃ row, foldLive snaps none events = some row ∧ ∃ ev, ShowsNewest events row ev := by
  induction events using List.reverseRecOn with
  | nil => exact absurd rfl h
  | append_singleton events ev ih =>
    rw [foldLive_append]
    refine ⟨_, rfl, ?_⟩
    by_cases he : events = []
    · subst he
      obtain ⟨h1, h2, h3⟩ := recordLive_fresh ev none (snaps ev) rfl
      exact ⟨ev, by simp, by simp, h1, h3, h2⟩
    · obtain ⟨row, hrow, e, hs⟩ := ih he
      rw [hrow]
      cases hstale : isStale row ev with
      | true =>
        obtain ⟨t, ht, hlt⟩ := (isStale_iff ev).mp hstale
        have het : e.eventTime = t := Option.some.inj (hs.time.symm.trans ht)
        rw [recordLive_stale ev (some row) _ hstale]
        refine ⟨e, by simp [hs.mem], ?_, hs.time, hs.heartbeat, hs.type⟩
        intro ev' hm
        obtain hm | hm := List.mem_append.mp hm
        · exact hs.newest ev' hm
        · rw [List.mem_singleton.mp hm, het]
          exact hlt.le
      | false =>
        obtain ⟨h1, h2, h3⟩ := recordLive_fresh ev (some row) (snaps ev) hstale
        refine ⟨ev, by simp, ?_, h1, h3, h2⟩
        intro ev' hm
        obtain hm | hm := List.mem_append.mp hm
        · refine (hs.newest ev' hm).trans (not_lt.mp fun hlt => ?_)
          have := (isStale_iff ev).mpr ⟨e.eventTime, hs.time, hlt⟩
          rw [hstale] at this
          cases this
        · rw [List.mem_singleton.mp hm]

/-- Two runs over the same events in different orders agree on the newest time, and on its type
where no two types compete for it. -/
theorem foldLive_perm (snaps : ATMParsedEvent → List CassetteSnapshot)
    {events events' : List ATMParsedEvent} (h : events.Perm events') :
    let live := foldLive snaps none events
    let live' := foldLive snaps none events'
    live.isSome = live'.isSome ∧
      live.bind (·.lastEventTime) = live'.bind (·.lastEventTime) ∧
      live.bind (·.lastHeartbeat) = live'.bind (·.lastHeartbeat) ∧
      ((∀ ev ∈ events, ∀ ev' ∈ events, ev.eventTime = ev'.eventTime →
          ev.eventType = ev'.eventType) →
        live.bind (·.lastEventType) = live'.bind (·.lastEventType)) := by
  by_cases he : events = []
  · subst he
    rw [List.nil_perm.mp h]
    exact ⟨rfl, rfl, rfl, fun _ => rfl⟩
  · have he' : events' ≠ [] := fun hn => he (by rw [hn] at h; exact List.perm_nil.mp h)
    obtain ⟨row, hrow, ev, hs⟩ := foldLive_newest snaps events he
    obtain ⟨row', hrow', ev', hs'⟩ := foldLive_newest snaps events' he'
    have htime : ev.eventTime = ev'.eventTime :=
      le_antisymm (hs'.newest ev (h.mem_iff.mp hs.mem)) (hs.newest ev' (h.mem_iff.mpr hs'.mem))
    simp only [hrow, hrow', Option.bind_some, Option.isSome_some, hs.time, hs'.time,
      hs.heartbeat, hs'.heartbeat, hs.type, hs'.type, htime, true_and]
    intro htypes
    rw [htypes ev hs.mem ev' (h.mem_iff.mpr hs'.mem) htime]

def Numbered (events : List ATMParsedEvent) : Prop :=
  (∀ ev ∈ events, ev.eventSequenceNumber.isSome) ∧
    (events.map (·.eventSequenceNumber)).Nodup

def unknownEvents (rows : List ATMEvent) (atmId : Nat) (events : List ATMParsedEvent) :
    List ATMParsedEvent :=
  events.filter fun ev => !knownEvent rows atmId ev.eventSequenceNumber

theorem unknownEvents_record (rows : List ATMEvent) (atmId : Nat) (ev : ATMParsedEvent)
    (events : List ATMParsedEvent)
    (h : ∀ ev' ∈ events, ev.eventSequenceNumber ≠ ev'.eventSequenceNumber) :
    unknownEvents (rows ++ [ATMEvent.ofParsed 0 atmId ev]) atmId events =
      unknownEvents rows atmId events := by
  apply List.filter_congr
  intro ev' hm
  cases hn : ev'.eventSequenceNumber with
  | none => rfl
  | some n =>
    have hne := h ev' hm
    rw [hn] at hne
    simp [knownEvent_append, knownEvent_ofParsed, hne]

theorem foldl_record_live (atmId : Nat) (snapshots : List CassetteSnapshot)
    {events : List ATMParsedEvent} (h : (events.map (·.eventSequenceNumber)).Nodup) (c : Contents) :
    (events.foldl (record atmId snapshots) c).liveStatus atmId =
      foldLive (matchingSnaps snapshots) (c.liveStatus atmId)
        (unknownEvents c.events atmId events) := by
  induction events generalizing c with
  | nil => rfl
  | cons ev rest ih =>
    rw [List.map_cons, List.nodup_cons] at h
    have hne : ∀ ev' ∈ rest, ev.eventSequenceNumber ≠ ev'.eventSequenceNumber :=
      fun ev' hm heq => h.1 (List.mem_map.mpr ⟨ev', hm, heq.symm⟩)
    rw [List.foldl_cons, ih h.2]
    cases hk : knownEvent c.events atmId ev.eventSequenceNumber with
    | true =>
      rw [record_known atmId snapshots hk, unknownEvents, unknownEvents, List.filter_cons]
      simp [hk]
    | false =>
      have hhead : unknownEvents c.events atmId (ev :: rest) =
          ev :: unknownEvents c.events atmId rest := by
        simp [unknownEvents, hk]
      rw [record_events atmId snapshots hk, unknownEvents_record _ _ _ _ hne, hhead,
        record_live atmId snapshots hk]
      rfl

/-- The calls process the events of `whole` in consecutive batches, each event with the snapshots
that it has in the whole, and nothing fails. -/
structure SplitOf (calls : List Call) (whole : Call) : Prop where
  machine : ∀ c ∈ calls, c.atmId = whole.atmId
  calm : ∀ c ∈ calls, ∀ i, Undisturbed (c.envs i)
  wholeCalm : ∀ i, Undisturbed (whole.envs i)
  events : whole.result.events = calls.flatMap (·.result.events)
  snaps : ∀ c ∈ calls, ∀ ev ∈ c.result.events,
    matchingSnaps c.result.cassetteSnapshots ev = matchingSnaps whole.result.cassetteSnapshots ev

theorem splitOf_calm (atmId : Nat) {results : List ParserResult} {whole : ParserResult}
    (he : whole.events = results.flatMap (·.events))
    (hs : ∀ r ∈ results, r.cassetteSnapshots = whole.cassetteSnapshots) :
    SplitOf (results.map (calm atmId)) (calm atmId whole) where
  machine := by
    intro c hc
    obtain ⟨r, -, rfl⟩ := List.mem_map.mp hc
    rfl
  calm := by
    intro c hc
    obtain ⟨r, -, rfl⟩ := List.mem_map.mp hc
    exact calm_undisturbed atmId r
  wholeCalm := calm_undisturbed atmId whole
  events := by
    rw [List.flatMap_map]
    exact he
  snaps := by
    intro c hc ev _
    obtain ⟨r, hr, rfl⟩ := List.mem_map.mp hc
    exact congrArg (matchingSnaps · ev) (hs r hr)

def runCalls (calls : List Call) (db : Database) : Database := calls.foldl (fun d c => c.run d) db

def batchOrder (calls : List Call) : List ATMParsedEvent :=
  calls.flatMap fun c => sortedEvents c.result.events

/-- No later batch brings an event with a smaller number than one of an earlier batch. -/
def InSequence (calls : List Call) : Prop :=
  calls.Pairwise fun c c' => ∀ ev ∈ c.result.events, ∀ ev' ∈ c'.result.events,
    (sortKey ev).1 ≤ (sortKey ev').1

theorem batchOrder_perm (calls : List Call) :
    (batchOrder calls).Perm (calls.flatMap (·.result.events)) := by
  induction calls with
  | nil => exact List.Perm.refl _
  | cons c rest ih => exact (sortedEvents_perm c.result.events).append ih

theorem record_snaps (atmId : Nat) {snapshots snapshots' : List CassetteSnapshot} (c : Contents)
    {ev : ATMParsedEvent} (h : matchingSnaps snapshots ev = matchingSnaps snapshots' ev) :
    record atmId snapshots c ev = record atmId snapshots' c ev := by
  rw [record, record, h]

theorem runCalls_contents {atmId : Nat} {snapshots : List CassetteSnapshot} (calls : List Call)
    (hmachine : ∀ c ∈ calls, c.atmId = atmId) (hcalm : ∀ c ∈ calls, ∀ i, Undisturbed (c.envs i))
    (hsnaps : ∀ c ∈ calls, ∀ ev ∈ c.result.events,
      matchingSnaps c.result.cassetteSnapshots ev = matchingSnaps snapshots ev) (db : Database) :
    contents (runCalls calls db) = (batchOrder calls).foldl (record atmId snapshots) (contents db) := by
  induction calls generalizing db with
  | nil => rfl
  | cons c rest ih =>
    rw [runCalls, List.foldl_cons, ← runCalls, batchOrder, List.flatMap_cons, List.foldl_append,
      ← batchOrder,
      ih (fun c' hc => hmachine c' (by simp [hc])) (fun c' hc => hcalm c' (by simp [hc]))
        (fun c' hc => hsnaps c' (by simp [hc])),
      Call.run, processResult_undisturbed (hcalm c (by simp)), hmachine c (by simp)]
    congr 1
    apply List.foldl_ext _ _ _
    intro d ev hm
    exact record_snaps atmId d (hsnaps c (by simp) ev (mem_sortedEvents.mp hm))

/-- In sequence, the batches bring the events in the order of the whole. -/
theorem batchOrder_eq {calls : List Call} (h : InSequence calls)
    (hnum : Numbered (calls.flatMap (·.result.events))) :
    batchOrder calls = sortedEvents (calls.flatMap (·.result.events)) := by
  set events := calls.flatMap (·.result.events) with hev
  have hperm : (batchOrder calls).Perm (sortedEvents events) :=
    (batchOrder_perm calls).trans (sortedEvents_perm events).symm
  have hnumber : ∀ ev ∈ events, ev.eventSequenceNumber = some (sortKey ev).1 := by
    intro ev hm
    obtain ⟨n, hn⟩ := Option.isSome_iff_exists.mp (hnum.1 ev hm)
    rw [sortKey, hn, Option.getD_some]
  have hinj : ∀ ev ∈ events, ∀ ev' ∈ events, (sortKey ev).1 = (sortKey ev').1 → ev = ev' := by
    intro ev hm ev' hm' hk
    apply List.inj_on_of_nodup_map hnum.2 hm hm'
    rw [hnumber ev hm, hnumber ev' hm', hk]
  have hsorted : (batchOrder calls).Pairwise keyLE := by
    rw [batchOrder, List.pairwise_flatMap]
    refine ⟨fun c _ => sortedEvents_pairwise c.result.events, ?_⟩
    refine List.Pairwise.imp_of_mem ?_ h
    intro c c' hc hc' hle ev hm ev' hm'
    have hm := mem_sortedEvents.mp hm
    have hm' := mem_sortedEvents.mp hm'
    obtain hlt | heq := (hle ev hm ev' hm').lt_or_eq
    · exact Or.inl hlt
    · rw [hinj ev (List.mem_flatMap.mpr ⟨c, hc, hm⟩) ev' (List.mem_flatMap.mpr ⟨c', hc', hm'⟩) heq]
      exact Or.inr ⟨rfl, le_rfl⟩
  refine hperm.eq_of_pairwise ?_ hsorted (sortedEvents_pairwise events)
  intro a b ha hb hab hba
  apply hinj a ((batchOrder_perm calls).mem_iff.mp ha) b (mem_sortedEvents.mp hb)
  obtain hab | ⟨hab, -⟩ := hab
  · obtain hba | ⟨hba, -⟩ := hba
    · exact absurd hba hab.asymm
    · exact hba.symm
  · exact hab

def liveContent (db : Database) (atmId : Nat) : Option ATMLiveStatus :=
  (db.liveStatus atmId).map content

/-- Scan timing and the final live row. Batches in the order of their sequence numbers build the
row of the single batch. Any batches build a row exactly if the single batch does, with the same
last event time and heartbeat, and the same last type where no two types compete for that time. -/
theorem scan_timing (calls : List Call) (whole : Call) (h : SplitOf calls whole)
    (hnum : Numbered whole.result.events) (db : Database)
    (hlive : db.liveStatus whole.atmId = none) :
    let split := liveContent (runCalls calls db) whole.atmId
    let once := liveContent (whole.run db) whole.atmId
    (InSequence calls → split = once) ∧
      split.isSome = once.isSome ∧
      split.bind (·.lastEventTime) = once.bind (·.lastEventTime) ∧
      split.bind (·.lastHeartbeat) = once.bind (·.lastHeartbeat) ∧
      ((∀ ev ∈ whole.result.events, ∀ ev' ∈ whole.result.events, ev.eventTime = ev'.eventTime →
          ev.eventType = ev'.eventType) →
        split.bind (·.lastEventType) = once.bind (·.lastEventType)) := by
  intro split once
  set snapshots := whole.result.cassetteSnapshots
  have hsplit : contents (runCalls calls db) =
      (batchOrder calls).foldl (record whole.atmId snapshots) (contents db) :=
    runCalls_contents calls h.machine h.calm h.snaps db
  have honce : contents (whole.run db) =
      (sortedEvents whole.result.events).foldl (record whole.atmId snapshots) (contents db) :=
    processResult_undisturbed h.wholeCalm whole.atmId whole.result db
  have hperm : (batchOrder calls).Perm (sortedEvents whole.result.events) := by
    rw [h.events]
    exact (batchOrder_perm calls).trans (sortedEvents_perm _).symm
  have hnodup : ((sortedEvents whole.result.events).map (·.eventSequenceNumber)).Nodup :=
    ((sortedEvents_perm _).map _).nodup_iff.mpr hnum.2
  have hnone : (contents db).liveStatus whole.atmId = none := by
    simp [contents, hlive]
  have hfold : split = foldLive (matchingSnaps snapshots) none
      (unknownEvents (contents db).events whole.atmId (batchOrder calls)) := by
    have := foldl_record_live whole.atmId snapshots ((hperm.map _).nodup_iff.mpr hnodup) (contents db)
    rw [← hsplit, hnone] at this
    exact this
  have hfold' : once = foldLive (matchingSnaps snapshots) none
      (unknownEvents (contents db).events whole.atmId (sortedEvents whole.result.events)) := by
    have := foldl_record_live whole.atmId snapshots hnodup (contents db)
    rw [← honce, hnone] at this
    exact this
  obtain ⟨h1, h2, h3, h4⟩ := foldLive_perm (matchingSnaps snapshots)
    (hperm.filter fun ev => !knownEvent (contents db).events whole.atmId ev.eventSequenceNumber)
  rw [hfold, hfold']
  refine ⟨fun hseq => ?_, h1, h2, h3, fun htypes => h4 ?_⟩
  · rw [h.events] at hnum ⊢
    rw [batchOrder_eq hseq hnum]
  · intro ev hm ev' hm' ht
    have hin : ∀ e, e ∈ List.filter (fun ev => !knownEvent (contents db).events whole.atmId
        ev.eventSequenceNumber) (batchOrder calls) → e ∈ whole.result.events :=
      fun e he => mem_sortedEvents.mp (hperm.mem_iff.mp (List.mem_filter.mp he).1)
    exact htypes ev (hin ev hm) ev' (hin ev' hm') ht

theorem scan_timing_two_batches :
    liveContent (runCalls ([{ events := [.bare 1 5 .supervisorModeEntered] },
        { events := [.bare 3 10 .sstInService, .bare 2 7 .cardInserted] }].map (calm 1)) {}) 1 =
      liveContent ((calm 1 { events := [.bare 1 5 .supervisorModeEntered,
        .bare 3 10 .sstInService, .bare 2 7 .cardInserted] }).run {}) 1 :=
  (scan_timing _ _ (splitOf_calm 1 rfl (by decide)) (by unfold Numbered; decide) {} rfl).1
    (by unfold InSequence; decide)

/-- A supervisor event that reaches a later batch under a smaller number and an earlier time is
stored but leaves no trace in the row; in a single batch it comes first and does. -/
theorem scan_timing_matters :
    ∃ calls whole, SplitOf calls whole ∧ Numbered whole.result.events ∧
      liveContent (runCalls calls {}) whole.atmId ≠ liveContent (whole.run {}) whole.atmId :=
  ⟨[{ events := [.bare 2 10 .sstInService] },
      { events := [{ ATMParsedEvent.bare 1 5 .supervisorModeEntered with
          supervisorMode := some true }] }].map (calm 1),
    calm 1 { events := [.bare 2 10 .sstInService,
      { ATMParsedEvent.bare 1 5 .supervisorModeEntered with supervisorMode := some true }] },
    splitOf_calm 1 rfl (by decide), by unfold Numbered; decide, by decide +kernel⟩

end AtmMonitor.ScanTiming
