import AtmMonitor.EventTransaction

namespace AtmMonitor.Ledger

open ParserModels DatabaseModels Repositories LiveStatus EventProcessor EventTransaction

/-- Set the columns of the live row that come from the clock or the server. -/
def stamp (heartbeat updated : Option Timestamp) (version : Nat) (s : ATMLiveStatus) :
    ATMLiveStatus :=
  { s with lastAgentHeartbeat := heartbeat, updatedOn := updated, rowVersion := version }

def content (s : ATMLiveStatus) : ATMLiveStatus := stamp none none 0 s

def eventContent (e : ATMEvent) : ATMEvent := { e with id := 0 }

def historyContent (h : CassetteBalanceHistory) : CassetteBalanceHistory :=
  { h with id := 0, eventId := 0 }

structure Contents where
  events : List ATMEvent
  history : List CassetteBalanceHistory
  liveStatus : Nat → Option ATMLiveStatus

def contents (db : Database) : Contents where
  events := db.events.map eventContent
  history := db.history.map historyContent
  liveStatus := fun atmId => (db.liveStatus atmId).map content

section Stamp

variable (h u : Option Timestamp) (v : Nat) (s : ATMLiveStatus)

@[simp] theorem stamp_self : stamp s.lastAgentHeartbeat s.updatedOn s.rowVersion s = s := rfl

@[simp] theorem content_stamp : content (stamp h u v s) = content s := rfl

@[simp] theorem isStale_content (ev : ATMParsedEvent) : isStale (content s) ev = isStale s ev := rfl

theorem applyTerminalStatus_stamp (ev : ATMParsedEvent) :
    applyTerminalStatus ev (stamp h u v s) = stamp h u v (applyTerminalStatus ev s) := by
  unfold applyTerminalStatus
  cases ev.terminalStatus <;> rfl

theorem applySupervisorMode_stamp (ev : ATMParsedEvent) :
    applySupervisorMode ev (stamp h u v s) = stamp h u v (applySupervisorMode ev s) := by
  unfold applySupervisorMode
  cases ev.supervisorMode <;> rfl

theorem applyLastEvent_stamp (now now' : Timestamp) (ev : ATMParsedEvent) :
    applyLastEvent now ev (stamp h u v s) = stamp (some now) u v (applyLastEvent now' ev s) := rfl

theorem applyTransaction_stamp (ev : ATMParsedEvent) :
    applyTransaction ev (stamp h u v s) = stamp h u v (applyTransaction ev s) := by
  unfold applyTransaction
  cases ev.amount <;> rfl

theorem applyCardReader_stamp (ev : ATMParsedEvent) :
    applyCardReader ev (stamp h u v s) = stamp h u v (applyCardReader ev s) := by
  unfold applyCardReader
  split_ifs <;> rfl

theorem applyRejectBin_stamp (ev : ATMParsedEvent) :
    applyRejectBin ev (stamp h u v s) = stamp h u v (applyRejectBin ev s) := by
  unfold applyRejectBin
  split_ifs <;> rfl

theorem applySnapshot_stamp (snap : CassetteSnapshot) :
    applySnapshot (stamp h u v s) snap = stamp h u v (applySnapshot s snap) := by
  unfold applySnapshot
  split <;> rfl

theorem applySnapshots_stamp (snaps : List CassetteSnapshot) :
    snaps.foldl applySnapshot (stamp h u v s) = stamp h u v (snaps.foldl applySnapshot s) := by
  induction snaps generalizing s with
  | nil => rfl
  | cons snap rest ih => rw [List.foldl_cons, applySnapshot_stamp, ih, List.foldl_cons]

theorem applyCash_stamp (snaps : List CassetteSnapshot) :
    applyCash snaps (stamp h u v s) = stamp h u v (applyCash snaps s) := by
  have hc : cCounts (stamp h u v s) = cCounts s := rfl
  simp only [applyCash, hc]
  split_ifs <;> rfl

theorem applyStatusUpdates_stamp (now now' : Timestamp) (ev : ATMParsedEvent)
    (snaps : List CassetteSnapshot) :
    applyStatusUpdates now (stamp h u v s) ev snaps =
      stamp (some now) u v (applyStatusUpdates now' s ev snaps) := by
  simp only [applyStatusUpdates, applyTerminalStatus_stamp, applySupervisorMode_stamp,
    applyLastEvent_stamp h u v _ now now', applyTransaction_stamp, applyCardReader_stamp,
    applyRejectBin_stamp, applySnapshots_stamp, applyCash_stamp]
  rfl

end Stamp

def applyEvent (s : ATMLiveStatus) (ev : ATMParsedEvent) (snaps : List CassetteSnapshot) :
    ATMLiveStatus :=
  content (applyStatusUpdates 0 s ev snaps)

theorem content_applyStatusUpdates (now : Timestamp) (s : ATMLiveStatus) (ev : ATMParsedEvent)
    (snaps : List CassetteSnapshot) :
    content (applyStatusUpdates now s ev snaps) = applyEvent (content s) ev snaps := by
  have hs := applyStatusUpdates_stamp s.lastAgentHeartbeat s.updatedOn s.rowVersion s now 0 ev snaps
  have hc : applyStatusUpdates 0 (content s) ev snaps =
      stamp (some 0) none 0 (applyStatusUpdates 0 s ev snaps) :=
    applyStatusUpdates_stamp none none 0 s 0 0 ev snaps
  rw [stamp_self] at hs
  rw [applyEvent, hc, hs, content_stamp, content_stamp]

def recordLive (live : Option ATMLiveStatus) (ev : ATMParsedEvent) (snaps : List CassetteSnapshot) :
    ATMLiveStatus :=
  if isStale (live.getD initialStatus) ev then live.getD initialStatus
  else applyEvent (live.getD initialStatus) ev snaps

def knownEvent (events : List ATMEvent) (atmId : Nat) : Option Nat → Bool
  | none => false
  | some n => events.any fun r => r.atmId == atmId && r.eventSequenceNumber == some n

def knownSnapshot (history : List CassetteBalanceHistory) (atmId : Nat) : Option Nat → Nat → Bool
  | none, _ => false
  | some n, cassetteNo =>
    history.any fun r =>
      r.atmId == atmId && r.eventSequenceNumber == some n && r.cassetteNo == cassetteNo

def recordHistory (atmId : Nat) (ev : ATMParsedEvent) (snaps : List CassetteSnapshot)
    (history : List CassetteBalanceHistory) : List CassetteBalanceHistory :=
  snaps.foldl (fun rows s =>
    if knownSnapshot rows atmId ev.eventSequenceNumber s.cassetteNo then rows
    else rows ++ [CassetteBalanceHistory.ofSnapshot 0 atmId 0 ev s]) history

/-- The abstract step: an event whose number is known is dropped, another is entered into the
three tables. -/
def record (atmId : Nat) (snapshots : List CassetteSnapshot) (c : Contents) (ev : ATMParsedEvent) :
    Contents :=
  if knownEvent c.events atmId ev.eventSequenceNumber then c
  else
    { events := c.events ++ [ATMEvent.ofParsed 0 atmId ev]
      history := recordHistory atmId ev (matchingSnaps snapshots ev) c.history
      liveStatus := Function.update c.liveStatus atmId
        (some (recordLive (c.liveStatus atmId) ev (matchingSnaps snapshots ev))) }

theorem knownEvent_contents (db : Database) (atmId : Nat) (n : Option Nat) :
    knownEvent (contents db).events atmId n = duplicateCheck db atmId n := by
  cases n with
  | none => rfl
  | some n =>
    simp only [knownEvent, contents, duplicateCheck, List.any_map]
    rfl

theorem knownSnapshot_map (db : Database) (atmId : Nat) (n : Option Nat) (cassetteNo : Nat) :
    knownSnapshot (db.history.map historyContent) atmId n cassetteNo =
      duplicateSnapshotCheck db atmId n cassetteNo := by
  cases n with
  | none => rfl
  | some n =>
    simp only [knownSnapshot, duplicateSnapshotCheck, List.any_map]
    rfl

theorem recordSnapshots_frame (atmId eventId : Nat) (ev : ATMParsedEvent)
    (snaps : List CassetteSnapshot) (db : Database) :
    (recordSnapshots atmId eventId ev snaps db).events = db.events ∧
      (recordSnapshots atmId eventId ev snaps db).liveStatus = db.liveStatus ∧
      (recordSnapshots atmId eventId ev snaps db).fileStates = db.fileStates ∧
      (recordSnapshots atmId eventId ev snaps db).nextEventId = db.nextEventId ∧
      (recordSnapshots atmId eventId ev snaps db).nextRowVersion = db.nextRowVersion := by
  induction snaps generalizing db with
  | nil => exact ⟨rfl, rfl, rfl, rfl, rfl⟩
  | cons s rest ih =>
    rw [recordSnapshots, List.foldl_cons, ← recordSnapshots]
    split_ifs with hd
    · exact ih db
    · exact ih (insertHistory db atmId eventId ev s)

theorem recordSnapshots_history (atmId eventId : Nat) (ev : ATMParsedEvent)
    (snaps : List CassetteSnapshot) (db : Database) :
    (recordSnapshots atmId eventId ev snaps db).history.map historyContent =
      recordHistory atmId ev snaps (db.history.map historyContent) := by
  induction snaps generalizing db with
  | nil => rfl
  | cons s rest ih =>
    rw [recordSnapshots, recordHistory, List.foldl_cons, List.foldl_cons, ← recordSnapshots,
      ← recordHistory, knownSnapshot_map, ih]
    split_ifs with hd
    · rfl
    · simp only [insertHistory, List.map_append, List.map_cons, List.map_nil]
      rfl

theorem recordStatus_frame (now : Timestamp) (atmId : Nat) (ev : ATMParsedEvent)
    (snaps : List CassetteSnapshot) (db : Database) :
    (recordStatus now atmId ev snaps db).events = db.events ∧
      (recordStatus now atmId ev snaps db).history = db.history ∧
      (recordStatus now atmId ev snaps db).fileStates = db.fileStates ∧
      (recordStatus now atmId ev snaps db).nextEventId = db.nextEventId := by
  have hload : ∀ d : Database, d.events = db.events → d.history = db.history →
      d.fileStates = db.fileStates → d.nextEventId = db.nextEventId →
      (loadedDb d atmId).events = db.events ∧ (loadedDb d atmId).history = db.history ∧
        (loadedDb d atmId).fileStates = db.fileStates ∧
        (loadedDb d atmId).nextEventId = db.nextEventId := by
    intro d he hh hf hn
    rw [loadedDb]
    cases d.liveStatus atmId with
    | none => exact ⟨he, hh, hf, hn⟩
    | some row => exact ⟨he, hh, hf, hn⟩
  rw [recordStatus]
  split_ifs
  · exact hload db rfl rfl rfl rfl
  · exact hload db rfl rfl rfl rfl

theorem recordStatus_other (now : Timestamp) (atmId other : Nat) (ev : ATMParsedEvent)
    (snaps : List CassetteSnapshot) (db : Database) (h : other ≠ atmId) :
    (recordStatus now atmId ev snaps db).liveStatus other = db.liveStatus other := by
  have hload : (loadedDb db atmId).liveStatus other = db.liveStatus other := by
    rw [loadedDb]
    cases db.liveStatus atmId with
    | none => exact writeStatus_other db atmId initialStatus h
    | some row => rfl
  rw [recordStatus]
  split_ifs
  · exact hload
  · exact (writeStatus_other _ atmId _ h).trans hload

theorem recordStatus_self (now : Timestamp) (atmId : Nat) (ev : ATMParsedEvent)
    (snaps : List CassetteSnapshot) (db : Database) :
    ∃ row, (recordStatus now atmId ev snaps db).liveStatus atmId = some row ∧
      content row =
        recordLive ((db.liveStatus atmId).map content) ev snaps := by
  have hget : ((db.liveStatus atmId).map content).getD initialStatus =
      content (loadedStatus db atmId) := by
    rw [loadedStatus]
    cases db.liveStatus atmId <;> rfl
  rw [recordLive, hget, isStale_content]
  rw [recordStatus]
  split_ifs with hstale
  · exact ⟨_, loadedDb_liveStatus db atmId, rfl⟩
  · refine ⟨_, writeStatus_self .., ?_⟩
    exact content_applyStatusUpdates now (loadedStatus db atmId) ev snaps

section StoreEvent

variable (now : Timestamp) (atmId : Nat) (snapshots : List CassetteSnapshot) (ev : ATMParsedEvent)
  (db : Database)

theorem storeEvent_events :
    (storeEvent now atmId snapshots ev db).events =
      db.events ++ [ATMEvent.ofParsed db.nextEventId atmId ev] :=
  (recordStatus_frame ..).1.trans (recordSnapshots_frame ..).1

theorem storeEvent_history :
    (storeEvent now atmId snapshots ev db).history =
      (recordSnapshots atmId db.nextEventId ev (matchingSnaps snapshots ev)
        (insertEvent db atmId ev)).history :=
  (recordStatus_frame ..).2.1

theorem storeEvent_other {other : Nat} (h : other ≠ atmId) :
    (storeEvent now atmId snapshots ev db).liveStatus other = db.liveStatus other := by
  rw [storeEvent, recordStatus_other _ _ _ _ _ _ h, (recordSnapshots_frame ..).2.1]
  rfl

theorem storeEvent_self :
    ∃ row, (storeEvent now atmId snapshots ev db).liveStatus atmId = some row ∧
      content row =
        recordLive ((db.liveStatus atmId).map content) ev (matchingSnaps snapshots ev) := by
  have h := recordStatus_self now atmId ev (matchingSnaps snapshots ev)
    (recordSnapshots atmId db.nextEventId ev (matchingSnaps snapshots ev) (insertEvent db atmId ev))
  rw [(recordSnapshots_frame ..).2.1] at h
  exact h

end StoreEvent

/-- A stored event is an entry into the ledger. -/
theorem storeEvent_contents (now : Timestamp) (atmId : Nat) (snapshots : List CassetteSnapshot)
    (ev : ATMParsedEvent) (db : Database)
    (hdup : duplicateCheck db atmId ev.eventSequenceNumber = false) :
    contents (storeEvent now atmId snapshots ev db) = record atmId snapshots (contents db) ev := by
  have hknown : ¬ knownEvent (contents db).events atmId ev.eventSequenceNumber = true := by
    simp [knownEvent_contents, hdup]
  rw [record, if_neg hknown]
  obtain ⟨row, hrow, hcontent⟩ := storeEvent_self now atmId snapshots ev db
  simp only [contents, Contents.mk.injEq]
  refine ⟨?_, ?_, ?_⟩
  · rw [storeEvent_events, List.map_append]
    rfl
  · rw [storeEvent_history, recordSnapshots_history]
    rfl
  · funext other
    by_cases h : other = atmId
    · subst h
      rw [hrow, Option.map_some, hcontent, Function.update_self]
    · rw [storeEvent_other now atmId snapshots ev db h, Function.update_of_ne h]

theorem contents_sameRows {db db' : Database} (h : SameRows db db') :
    contents db' = contents db := by
  simp only [contents, h.events, h.history, h.liveStatus]

/-- No statement of the transaction fails and no other connection writes the live row. -/
structure Undisturbed (env : TxEnv) : Prop where
  raises : ∀ s, env.raises s = none
  rowMoved : ∀ a, env.rowMoved a = false

theorem Undisturbed.completes {env : TxEnv} (h : Undisturbed env) (atmId : Nat)
    (snapshots : List CassetteSnapshot) (ev : ATMParsedEvent) (db : Database) :
    Completes env atmId snapshots ev db where
  check := fun _ => h.raises _
  insert := h.raises _
  inserts := snapshotsComplete_of_raises h.raises ..
  status := ⟨h.raises _, fun _ => h.raises _, Or.inr ⟨h.raises _, Or.inl (h.rowMoved _)⟩⟩
  commit := h.raises _

/-- A round whose transaction completes enters its event into the ledger. -/
theorem processEvent_completes {atmId : Nat} {snapshots : List CassetteSnapshot}
    {acc : Database × ProcessingStatistics} {p : TxEnv × ATMParsedEvent}
    (h : Completes p.1 atmId snapshots p.2 acc.1) :
    contents (processEvent atmId snapshots acc p).1 =
      record atmId snapshots (contents acc.1) p.2 := by
  obtain ⟨hdup, -, hdb⟩ | ⟨hn, hdb⟩ := processEvent_db atmId snapshots acc p
  · rw [hdb]
    exact storeEvent_contents p.1.now atmId snapshots p.2 acc.1 hdup
  · have hdup : duplicateCheck acc.1 atmId p.2.eventSequenceNumber = true := by
      by_contra hd
      exact hn ⟨by simpa using hd, h⟩
    rw [contents_sameRows hdb, record, knownEvent_contents, hdup, if_pos rfl]

theorem processEvents_undisturbed (atmId : Nat) (snapshots : List CassetteSnapshot)
    (ps : List (TxEnv × ATMParsedEvent)) (h : ∀ p ∈ ps, Undisturbed p.1)
    (acc : Database × ProcessingStatistics) :
    contents (processEvents atmId snapshots ps acc).1 =
      (ps.map Prod.snd).foldl (record atmId snapshots) (contents acc.1) := by
  induction ps generalizing acc with
  | nil => rfl
  | cons p rest ih =>
    rw [processEvents, List.foldl_cons, ← processEvents, ih (fun q hq => h q (by simp [hq])),
      processEvent_completes ((h p (by simp)).completes ..), List.map_cons,
      List.foldl_cons]

theorem withEnvs_events (envs : Nat → TxEnv) (events : List ATMParsedEvent) :
    (withEnvs envs events).map Prod.snd = events := by
  simp [withEnvs, Function.comp_def]

theorem withEnvs_undisturbed {envs : Nat → TxEnv} (h : ∀ i, Undisturbed (envs i))
    (events : List ATMParsedEvent) : ∀ p ∈ withEnvs envs events, Undisturbed p.1 := by
  intro p hp
  obtain ⟨q, -, rfl⟩ := List.mem_map.mp hp
  exact h q.2

theorem processResult_undisturbed {envs : Nat → TxEnv} (h : ∀ i, Undisturbed (envs i))
    (atmId : Nat) (result : ParserResult) (db : Database) :
    contents (processResult envs atmId result db).1 =
      (sortedEvents result.events).foldl (record atmId result.cassetteSnapshots) (contents db) := by
  rw [processResult, processEvents_undisturbed atmId _ _ (withEnvs_undisturbed h _),
    withEnvs_events]

end AtmMonitor.Ledger
