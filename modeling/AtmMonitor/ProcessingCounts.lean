import AtmMonitor.CallRuns

namespace AtmMonitor.ProcessingCounts

open Library.Runs ParserModels DatabaseModels Repositories LiveStatus EventProcessor
  EventTransaction Ledger CallRuns

def statistics (c : Call) (db : Database) : ProcessingStatistics :=
  (processResult c.envs c.atmId c.result db).2

/-- The number of transactions of the call that leave another live row behind. -/
def liveChanges (c : Call) (db : Database) : Nat :=
  ((c.visited db).zip (c.visited db).tail).countP fun d =>
    d.1.liveStatus c.atmId ≠ d.2.liveStatus c.atmId

structure Truthful (c : Call) (db : Database) : Prop where
  events : (c.run db).events.length = db.events.length + (statistics c db).eventsInserted
  snapshots : (c.run db).history.length =
    db.history.length + (statistics c db).cassetteSnapshotsInserted
  live : liveChanges c db = (statistics c db).liveStatusUpdates
  balance : (statistics c db).eventsProcessed = (statistics c db).eventsInserted +
    (statistics c db).eventsSkipped + (statistics c db).healthLogsWritten

def VersionDrawn (db : Database) (atmId : Nat) : Prop :=
  ∀ row, db.liveStatus atmId = some row → row.rowVersion < db.nextRowVersion

/-- Nothing fails in a transaction once it has counted its event. -/
structure Settles (env : TxEnv) (atmId : Nat) (snapshots : List CassetteSnapshot)
    (ev : ATMParsedEvent) (db : Database) : Prop where
  skipped : Checked env ev → duplicateCheck db atmId ev.eventSequenceNumber = true →
    env.raises .rollback = none
  inserted : Checked env ev → duplicateCheck db atmId ev.eventSequenceNumber = false →
    env.raises .insertEvent = none → Completes env atmId snapshots ev db

def outcomes (s : ProcessingStatistics) : Nat × Nat × Nat × Nat :=
  (s.eventsProcessed, s.eventsInserted, s.eventsSkipped, s.healthLogsWritten)

section Steps

variable (env : TxEnv) (atmId eventId : Nat) (ev : ATMParsedEvent) (snaps : List CassetteSnapshot)

theorem insertSnapshots_outcomes (k : Nat) (w : Work) :
    outcomes (outcome (insertSnapshots env atmId eventId ev k snaps w)).stats = outcomes w.stats := by
  induction snaps generalizing k w with
  | nil => rfl
  | cons s rest ih =>
    rw [insertSnapshots]
    cases w.issue env (.duplicateSnapshotCheck k) with
    | some e => rfl
    | none =>
      dsimp only
      split
      · exact ih (k + 1) w
      · cases w.issue env (.insertHistory k) with
        | none => exact ih (k + 1) _
        | some e =>
          cases e with
          | other => rfl
          | integrityError => exact ih (k + 1) _

theorem updateStatus_outcomes (attempts : List Nat) (w : Work) :
    outcomes (outcome (updateStatus env atmId ev snaps attempts w)).stats = outcomes w.stats := by
  induction attempts generalizing w with
  | nil => rfl
  | cons a rest ih =>
    rw [updateStatus]
    obtain ⟨status, hl⟩ | hl := loadStatus_drawn env atmId a w
    · rw [hl]
      dsimp only
      split
      · rfl
      · cases Work.issue { w with db := loadedDb w.db atmId } env (.updateLiveStatus a) with
        | some e => rfl
        | none =>
          dsimp only
          split
          · rfl
          · exact ih _
    · rw [hl]
      rfl

theorem finishTransaction_outcomes (w : Work) :
    outcomes (finishTransaction env atmId eventId ev snaps w).2.stats = outcomes w.stats := by
  have hs := insertSnapshots_outcomes env atmId eventId ev snaps 0 w
  unfold finishTransaction
  cases hi : insertSnapshots env atmId eventId ev 0 snaps w with
  | error w1 =>
    rw [hi] at hs
    exact hs
  | ok w1 =>
    rw [hi] at hs
    have hu := updateStatus_outcomes env atmId ev snaps [0, 1] w1
    cases hw : updateStatus env atmId ev snaps [0, 1] w1 with
    | error w2 =>
      rw [hw] at hu
      simp only [hw]
      exact hu.trans hs
    | ok w2 =>
      rw [hw] at hu
      simp only [hw]
      cases w2.issue env .commit <;> exact hu.trans hs

theorem insertSnapshots_counts (k : Nat) {w w' : Work}
    (h : insertSnapshots env atmId eventId ev k snaps w = .ok w') :
    w'.db.history.length + w.stats.cassetteSnapshotsInserted =
        w.db.history.length + w'.stats.cassetteSnapshotsInserted ∧
      w'.stats.liveStatusUpdates = w.stats.liveStatusUpdates := by
  induction snaps generalizing k w with
  | nil =>
    obtain rfl : w = w' := Except.ok.inj h
    exact ⟨rfl, rfl⟩
  | cons s rest ih =>
    rw [insertSnapshots] at h
    cases hc : w.issue env (.duplicateSnapshotCheck k) with
    | some e =>
      rw [hc] at h
      cases h
    | none =>
      simp only [hc] at h
      split at h
      · exact ih (k + 1) h
      · cases hi : w.issue env (.insertHistory k) with
        | none =>
          simp only [hi] at h
          obtain ⟨hrows, hlive⟩ := ih (k + 1) h
          simp only [insertHistory, List.length_append, List.length_singleton] at hrows
          exact ⟨by omega, hlive⟩
        | some e =>
          cases e with
          | other =>
            simp only [hi] at h
            cases h
          | integrityError =>
            simp only [hi] at h
            exact ih (k + 1) (w := { w with active := false }) h

theorem updateStatus_counts (attempts : List Nat) {w w' : Work}
    (h : updateStatus env atmId ev snaps attempts w = .ok w') :
    w'.stats.cassetteSnapshotsInserted = w.stats.cassetteSnapshotsInserted ∧
      w'.stats.liveStatusUpdates = w.stats.liveStatusUpdates +
        if isStale (loadedStatus w.db atmId) ev then 0 else 1 := by
  induction attempts generalizing w with
  | nil => cases h
  | cons a rest ih =>
    cases hl : loadStatus env atmId a w with
    | error w1 => simp [updateStatus, hl] at h
    | ok p =>
      obtain ⟨hw, hg, hs⟩ := loadStatus_ok env atmId a w p.2 p.1 hl
      cases hf : isStale (loadedStatus w.db atmId) ev with
      | true =>
        simp only [updateStatus, loadStatus_active env atmId a w hw hg hs, hf, if_true,
          Except.ok.injEq] at h
        subst h
        exact ⟨rfl, rfl⟩
      | false =>
        cases hu : env.raises (.updateLiveStatus a) with
        | some e =>
          simp [updateStatus, loadStatus_active env atmId a w hw hg hs, hf, Work.issue, hw, hu] at h
        | none =>
          rw [updateStatus_attempt env atmId a ev snaps rest w hw hg hs hf hu] at h
          split_ifs at h with hm
          · simpa [hf] using ih h
          · obtain rfl := Except.ok.inj h
            exact ⟨rfl, rfl⟩

theorem recordStatus_changes (now : Timestamp) {db : Database} (hdb : VersionDrawn db atmId) :
    db.liveStatus atmId ≠ (recordStatus now atmId ev snaps db).liveStatus atmId ↔
      isStale (loadedStatus db atmId) ev = false := by
  rw [recordStatus]
  cases hrow : db.liveStatus atmId with
  | none =>
    have hfresh : isStale (loadedStatus db atmId) ev = false := by
      rw [loadedStatus, hrow]
      rfl
    rw [hfresh, if_neg Bool.false_ne_true, writeStatus_self]
    simp
  | some row =>
    have hloaded : loadedStatus db atmId = row := by rw [loadedStatus, hrow, Option.getD_some]
    have hsame : loadedDb db atmId = db := by rw [loadedDb, hrow]
    rw [hloaded, hsame]
    cases hstale : isStale row ev with
    | true =>
      rw [if_pos rfl, hrow]
      simp
    | false =>
      rw [if_neg Bool.false_ne_true, writeStatus_self]
      refine iff_of_true (fun heq => ?_) rfl
      have hversion := congrArg ATMLiveStatus.rowVersion (Option.some.inj heq)
      exact absurd hversion (hdb row hrow).ne

theorem recordStatus_versionDrawn (now : Timestamp) {db : Database} (hdb : VersionDrawn db atmId) :
    VersionDrawn (recordStatus now atmId ev snaps db) atmId := by
  have hload : VersionDrawn (loadedDb db atmId) atmId := by
    unfold loadedDb
    cases hrow : db.liveStatus atmId with
    | some row => exact hdb
    | none =>
      intro row h
      rw [save, writeStatus_self] at h
      obtain rfl := Option.some.inj h
      exact Nat.lt_succ_self _
  rw [recordStatus]
  split_ifs
  · exact hload
  · intro row h
    rw [writeStatus_self] at h
    obtain rfl := Option.some.inj h
    exact Nat.lt_succ_self _

end Steps

theorem finishTransaction_not_duplicate (env : TxEnv) (atmId eventId : Nat) (ev : ATMParsedEvent)
    (snaps : List CassetteSnapshot) (w : Work) :
    (finishTransaction env atmId eventId ev snaps w).1 ≠ .duplicate := by
  unfold finishTransaction
  split
  · simp
  · split
    · simp
    · split <;> simp

theorem isStale_loadedStatus {db db' : Database} {atmId : Nat}
    (h : db'.liveStatus atmId = db.liveStatus atmId) (ev : ATMParsedEvent) :
    isStale (loadedStatus db' atmId) ev = isStale (loadedStatus db atmId) ev := by
  rw [loadedStatus, loadedStatus, h]
  cases db.liveStatus atmId <;> rfl

theorem finishTransaction_counts (env : TxEnv) (atmId eventId : Nat) (ev : ATMParsedEvent)
    (snaps : List CassetteSnapshot) {w w' : Work}
    (h : finishTransaction env atmId eventId ev snaps w = (.committed, w')) :
    w'.db.history.length + w.stats.cassetteSnapshotsInserted =
        w.db.history.length + w'.stats.cassetteSnapshotsInserted ∧
      w'.stats.liveStatusUpdates = w.stats.liveStatusUpdates +
        if isStale (loadedStatus w.db atmId) ev then 0 else 1 := by
  unfold finishTransaction at h
  cases hi : insertSnapshots env atmId eventId ev 0 snaps w with
  | error w1 => simp [hi] at h
  | ok w1 =>
    simp only [hi] at h
    cases hu : updateStatus env atmId ev snaps [0, 1] w1 with
    | error w2 => simp [hu] at h
    | ok w2 =>
      simp only [hu] at h
      have hactive : w1.active = true := by
        by_contra hn
        simp [updateStatus, loadStatus, Work.issue, hn] at hu
      have hdb := (insertSnapshots_db env atmId eventId ev 0 snaps w w1 hactive hi).2
      have hlive : w1.db.liveStatus atmId = w.db.liveStatus atmId := by
        rw [hdb, (recordSnapshots_frame ..).2.1]
      have hhistory : w2.db.history = w1.db.history := by
        rw [(updateStatus_db env atmId ev snaps [0, 1] w1 w2 hu).2, (recordStatus_frame ..).2.1]
      obtain ⟨hrows, hsame⟩ := insertSnapshots_counts env atmId eventId ev snaps 0 hi
      obtain ⟨hcass, hcount⟩ := updateStatus_counts env atmId ev snaps [0, 1] hu
      rw [isStale_loadedStatus hlive, hsame] at hcount
      cases hc : w2.issue env .commit with
      | some e => simp [hc] at h
      | none =>
        simp only [hc, Prod.mk.injEq, true_and] at h
        subst h
        rw [hhistory, hcass]
        exact ⟨hrows, hcount⟩

section Round

variable (atmId : Nat) (snapshots : List CassetteSnapshot)

/-- A transaction counts its event once, or twice where something fails after it did. -/
theorem transaction_outcomes (env : TxEnv) (ev : ATMParsedEvent) {w : Work}
    (hw : w.active = true) :
    let r := transaction env atmId snapshots ev w
    r.2.stats.eventsProcessed = w.stats.eventsProcessed ∧
      r.2.stats.healthLogsWritten = w.stats.healthLogsWritten ∧
      ((Settles env atmId snapshots ev w.db ∧
          r.2.stats.eventsInserted + r.2.stats.eventsSkipped + (if r.1 = .failed then 1 else 0) =
            w.stats.eventsInserted + w.stats.eventsSkipped + 1) ∨
        (¬ Settles env atmId snapshots ev w.db ∧ r.1 = .failed ∧
          r.2.stats.eventsInserted + r.2.stats.eventsSkipped =
            w.stats.eventsInserted + w.stats.eventsSkipped + 1)) := by
  have hcommitted := transaction_committed_iff env atmId snapshots ev w hw
  by_cases hc : Checked env ev
  · cases hd : duplicateCheck w.db atmId ev.eventSequenceNumber with
    | true =>
      have hinserted : duplicateCheck w.db atmId ev.eventSequenceNumber ≠ false := by simp [hd]
      rw [transaction_known atmId snapshots hw hc hd]
      refine ⟨rfl, rfl, ?_⟩
      by_cases hr : env.raises .rollback = none
      · refine .inl ⟨⟨fun _ _ => hr, fun _ h => absurd h hinserted⟩, ?_⟩
        simp only [hr, if_true, reduceCtorEq, if_false, Work.skip]
        omega
      · refine .inr ⟨fun h => hr (h.skipped hc hd), if_neg hr, ?_⟩
        simp only [Work.skip]
        omega
    | false =>
      have hskipped : duplicateCheck w.db atmId ev.eventSequenceNumber ≠ true := by simp [hd]
      cases hi : env.raises .insertEvent with
      | some e =>
        have hsettles : Settles env atmId snapshots ev w.db :=
          ⟨fun _ h => absurd h hskipped, fun _ _ h => by simp [hi] at h⟩
        rw [transaction_rejected atmId snapshots hw hc hd hi]
        split_ifs with hr
        · refine ⟨rfl, rfl, .inl ⟨hsettles, ?_⟩⟩
          simp only [reduceCtorEq, if_false, Work.skip]
          omega
        · exact ⟨rfl, rfl, .inl ⟨hsettles, rfl⟩⟩
      | none =>
        rw [transaction_inserted atmId snapshots hw hc hd hi] at hcommitted ⊢
        set r := finishTransaction env atmId w.db.nextEventId ev (matchingSnaps snapshots ev)
          { w with
            db := insertEvent w.db atmId ev
            stats.eventsInserted := w.stats.eventsInserted + 1 } with hr
        have hkept : outcomes r.2.stats = _ := finishTransaction_outcomes ..
        have hend : r.1 ≠ .duplicate := finishTransaction_not_duplicate env atmId _ ev _ _
        simp only [outcomes, Prod.mk.injEq] at hkept
        obtain ⟨hprocessed, hinserted, hskip, hhealth⟩ := hkept
        refine ⟨hprocessed, hhealth, ?_⟩
        cases hcase : r.1 with
        | duplicate => exact absurd hcase hend
        | committed =>
          refine .inl ⟨⟨fun _ h => absurd h hskipped, fun _ _ _ => (hcommitted.mp hcase).2⟩, ?_⟩
          simp only [reduceCtorEq, if_false]
          omega
        | failed =>
          refine .inr ⟨fun h => ?_, rfl, by omega⟩
          have hdone := hcommitted.mpr ⟨hd, h.inserted hc hd hi⟩
          rw [hcase] at hdone
          cases hdone
  · rw [transaction_unchecked atmId snapshots hw hc]
    exact ⟨rfl, rfl, .inl ⟨⟨fun h => absurd h hc, fun h => absurd h hc⟩, rfl⟩⟩

def owed (s : ProcessingStatistics) : Int :=
  s.eventsInserted + s.eventsSkipped + s.healthLogsWritten - s.eventsProcessed

variable (acc : Database × ProcessingStatistics) (p : TxEnv × ATMParsedEvent)

theorem processEvent_owed :
    (Settles p.1 atmId snapshots p.2 acc.1 ∧
        owed (processEvent atmId snapshots acc p).2 = owed acc.2) ∨
      (¬ Settles p.1 atmId snapshots p.2 acc.1 ∧
        owed (processEvent atmId snapshots acc p).2 = owed acc.2 + 1) := by
  have h := transaction_outcomes atmId snapshots p.1 p.2
    (w := ⟨acc.1, { acc.2 with eventsProcessed := acc.2.eventsProcessed + 1 }, true⟩) rfl
  rw [processEvent]
  cases ht : transaction p.1 atmId snapshots p.2
      ⟨acc.1, { acc.2 with eventsProcessed := acc.2.eventsProcessed + 1 }, true⟩ with
  | mk e w' =>
    rw [ht] at h
    obtain ⟨hprocessed, hhealth, hcounts⟩ := h
    apply hcounts.imp
    · rintro ⟨hsettles, hcount⟩
      refine ⟨hsettles, ?_⟩
      cases e <;> simp only [owed, reduceCtorEq, if_true, if_false] at hcount hprocessed hhealth ⊢ <;>
        omega
    · rintro ⟨hsettles, hend, hcount⟩
      refine ⟨hsettles, ?_⟩
      subst hend
      simp only [owed] at hcount hprocessed hhealth ⊢
      omega

/-- In a transaction that settles the counters count what it commits. -/
theorem transaction_counts (env : TxEnv) (ev : ATMParsedEvent) {w : Work} (hw : w.active = true)
    (h : Settles env atmId snapshots ev w.db) :
    let r := transaction env atmId snapshots ev w
    (r.1 ≠ .committed ∧ r.2.stats.eventsInserted = w.stats.eventsInserted ∧
        r.2.stats.cassetteSnapshotsInserted = w.stats.cassetteSnapshotsInserted ∧
        r.2.stats.liveStatusUpdates = w.stats.liveStatusUpdates) ∨
      (r.1 = .committed ∧ r.2.stats.eventsInserted = w.stats.eventsInserted + 1 ∧
        r.2.db.history.length + w.stats.cassetteSnapshotsInserted =
          w.db.history.length + r.2.stats.cassetteSnapshotsInserted ∧
        r.2.stats.liveStatusUpdates = w.stats.liveStatusUpdates +
          if isStale (loadedStatus w.db atmId) ev then 0 else 1) := by
  by_cases hc : Checked env ev
  · cases hd : duplicateCheck w.db atmId ev.eventSequenceNumber with
    | true =>
      rw [transaction_known atmId snapshots hw hc hd, if_pos (h.skipped hc hd)]
      exact .inl ⟨by simp, rfl, rfl, rfl⟩
    | false =>
      cases hi : env.raises .insertEvent with
      | some e =>
        rw [transaction_rejected atmId snapshots hw hc hd hi]
        split_ifs <;> exact .inl ⟨by simp, rfl, rfl, rfl⟩
      | none =>
        have hcommitted := (transaction_committed_iff env atmId snapshots ev w hw).mpr
          ⟨hd, h.inserted hc hd hi⟩
        rw [transaction_inserted atmId snapshots hw hc hd hi] at hcommitted ⊢
        have hkept := finishTransaction_outcomes env atmId w.db.nextEventId ev
          (matchingSnaps snapshots ev) { w with
            db := insertEvent w.db atmId ev
            stats.eventsInserted := w.stats.eventsInserted + 1 }
        have hcounts := finishTransaction_counts env atmId w.db.nextEventId ev
          (matchingSnaps snapshots ev) (Prod.ext hcommitted rfl)
        simp only [outcomes, Prod.mk.injEq] at hkept
        exact .inr ⟨hcommitted, hkept.2.1, hcounts⟩
  · rw [transaction_unchecked atmId snapshots hw hc]
    exact .inl ⟨by simp, rfl, rfl, rfl⟩

theorem recordSnapshots_versionDrawn (ev : ATMParsedEvent) (snaps : List CassetteSnapshot)
    {db : Database} (h : VersionDrawn db atmId) :
    VersionDrawn (recordSnapshots atmId db.nextEventId ev snaps (insertEvent db atmId ev)) atmId := by
  obtain ⟨-, hlive, -, -, hversion⟩ :=
    recordSnapshots_frame atmId db.nextEventId ev snaps (insertEvent db atmId ev)
  intro row hrow
  rw [hlive] at hrow
  rw [hversion]
  exact h row hrow

theorem processEvent_versionDrawn (h : VersionDrawn acc.1 atmId) :
    VersionDrawn (processEvent atmId snapshots acc p).1 atmId := by
  have hdrawn := processEvent_drawn atmId snapshots acc p
  obtain ⟨-, -, hdb⟩ | ⟨-, hsame⟩ := processEvent_db atmId snapshots acc p
  · rw [hdb]
    apply recordStatus_versionDrawn
    exact recordSnapshots_versionDrawn atmId p.2 _ h
  · intro row hrow
    rw [hsame.liveStatus] at hrow
    exact (h row hrow).trans_le hdrawn.nextRowVersion

theorem storeEvent_changes (now : Timestamp) (ev : ATMParsedEvent) {db : Database}
    (h : VersionDrawn db atmId) :
    db.liveStatus atmId ≠ (storeEvent now atmId snapshots ev db).liveStatus atmId ↔
      isStale (loadedStatus db atmId) ev = false := by
  have hlive : (recordSnapshots atmId db.nextEventId ev (matchingSnaps snapshots ev)
      (insertEvent db atmId ev)).liveStatus atmId = db.liveStatus atmId := by
    rw [(recordSnapshots_frame ..).2.1]
    rfl
  have hchanges := recordStatus_changes atmId ev (matchingSnaps snapshots ev) now
    (recordSnapshots_versionDrawn atmId ev (matchingSnaps snapshots ev) h)
  rwa [isStale_loadedStatus hlive, hlive] at hchanges

theorem processEvent_counts (hsettles : Settles p.1 atmId snapshots p.2 acc.1)
    (hdrawn : VersionDrawn acc.1 atmId) :
    let acc' := processEvent atmId snapshots acc p
    acc'.1.events.length + acc.2.eventsInserted = acc.1.events.length + acc'.2.eventsInserted ∧
      acc'.1.history.length + acc.2.cassetteSnapshotsInserted =
        acc.1.history.length + acc'.2.cassetteSnapshotsInserted ∧
      acc'.2.liveStatusUpdates = acc.2.liveStatusUpdates +
        if acc.1.liveStatus atmId ≠ acc'.1.liveStatus atmId then 1 else 0 := by
  set w : Work := ⟨acc.1, { acc.2 with eventsProcessed := acc.2.eventsProcessed + 1 }, true⟩ with hw
  have hcounts := transaction_counts atmId snapshots p.1 p.2 (w := w) rfl hsettles
  have hcommitted := transaction_committed_iff p.1 atmId snapshots p.2 w rfl
  have hstored := fun w' => transaction_committed_db p.1 atmId snapshots p.2 w w' rfl
  have hchanges := storeEvent_changes atmId snapshots p.1.now p.2 hdrawn
  intro acc'
  have hacc : acc' = processEvent atmId snapshots acc p := rfl
  rw [processEvent, ← hw] at hacc
  obtain ⟨hnot, hinserted, hsnaps, hlive⟩ | ⟨hend, hinserted, hsnaps, hlive⟩ := hcounts
  · obtain ⟨hdup, hcompletes, -⟩ | ⟨-, hsame⟩ := processEvent_db atmId snapshots acc p
    · exact absurd (hcommitted.mpr ⟨hdup, hcompletes⟩) hnot
    · have hstats : acc'.2.eventsInserted = acc.2.eventsInserted ∧
          acc'.2.cassetteSnapshotsInserted = acc.2.cassetteSnapshotsInserted ∧
          acc'.2.liveStatusUpdates = acc.2.liveStatusUpdates := by
        rw [hacc]
        cases ht : transaction p.1 atmId snapshots p.2 w with
        | mk e w' =>
          rw [ht] at hinserted hsnaps hlive
          cases e <;> exact ⟨hinserted, hsnaps, hlive⟩
      have hevents : acc'.1.events = acc.1.events := hsame.events
      have hhistory : acc'.1.history = acc.1.history := hsame.history
      have hrow : acc'.1.liveStatus = acc.1.liveStatus := hsame.liveStatus
      rw [hevents, hhistory, hrow, hstats.1, hstats.2.1, hstats.2.2]
      simp
  · cases ht : transaction p.1 atmId snapshots p.2 w with
    | mk e w' =>
      rw [ht] at hacc hend hinserted hsnaps hlive
      obtain rfl : e = .committed := hend
      have hdb := hstored w' ht
      rw [hacc]
      dsimp only at hinserted hsnaps hlive ⊢
      refine ⟨?_, hsnaps, ?_⟩
      · rw [hinserted, hdb, storeEvent_events, List.length_append, List.length_singleton]
        simp only [hw]
        omega
      · rw [← hdb] at hchanges
        rw [hlive, if_congr hchanges rfl rfl]
        simp only [hw]
        cases isStale (loadedStatus acc.1 atmId) p.2 <;> rfl

end Round

section Run

variable (atmId : Nat) (snapshots : List CassetteSnapshot)

def databases (ps : List (TxEnv × ATMParsedEvent)) (acc : Database × ProcessingStatistics) :
    List Database :=
  (states (processEvent atmId snapshots) acc ps).map Prod.fst

theorem databases_cons (p : TxEnv × ATMParsedEvent) (ps : List (TxEnv × ATMParsedEvent))
    (acc : Database × ProcessingStatistics) :
    databases atmId snapshots (p :: ps) acc =
      acc.1 :: databases atmId snapshots ps (processEvent atmId snapshots acc p) :=
  rfl

theorem processEvents_owed (ps : List (TxEnv × ATMParsedEvent))
    (acc : Database × ProcessingStatistics) :
    owed acc.2 ≤ owed (processEvents atmId snapshots ps acc).2 ∧
      (owed (processEvents atmId snapshots ps acc).2 = owed acc.2 ↔
        ∀ q ∈ ps.zip (databases atmId snapshots ps acc),
          Settles q.1.1 atmId snapshots q.1.2 q.2) := by
  induction ps generalizing acc with
  | nil => exact ⟨le_rfl, iff_of_true rfl (by simp)⟩
  | cons p ps ih =>
    obtain ⟨hle, hiff⟩ := ih (processEvent atmId snapshots acc p)
    have hrun : processEvents atmId snapshots (p :: ps) acc =
        processEvents atmId snapshots ps (processEvent atmId snapshots acc p) := rfl
    rw [hrun, databases_cons, List.zip_cons_cons, List.forall_mem_cons, ← hiff]
    obtain ⟨hsettles, howed⟩ | ⟨hsettles, howed⟩ := processEvent_owed atmId snapshots acc p
    · rw [howed] at hle ⊢
      exact ⟨hle, by simp [hsettles]⟩
    · refine ⟨by omega, iff_of_false (by omega) fun h => hsettles h.1⟩

theorem processEvents_counts (ps : List (TxEnv × ATMParsedEvent))
    (acc : Database × ProcessingStatistics) (hdrawn : VersionDrawn acc.1 atmId)
    (h : ∀ q ∈ ps.zip (databases atmId snapshots ps acc),
      Settles q.1.1 atmId snapshots q.1.2 q.2) :
    let acc' := processEvents atmId snapshots ps acc
    acc'.1.events.length + acc.2.eventsInserted = acc.1.events.length + acc'.2.eventsInserted ∧
      acc'.1.history.length + acc.2.cassetteSnapshotsInserted =
        acc.1.history.length + acc'.2.cassetteSnapshotsInserted ∧
      acc'.2.liveStatusUpdates = acc.2.liveStatusUpdates +
        ((databases atmId snapshots ps acc).zip (databases atmId snapshots ps acc).tail).countP
          fun d => d.1.liveStatus atmId ≠ d.2.liveStatus atmId := by
  induction ps generalizing acc with
  | nil => exact ⟨rfl, rfl, rfl⟩
  | cons p ps ih =>
    rw [databases_cons, List.zip_cons_cons, List.forall_mem_cons] at h
    obtain ⟨hevents, hsnaps, hlive⟩ := processEvent_counts atmId snapshots acc p h.1 hdrawn
    have hrest := ih (processEvent atmId snapshots acc p)
      (processEvent_versionDrawn atmId snapshots acc p hdrawn) h.2
    obtain ⟨hevents', hsnaps', hlive'⟩ := hrest
    have hrun : processEvents atmId snapshots (p :: ps) acc =
        processEvents atmId snapshots ps (processEvent atmId snapshots acc p) := rfl
    have htail : ∃ rest, databases atmId snapshots ps (processEvent atmId snapshots acc p) =
        (processEvent atmId snapshots acc p).1 :: rest := by
      cases ps <;> exact ⟨_, rfl⟩
    obtain ⟨rest, hrest⟩ := htail
    rw [hrun, databases_cons, List.tail_cons]
    refine ⟨by omega, by omega, ?_⟩
    rw [hlive', hlive, Nat.add_assoc]
    congr 1
    rw [hrest, List.tail_cons, List.zip_cons_cons, List.countP_cons, Nat.add_comm]
    simp

end Run

/-- The statistics of a call are true exactly when no transaction fails after it has counted its
event. -/
theorem statistics_truthful_iff (c : Call) (db : Database) (hdb : VersionDrawn db c.atmId) :
    Truthful c db ↔ ∀ q ∈ c.rounds.zip (c.visited db),
      Settles q.1.1 c.atmId c.result.cassetteSnapshots q.1.2 q.2 := by
  obtain ⟨-, hiff⟩ := processEvents_owed c.atmId c.result.cassetteSnapshots c.rounds (db, {})
  have howed : owed (statistics c db) = owed {} ↔ _ := hiff
  refine ⟨fun h => howed.mp ?_, fun h => ?_⟩
  · have hbalance := h.balance
    simp only [owed]
    omega
  · obtain ⟨hevents, hsnaps, hlive⟩ :=
      processEvents_counts c.atmId c.result.cassetteSnapshots c.rounds (db, {}) hdb h
    have hzero := howed.mpr h
    simp only [owed] at hzero
    refine ⟨?_, ?_, ?_, by omega⟩
    · exact hevents
    · exact hsnaps
    · rw [Nat.zero_add] at hlive
      exact hlive.symm

def rejected : Call where
  envs := fun i => { raises := fun s => if i = 0 ∧ s = .insertEvent then some .other else none }
  atmId := 1
  result := { events := [.bare 7 10 .cardInserted, .bare 8 20 .cardTaken] }

theorem statistics_truthful_iff_rejected : Truthful rejected {} := by
  apply (statistics_truthful_iff rejected {} fun _ h => by cases h).mpr
  have hrounds : rejected.rounds =
      [(rejected.envs 0, .bare 7 10 .cardInserted), (rejected.envs 1, .bare 8 20 .cardTaken)] := rfl
  rintro ⟨p, d⟩ hq
  obtain ⟨hp, -⟩ := List.of_mem_zip hq
  rw [hrounds, List.mem_pair] at hp
  obtain rfl | rfl := hp
  · refine ⟨fun _ _ => by simp [rejected], fun _ _ hinsert => ?_⟩
    simp [rejected] at hinsert
  · have hcalm : Undisturbed (rejected.envs 1) := ⟨fun s => by simp [rejected], fun _ => rfl⟩
    exact ⟨fun _ _ => by simp [rejected], fun _ _ _ => hcalm.completes ..⟩

/-- An event whose commit fails is counted as inserted and as failed. -/
def uncommitted : Call where
  envs := fun _ => { raises := fun s => if s = .commit then some .other else none }
  atmId := 1
  result := { events := [.bare 7 10 .cardInserted] }

theorem uncommitted_not_truthful : ¬ Truthful uncommitted {} ∧
    (uncommitted.run {}).events = [] ∧ (statistics uncommitted {}).eventsInserted = 1 := by
  refine ⟨fun h => ?_, by decide, by decide⟩
  exact absurd h.balance (by decide)

end AtmMonitor.ProcessingCounts
