import AtmMonitor.EventProcessor

namespace AtmMonitor.EventTransaction

open ParserModels DatabaseModels Repositories LiveStatus EventProcessor

def recordSnapshots (atmId eventId : Nat) (ev : ATMParsedEvent) (snaps : List CassetteSnapshot)
    (db : Database) : Database :=
  snaps.foldl (fun d s =>
    if duplicateSnapshotCheck d atmId ev.eventSequenceNumber s.cassetteNo then d
    else insertHistory d atmId eventId ev s) db

def loadedStatus (db : Database) (atmId : Nat) : ATMLiveStatus :=
  (db.liveStatus atmId).getD { initialStatus with rowVersion := db.nextRowVersion }

def loadedDb (db : Database) (atmId : Nat) : Database :=
  match db.liveStatus atmId with
  | some _ => db
  | none => save db atmId initialStatus

def recordStatus (now : Timestamp) (atmId : Nat) (ev : ATMParsedEvent)
    (snaps : List CassetteSnapshot) (db : Database) : Database :=
  if isStale (loadedStatus db atmId) ev then loadedDb db atmId
  else
    writeStatus (loadedDb db atmId) atmId
      { applyStatusUpdates now (loadedStatus db atmId) ev snaps with updatedOn := some now }

def storeEvent (now : Timestamp) (atmId : Nat) (snapshots : List CassetteSnapshot)
    (ev : ATMParsedEvent) (db : Database) : Database :=
  recordStatus now atmId ev (matchingSnaps snapshots ev)
    (recordSnapshots atmId db.nextEventId ev (matchingSnaps snapshots ev) (insertEvent db atmId ev))

@[simp] theorem loadedDb_liveStatus (db : Database) (atmId : Nat) :
    (loadedDb db atmId).liveStatus atmId = some (loadedStatus db atmId) := by
  unfold loadedDb loadedStatus
  cases h : db.liveStatus atmId with
  | some row => simp [h]
  | none => simp [save, writeStatus]

@[simp] theorem loadedStatus_loadedDb (db : Database) (atmId : Nat) :
    loadedStatus (loadedDb db atmId) atmId = loadedStatus db atmId := by
  rw [loadedStatus, loadedDb_liveStatus, Option.getD_some]

@[simp] theorem loadedDb_loadedDb (db : Database) (atmId : Nat) :
    loadedDb (loadedDb db atmId) atmId = loadedDb db atmId := by
  rw [loadedDb, loadedDb_liveStatus]

@[simp] theorem recordStatus_loadedDb (now : Timestamp) (atmId : Nat) (ev : ATMParsedEvent)
    (snaps : List CassetteSnapshot) (db : Database) :
    recordStatus now atmId ev snaps (loadedDb db atmId) = recordStatus now atmId ev snaps db := by
  simp only [recordStatus, loadedStatus_loadedDb, loadedDb_loadedDb]

def SnapshotsComplete (env : TxEnv) (atmId eventId : Nat) (ev : ATMParsedEvent) :
    Nat → List CassetteSnapshot → Database → Prop
  | _, [], _ => True
  | k, s :: rest, db =>
    env.raises (.duplicateSnapshotCheck k) = none ∧
      if duplicateSnapshotCheck db atmId ev.eventSequenceNumber s.cassetteNo then
        SnapshotsComplete env atmId eventId ev (k + 1) rest db
      else
        env.raises (.insertHistory k) = none ∧
          SnapshotsComplete env atmId eventId ev (k + 1) rest (insertHistory db atmId eventId ev s)

def StatusCompletes (env : TxEnv) (atmId : Nat) (ev : ATMParsedEvent) : List Nat → Database → Prop
  | [], _ => False
  | a :: rest, db =>
    env.raises (.getByAtmId a) = none ∧
      (db.liveStatus atmId = none → env.raises (.save a) = none) ∧
      (isStale (loadedStatus db atmId) ev = true ∨
        env.raises (.updateLiveStatus a) = none ∧
          (env.rowMoved a = false ∨ StatusCompletes env atmId ev rest (loadedDb db atmId)))

structure Completes (env : TxEnv) (atmId : Nat) (snapshots : List CassetteSnapshot)
    (ev : ATMParsedEvent) (db : Database) : Prop where
  check : ev.eventSequenceNumber.isSome → env.raises .duplicateCheck = none
  insert : env.raises .insertEvent = none
  inserts : SnapshotsComplete env atmId db.nextEventId ev 0 (matchingSnaps snapshots ev)
    (insertEvent db atmId ev)
  status : StatusCompletes env atmId ev [0, 1]
    (recordSnapshots atmId db.nextEventId ev (matchingSnaps snapshots ev) (insertEvent db atmId ev))
  commit : env.raises .commit = none

theorem snapshotsComplete_of_raises {env : TxEnv} (h : ∀ s, env.raises s = none)
    (atmId eventId : Nat) (ev : ATMParsedEvent) (k : Nat) (snaps : List CassetteSnapshot)
    (db : Database) : SnapshotsComplete env atmId eventId ev k snaps db := by
  induction snaps generalizing k db with
  | nil => trivial
  | cons s rest ih =>
    refine ⟨h _, ?_⟩
    split_ifs
    · exact ih (k + 1) db
    · exact ⟨h _, ih (k + 1) _⟩

theorem insertSnapshots_inactive (env : TxEnv) (atmId eventId : Nat) (ev : ATMParsedEvent)
    (k : Nat) (snaps : List CassetteSnapshot) (w w' : Work) (hw : w.active = false)
    (h : insertSnapshots env atmId eventId ev k snaps w = .ok w') : w'.active = false := by
  cases snaps with
  | nil =>
    simp only [insertSnapshots, Except.ok.injEq] at h
    rw [← h]
    exact hw
  | cons s rest => simp [insertSnapshots, Work.issue, hw] at h

theorem insertSnapshots_ok_iff (env : TxEnv) (atmId eventId : Nat) (ev : ATMParsedEvent)
    (k : Nat) (snaps : List CassetteSnapshot) (w : Work) (hw : w.active = true) :
    (∃ w', insertSnapshots env atmId eventId ev k snaps w = .ok w' ∧ w'.active = true) ↔
      SnapshotsComplete env atmId eventId ev k snaps w.db := by
  induction snaps generalizing k w with
  | nil => simp [insertSnapshots, SnapshotsComplete, hw]
  | cons s rest ih =>
    obtain ⟨db, stats, active⟩ := w
    obtain rfl : active = true := hw
    simp only [insertSnapshots, SnapshotsComplete, Work.issue, if_true]
    cases hc : env.raises (.duplicateSnapshotCheck k) with
    | some e => simp
    | none =>
      by_cases hd : duplicateSnapshotCheck db atmId ev.eventSequenceNumber s.cassetteNo
      · simpa [hd] using ih (k + 1) ⟨db, stats, true⟩ rfl
      · simp only [hd, Bool.false_eq_true, if_false, true_and]
        cases hi : env.raises (.insertHistory k) with
        | none => simpa using ih (k + 1) ⟨insertHistory db atmId eventId ev s, _, true⟩ rfl
        | some e =>
          cases e with
          | other => simp
          | integrityError =>
            simp only [reduceCtorEq, false_and, iff_false, not_exists, not_and]
            intro w' h
            have hn := insertSnapshots_inactive env atmId eventId ev (k + 1) rest _ w' rfl h
            simp [hn]

theorem insertSnapshots_db (env : TxEnv) (atmId eventId : Nat) (ev : ATMParsedEvent)
    (k : Nat) (snaps : List CassetteSnapshot) (w w' : Work) (ha : w'.active = true)
    (h : insertSnapshots env atmId eventId ev k snaps w = .ok w') :
    w.active = true ∧ w'.db = recordSnapshots atmId eventId ev snaps w.db := by
  induction snaps generalizing k w with
  | nil =>
    simp only [insertSnapshots, Except.ok.injEq] at h
    subst h
    exact ⟨ha, rfl⟩
  | cons s rest ih =>
    have hw : w.active = true := by
      by_contra hn
      simp [insertSnapshots, Work.issue, hn] at h
    refine ⟨hw, ?_⟩
    simp only [insertSnapshots, Work.issue, hw, if_true] at h
    cases hc : env.raises (.duplicateSnapshotCheck k) with
    | some e => simp [hc] at h
    | none =>
      simp only [hc] at h
      by_cases hd : duplicateSnapshotCheck w.db atmId ev.eventSequenceNumber s.cassetteNo
      · simp only [hd, if_true] at h
        simpa [recordSnapshots, hd] using (ih (k + 1) w h).2
      · simp only [hd, Bool.false_eq_true, if_false] at h
        cases hi : env.raises (.insertHistory k) with
        | none =>
          simp only [hi] at h
          simpa [recordSnapshots, hd] using (ih (k + 1) _ h).2
        | some e =>
          cases e with
          | other => simp [hi] at h
          | integrityError =>
            simp only [hi] at h
            have hn := insertSnapshots_inactive env atmId eventId ev (k + 1) rest _ w' rfl h
            simp [hn] at ha

theorem loadStatus_active (env : TxEnv) (atmId a : Nat) (w : Work) (hw : w.active = true)
    (hg : env.raises (.getByAtmId a) = none)
    (hs : w.db.liveStatus atmId = none → env.raises (.save a) = none) :
    loadStatus env atmId a w =
      .ok (loadedStatus w.db atmId, { w with db := loadedDb w.db atmId }) := by
  obtain ⟨db, stats, active⟩ := w
  obtain rfl : active = true := hw
  unfold loadStatus loadedStatus loadedDb
  cases h : db.liveStatus atmId with
  | some row => simp [Work.issue, hg, getByAtmId, h]
  | none => simp [Work.issue, hg, getByAtmId, h, hs h]

theorem loadStatus_ok (env : TxEnv) (atmId a : Nat) (w w' : Work) (status : ATMLiveStatus)
    (h : loadStatus env atmId a w = .ok (status, w')) :
    w.active = true ∧ env.raises (.getByAtmId a) = none ∧
      (w.db.liveStatus atmId = none → env.raises (.save a) = none) := by
  have hw : w.active = true := by
    by_contra hn
    simp [loadStatus, Work.issue, hn] at h
  simp only [loadStatus, Work.issue, hw, if_true, getByAtmId] at h
  cases hg : env.raises (.getByAtmId a) with
  | some e => simp [hg] at h
  | none =>
    refine ⟨hw, rfl, fun hl => ?_⟩
    cases hs : env.raises (.save a) with
    | none => rfl
    | some e => simp [hg, hl, hs] at h

theorem updateLiveStatus_loaded (db : Database) (now : Timestamp) (atmId : Nat)
    (status : ATMLiveStatus) (moved : Bool) :
    updateLiveStatus (loadedDb db atmId) now atmId status
        (some (loadedStatus db atmId).rowVersion) moved =
      if moved then none
      else some (writeStatus (loadedDb db atmId) atmId { status with updatedOn := some now }) := by
  cases moved <;> simp [updateLiveStatus]

theorem updateStatus_attempt (env : TxEnv) (atmId a : Nat) (ev : ATMParsedEvent)
    (snaps : List CassetteSnapshot) (rest : List Nat) (w : Work) (hw : w.active = true)
    (hg : env.raises (.getByAtmId a) = none)
    (hs : w.db.liveStatus atmId = none → env.raises (.save a) = none)
    (hf : isStale (loadedStatus w.db atmId) ev = false)
    (hu : env.raises (.updateLiveStatus a) = none) :
    updateStatus env atmId ev snaps (a :: rest) w =
      if env.rowMoved a then
        updateStatus env atmId ev snaps rest
          { w with
            db := loadedDb w.db atmId
            stats.databaseRetries := w.stats.databaseRetries + 1 }
      else
        .ok { w with
          db := recordStatus env.now atmId ev snaps w.db
          stats.liveStatusUpdates := w.stats.liveStatusUpdates + 1 } := by
  simp only [updateStatus, loadStatus_active env atmId a w hw hg hs, hf, Bool.false_eq_true,
    if_false, Work.issue, hw, if_true, hu, updateLiveStatus_loaded, recordStatus]
  cases env.rowMoved a <;> rfl

theorem updateStatus_ok_iff (env : TxEnv) (atmId : Nat) (ev : ATMParsedEvent)
    (snaps : List CassetteSnapshot) (attempts : List Nat) (w : Work) (hw : w.active = true) :
    (∃ w', updateStatus env atmId ev snaps attempts w = .ok w') ↔
      StatusCompletes env atmId ev attempts w.db := by
  induction attempts generalizing w with
  | nil => simp [updateStatus, StatusCompletes]
  | cons a rest ih =>
    rw [StatusCompletes]
    by_cases hload : env.raises (.getByAtmId a) = none ∧
        (w.db.liveStatus atmId = none → env.raises (.save a) = none)
    · obtain ⟨hg, hs⟩ := hload
      cases hf : isStale (loadedStatus w.db atmId) ev with
      | true => simp [updateStatus, loadStatus_active env atmId a w hw hg hs, hf, hg]; exact hs
      | false =>
        cases hu : env.raises (.updateLiveStatus a) with
        | some e => simp [updateStatus, loadStatus_active env atmId a w hw hg hs, hf, Work.issue, hw, hu]
        | none =>
          rw [updateStatus_attempt env atmId a ev snaps rest w hw hg hs hf hu]
          cases hm : env.rowMoved a with
          | false => simp [hg]; exact hs
          | true =>
            have h := ih { w with
              db := loadedDb w.db atmId
              stats.databaseRetries := w.stats.databaseRetries + 1 } hw
            simp only [if_true, h, hg, true_and, Bool.false_eq_true, Bool.true_eq_false, false_or]
            exact ⟨fun hr => ⟨hs, hr⟩, fun hr => hr.2⟩
    · constructor
      · rintro ⟨w', h⟩
        cases hl : loadStatus env atmId a w with
        | error w1 => simp [updateStatus, hl] at h
        | ok p => exact absurd (loadStatus_ok env atmId a w p.2 p.1 hl).2 hload
      · rintro ⟨hg, hs, -⟩
        exact absurd ⟨hg, hs⟩ hload

theorem updateStatus_db (env : TxEnv) (atmId : Nat) (ev : ATMParsedEvent)
    (snaps : List CassetteSnapshot) (attempts : List Nat) (w w' : Work)
    (h : updateStatus env atmId ev snaps attempts w = .ok w') :
    w'.active = true ∧ w'.db = recordStatus env.now atmId ev snaps w.db := by
  induction attempts generalizing w with
  | nil => simp [updateStatus] at h
  | cons a rest ih =>
    cases hl : loadStatus env atmId a w with
    | error w1 => simp [updateStatus, hl] at h
    | ok p =>
      obtain ⟨hw, hg, hs⟩ := loadStatus_ok env atmId a w p.2 p.1 hl
      cases hf : isStale (loadedStatus w.db atmId) ev with
      | true =>
        simp only [updateStatus, loadStatus_active env atmId a w hw hg hs, hf, if_true,
          Except.ok.injEq] at h
        subst h
        exact ⟨hw, by simp [recordStatus, hf]⟩
      | false =>
        cases hu : env.raises (.updateLiveStatus a) with
        | some e =>
          simp [updateStatus, loadStatus_active env atmId a w hw hg hs, hf, Work.issue, hw, hu] at h
        | none =>
          rw [updateStatus_attempt env atmId a ev snaps rest w hw hg hs hf hu] at h
          cases hm : env.rowMoved a with
          | false =>
            simp only [hm, Bool.false_eq_true, if_false, Except.ok.injEq] at h
            subst h
            exact ⟨hw, rfl⟩
          | true =>
            simp only [hm, if_true] at h
            simpa using ih _ h

theorem finishTransaction_committed_iff (env : TxEnv) (atmId eventId : Nat) (ev : ATMParsedEvent)
    (snaps : List CassetteSnapshot) (w : Work) (hw : w.active = true) :
    (finishTransaction env atmId eventId ev snaps w).1 = .committed ↔
      SnapshotsComplete env atmId eventId ev 0 snaps w.db ∧
        StatusCompletes env atmId ev [0, 1] (recordSnapshots atmId eventId ev snaps w.db) ∧
        env.raises .commit = none := by
  unfold finishTransaction
  cases hi : insertSnapshots env atmId eventId ev 0 snaps w with
  | error w1 =>
    have hn := mt (insertSnapshots_ok_iff env atmId eventId ev 0 snaps w hw).mpr
    simp only [hi, reduceCtorEq, false_and, exists_false, not_false_eq_true, true_implies] at hn
    simp [hn]
  | ok w1 =>
    have hsnaps := insertSnapshots_ok_iff env atmId eventId ev 0 snaps w hw
    simp only [hi, Except.ok.injEq, exists_eq_left'] at hsnaps
    cases ha : w1.active with
    | false =>
      have hu : ∃ w2, updateStatus env atmId ev snaps [0, 1] w1 = .error w2 :=
        ⟨w1, by simp [updateStatus, loadStatus, Work.issue, ha]⟩
      obtain ⟨w2, hu⟩ := hu
      rw [ha] at hsnaps
      simp [hu, ← hsnaps]
    | true =>
      have hdb := (insertSnapshots_db env atmId eventId ev 0 snaps w w1 ha hi).2
      have hstatus := updateStatus_ok_iff env atmId ev snaps [0, 1] w1 ha
      rw [hdb] at hstatus
      rw [ha] at hsnaps
      simp only [← hsnaps, ← hstatus, true_and]
      cases hu : updateStatus env atmId ev snaps [0, 1] w1 with
      | error w2 => simp
      | ok w2 =>
        have ha2 := (updateStatus_db env atmId ev snaps [0, 1] w1 w2 hu).1
        cases hc : env.raises .commit <;> simp [Work.issue, ha2, hc]

theorem finishTransaction_db (env : TxEnv) (atmId eventId : Nat) (ev : ATMParsedEvent)
    (snaps : List CassetteSnapshot) (w w' : Work)
    (h : finishTransaction env atmId eventId ev snaps w = (.committed, w')) :
    w'.db = recordStatus env.now atmId ev snaps (recordSnapshots atmId eventId ev snaps w.db) := by
  unfold finishTransaction at h
  cases hi : insertSnapshots env atmId eventId ev 0 snaps w with
  | error w1 => simp [hi] at h
  | ok w1 =>
    simp only [hi] at h
    cases hu : updateStatus env atmId ev snaps [0, 1] w1 with
    | error w2 => simp [hu] at h
    | ok w2 =>
      have ha : w1.active = true := by
        by_contra hn
        simp [updateStatus, loadStatus, Work.issue, hn] at hu
      have hdb := (insertSnapshots_db env atmId eventId ev 0 snaps w w1 ha hi).2
      have hstatus := (updateStatus_db env atmId ev snaps [0, 1] w1 w2 hu).2
      simp only [hu] at h
      cases hc : w2.issue env .commit with
      | some e => simp [hc] at h
      | none =>
        simp only [hc, Prod.mk.injEq, true_and] at h
        rw [← h, hstatus, hdb]

def Checked (env : TxEnv) (ev : ATMParsedEvent) : Prop :=
  ev.eventSequenceNumber.isSome → env.raises .duplicateCheck = none

section Ways

variable {env : TxEnv} (atmId : Nat) (snapshots : List CassetteSnapshot) {ev : ATMParsedEvent}
  {w : Work}

theorem checkError_eq_none (hw : w.active = true) : checkError env ev w = none ↔ Checked env ev := by
  unfold checkError Checked
  cases ev.eventSequenceNumber <;> simp [Work.issue, hw]

theorem transaction_unchecked (hw : w.active = true) (h : ¬ Checked env ev) :
    transaction env atmId snapshots ev w = (.failed, w) := by
  rw [← checkError_eq_none hw] at h
  obtain ⟨e, he⟩ := Option.ne_none_iff_exists'.mp h
  rw [transaction, he]

theorem transaction_known (hw : w.active = true) (h : Checked env ev)
    (hd : duplicateCheck w.db atmId ev.eventSequenceNumber = true) :
    transaction env atmId snapshots ev w =
      (if env.raises .rollback = none then .duplicate else .failed, w.skip) := by
  rw [transaction, (checkError_eq_none hw).mpr h]
  dsimp only
  rw [if_pos hd]
  cases env.raises .rollback <;> rfl

theorem transaction_rejected (hw : w.active = true) (h : Checked env ev)
    (hd : duplicateCheck w.db atmId ev.eventSequenceNumber = false) {e : DbError}
    (hi : env.raises .insertEvent = some e) :
    transaction env atmId snapshots ev w =
      if e = .integrityError ∧ env.raises .rollback = none then (.duplicate, w.skip)
      else (.failed, w) := by
  rw [transaction, (checkError_eq_none hw).mpr h]
  dsimp only
  rw [hd, if_neg Bool.false_ne_true, Work.issue, if_pos hw, hi]
  cases e with
  | other => rfl
  | integrityError => cases env.raises .rollback <;> simp

theorem transaction_inserted (hw : w.active = true) (h : Checked env ev)
    (hd : duplicateCheck w.db atmId ev.eventSequenceNumber = false)
    (hi : env.raises .insertEvent = none) :
    transaction env atmId snapshots ev w =
      finishTransaction env atmId w.db.nextEventId ev (matchingSnaps snapshots ev)
        { w with
          db := insertEvent w.db atmId ev
          stats.eventsInserted := w.stats.eventsInserted + 1 } := by
  rw [transaction, (checkError_eq_none hw).mpr h]
  dsimp only
  rw [hd, if_neg Bool.false_ne_true, Work.issue, if_pos hw, hi]

theorem inserted_of_committed (hw : w.active = true)
    (h : (transaction env atmId snapshots ev w).1 = .committed) :
    Checked env ev ∧ duplicateCheck w.db atmId ev.eventSequenceNumber = false ∧
      env.raises .insertEvent = none := by
  by_cases hc : Checked env ev
  · refine ⟨hc, ?_⟩
    cases hd : duplicateCheck w.db atmId ev.eventSequenceNumber with
    | true =>
      rw [transaction_known atmId snapshots hw hc hd] at h
      dsimp only at h
      split_ifs at h
    | false =>
      refine ⟨rfl, ?_⟩
      cases hi : env.raises .insertEvent with
      | none => rfl
      | some e =>
        rw [transaction_rejected atmId snapshots hw hc hd hi] at h
        split_ifs at h
  · rw [transaction_unchecked atmId snapshots hw hc] at h
    cases h

end Ways

theorem transaction_committed_iff (env : TxEnv) (atmId : Nat) (snapshots : List CassetteSnapshot)
    (ev : ATMParsedEvent) (w : Work) (hw : w.active = true) :
    (transaction env atmId snapshots ev w).1 = .committed ↔
      duplicateCheck w.db atmId ev.eventSequenceNumber = false ∧
        Completes env atmId snapshots ev w.db := by
  constructor
  · intro h
    obtain ⟨hc, hd, hi⟩ := inserted_of_committed atmId snapshots hw h
    rw [transaction_inserted atmId snapshots hw hc hd hi, finishTransaction_committed_iff] at h
    · exact ⟨hd, hc, hi, h.1, h.2.1, h.2.2⟩
    · exact hw
  · rintro ⟨hd, h⟩
    rw [transaction_inserted atmId snapshots hw h.check hd h.insert, finishTransaction_committed_iff]
    · exact ⟨h.inserts, h.status, h.commit⟩
    · exact hw

theorem transaction_committed_db (env : TxEnv) (atmId : Nat) (snapshots : List CassetteSnapshot)
    (ev : ATMParsedEvent) (w w' : Work) (hw : w.active = true)
    (h : transaction env atmId snapshots ev w = (.committed, w')) :
    w'.db = storeEvent env.now atmId snapshots ev w.db := by
  obtain ⟨hc, hd, hi⟩ := inserted_of_committed atmId snapshots hw (congrArg Prod.fst h)
  rw [transaction_inserted atmId snapshots hw hc hd hi] at h
  exact finishTransaction_db env atmId _ ev _ _ w' h

def outcome : Except Work Work → Work
  | .ok w => w
  | .error w => w

structure Drawn (db db' : Database) : Prop where
  nextEventId : db.nextEventId ≤ db'.nextEventId
  nextRowVersion : db.nextRowVersion ≤ db'.nextRowVersion

theorem Drawn.refl (db : Database) : Drawn db db := ⟨le_rfl, le_rfl⟩

theorem Drawn.trans {db db' db'' : Database} (h : Drawn db db') (h' : Drawn db' db'') :
    Drawn db db'' :=
  ⟨h.nextEventId.trans h'.nextEventId, h.nextRowVersion.trans h'.nextRowVersion⟩

theorem drawn_writeStatus (db : Database) (atmId : Nat) (status : ATMLiveStatus) :
    Drawn db (writeStatus db atmId status) :=
  ⟨le_rfl, Nat.le_succ _⟩

theorem drawn_loadedDb (db : Database) (atmId : Nat) : Drawn db (loadedDb db atmId) := by
  unfold loadedDb
  cases db.liveStatus atmId with
  | some row => exact .refl db
  | none => exact drawn_writeStatus db atmId initialStatus

theorem insertSnapshots_drawn (env : TxEnv) (atmId eventId : Nat) (ev : ATMParsedEvent)
    (k : Nat) (snaps : List CassetteSnapshot) (w : Work) :
    Drawn w.db (outcome (insertSnapshots env atmId eventId ev k snaps w)).db := by
  induction snaps generalizing k w with
  | nil => exact .refl w.db
  | cons s rest ih =>
    rw [insertSnapshots]
    cases hc : w.issue env (.duplicateSnapshotCheck k) with
    | some e => exact .refl w.db
    | none =>
      by_cases hd : duplicateSnapshotCheck w.db atmId ev.eventSequenceNumber s.cassetteNo
      · simpa only [hd, if_true] using ih (k + 1) w
      · simp only [hd, Bool.false_eq_true, if_false]
        cases hi : w.issue env (.insertHistory k) with
        | none =>
          have hrest := ih (k + 1) { w with
            db := insertHistory w.db atmId eventId ev s
            stats.cassetteSnapshotsInserted := w.stats.cassetteSnapshotsInserted + 1 }
          exact ⟨hrest.nextEventId, hrest.nextRowVersion⟩
        | some e =>
          cases e with
          | other => exact .refl w.db
          | integrityError => exact ih (k + 1) { w with active := false }

theorem loadStatus_drawn (env : TxEnv) (atmId a : Nat) (w : Work) :
    (∃ status, loadStatus env atmId a w =
        .ok (status, { w with db := loadedDb w.db atmId })) ∨
      loadStatus env atmId a w = .error w := by
  unfold loadStatus loadedDb getByAtmId
  cases w.issue env (.getByAtmId a) with
  | some e => exact .inr rfl
  | none =>
    cases w.db.liveStatus atmId with
    | some row => exact .inl ⟨row, rfl⟩
    | none =>
      cases w.issue env (.save a) with
      | some e => exact .inr rfl
      | none => exact .inl ⟨_, rfl⟩

theorem updateStatus_drawn (env : TxEnv) (atmId : Nat) (ev : ATMParsedEvent)
    (snaps : List CassetteSnapshot) (attempts : List Nat) (w : Work) :
    Drawn w.db (outcome (updateStatus env atmId ev snaps attempts w)).db := by
  induction attempts generalizing w with
  | nil => exact .refl w.db
  | cons a rest ih =>
    rw [updateStatus]
    obtain ⟨status, hl⟩ | hl := loadStatus_drawn env atmId a w
    · have hload := drawn_loadedDb w.db atmId
      rw [hl]
      dsimp only
      split
      · exact hload
      · cases hu : Work.issue { w with db := loadedDb w.db atmId } env (.updateLiveStatus a) with
        | some e => exact hload
        | none =>
          dsimp only
          split
          · rename_i db hdb
            simp only [updateLiveStatus, loadedDb_liveStatus, Option.ite_none_right_eq_some,
              Option.some.injEq] at hdb
            rw [← hdb.2]
            exact hload.trans (drawn_writeStatus _ atmId _)
          · have hrest := ih { w with
              db := loadedDb w.db atmId
              stats.databaseRetries := w.stats.databaseRetries + 1 }
            exact hload.trans hrest
    · rw [hl]
      exact .refl w.db

theorem finishTransaction_drawn (env : TxEnv) (atmId eventId : Nat) (ev : ATMParsedEvent)
    (snaps : List CassetteSnapshot) (w : Work) :
    Drawn w.db (finishTransaction env atmId eventId ev snaps w).2.db := by
  have hs := insertSnapshots_drawn env atmId eventId ev 0 snaps w
  unfold finishTransaction
  cases hi : insertSnapshots env atmId eventId ev 0 snaps w with
  | error w1 =>
    rw [hi] at hs
    exact hs
  | ok w1 =>
    rw [hi] at hs
    have hu := updateStatus_drawn env atmId ev snaps [0, 1] w1
    cases hw : updateStatus env atmId ev snaps [0, 1] w1 with
    | error w2 =>
      rw [hw] at hu
      simp only [hw]
      exact hs.trans hu
    | ok w2 =>
      rw [hw] at hu
      simp only [hw]
      cases w2.issue env .commit <;> exact hs.trans hu

theorem transaction_drawn (env : TxEnv) (atmId : Nat) (snapshots : List CassetteSnapshot)
    (ev : ATMParsedEvent) (w : Work) (hw : w.active = true) :
    Drawn w.db (transaction env atmId snapshots ev w).2.db := by
  by_cases hc : Checked env ev
  · cases hd : duplicateCheck w.db atmId ev.eventSequenceNumber with
    | true =>
      rw [transaction_known atmId snapshots hw hc hd]
      exact .refl w.db
    | false =>
      cases hi : env.raises .insertEvent with
      | some e =>
        rw [transaction_rejected atmId snapshots hw hc hd hi]
        split_ifs <;> exact .refl w.db
      | none =>
        have hinsert : Drawn w.db (insertEvent w.db atmId ev) := ⟨Nat.le_succ _, le_rfl⟩
        rw [transaction_inserted atmId snapshots hw hc hd hi]
        exact hinsert.trans (finishTransaction_drawn env atmId w.db.nextEventId ev
          (matchingSnaps snapshots ev) { w with
            db := insertEvent w.db atmId ev
            stats.eventsInserted := w.stats.eventsInserted + 1 })
  · rw [transaction_unchecked atmId snapshots hw hc]
    exact .refl w.db

/-- The rows of the tables that `process_result` writes are the same; identities may have been
drawn and errors logged. -/
structure SameRows (db db' : Database) : Prop where
  events : db'.events = db.events
  history : db'.history = db.history
  liveStatus : db'.liveStatus = db.liveStatus
  fileStates : db'.fileStates = db.fileStates
  nextEventId : db.nextEventId ≤ db'.nextEventId

theorem logHealthError_sameRows (env : TxEnv) (atmId : Nat) (ev : ATMParsedEvent)
    {db db' : Database} (h : SameRows db db') : SameRows db (logHealthError env atmId ev db') := by
  rw [logHealthError]
  split
  · exact h
  · exact ⟨h.events, h.history, h.liveStatus, h.fileStates, h.nextEventId⟩

/-- One round of the loop either stores its event as an undisturbed transaction does, or leaves
every row as it is. -/
theorem processEvent_db (atmId : Nat) (snapshots : List CassetteSnapshot)
    (acc : Database × ProcessingStatistics) (p : TxEnv × ATMParsedEvent) :
    (duplicateCheck acc.1 atmId p.2.eventSequenceNumber = false ∧
        Completes p.1 atmId snapshots p.2 acc.1 ∧
        (processEvent atmId snapshots acc p).1 =
          storeEvent p.1.now atmId snapshots p.2 acc.1) ∨
      ¬ (duplicateCheck acc.1 atmId p.2.eventSequenceNumber = false ∧
          Completes p.1 atmId snapshots p.2 acc.1) ∧
        SameRows acc.1 (processEvent atmId snapshots acc p).1 := by
  set w : Work := ⟨acc.1, { acc.2 with eventsProcessed := acc.2.eventsProcessed + 1 }, true⟩ with hw
  have hiff := transaction_committed_iff p.1 atmId snapshots p.2 w rfl
  have hdb := fun w' => transaction_committed_db p.1 atmId snapshots p.2 w w' rfl
  have hnext := (transaction_drawn p.1 atmId snapshots p.2 w rfl).nextEventId
  rw [processEvent]
  rw [← hw]
  cases ht : transaction p.1 atmId snapshots p.2 w with
  | mk e w' =>
    rw [ht] at hiff hdb hnext
    cases e with
    | committed => exact Or.inl ⟨(hiff.mp rfl).1, (hiff.mp rfl).2, hdb w' rfl⟩
    | duplicate => exact Or.inr ⟨fun h => by simpa using hiff.mpr h, rfl, rfl, rfl, rfl, hnext⟩
    | failed =>
      refine Or.inr ⟨fun h => by simpa using hiff.mpr h, ?_⟩
      exact logHealthError_sameRows p.1 atmId p.2 ⟨rfl, rfl, rfl, rfl, hnext⟩

theorem processEvent_drawn (atmId : Nat) (snapshots : List CassetteSnapshot)
    (acc : Database × ProcessingStatistics) (p : TxEnv × ATMParsedEvent) :
    Drawn acc.1 (processEvent atmId snapshots acc p).1 := by
  have h := transaction_drawn p.1 atmId snapshots p.2
    ⟨acc.1, { acc.2 with eventsProcessed := acc.2.eventsProcessed + 1 }, true⟩ rfl
  rw [processEvent]
  cases ht : transaction p.1 atmId snapshots p.2
      ⟨acc.1, { acc.2 with eventsProcessed := acc.2.eventsProcessed + 1 }, true⟩ with
  | mk e w' =>
    rw [ht] at h
    cases e with
    | committed | duplicate => exact ⟨h.nextEventId, h.nextRowVersion⟩
    | failed =>
      dsimp only
      rw [logHealthError]
      split <;> exact ⟨h.nextEventId, h.nextRowVersion⟩

end AtmMonitor.EventTransaction
