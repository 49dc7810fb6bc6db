import AtmMonitor.Ledger
import AtmMonitor.Library.OptimisticCell
import AtmMonitor.NewestEvent

namespace AtmMonitor.StatusConcurrency

open Library.OptimisticCell ParserModels DatabaseModels Repositories LiveStatus EventProcessor
  EventTransaction Ledger NewestEvent

/-- An event transaction of `process_result` as far as it concerns the live row, with its readings
of the clock. -/
structure EventJob where
  now : Timestamp
  updated : Timestamp
  ev : ATMParsedEvent
  snaps : List CassetteSnapshot

structure Heartbeat where
  now : Timestamp
  updated : Timestamp

/-- What `_send_heartbeat` sets in the live row. -/
def sendHeartbeat (h : Heartbeat) (status : ATMLiveStatus) : ATMLiveStatus :=
  { status with lastAgentHeartbeat := some h.now, updatedOn := some h.updated }

/-- The row under `update_live_status` and under the heartbeat. -/
def statusCell : Cell ATMLiveStatus EventJob Heartbeat where
  version := fun s => s.rowVersion
  stamp := fun v s => { s with rowVersion := v }
  version_stamp := fun _ _ => rfl
  fresh := initialStatus
  skips := fun j s => isStale s j.ev
  skips_fresh := fun _ _ => rfl
  update := fun j s =>
    { applyStatusUpdates j.now s j.ev j.snaps with updatedOn := some j.updated }
  touch := sendHeartbeat
  attempts := 2

theorem updateLiveStatus_cell (db : Database) (now : Timestamp) (atmId : Nat)
    (status : ATMLiveStatus) (v : Nat) :
    (updateLiveStatus db now atmId status (some v) false).map (·.liveStatus atmId) =
      match db.liveStatus atmId with
      | some row =>
        if statusCell.version row = v then
          some (some (statusCell.stamp db.nextRowVersion { status with updatedOn := some now }))
        else none
      | none => none := by
  unfold updateLiveStatus
  cases db.liveStatus atmId with
  | none => rfl
  | some row =>
    by_cases hv : row.rowVersion = v
    · have hv' : statusCell.version row = v := hv
      simp only [hv, hv', and_self, if_true, Option.map_some, writeStatus_self]
      rfl
    · have hv' : ¬ statusCell.version row = v := hv
      simp only [hv, hv', false_and, if_false, Option.map_none]

/-- A transaction that runs alone leaves the row that an undisturbed transaction of the store
leaves. -/
theorem solo_run (db : Database) (atmId : Nat) (now : Timestamp) (ev : ATMParsedEvent)
    (snaps : List CassetteSnapshot) :
    ∃ s : State Unit ATMLiveStatus,
      Reachable statusCell (fun _ => .inl ⟨now, now, ev, snaps⟩) (db.liveStatus atmId)
          db.nextRowVersion s ∧
        s.row = (recordStatus now atmId ev snaps db).liveStatus atmId := by
  set j : EventJob := ⟨now, now, ev, snaps⟩
  have hinit : Reachable statusCell (fun _ : Unit => .inl j) (db.liveStatus atmId)
      db.nextRowVersion (initial (db.liveStatus atmId) db.nextRowVersion) := Reachable.init
  cases hrow : db.liveStatus atmId with
  | none =>
    rw [hrow] at hinit
    have hcreate := hinit.step (Step.create () j 0 rfl rfl rfl rfl)
    have happly := hcreate.step (Step.apply () j 0 _ rfl rfl)
    have hwrite := happly.step (Step.write () 0 _ _ _ rfl rfl rfl fun _ _ _ => rfl)
    have hcommit := hwrite.step (Step.commit () _ rfl rfl)
    refine ⟨_, hcommit, ?_⟩
    have hfresh : isStale (loadedStatus db atmId) ev = false := by
      rw [loadedStatus, hrow]
      rfl
    rw [recordStatus, if_neg (by simp [hfresh]), writeStatus_self, loadedStatus, loadedDb, hrow]
    rfl
  | some row =>
    rw [hrow] at hinit
    have hload : loadedStatus db atmId = row := by rw [loadedStatus, hrow]; rfl
    cases hs : isStale row ev with
    | true =>
      have hskip := hinit.step (Step.skip () j 0 row rfl rfl rfl hs)
      have hfinish := hskip.step (Step.finish () rfl)
      refine ⟨_, hfinish, ?_⟩
      rw [recordStatus, hload, if_pos hs, loadedDb, hrow]
      exact hrow.symm
    | false =>
      have hread := hinit.step (Step.read () j 0 row rfl rfl rfl hs)
      have happly := hread.step (Step.apply () j 0 row rfl rfl)
      have hwrite := happly.step (Step.write () 0 _ _ row rfl rfl rfl fun _ _ _ => rfl)
      have hcommit := hwrite.step (Step.commit () _ rfl rfl)
      refine ⟨_, hcommit, ?_⟩
      rw [recordStatus, hload, if_neg (by simp [hs]), writeStatus_self, loadedDb, hrow]
      rfl

section Follows

variable {T : Type} {job : T → EventJob ⊕ Heartbeat}

theorem follows_content {prev : Option ATMLiveStatus} {t : T} {row : ATMLiveStatus} {j : EventJob}
    (h : Follows statusCell job prev (t, row)) (hj : job t = .inl j) :
    content row =
      content (applyStatusUpdates j.now (prev.getD initialStatus) j.ev j.snaps) := by
  cases h with
  | update t j' base v hj' hs =>
    rw [hj, Sum.inl.injEq] at hj'
    rw [hj']
    rfl
  | create t j' v₀ v hj' =>
    rw [hj, Sum.inl.injEq] at hj'
    have hbase : content (statusCell.stamp v₀ statusCell.fresh) = content initialStatus := rfl
    have hrow : content (statusCell.stamp v (statusCell.update j' (statusCell.stamp v₀
        statusCell.fresh))) = content (applyStatusUpdates j'.now (statusCell.stamp v₀
        statusCell.fresh) j'.ev j'.snaps) := rfl
    rw [hrow, content_applyStatusUpdates, hbase, hj', Option.getD_none, content_applyStatusUpdates]
  | touch t hb base v hj' =>
    rw [hj] at hj'
    cases hj'

theorem follows_time {prev row : ATMLiveStatus} {t : T} {t₀ : Timestamp}
    (h : Follows statusCell job (some prev) (t, row)) (ht : prev.lastEventTime = some t₀) :
    ∃ t₁, row.lastEventTime = some t₁ ∧ t₀ ≤ t₁ := by
  cases h with
  | update t j base v hj hs =>
    refine ⟨j.ev.eventTime, (applyStatusUpdates_lastEvent j.now prev j.ev j.snaps).1, ?_⟩
    apply not_lt.mp
    intro hlt
    have hstale : isStale prev j.ev = true := (isStale_iff j.ev).mpr ⟨t₀, ht, hlt⟩
    have hs' : isStale prev j.ev = false := hs
    rw [hs'] at hstale
    cases hstale
  | touch t hb base v hj => exact ⟨t₀, ht, le_rfl⟩

end Follows

/-- In every interleaving of event transactions and heartbeats on the live row of a machine, each
version committed through `update_live_status` is the update of the version before it, and the
last event time never moves back. -/
theorem no_lost_update {T : Type} [DecidableEq T] (job : T → EventJob ⊕ Heartbeat)
    (start : Option ATMLiveStatus) (next : Nat)
    (hstart : ∀ row, start = some row → row.rowVersion < next) {s : State T ATMLiveStatus}
    (h : Reachable statusCell job start next s) :
    s.row = lastRow start s.log ∧
      ∀ pre t row post, s.log = pre ++ (t, row) :: post →
        (∀ j, job t = .inl j →
          content row = content (applyStatusUpdates j.now
            ((lastRow start pre).getD initialStatus) j.ev j.snaps)) ∧
        ∀ before t₀, lastRow start pre = some before → before.lastEventTime = some t₀ →
          ∃ t₁, row.lastEventTime = some t₁ ∧ t₀ ≤ t₁ := by
  have hinv := reachable_inv hstart h
  refine ⟨hinv.current, fun pre t row post hlog => ?_⟩
  have hfollows := hinv.linked pre (t, row) post hlog
  refine ⟨fun j hj => follows_content hfollows hj, fun before t₀ hb ht => ?_⟩
  rw [hb] at hfollows
  exact follows_time hfollows ht

def firstRow : ATMLiveStatus := { lastEventTime := some 5, rowVersion := 1 }

def cardJob : EventJob := ⟨8, 9, .bare 2 7 .cardInserted, []⟩

def twoJobs : Bool → EventJob ⊕ Heartbeat
  | true => .inl cardJob
  | false => .inr ⟨6, 6⟩

/-- The heartbeat writes between the read and the write of the event, which then retries. -/
theorem no_lost_update_conflict :
    ∃ s, Reachable statusCell twoJobs (some firstRow) 2 s ∧ s.log.map Prod.fst = [false, true] ∧
      ∀ pre t row post, s.log = pre ++ (t, row) :: post →
        (∀ j, twoJobs t = .inl j →
          content row = content (applyStatusUpdates j.now
            ((lastRow (some firstRow) pre).getD initialStatus) j.ev j.snaps)) ∧
        ∀ before t₀, lastRow (some firstRow) pre = some before →
          before.lastEventTime = some t₀ → ∃ t₁, row.lastEventTime = some t₁ ∧ t₀ ≤ t₁ := by
  have h0 : Reachable statusCell twoJobs (some firstRow) 2 (initial (some firstRow) 2) :=
    Reachable.init
  have h1 := h0.step (Step.read true cardJob 0 firstRow rfl rfl rfl rfl)
  have h2 := h1.step (Step.touch false ⟨6, 6⟩ firstRow rfl rfl rfl rfl)
  have h3 := h2.step (Step.commit false _ rfl rfl)
  have h4 := h3.step (Step.apply true cardJob 0 firstRow rfl rfl)
  have h5 := h4.step (Step.conflict true 0 1 _ rfl (by
    intro c hc
    obtain rfl : _ = c := Option.some.inj hc
    decide) (by decide))
  have h6 := h5.step (Step.read true cardJob 1 _ rfl rfl rfl rfl)
  have h7 := h6.step (Step.apply true cardJob 1 _ rfl rfl)
  have h8 := h7.step (Step.write true 1 _ _ _ rfl rfl rfl fun _ _ hh => nomatch hh)
  have h9 := h8.step (Step.commit true _ rfl rfl)
  have hstart : ∀ row, some firstRow = some row → row.rowVersion < 2 := by
    intro row hrow
    rw [← Option.some.inj hrow]
    decide
  exact ⟨_, h9, rfl, (no_lost_update twoJobs (some firstRow) 2 hstart h9).2⟩

end AtmMonitor.StatusConcurrency
