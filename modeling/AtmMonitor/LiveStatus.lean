import AtmMonitor.DatabaseModels
import Mathlib.Algebra.Ring.Int.Defs
import Mathlib.Logic.Function.Basic

namespace AtmMonitor.LiveStatus

open ParserModels DatabaseModels

def applyTerminalStatus (ev : ATMParsedEvent) (status : ATMLiveStatus) : ATMLiveStatus :=
  match ev.terminalStatus with
  | none => status
  | some t =>
    { status with
      currentStatus := some t
      sstStatus := some t
      isOnline :=
        if t = .inService ∨ t = .online then true
        else if t = .outOfService ∨ t = .offline then false
        else status.isOnline }

def applySupervisorMode (ev : ATMParsedEvent) (status : ATMLiveStatus) : ATMLiveStatus :=
  match ev.supervisorMode with
  | none => status
  | some m => { status with supervisorMode := m }

def applyLastEvent (now : Timestamp) (ev : ATMParsedEvent) (status : ATMLiveStatus) :
    ATMLiveStatus :=
  { status with
    lastAgentHeartbeat := some now
    lastEventType := some ev.eventType
    lastEventTime := some ev.eventTime }

def applyTransaction (ev : ATMParsedEvent) (status : ATMLiveStatus) : ATMLiveStatus :=
  match ev.amount with
  | none => status
  | some a =>
    { status with lastTransactionTime := some ev.eventTime, lastTransactionAmount := some a }

def applyCardReader (ev : ATMParsedEvent) (status : ATMLiveStatus) : ATMLiveStatus :=
  if ev.eventType = .cardReaderActivated then { status with cardReaderStatus := some .normal }
  else if ev.isCardCaptured then { status with cardReaderStatus := some .normal }
  else status

def applyRejectBin (ev : ATMParsedEvent) (status : ATMLiveStatus) : ATMLiveStatus :=
  if ev.isRejectBinRemoved then { status with rejectBinStatus := some .missing }
  else if ev.isRejectBinInserted then { status with rejectBinStatus := some .normal }
  else status

def applySnapshot (status : ATMLiveStatus) (snap : CassetteSnapshot) : ATMLiveStatus :=
  match snap.cassetteNo with
  | 1 =>
    { status with
      cassette1Status := some snap.cassetteStatus
      cassette1RemainingNotes := snap.remainingNotes <|> status.cassette1RemainingNotes }
  | 2 =>
    { status with
      cassette2Status := some snap.cassetteStatus
      cassette2RemainingNotes := snap.remainingNotes <|> status.cassette2RemainingNotes }
  | 3 =>
    { status with
      cassette3Status := some snap.cassetteStatus
      cassette3RemainingNotes := snap.remainingNotes <|> status.cassette3RemainingNotes }
  | 4 =>
    { status with
      cassette4Status := some snap.cassetteStatus
      cassette4RemainingNotes := snap.remainingNotes <|> status.cassette4RemainingNotes }
  | _ => status

def cCounts (status : ATMLiveStatus) : List (Option Int) :=
  [status.cassette1RemainingNotes, status.cassette2RemainingNotes,
   status.cassette3RemainingNotes, status.cassette4RemainingNotes]

def defaultDenoms : Nat → Option Int
  | 1 => some 1000
  | 2 => some 500
  | 3 => some 100
  | 4 => some 50
  | _ => none

/-- `c_denoms`: the defaults, overwritten by the denominations of the event's own snapshots. -/
def cDenoms (snaps : List CassetteSnapshot) : Nat → Option Int :=
  snaps.foldl (fun d snap =>
    match snap.denomination with
    | none => d
    | some v => Function.update d snap.cassetteNo (some v)) defaultDenoms

def totalRem (counts : List (Option Int)) : Int := (counts.map (·.getD 0)).sum

def calcCash (counts : List (Option Int)) (denoms : Nat → Option Int) : Int :=
  ((counts.zipIdx 1).map fun p => p.1.getD 0 * (denoms p.2).getD 0).sum

def applyCash (snaps : List CassetteSnapshot) (status : ATMLiveStatus) : ATMLiveStatus :=
  let counts := cCounts status
  if counts.any Option.isSome then
    { status with
      totalRemainingNotes := some (totalRem counts)
      cashRemainingAmount := some (calcCash counts (cDenoms snaps))
      cashAvailable := decide (totalRem counts > 0) }
  else status

def applyHeartbeat (ev : ATMParsedEvent) (status : ATMLiveStatus) : ATMLiveStatus :=
  { status with lastHeartbeat := some ev.eventTime }

/-- `_apply_status_updates`, with the reading `now` of the clock. -/
def applyStatusUpdates (now : Timestamp) (status : ATMLiveStatus) (ev : ATMParsedEvent)
    (snaps : List CassetteSnapshot) : ATMLiveStatus :=
  let status := applyTerminalStatus ev status
  let status := applySupervisorMode ev status
  let status := applyLastEvent now ev status
  let status := applyTransaction ev status
  let status := applyCardReader ev status
  let status := applyRejectBin ev status
  let status := snaps.foldl applySnapshot status
  let status := applyCash snaps status
  applyHeartbeat ev status

theorem applySnapshot_lastEvent (status : ATMLiveStatus) (snap : CassetteSnapshot) :
    (applySnapshot status snap).lastEventTime = status.lastEventTime ∧
      (applySnapshot status snap).lastEventType = status.lastEventType := by
  rw [applySnapshot]
  split <;> exact ⟨rfl, rfl⟩

theorem applySnapshots_lastEvent (status : ATMLiveStatus) (snaps : List CassetteSnapshot) :
    (snaps.foldl applySnapshot status).lastEventTime = status.lastEventTime ∧
      (snaps.foldl applySnapshot status).lastEventType = status.lastEventType := by
  induction snaps generalizing status with
  | nil => exact ⟨rfl, rfl⟩
  | cons snap rest ih =>
    obtain ⟨ht, hk⟩ := applySnapshot_lastEvent status snap
    rw [List.foldl_cons, (ih _).1, (ih _).2]
    exact ⟨ht, hk⟩

theorem applyCash_lastEvent (snaps : List CassetteSnapshot) (status : ATMLiveStatus) :
    (applyCash snaps status).lastEventTime = status.lastEventTime ∧
      (applyCash snaps status).lastEventType = status.lastEventType := by
  simp only [applyCash]
  split_ifs <;> exact ⟨rfl, rfl⟩

theorem applyRejectBin_lastEvent (ev : ATMParsedEvent) (status : ATMLiveStatus) :
    (applyRejectBin ev status).lastEventTime = status.lastEventTime ∧
      (applyRejectBin ev status).lastEventType = status.lastEventType := by
  rw [applyRejectBin]
  split_ifs <;> exact ⟨rfl, rfl⟩

theorem applyCardReader_lastEvent (ev : ATMParsedEvent) (status : ATMLiveStatus) :
    (applyCardReader ev status).lastEventTime = status.lastEventTime ∧
      (applyCardReader ev status).lastEventType = status.lastEventType := by
  rw [applyCardReader]
  split_ifs <;> exact ⟨rfl, rfl⟩

theorem applyTransaction_lastEvent (ev : ATMParsedEvent) (status : ATMLiveStatus) :
    (applyTransaction ev status).lastEventTime = status.lastEventTime ∧
      (applyTransaction ev status).lastEventType = status.lastEventType := by
  rw [applyTransaction]
  cases ev.amount <;> exact ⟨rfl, rfl⟩

theorem applyStatusUpdates_lastEvent (now : Timestamp) (status : ATMLiveStatus)
    (ev : ATMParsedEvent) (snaps : List CassetteSnapshot) :
    (applyStatusUpdates now status ev snaps).lastEventTime = some ev.eventTime ∧
      (applyStatusUpdates now status ev snaps).lastEventType = some ev.eventType ∧
      (applyStatusUpdates now status ev snaps).lastHeartbeat = some ev.eventTime := by
  refine ⟨?_, ?_, rfl⟩
  all_goals
    simp only [applyStatusUpdates, applyHeartbeat, applyCash_lastEvent, applySnapshots_lastEvent,
      applyRejectBin_lastEvent, applyCardReader_lastEvent, applyTransaction_lastEvent,
      applyLastEvent]

/-- The row that `process_result` creates for a machine without one. -/
def initialStatus : ATMLiveStatus := { isOnline := true }

end AtmMonitor.LiveStatus
