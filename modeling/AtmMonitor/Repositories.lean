import AtmMonitor.DatabaseModels
import Mathlib.Logic.Function.Basic

namespace AtmMonitor.Repositories

open ParserModels DatabaseModels

def duplicateCheck (db : Database) (atmId : Nat) : Option Nat → Bool
  | none => false
  | some n => db.events.any fun r => r.atmId == atmId && r.eventSequenceNumber == some n

/-- `EventRepository.insert_event` and its flush: the row gets the next identity value. -/
def insertEvent (db : Database) (atmId : Nat) (ev : ATMParsedEvent) : Database :=
  { db with
    events := db.events ++ [ATMEvent.ofParsed db.nextEventId atmId ev]
    nextEventId := db.nextEventId + 1 }

def duplicateSnapshotCheck (db : Database) (atmId : Nat) : Option Nat → Nat → Bool
  | none, _ => false
  | some n, cassetteNo =>
    db.history.any fun r =>
      r.atmId == atmId && r.eventSequenceNumber == some n && r.cassetteNo == cassetteNo

def insertHistory (db : Database) (atmId eventId : Nat) (ev : ATMParsedEvent)
    (snap : CassetteSnapshot) : Database :=
  { db with
    history := db.history ++
      [CassetteBalanceHistory.ofSnapshot db.nextHistoryId atmId eventId ev snap]
    nextHistoryId := db.nextHistoryId + 1 }

def getByAtmId (db : Database) (atmId : Nat) : Option ATMLiveStatus := db.liveStatus atmId

/-- Write a live row; the server stamps it with a fresh `RowVersion`. -/
def writeStatus (db : Database) (atmId : Nat) (status : ATMLiveStatus) : Database :=
  { db with
    liveStatus := Function.update db.liveStatus atmId
      (some { status with rowVersion := db.nextRowVersion })
    nextRowVersion := db.nextRowVersion + 1 }

theorem writeStatus_self (db : Database) (atmId : Nat) (status : ATMLiveStatus) :
    (writeStatus db atmId status).liveStatus atmId =
      some { status with rowVersion := db.nextRowVersion } :=
  Function.update_self ..

theorem writeStatus_other (db : Database) (atmId : Nat) (status : ATMLiveStatus) {other : Nat}
    (h : other ≠ atmId) : (writeStatus db atmId status).liveStatus other = db.liveStatus other :=
  Function.update_of_ne h ..

def save (db : Database) (atmId : Nat) (status : ATMLiveStatus) : Database :=
  writeStatus db atmId status

/-- `LiveStatusRepository.update_live_status`: the database after the update, or nothing when no
row has `originalVersion` any more. `moved` says that another connection has written the row
since it was read. -/
def updateLiveStatus (db : Database) (now : Timestamp) (atmId : Nat) (status : ATMLiveStatus)
    (originalVersion : Option Nat) (moved : Bool) : Option Database :=
  match originalVersion with
  | none => some (save db atmId status)
  | some v =>
    match db.liveStatus atmId with
    | some row =>
      if row.rowVersion = v ∧ moved = false then
        some (writeStatus db atmId { status with updatedOn := some now })
      else none
    | none => none

def insertLog (db : Database) (log : AgentHealthLog) : Database :=
  { db with healthLogs := db.healthLogs ++ [log] }

def getFileState (db : Database) (atmId : Nat) (filePath : PyText.Str) : Option AgentFileState :=
  db.fileStates.find? fun s => s.atmId == atmId && s.filePath == filePath

def replaceFileState (state : AgentFileState) : List AgentFileState → List AgentFileState
  | [] => [state]
  | s :: rest =>
    if s.atmId = state.atmId ∧ s.filePath = state.filePath then state :: rest
    else s :: replaceFileState state rest

/-- What a commit after `create_file_state` or `update_file_state` stores. -/
def saveFileState (db : Database) (state : AgentFileState) : Database :=
  { db with fileStates := replaceFileState state db.fileStates }

theorem getFileState_saveFileState (db : Database) (state : AgentFileState) :
    getFileState (saveFileState db state) state.atmId state.filePath = some state := by
  unfold getFileState saveFileState
  simp only
  induction db.fileStates with
  | nil => simp [replaceFileState]
  | cons s rest ih =>
    rw [replaceFileState]
    split_ifs with h
    · simp
    · rw [List.find?_cons_of_neg, ih]
      simpa using h

end AtmMonitor.Repositories
