import AtmMonitor.ParserModels

namespace AtmMonitor.DatabaseModels

open PyText ParserModels

structure ATMEvent where
  id : Nat
  atmId : Nat
  eventSequenceNumber : Option Nat
  eventTime : Timestamp
  eventType : EventType
  eventCategory : EventCategory
  severity : Severity
  terminalStatus : Option TerminalStatus
  message : Option Str
  cardNumberMasked : Option Str
  responseCode : Option Str
  functionId : Option Str
  opcode : Option Str
  amount : Option Rat
  supervisorMode : Option Bool
  isCashAdded : Bool
  isCashRemoved : Bool
  isCassetteInserted : Bool
  isCassetteRemoved : Bool
  isRejectBinRemoved : Bool
  isRejectBinInserted : Bool
  isCardCaptured : Bool
  isTransactionStart : Bool
  isTransactionEnd : Bool
  rawEvent : Str
  sourceFileName : Str
  sourceLineNumber : Nat
  terminalIdSnapshot : Option Str
  deriving DecidableEq

def ATMEvent.ofParsed (id atmId : Nat) (ev : ATMParsedEvent) : ATMEvent where
  id := id
  atmId := atmId
  eventSequenceNumber := ev.eventSequenceNumber
  eventTime := ev.eventTime
  eventType := ev.eventType
  eventCategory := ev.eventCategory
  severity := ev.severity
  terminalStatus := ev.terminalStatus
  message := ev.message
  cardNumberMasked := ev.cardNumberMasked
  responseCode := ev.responseCode
  functionId := ev.functionId
  opcode := ev.opcode
  amount := ev.amount
  supervisorMode := ev.supervisorMode
  isCashAdded := ev.isCashAdded
  isCashRemoved := ev.isCashRemoved
  isCassetteInserted := ev.isCassetteInserted
  isCassetteRemoved := ev.isCassetteRemoved
  isRejectBinRemoved := ev.isRejectBinRemoved
  isRejectBinInserted := ev.isRejectBinInserted
  isCardCaptured := ev.isCardCaptured
  isTransactionStart := ev.isTransactionStart
  isTransactionEnd := ev.isTransactionEnd
  rawEvent := ev.rawEvent
  sourceFileName := ev.sourceFileName
  sourceLineNumber := ev.startLineNumber
  terminalIdSnapshot := ev.terminalIdSnapshot

inductive DeviceStatus where
  | normal | missing
  deriving DecidableEq, Repr

/-- A row of `AtmLiveStatus` less its primary key, with the defaults of the table. The server sets
`rowVersion` when the row is written. Amounts are exact numbers. -/
structure ATMLiveStatus where
  isOnline : Bool := false
  currentStatus : Option TerminalStatus := none
  sstStatus : Option TerminalStatus := none
  supervisorMode : Bool := false
  lastHeartbeat : Option Timestamp := none
  lastAgentHeartbeat : Option Timestamp := none
  lastEventType : Option EventType := none
  lastEventTime : Option Timestamp := none
  lastTransactionTime : Option Timestamp := none
  lastTransactionAmount : Option Rat := none
  cardReaderStatus : Option DeviceStatus := none
  rejectBinStatus : Option DeviceStatus := none
  cashAvailable : Bool := true
  totalRemainingNotes : Option Int := none
  cashRemainingAmount : Option Int := none
  cassette1Status : Option CassetteStatus := none
  cassette1RemainingNotes : Option Int := none
  cassette2Status : Option CassetteStatus := none
  cassette2RemainingNotes : Option Int := none
  cassette3Status : Option CassetteStatus := none
  cassette3RemainingNotes : Option Int := none
  cassette4Status : Option CassetteStatus := none
  cassette4RemainingNotes : Option Int := none
  lastErrorMessage : Option Str := none
  updatedOn : Option Timestamp := none
  rowVersion : Nat := 0
  deriving DecidableEq

structure CassetteBalanceHistory where
  id : Nat
  atmId : Nat
  eventId : Nat
  eventSequenceNumber : Option Nat
  eventTime : Timestamp
  cassetteNo : Nat
  cassetteStatus : CassetteStatus
  denomination : Option Int
  currencyCode : Option Str
  loadedNotes : Option Int
  remainingNotes : Option Int
  rejectedNotes : Option Int
  dispensedNotes : Option Int
  cashAmount : Option Int
  operationType : OperationType
  sourceFileName : Str
  sourceLineNumber : Nat
  deriving DecidableEq

def CassetteBalanceHistory.ofSnapshot (id atmId eventId : Nat) (ev : ATMParsedEvent)
    (snap : CassetteSnapshot) : CassetteBalanceHistory where
  id := id
  atmId := atmId
  eventId := eventId
  eventSequenceNumber := ev.eventSequenceNumber
  eventTime := ev.eventTime
  cassetteNo := snap.cassetteNo
  cassetteStatus := snap.cassetteStatus
  denomination := snap.denomination
  currencyCode := snap.currencyCode
  loadedNotes := snap.loadedNotes
  remainingNotes := snap.remainingNotes
  rejectedNotes := snap.rejectedNotes
  dispensedNotes := snap.dispensedNotes
  cashAmount := snap.cashAmount
  operationType := snap.operationType
  sourceFileName := snap.sourceFileName
  sourceLineNumber := snap.startLineNumber

/-- A row of `AgentHealthLog`, less its constant columns and the text of the exception. -/
structure AgentHealthLog where
  atmId : Nat
  logTime : Timestamp
  sequenceNumber : Option Nat
  deriving DecidableEq

structure AgentFileState where
  atmId : Nat
  filePath : Str
  fileName : Str
  lastFileSize : Nat
  lastReadOffset : Nat
  lastModifiedTime : Timestamp
  lastParsedEventTime : Option Timestamp := none
  lastSequenceNumber : Option Nat := none
  fileHash : Str
  isActive : Bool
  updatedOn : Option Timestamp := none
  deriving DecidableEq

/-- The tables the agent writes, with the counters behind identity columns and `RowVersion`.
`AtmLiveStatus` is indexed by its primary key. -/
structure Database where
  events : List ATMEvent := []
  history : List CassetteBalanceHistory := []
  liveStatus : Nat → Option ATMLiveStatus := fun _ => none
  healthLogs : List AgentHealthLog := []
  fileStates : List AgentFileState := []
  nextEventId : Nat := 1
  nextHistoryId : Nat := 1
  nextRowVersion : Nat := 1

/-- What a rollback of the work done since `committed` leaves: the rows of `committed`, but
identity values and row versions once drawn are not drawn again. -/
def Database.rollback (committed working : Database) : Database :=
  { committed with
    nextEventId := working.nextEventId
    nextHistoryId := working.nextHistoryId
    nextRowVersion := working.nextRowVersion }

end AtmMonitor.DatabaseModels
