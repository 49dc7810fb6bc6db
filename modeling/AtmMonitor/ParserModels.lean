import AtmMonitor.PyText

namespace AtmMonitor.ParserModels

open PyText

/-- A `datetime`, in microseconds since the first day of the proleptic calendar. -/
abbrev Timestamp := Nat

inductive EventType where
  | unknown | transactionStart | transactionEnd | cardReaderActivated | sstInService
  | sstOutOfService | sstOnline | sstOffline | powerUpReset | supervisorModeEntered
  | supervisorModeExited | rejectBinRemoved | rejectBinInserted | cardsCleared | cardInserted
  | cardTaken | customerCancelled | notesStacked | notesPresented | notesTaken
  | cashCountsCleared | cashAdded | cassetteInformation | cassetteInserted | cassetteRemoved
  deriving DecidableEq, Repr

def EventType.name : EventType → Str
  | .unknown => "Unknown".toList
  | .transactionStart => "TransactionStart".toList
  | .transactionEnd => "TransactionEnd".toList
  | .cardReaderActivated => "CardReaderActivated".toList
  | .sstInService => "SSTInService".toList
  | .sstOutOfService => "SSTOutOfService".toList
  | .sstOnline => "SSTOnline".toList
  | .sstOffline => "SSTOffline".toList
  | .powerUpReset => "PowerUpReset".toList
  | .supervisorModeEntered => "SupervisorModeEntered".toList
  | .supervisorModeExited => "SupervisorModeExited".toList
  | .rejectBinRemoved => "RejectBinRemoved".toList
  | .rejectBinInserted => "RejectBinInserted".toList
  | .cardsCleared => "CardsCleared".toList
  | .cardInserted => "CardInserted".toList
  | .cardTaken => "CardTaken".toList
  | .customerCancelled => "CustomerCancelled".toList
  | .notesStacked => "NotesStacked".toList
  | .notesPresented => "NotesPresented".toList
  | .notesTaken => "NotesTaken".toList
  | .cashCountsCleared => "CashCountsCleared".toList
  | .cashAdded => "CashAdded".toList
  | .cassetteInformation => "CassetteInformation".toList
  | .cassetteInserted => "CassetteInserted".toList
  | .cassetteRemoved => "CassetteRemoved".toList

inductive EventCategory where
  | system | transaction | cardReader | status | supervisor | rejectBin | cash | cassette
  deriving DecidableEq, Repr

inductive Severity where
  | information | warning
  deriving DecidableEq, Repr

inductive TerminalStatus where
  | inService | outOfService | online | offline | unknown | supervisor
  deriving DecidableEq, Repr

inductive CassetteStatus where
  | normal | missing | low | empty | fault | unknown
  deriving DecidableEq, Repr

inductive OperationType where
  | balanceUpdate | cassetteInserted | cassetteRemoved | cashAdded | cashCountsCleared
  deriving DecidableEq, Repr

structure ATMParsedEvent where
  eventSequenceNumber : Option Nat
  eventTime : Timestamp
  eventType : EventType
  eventCategory : EventCategory
  severity : Severity
  confidence : Nat
  terminalStatus : Option TerminalStatus := none
  message : Option Str := none
  cardNumberMasked : Option Str := none
  responseCode : Option Str := none
  functionId : Option Str := none
  opcode : Option Str := none
  amount : Option Rat := none
  supervisorMode : Option Bool := none
  isCashAdded : Bool := false
  isCashRemoved : Bool := false
  isCassetteInserted : Bool := false
  isCassetteRemoved : Bool := false
  isRejectBinRemoved : Bool := false
  isRejectBinInserted : Bool := false
  isCardCaptured : Bool := false
  isTransactionStart : Bool := false
  isTransactionEnd : Bool := false
  rawEvent : Str := []
  sourceFileName : Str := []
  startLineNumber : Nat := 0
  endLineNumber : Nat := 0
  terminalIdSnapshot : Option Str := none
  deriving DecidableEq

def ATMParsedEvent.bare (n : Nat) (time : Timestamp) (type : EventType) : ATMParsedEvent :=
  { eventSequenceNumber := some n, eventTime := time, eventType := type,
    eventCategory := .system, severity := .information, confidence := 100 }

structure CassetteSnapshot where
  cassetteNo : Nat
  cassetteStatus : CassetteStatus
  denomination : Option Int := none
  currencyCode : Option Str := none
  loadedNotes : Option Int := none
  remainingNotes : Option Int := none
  rejectedNotes : Option Int := none
  dispensedNotes : Option Int := none
  cashAmount : Option Int := none
  operationType : OperationType := .balanceUpdate
  sourceFileName : Str := []
  startLineNumber : Nat := 0
  endLineNumber : Nat := 0
  deriving DecidableEq

structure ParserWarning where
  sequenceNumber : Option Nat
  eventTime : Option Timestamp
  message : Str
  rawEvent : Str
  sourceFileName : Str := []
  startLineNumber : Nat := 0
  endLineNumber : Nat := 0
  deriving DecidableEq

structure UnknownEventRegistryEntry where
  header : Str
  count : Nat
  firstSequence : Option Nat
  firstOccurrenceTime : Option Timestamp
  deriving DecidableEq

/-- The counters of one parse; its duration is left out. -/
structure ParserStatistics where
  totalLinesRead : Nat := 0
  totalBlocks : Nat := 0
  parsedEvents : Nat := 0
  cassetteSnapshots : Nat := 0
  cashSnapshots : Nat := 0
  supervisorEvents : Nat := 0
  warnings : Nat := 0
  unknownEvents : Nat := 0
  duplicatesIgnored : Nat := 0
  ignoredBlocks : Nat := 0
  deriving DecidableEq

structure ParserResult where
  events : List ATMParsedEvent := []
  cassetteSnapshots : List CassetteSnapshot := []
  warnings : List ParserWarning := []
  unknownEventsRegistry : List UnknownEventRegistryEntry := []
  statistics : ParserStatistics := {}
  deriving DecidableEq

end AtmMonitor.ParserModels
