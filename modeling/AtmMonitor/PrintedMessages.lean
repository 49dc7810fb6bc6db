import AtmMonitor.PrintedHeader

namespace AtmMonitor.PrintedMessages

open Library.Regex PyText ParserModels EventPatterns CassetteParser EjParser Decimal PrintedRows

/-- What the parser is to conclude from a line phrase. -/
def tells (eventType : EventType) (eventCategory : EventCategory) (severity : Severity)
    (terminalStatus : Option TerminalStatus) (confidence : Nat) (supervisorMode : Option Bool) : Verdict where
  eventType := eventType
  eventCategory := eventCategory
  severity := severity
  terminalStatus := terminalStatus
  confidence := confidence
  supervisorMode := supervisorMode
  matched := true

def vocabulary : List (String × Verdict) :=
  [("*TRANSACTION START*", tells .transactionStart .transaction .information none 100 none),
   ("TRANSACTION END", tells .transactionEnd .transaction .information none 100 none),
   ("*PRIMARY CARD READER ACTIVATED*", tells .cardReaderActivated .cardReader .information none 100 none),
   ("SST IN SERVICE", tells .sstInService .status .information (some .inService) 100 none),
   ("SST OUT OF SERVICE", tells .sstOutOfService .status .warning (some .outOfService) 100 none),
   ("SST ON-LINE", tells .sstOnline .status .information (some .online) 100 none),
   ("SST OFF-LINE", tells .sstOffline .status .warning (some .offline) 100 none),
   ("POWER-UP/RESET", tells .powerUpReset .system .information (some .unknown) 100 none),
   ("SUPERVISOR MODE ENTRY", tells .supervisorModeEntered .supervisor .information none 100 (some true)),
   ("SUPERVISOR TASK ENTERED.", tells .supervisorModeEntered .supervisor .information none 100 (some true)),
   ("SUPERVISOR TASK EXITED.", tells .supervisorModeExited .supervisor .information none 100 (some false)),
   ("REJECT BIN REMOVED", tells .rejectBinRemoved .rejectBin .warning none 100 none),
   ("REJECT BIN INSERTED", tells .rejectBinInserted .rejectBin .information none 100 none),
   ("CARD INSERTED", tells .cardInserted .cardReader .information none 80 none),
   ("CARD TAKEN", tells .cardTaken .cardReader .information none 80 none),
   ("CUSTOMER CANCELLED", tells .customerCancelled .transaction .information none 80 none),
   ("NOTES STACKED", tells .notesStacked .cash .information none 80 none),
   ("NOTES TAKEN", tells .notesTaken .cash .information none 80 none)]

structure Phrase where
  text : String
  verdict : Verdict
  amount : Option (Fin (10 ^ 12))
  listed : (text, verdict) ∈ vocabulary

/-- One column of a `CASH TOTAL` table, which is five digits wide. -/
structure Column where
  denomination : Fin (10 ^ 5)
  dispensed : Fin (10 ^ 5)
  rejected : Fin (10 ^ 5)
  remaining : Fin (10 ^ 5)

/-- The counts of one cassette when they are cleared. -/
structure Cleared where
  dispensed : Nat
  remaining : Nat
  rejected : Nat

structure Cassette where
  position : Str
  cassetteNo : Nat
  inserted : Bool
  listed : (position, cassetteNo) ∈ CASSETTE_POSITION_MAP

inductive Message where
  | phrase (p : Phrase)
  | cassette (c : Cassette)
  | totals (first : Column) (others : List Column)
  | added (counts : PerType Nat)
  | cleared (counts : PerType Cleared)

def amountLine (n : Nat) : Str := "REQUEST SENT AMOUNT≈".toList ++ numeral 12 n

def Cassette.line (c : Cassette) : Str :=
  c.position ++ if c.inserted then " CASSETTE INSERTED".toList else " CASSETTE REMOVED".toList

def totalsHeading (n : Nat) : Str :=
  "CASH TOTAL".toList ++ (List.range' 1 n).flatMap fun i => " TYPE".toList ++ decimal i

def totalsLines (columns : List Column) : List Str :=
  [totalsHeading columns.length,
    rowText "DENOMINATION" (columns.map fun c => denominationCell c.denomination.val),
    rowText "DISPENSED" (columns.map fun c => countCell c.dispensed.val),
    rowText "REJECTED" (columns.map fun c => countCell c.rejected.val),
    rowText "REMAINING" (columns.map fun c => countCell c.remaining.val)]

def Message.lines : Message → List Str
  | .phrase p => p.text.toList :: (p.amount.map fun n : Fin _ => amountLine n.val).toList
  | .cassette c => [c.line]
  | .totals first others => totalsLines (first :: others)
  | .added counts => ["CASH ADDED".toList, countRowText counts]
  | .cleared counts =>
    ["CASH COUNTS CLEARED".toList, "CASH DISPENSED".toList, countRowText (counts.map Cleared.dispensed),
      "CASH REMAINING".toList, countRowText (counts.map Cleared.remaining),
      "CASH REJECTED".toList, countRowText (counts.map Cleared.rejected)]

/-- What the event of the message tells, if there is one. -/
def Message.verdict : Message → Option Verdict
  | .phrase p => some p.verdict
  | .cassette c =>
    some (if c.inserted then tells .cassetteInserted .cassette .information none 100 none
      else tells .cassetteRemoved .cassette .warning none 100 none)
  | .totals _ _ => none
  | .added _ => some (tells .cashAdded .cash .information none 100 none)
  | .cleared _ => some (tells .cashCountsCleared .cash .information none 100 none)

/-- The amount is not read at the start of a transaction. -/
def Message.amount : Message → Option Rat
  | .phrase p => if p.verdict.eventType = .transactionStart then none else p.amount.map fun n : Fin _ => (n.val : Rat)
  | _ => none

/-- How full a cassette with so many notes is. -/
def fill (remaining : Nat) : CassetteStatus :=
  if remaining = 0 then .empty else if remaining ≤ 50 then .low else .normal

section Snapshots

variable (fileName : Str) (startLine endLine : Nat)

def columnSnapshot (cassetteNo : Nat) (c : Column) : CassetteSnapshot where
  cassetteNo := cassetteNo
  cassetteStatus := fill c.remaining.val
  denomination := some c.denomination.val
  dispensedNotes := some c.dispensed.val
  rejectedNotes := some c.rejected.val
  remainingNotes := some c.remaining.val
  cashAmount := some (c.denomination.val * c.remaining.val)
  operationType := .balanceUpdate
  sourceFileName := fileName
  startLineNumber := startLine
  endLineNumber := endLine

def addedSnapshot (cassetteNo count : Nat) : CassetteSnapshot where
  cassetteNo := cassetteNo
  cassetteStatus := .normal
  loadedNotes := some count
  remainingNotes := some count
  operationType := .cashAdded
  sourceFileName := fileName
  startLineNumber := startLine
  endLineNumber := endLine

def clearedSnapshot (cassetteNo : Nat) (c : Cleared) : CassetteSnapshot where
  cassetteNo := cassetteNo
  cassetteStatus := fill c.remaining
  dispensedNotes := some c.dispensed
  remainingNotes := some c.remaining
  rejectedNotes := some c.rejected
  operationType := .cashCountsCleared
  sourceFileName := fileName
  startLineNumber := startLine
  endLineNumber := endLine

/-- What the message tells about the cassettes, in the order of their numbers. -/
def Message.snapshots : Message → List CassetteSnapshot
  | .phrase _ => []
  | .cassette c =>
    [{ cassetteNo := c.cassetteNo
       cassetteStatus := if c.inserted then .normal else .missing
       operationType := if c.inserted then .cassetteInserted else .cassetteRemoved
       sourceFileName := fileName
       startLineNumber := startLine + 1
       endLineNumber := startLine + 1 }]
  | .totals first others =>
    ((first :: others).zipIdx 1).map fun p => columnSnapshot fileName startLine endLine p.2 p.1
  | .added counts => (counts.toList.zipIdx 1).map fun p => addedSnapshot fileName startLine endLine p.2 p.1
  | .cleared counts =>
    (counts.toList.zipIdx 1).map fun p => clearedSnapshot fileName startLine endLine p.2 p.1

end Snapshots

end AtmMonitor.PrintedMessages
