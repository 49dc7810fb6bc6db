import AtmMonitor.ParserModels

namespace AtmMonitor.SupervisorParser

open PyText ParserModels

def supervisorEvent (entered : Bool) (seqNum : Nat) (eventTime : Timestamp) (fileName : Str)
    (startLine endLine : Nat) : ATMParsedEvent where
  eventSequenceNumber := some seqNum
  eventTime := eventTime
  eventType := if entered then .supervisorModeEntered else .supervisorModeExited
  eventCategory := .supervisor
  severity := .information
  confidence := 100
  supervisorMode := some entered
  message := some (if entered then "ATM entered supervisor mode".toList
    else "ATM exited supervisor mode".toList)
  sourceFileName := fileName
  startLineNumber := startLine
  endLineNumber := endLine

def entersSupervisor (line : Str) : Bool :=
  contains (upper line) "SUPERVISOR MODE ENTRY".toList ||
    contains (upper line) "SUPERVISOR TASK ENTERED".toList

def exitsSupervisor (line : Str) : Bool := contains (upper line) "SUPERVISOR TASK EXITED".toList

/-- The direction named by the first line that names one. -/
def supervisorAction : List Str → Option Bool
  | [] => none
  | line :: rest =>
    if entersSupervisor line then some true
    else if exitsSupervisor line then some false
    else supervisorAction rest

/-- The one event, if any, of `SupervisorParser.parse_block`. -/
def parseBlock (lines : List Str) (seqNum : Nat) (eventTime : Timestamp) (fileName : Str)
    (startLine : Nat) : Option ATMParsedEvent :=
  (supervisorAction lines).map fun entered =>
    supervisorEvent entered seqNum eventTime fileName startLine (startLine + lines.length - 1)

end AtmMonitor.SupervisorParser
