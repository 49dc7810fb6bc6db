import AtmMonitor.CassetteParser
import AtmMonitor.NcrDatetime
import AtmMonitor.SupervisorParser

namespace AtmMonitor.EjParser

open Library.Regex PyText ParserModels EventPatterns NcrDatetime

structure Header where
  seqText : Str
  dateText : Str
  timeText : Str
  extra : Str
  deriving DecidableEq

def header? (line : Str) : Option Header :=
  (matchStart EVENT_HEADER_PATTERN line).map fun m =>
    ⟨(m.group "seq").getD [], (m.group "date").getD [], (m.group "time").getD [],
      (m.group "extra").getD []⟩

/-- One tuple of `_group_blocks`. -/
structure Block where
  seq : Nat
  dt : Timestamp
  extra : Str
  lines : List Str
  startIdx : Nat
  deriving DecidableEq

def openBlock (now : Nat → Timestamp) (h : Header) (lineStr : Str) (idx : Nat) : Block :=
  ⟨int h.seqText, parseNcrDatetime (now idx) h.dateText h.timeText, h.extra, [lineStr], idx⟩

def Block.push (b : Block) (lineStr : Str) : Block := { b with lines := b.lines ++ [lineStr] }

/-- The loop of `_group_blocks` from line `idx` on, with the block that is open. `now` is the
clock, read at most once for each line. -/
def groupFrom (now : Nat → Timestamp) : Nat → Option Block → List Str → List Block
  | _, current, [] => current.toList
  | idx, current, line :: rest =>
    let lineStr := rstripNewline line
    match header? lineStr with
    | some h => current.toList ++ groupFrom now (idx + 1) (some (openBlock now h lineStr idx)) rest
    | none => groupFrom now (idx + 1) (current.map (·.push lineStr)) rest

def groupBlocks (now : Nat → Timestamp) (lines : List Str) : List Block := groupFrom now 0 none lines

def Block.startLine (b : Block) : Nat := b.startIdx + 1
def Block.endLine (b : Block) : Nat := b.startLine + b.lines.length - 1
def Block.key (b : Block) : Nat × Timestamp := (b.seq, b.dt)
def Block.rawBlock (b : Block) : Str := joinLines b.lines

def Block.searchText (b : Block) : Str :=
  strip b.extra ++ '\n' :: joinLines (b.lines.map strip)

def isIgnored (searchText : Str) : Bool := IGNORE_PATTERNS.any fun pat => found pat searchText

/-- The variables of the loop body that decide about the event. -/
structure Verdict where
  eventType : EventType := .unknown
  eventCategory : EventCategory := .system
  severity : Severity := .information
  terminalStatus : Option TerminalStatus := none
  confidence : Nat := 60
  supervisorMode : Option Bool := none
  matched : Bool := false
  deriving DecidableEq

def operationalMatch (searchText : Str) : Option Operational :=
  OPERATIONAL_PATTERNS.find? fun o => found o.pattern searchText

def textVerdict (searchText : Str) : Verdict :=
  match operationalMatch searchText with
  | some o =>
    { eventType := o.evType, eventCategory := o.evCat, severity := o.sev,
      terminalStatus := o.termStat, confidence := o.conf, matched := true }
  | none => {}

def supervisorVerdict (v : Verdict) : Option ATMParsedEvent → Verdict
  | some e =>
    { eventType := e.eventType, eventCategory := e.eventCategory, severity := e.severity,
      terminalStatus := e.terminalStatus, confidence := e.confidence,
      supervisorMode := e.supervisorMode, matched := true }
  | none => v

/-- The event type that a snapshot makes primary, if its operation is one of the four listed. -/
def primaryType : OperationType → Option EventType
  | .cassetteInserted => some .cassetteInserted
  | .cassetteRemoved => some .cassetteRemoved
  | .cashAdded => some .cashAdded
  | .cashCountsCleared => some .cashCountsCleared
  | .balanceUpdate => none

def snapshotVerdict (v : Verdict) (snap : CassetteSnapshot) : Verdict :=
  match primaryType snap.operationType with
  | some t =>
    { v with
      eventType := t
      eventCategory := if contains t.name "Cassette".toList then .cassette else .cash
      severity := if snap.operationType = .cassetteRemoved then .warning else .information
      confidence := 100
      matched := true }
  | none => v

structure Fields where
  cardNum : Option Str := none
  respCode : Option Str := none
  funcId : Option Str := none
  opcode : Option Str := none
  amount : Option Rat := none
  deriving DecidableEq

section Words

variable [Alnum]

def transactionFields (eventType : EventType) (searchText : Str) : Fields :=
  if eventType = .transactionStart then {}
  else
    { cardNum := (search CARD_PATTERN searchText <|> search CARD_NO_PATTERN searchText).bind
        (·.group "card")
      respCode := (search RESPONSE_CODE_PATTERN searchText).bind (·.group "resp")
      funcId := (search FUNCTION_ID_PATTERN searchText).bind (·.group "func")
      opcode := (search OPCODE_PATTERN searchText).bind (·.group "opcode")
      amount := ((search AMOUNT_PATTERN searchText <|> search WITHDRAWAL_PATTERN searchText).bind
        (·.group "amt")).bind float }

def blockSnapshots (fileName : Str) (b : Block) : List CassetteSnapshot :=
  CassetteParser.parseBlock b.lines fileName b.startLine

def blockVerdict (fileName : Str) (b : Block) : Verdict :=
  (blockSnapshots fileName b).foldl snapshotVerdict
    (supervisorVerdict (textVerdict b.searchText)
      (SupervisorParser.parseBlock b.lines b.seq b.dt fileName b.startLine))

def blockEvent (fileName : Str) (b : Block) : ATMParsedEvent :=
  let text := b.searchText
  let v := blockVerdict fileName b
  let f := transactionFields (textVerdict text).eventType text
  { eventSequenceNumber := some b.seq
    eventTime := b.dt
    eventType := v.eventType
    eventCategory := v.eventCategory
    severity := v.severity
    confidence := v.confidence
    terminalStatus := v.terminalStatus
    message := some ("Parsed ".toList ++ v.eventType.name ++ " event".toList)
    cardNumberMasked := f.cardNum
    responseCode := f.respCode
    functionId := f.funcId
    opcode := f.opcode.map strip
    amount := f.amount
    supervisorMode := v.supervisorMode
    isCashAdded := v.eventType == .cashAdded
    isCashRemoved := v.eventType == .cashCountsCleared
    isCassetteInserted := v.eventType == .cassetteInserted
    isCassetteRemoved := v.eventType == .cassetteRemoved
    isRejectBinInserted := v.eventType == .rejectBinInserted
    isRejectBinRemoved := v.eventType == .rejectBinRemoved
    isCardCaptured := contains text "CARDS CAPTURED".toList
    isTransactionStart := contains v.eventType.name "TransactionStart".toList ||
      contains text "*TRANSACTION START*".toList
    isTransactionEnd := contains v.eventType.name "TransactionEnd".toList ||
      contains text "TRANSACTION END".toList
    rawEvent := b.rawBlock
    sourceFileName := fileName
    startLineNumber := b.startLine
    endLineNumber := b.endLine }

def Block.recognised (fileName : Str) (b : Block) : Bool :=
  let v := blockVerdict fileName b
  v.matched || v.eventType != .unknown

def blockWarning (fileName : Str) (b : Block) : ParserWarning where
  sequenceNumber := some b.seq
  eventTime := some b.dt
  message := "Unknown or unhandled event block".toList
  rawEvent := b.rawBlock
  sourceFileName := fileName
  startLineNumber := b.startLine
  endLineNumber := b.endLine

def unknownHeader (b : Block) : Str :=
  let cleaned := (b.lines.tail.map strip).filter (!·.isEmpty)
  let h := cleaned.headD (strip (b.lines.headD []))
  if h.length > 100 then h.take 97 ++ "...".toList else h

def registerUnknown (b : Block) : List UnknownEventRegistryEntry → List UnknownEventRegistryEntry
  | [] => [⟨unknownHeader b, 1, some b.seq, some b.dt⟩]
  | e :: rest =>
    if e.header = unknownHeader b then { e with count := e.count + 1 } :: rest
    else e :: registerUnknown b rest

/-- What the loop of `parse_lines` carries from block to block. -/
structure ParseState where
  seenBlocks : List (Nat × Timestamp) := []
  duplicatesCount : Nat := 0
  ignoredCount : Nat := 0
  unknownRegistry : List UnknownEventRegistryEntry := []
  events : List ATMParsedEvent := []
  snapshots : List CassetteSnapshot := []
  warnings : List ParserWarning := []

def parseStep (fileName : Str) (st : ParseState) (b : Block) : ParseState :=
  if b.key ∈ st.seenBlocks then { st with duplicatesCount := st.duplicatesCount + 1 }
  else
    let st := { st with seenBlocks := st.seenBlocks ++ [b.key] }
    if isIgnored b.searchText then { st with ignoredCount := st.ignoredCount + 1 }
    else
      let st := { st with snapshots := st.snapshots ++ blockSnapshots fileName b }
      if b.recognised fileName then { st with events := st.events ++ [blockEvent fileName b] }
      else
        { st with
          unknownRegistry := registerUnknown b st.unknownRegistry
          warnings := st.warnings ++ [blockWarning fileName b] }

def parseBlocks (fileName : Str) (blocks : List Block) : ParseState :=
  blocks.foldl (parseStep fileName) {}

def cashSnap (s : CassetteSnapshot) : Bool :=
  s.remainingNotes.isSome || s.dispensedNotes.isSome || s.rejectedNotes.isSome

def parseLines (now : Nat → Timestamp) (lines : List Str) (fileName : Str) : ParserResult :=
  let blocks := groupBlocks now lines
  let st := parseBlocks fileName blocks
  { events := st.events
    cassetteSnapshots := st.snapshots
    warnings := st.warnings
    unknownEventsRegistry := st.unknownRegistry
    statistics :=
      { totalLinesRead := lines.length
        totalBlocks := blocks.length
        parsedEvents := st.events.length
        cassetteSnapshots := st.snapshots.length
        cashSnapshots := st.snapshots.countP cashSnap
        supervisorEvents := st.events.countP (fun e => e.eventCategory == .supervisor)
        warnings := st.warnings.length
        unknownEvents := st.unknownRegistry.length
        duplicatesIgnored := st.duplicatesCount
        ignoredBlocks := st.ignoredCount } }

def parseText (now : Nat → Timestamp) (text fileName : Str) : ParserResult :=
  parseLines now (splitlines text) fileName

end Words

end AtmMonitor.EjParser
