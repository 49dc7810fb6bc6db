import AtmMonitor.EventPatterns

namespace AtmMonitor.CassetteParser

open Library.Regex PyText ParserModels EventPatterns

def positionNumber (pos : Str) : Nat := (CASSETTE_POSITION_MAP.lookup (upper pos)).getD 0

def groupText (m : Cursor Char) (name : String) : Str := (m.group name).getD []

def actionSnapshot (op : OperationType) (status : CassetteStatus) (fileName : Str) (lineNo : Nat)
    (m : Cursor Char) : List CassetteSnapshot :=
  let cNo := positionNumber (groupText m "1")
  if cNo > 0 then
    [{ cassetteNo := cNo, cassetteStatus := status, operationType := op,
       sourceFileName := fileName, startLineNumber := lineNo, endLineNumber := lineNo }]
  else []

def actionLine (fileName line : Str) (lineNo : Nat) : List CassetteSnapshot :=
  match matchStart CASSETTE_REMOVED_PATTERN (strip line) with
  | some m => actionSnapshot .cassetteRemoved .missing fileName lineNo m
  | none =>
    match matchStart CASSETTE_INSERTED_PATTERN (strip line) with
    | some m => actionSnapshot .cassetteInserted .normal fileName lineNo m
    | none => []

def actionSnapshots (fileName : Str) (startLine : Nat) (lines : List Str) : List CassetteSnapshot :=
  (lines.zipIdx startLine).flatMap fun p => actionLine fileName p.1 p.2

def infoStatus (raw : Str) : CassetteStatus :=
  if raw = "OK".toList then .normal
  else if raw = "MISSING".toList then .missing
  else if raw = "LOW".toList then .low
  else if raw = "EMPTY".toList then .empty
  else if raw = "FAULT".toList then .fault
  else .unknown

section Words

variable [Alnum]

def infoLine (fileName line : Str) (lineNo : Nat) : List CassetteSnapshot :=
  match matchStart CASSETTE_INFO_ROW (strip line) with
  | none => []
  | some m =>
    let cNo := positionNumber (groupText m "1")
    if cNo > 0 then
      [{ cassetteNo := cNo, cassetteStatus := infoStatus (upper (groupText m "status")),
         denomination := some (int (groupText m "val")), currencyCode := m.group "cur",
         operationType := .balanceUpdate, sourceFileName := fileName,
         startLineNumber := lineNo, endLineNumber := lineNo }]
    else []

def hasCassetteInfo (lines : List Str) : Bool :=
  lines.any fun line => contains line "CASSETTE INFORMATION".toList

def infoSnapshots (fileName : Str) (startLine : Nat) (lines : List Str) : List CassetteSnapshot :=
  (lines.zipIdx startLine).flatMap fun p => infoLine fileName p.1 p.2

end Words

structure CashTotals where
  denoms : List Nat := []
  dispensed : List Nat := []
  rejected : List Nat := []
  remaining : List Nat := []
  deriving DecidableEq

def rowValues (m : Cursor Char) : List Nat := (split (groupText m "values")).map int

def totalsLine (t : CashTotals) (line : Str) : CashTotals :=
  match search DENOMINATION_ROW_PATTERN (strip line) with
  | some m => { t with denoms := rowValues m }
  | none =>
    match search DISPENSED_ROW_PATTERN (strip line) with
    | some m => { t with dispensed := rowValues m }
    | none =>
      match search REJECTED_ROW_PATTERN (strip line) with
      | some m => { t with rejected := rowValues m }
      | none =>
        match search REMAINING_ROW_PATTERN (strip line) with
        | some m => { t with remaining := rowValues m }
        | none => t

def cashTotals (lines : List Str) : CashTotals := lines.foldl totalsLine {}

def CashTotals.present (t : CashTotals) : Bool :=
  !t.denoms.isEmpty || !t.dispensed.isEmpty || !t.rejected.isEmpty || !t.remaining.isEmpty

def CashTotals.numCassettes (t : CashTotals) : Nat :=
  max (max t.denoms.length t.dispensed.length) (max t.rejected.length t.remaining.length)

def totalStatus : Option Nat → CassetteStatus
  | some n => if n = 0 then .empty else if n ≤ 50 then .low else .normal
  | none => .normal

def totalSnapshot (t : CashTotals) (fileName : Str) (startLine endLine idx : Nat) :
    CassetteSnapshot :=
  let denom := t.denoms[idx]?
  let rem := t.remaining[idx]?
  { cassetteNo := idx + 1
    cassetteStatus := totalStatus rem
    denomination := denom.map Int.ofNat
    dispensedNotes := t.dispensed[idx]?.map Int.ofNat
    rejectedNotes := t.rejected[idx]?.map Int.ofNat
    remainingNotes := rem.map Int.ofNat
    cashAmount := denom.bind fun d => rem.map fun r => (d * r : Int)
    operationType := .balanceUpdate
    sourceFileName := fileName
    startLineNumber := startLine
    endLineNumber := endLine }

def totalSnapshots (t : CashTotals) (fileName : Str) (startLine endLine : Nat) :
    List CassetteSnapshot :=
  (List.range t.numCassettes).map (totalSnapshot t fileName startLine endLine)

inductive Section where
  | dispensed | remaining | rejected
  deriving DecidableEq

def isCleared (lines : List Str) : Bool :=
  lines.any fun line => contains line "CASH COUNTS CLEARED".toList

def isAdded (lines : List Str) : Bool := lines.any fun line => contains line "CASH ADDED".toList

def applyCount (added : Bool) (sect : Option Section) (val : Nat) (s : CassetteSnapshot) :
    CassetteSnapshot :=
  if added then
    { s with loadedNotes := some val, remainingNotes := some val, cassetteStatus := .normal }
  else
    match sect with
    | some .dispensed => { s with dispensedNotes := some val }
    | some .remaining =>
      { s with
        remainingNotes := some val
        cassetteStatus := if val = 0 then .empty else if val ≤ 50 then .low else s.cassetteStatus }
    | some .rejected => { s with rejectedNotes := some val }
    | none => s

/-- Update the first snapshot of the cassette in place, appending one if there is none. -/
def modifyCassette (fresh : CassetteSnapshot) (f : CassetteSnapshot → CassetteSnapshot) :
    List CassetteSnapshot → List CassetteSnapshot
  | [] => [f fresh]
  | s :: rest =>
    if s.cassetteNo = fresh.cassetteNo then f s :: rest else s :: modifyCassette fresh f rest

def freshCount (op : OperationType) (fileName : Str) (startLine endLine cNo : Nat) :
    CassetteSnapshot :=
  { cassetteNo := cNo, cassetteStatus := .normal, operationType := op, sourceFileName := fileName,
    startLineNumber := startLine, endLineNumber := endLine }

structure CountMode where
  added : Bool
  op : OperationType
  fileName : Str
  startLine : Nat
  endLine : Nat

def rowCounts (m : Cursor Char) : List Nat :=
  (["t1", "t2", "t3", "t4"].filterMap m.group).map int

def countRow (mode : CountMode) (sect : Option Section) (vals : List Nat)
    (snaps : List CassetteSnapshot) : List CassetteSnapshot :=
  (vals.zipIdx 1).foldl (fun acc p =>
    modifyCassette (freshCount mode.op mode.fileName mode.startLine mode.endLine p.2)
      (applyCount mode.added sect p.1) acc) snaps

def countLine (mode : CountMode) (st : Option Section × List CassetteSnapshot) (line : Str) :
    Option Section × List CassetteSnapshot :=
  let stripped := strip line
  if found CASH_COUNTS_CLEARED_CASH_DISPENSED stripped then (some .dispensed, st.2)
  else if found CASH_COUNTS_CLEARED_CASH_REMAINING stripped then (some .remaining, st.2)
  else if found CASH_COUNTS_CLEARED_CASH_REJECTED stripped then (some .rejected, st.2)
  else
    match search CASH_ROW_TYPE_PATTERN stripped with
    | some m => (st.1, countRow mode st.1 (rowCounts m) st.2)
    | none => st

def countSnapshots (mode : CountMode) (lines : List Str) (snaps : List CassetteSnapshot) :
    List CassetteSnapshot :=
  (lines.foldl (countLine mode) (none, snaps)).2

def countMode (fileName : Str) (startLine : Nat) (lines : List Str) : CountMode where
  added := isAdded lines
  op := if isCleared lines then .cashCountsCleared else .cashAdded
  fileName := fileName
  startLine := startLine
  endLine := startLine + lines.length - 1

section Words

variable [Alnum]

/-- The snapshots of `CassetteParser.parse_block`. -/
def parseBlock (lines : List Str) (fileName : Str) (startLine : Nat) : List CassetteSnapshot :=
  let actions := actionSnapshots fileName startLine lines
  let known :=
    if hasCassetteInfo lines then actions ++ infoSnapshots fileName startLine lines else actions
  if hasCassetteInfo lines && !known.isEmpty then known
  else
    let t := cashTotals lines
    if t.present then
      known ++ totalSnapshots t fileName startLine (startLine + lines.length - 1)
    else if isCleared lines || isAdded lines then
      countSnapshots (countMode fileName startLine lines) lines known
    else known

end Words

end AtmMonitor.CassetteParser
