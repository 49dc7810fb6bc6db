import AtmMonitor.EjParser
import AtmMonitor.EventProcessor
import AtmMonitor.FileUtils

namespace AtmMonitor.ParserService

open PyText ParserModels DatabaseModels Repositories FileUtils EventProcessor

/-- The statements of one pass of the loop of `process_file` that can raise. -/
inductive ScanStatement where
  | getFileState
  | stat
  | createFileState
  | updateFileState
  | commit
  deriving DecidableEq

/-- Database errors are retried, others are raised again. -/
inductive ScanError where
  | database | other
  deriving DecidableEq

/-- What one pass meets: the file as each of its reads finds it, the readings of the clock, the
statements that raise, the event transactions, and whether a failure opens the breaker. -/
structure ScanEnv where
  size : Nat
  modified : Timestamp
  header : Option Bytes
  rotatedHeader : Option Bytes := none
  found : Bool := true
  reads : List ReadAttempt
  finalHeader : Option Bytes
  parseClock : Nat → Timestamp := fun _ => 0
  now : Timestamp := 0
  raises : ScanStatement → Option ScanError := fun _ => none
  txs : Nat → TxEnv := fun _ => {}
  breakerOpens : Bool := false

inductive ScanEnd where
  | idle
  | parsed (offset : Nat)
  | databaseError
  | failed
  deriving DecidableEq

def ScanError.scanEnd : ScanError → ScanEnd
  | .database => .databaseError
  | .other => .failed

/-- The fixed surroundings: the digest of `hashlib`, the read cap, the machine and its file. -/
structure Target where
  sha256 : Bytes → Str
  maxBytes : Nat := 10 * 1024 * 1024
  atmId : Nat
  filePath : Str
  fileName : Str

section Scan

variable (target : Target) (env : ScanEnv)

/-- `_get_header_hash`: empty where the file is missing or cannot be read. -/
def headerHash (content : Option Bytes) (prefixLen : Nat) : Str :=
  match content with
  | some bs => target.sha256 (bs.take prefixLen)
  | none => []

def prefixLen : Option AgentFileState → Nat
  | some state => if state.lastReadOffset > 0 then min 8192 state.lastReadOffset else 8192
  | none => 8192

def newFileState (hash : Str) : AgentFileState where
  atmId := target.atmId
  filePath := target.filePath
  fileName := target.fileName
  lastFileSize := env.size
  lastReadOffset := 0
  lastModifiedTime := env.modified
  fileHash := hash
  isActive := true

/-- The file is shorter than the offset, or its beginning has changed. -/
def rotationDetected (state : AgentFileState) (hash : Str) : Bool :=
  decide (env.size < state.lastReadOffset) || (!state.fileHash.isEmpty && hash != state.fileHash)

def currentState (known : Option AgentFileState) : AgentFileState :=
  let hash := headerHash target env.header (prefixLen known)
  let state := known.getD (newFileState target env hash)
  if rotationDetected env state hash then
    { state with
      lastReadOffset := 0
      fileHash := headerHash target env.rotatedHeader 8192 }
  else state

def advancedState (state : AgentFileState) (newOffset : Nat) (result : ParserResult) :
    AgentFileState :=
  { state with
    lastReadOffset := newOffset
    lastFileSize := env.size
    lastModifiedTime := env.modified
    fileHash := headerHash target env.finalHeader (min 8192 newOffset)
    updatedOn := some env.now
    lastParsedEventTime := (result.events.getLast?.map (·.eventTime)) <|> state.lastParsedEventTime
    lastSequenceNumber :=
      (result.events.getLast?.bind (·.eventSequenceNumber)) <|> state.lastSequenceNumber }

def readLines (state : AgentFileState) : List Str × Nat × Nat :=
  readAppendedLines target.maxBytes env.found env.reads state.lastReadOffset

theorem currentState_key (db : Database) :
    let state := currentState target env (getFileState db target.atmId target.filePath)
    state.atmId = target.atmId ∧ state.filePath = target.filePath := by
  have hknown : ∀ known : Option AgentFileState,
      (∀ s, known = some s → s.atmId = target.atmId ∧ s.filePath = target.filePath) →
        (currentState target env known).atmId = target.atmId ∧
          (currentState target env known).filePath = target.filePath := by
    intro known h
    unfold currentState
    cases known with
    | none => simp only; split_ifs <;> exact ⟨rfl, rfl⟩
    | some s => simp only; split_ifs <;> exact h s rfl
  apply hknown _
  intro s hs
  simpa using List.find?_some hs

variable [Alnum]

def parseResult (lines : List Str) : ParserResult :=
  EjParser.parseLines env.parseClock lines target.fileName

/-- One pass of the loop of `process_file`. The events are committed by sessions of their own; what
the pass itself changes is one row of `AgentFileState`, in the session of the pass. -/
def scan (db : Database) : ScanEnd × Database :=
  let known := getFileState db target.atmId target.filePath
  let opening := env.raises .getFileState <|> env.raises .stat <|>
    (if known.isNone then env.raises .createFileState else none)
  match opening with
  | some e => (e.scanEnd, db)
  | none =>
    let state := currentState target env known
    let r := readLines target env state
    if env.size = state.lastReadOffset ∨ r.1 = [] then
      match env.raises .commit with
      | some e => (e.scanEnd, db)
      | none => (.idle, saveFileState db state)
    else
      let result := parseResult target env r.1
      let stored := (processResult env.txs target.atmId result db).1
      match env.raises .updateFileState <|> env.raises .commit with
      | some e => (e.scanEnd, stored)
      | none => (.parsed r.2.1, saveFileState stored (advancedState target env state r.2.1 result))

end Scan

variable [Alnum]

/-- The loop of `process_file`, as far as its passes are known: a database error is retried unless
it opens the breaker. -/
def scanLoop (target : Target) : List ScanEnv → Database → ScanEnd × Database
  | [], db => (.databaseError, db)
  | env :: rest, db =>
    match scan target env db with
    | (.databaseError, db') =>
      if env.breakerOpens then (.databaseError, db') else scanLoop target rest db'
    | r => r

def processFile (target : Target) (breakerClosed found : Bool) (envs : List ScanEnv)
    (db : Database) : ScanEnd × Database :=
  if breakerClosed && found then scanLoop target envs db else (.idle, db)

end AtmMonitor.ParserService
