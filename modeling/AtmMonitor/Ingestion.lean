import AtmMonitor.AppendedLines
import AtmMonitor.Duplicates
import AtmMonitor.ParserService

namespace AtmMonitor.Ingestion

open Library.Lines PyText ParserModels DatabaseModels Repositories FileUtils EventProcessor Ledger
  Duplicates EjParser AppendedLines ParserService

/-- A pass finds this content in the file, and nothing fails. -/
structure Finds (env : ScanEnv) (content : Bytes) : Prop where
  size : env.size = content.length
  header : env.header = some content
  found : env.found = true
  reads : env.reads.head? = some ⟨some content.length, some content, []⟩
  finalHeader : env.finalHeader = some content
  raises : ∀ s, env.raises s = none
  txs : ∀ i, Undisturbed (env.txs i)

section Offset

variable (target : Target)

def offset (db : Database) : Nat :=
  ((getFileState db target.atmId target.filePath).map (·.lastReadOffset)).getD 0

/-- The hash that goes with a saved offset is the hash of the beginning of the content. -/
def Hashed (content : Bytes) (state : AgentFileState) : Prop :=
  0 < state.lastReadOffset →
    state.fileHash = target.sha256 (content.take (min 8192 state.lastReadOffset))

def Tracked (content : Bytes) (db : Database) : Prop :=
  ∀ state ∈ getFileState db target.atmId target.filePath, Hashed target content state

theorem tracked_empty (content : Bytes) : Tracked target content {} := fun _ h => by cases h

variable {target} {env : ScanEnv} {content : Bytes} {len : Nat} {db : Database}

theorem headerHash_of_prefix {n : Nat} (h : n ≤ len) :
    headerHash target (some (content.take len)) (min 8192 n) =
      target.sha256 (content.take (min 8192 n)) := by
  rw [headerHash, List.take_take, min_eq_left (by omega)]

theorem currentState_tracked (hfinds : Finds env (content.take len)) (hlen : len ≤ content.length)
    (htracked : Tracked target content db) (hoffset : offset target db ≤ len) :
    let state := currentState target env (getFileState db target.atmId target.filePath)
    state.lastReadOffset = offset target db ∧ Hashed target content state := by
  have hsize : env.size = len := by
    rw [hfinds.size, List.length_take, min_eq_left hlen]
  unfold Tracked at htracked
  unfold offset at hoffset ⊢
  cases hknown : getFileState db target.atmId target.filePath with
  | none =>
    simp only [currentState, Option.getD_none, Option.map_none]
    split_ifs
    · exact ⟨rfl, fun h => absurd h (lt_irrefl 0)⟩
    · exact ⟨rfl, fun h => absurd h (lt_irrefl 0)⟩
  | some state =>
    rw [hknown, Option.map_some, Option.getD_some] at hoffset
    have hhashed : Hashed target content state := htracked state hknown
    simp only [currentState, Option.getD_some, Option.map_some]
    by_cases hpos : 0 < state.lastReadOffset
    · have hhash : headerHash target env.header (prefixLen (some state)) = state.fileHash := by
        rw [prefixLen, if_pos hpos, hfinds.header, headerHash_of_prefix hoffset, hhashed hpos]
      have hstay : rotationDetected env state
          (headerHash target env.header (prefixLen (some state))) = false := by
        rw [rotationDetected, hhash, hsize]
        simp [hoffset]
      rw [if_neg (by simp [hstay])]
      exact ⟨rfl, hhashed⟩
    · have hzero : state.lastReadOffset = 0 := by omega
      split_ifs
      · exact ⟨hzero.symm, fun h => absurd h (lt_irrefl 0)⟩
      · exact ⟨rfl, hhashed⟩

theorem getFileState_saved {state : AgentFileState}
    (h : state.atmId = target.atmId ∧ state.filePath = target.filePath) (db : Database) :
    getFileState (saveFileState db state) target.atmId target.filePath = some state := by
  rw [← h.1, ← h.2, getFileState_saveFileState]

theorem offset_saved {state : AgentFileState}
    (h : state.atmId = target.atmId ∧ state.filePath = target.filePath) (db : Database) :
    offset target (saveFileState db state) = state.lastReadOffset := by
  rw [offset, getFileState_saved h]
  rfl

theorem tracked_saved {state : AgentFileState}
    (h : state.atmId = target.atmId ∧ state.filePath = target.filePath)
    (hhashed : Hashed target content state) (db : Database) :
    Tracked target content (saveFileState db state) := by
  intro s hs
  rw [getFileState_saved h, Option.mem_some_iff] at hs
  rwa [← hs]

end Offset

section Pass

variable [Alnum]

/-- One call of `process_file` that does not have to retry. -/
def pass (target : Target) (db : Database) (env : ScanEnv) : Database :=
  (processFile target true true [env] db).2

theorem pass_eq (target : Target) (db : Database) (env : ScanEnv) :
    pass target db env = (scan target env db).2 := by
  rw [pass, processFile, Bool.and_self, if_pos rfl, scanLoop]
  split
  · rename_i h
    rw [h, scanLoop]
    split_ifs <;> rfl
  · rfl

theorem scan_calm (target : Target) {env : ScanEnv} (h : ∀ s, env.raises s = none)
    (db : Database) :
    let state := currentState target env (getFileState db target.atmId target.filePath)
    let r := readLines target env state
    let result := parseResult target env r.1
    scan target env db =
      if env.size = state.lastReadOffset ∨ r.1 = [] then (.idle, saveFileState db state)
      else (.parsed r.2.1, saveFileState (processResult env.txs target.atmId result db).1
        (advancedState target env state r.2.1 result)) := by
  intro state r result
  have hopening : (env.raises .getFileState <|> env.raises .stat <|>
      (if (getFileState db target.atmId target.filePath).isNone then env.raises .createFileState
        else none)) = none := by
    simp [h]
  have hclosing : (env.raises .updateFileState <|> env.raises .commit) = none := by simp [h]
  simp only [scan]
  rw [hopening, hclosing, h .commit]

/-- A pass reads a chunk of the appended content, moves the offset behind it, and enters the events
of its blocks into the store. -/
theorem pass_reads {target : Target} {env : ScanEnv} {content : Bytes} {len : Nat} {db : Database}
    (hplain : Plain content) (hfinds : Finds env (content.take len)) (hlen : len ≤ content.length)
    (htracked : Tracked target content db) (hoffset : offset target db ≤ len) :
    ∃ chunk rest, (content.take len).drop (offset target db) = chunk ++ rest ∧
      (rest ≠ [] → target.maxBytes ≤ chunk.length) ∧
      offset target (pass target db env) = offset target db + chunk.length ∧
      Tracked target content (pass target db env) ∧
      (contents (pass target db env)).events =
        Library.FirstWins.record (machineKey target.atmId) (contents db).events
          ((sortedEvents (parseLines env.parseClock (fileLines chunk) target.fileName).events).map
            (ATMEvent.ofParsed 0 target.atmId)) := by
  have hplain' : Plain (content.take len) := fun b hb => hplain b (List.take_subset len content hb)
  have hlength : (content.take len).length = len := by rw [List.length_take, min_eq_left hlen]
  obtain ⟨hoff, hhashed⟩ := currentState_tracked hfinds hlen htracked hoffset
  set state := currentState target env (getFileState db target.atmId target.filePath) with hstate
  obtain ⟨chunk, rest, hread, hconsumes⟩ := readAppendedLines_consumes target.maxBytes
    hplain' (hoffset.trans hlength.ge) hfinds.reads
  have hsplit := hconsumes.split
  have hstop : rest ≠ [] → target.maxBytes ≤ chunk.length := by simpa using hconsumes.stops
  have hlines : readLines target env state =
      (fileLines chunk, offset target db + chunk.length, (content.take len).length) := by
    rw [readLines, hfinds.found, hoff, hread]
  refine ⟨chunk, rest, hsplit.symm, hstop, ?_⟩
  have hkey := currentState_key target env db
  have hscan := scan_calm target hfinds.raises db
  simp only [← hstate, hlines] at hkey hscan
  rw [pass_eq, hscan]
  split_ifs with hidle
  · have hnil : chunk = [] := by
      obtain hsize | hempty := hidle
      · rw [hfinds.size, hlength, hoff] at hsize
        rw [← hsize, List.drop_take_self, List.append_eq_nil_iff] at hsplit
        exact hsplit.1
      · rw [fileLines, List.map_eq_nil_iff] at hempty
        exact lines_eq_nil.mp hempty
    refine ⟨?_, tracked_saved hkey hhashed db, ?_⟩
    · rw [offset_saved hkey, hoff, hnil]
      rfl
    · rw [hnil]
      rfl
  · set result := parseResult target env (fileLines chunk) with hresult
    set stored := (processResult env.txs target.atmId result db).1 with hstored
    set saved := advancedState target env state (offset target db + chunk.length) result with hadv
    have hkey' : saved.atmId = target.atmId ∧ saved.filePath = target.filePath := hkey
    have hnew : offset target db + chunk.length ≤ len := by
      have := congrArg List.length hsplit
      rw [List.length_append, List.length_drop, hlength] at this
      omega
    have hhashed' : Hashed target content saved := by
      intro _
      rw [hadv, advancedState, hfinds.finalHeader, headerHash_of_prefix hnew]
    refine ⟨offset_saved hkey' stored, tracked_saved hkey' hhashed' stored, ?_⟩
    have hrun := processResult_undisturbed hfinds.txs target.atmId result db
    have hcontents : contents (saveFileState stored saved) = contents stored := rfl
    rw [hcontents, hstored, hrun, foldl_record_events]
    rfl

end Pass

end AtmMonitor.Ingestion
