import AtmMonitor.EjParser
import AtmMonitor.Library.FirstWins

namespace AtmMonitor.ParsedBlocks

open Library.FirstWins PyText ParserModels SupervisorParser EjParser

def blockKey (b : Block) : Option (Nat × Timestamp) := some b.key

/-- The blocks that `parse_lines` looks at: of several with one sequence number and time, the
first. -/
def keptBlocks (blocks : List Block) : List Block := Library.FirstWins.record blockKey [] blocks

theorem filterMap_blockKey (log : List Block) : log.filterMap blockKey = log.map Block.key :=
  congrFun List.filterMap_eq_map log

theorem mem_seen (log : List Block) (b : Block) :
    b.key ∈ log.map Block.key ↔ known blockKey log (blockKey b) = true := by
  rw [blockKey, known_some, filterMap_blockKey]

theorem keptBlocks_subset (blocks : List Block) : ∀ b ∈ keptBlocks blocks, b ∈ blocks :=
  fun _ hb => (mem_record blockKey hb).resolve_left List.not_mem_nil

def Headed (b : Block) : Prop := ∃ line rest, b.lines = line :: rest ∧ (header? line).isSome

def Opened (now : Nat → Timestamp) (b : Block) : Prop :=
  ∃ h line body, header? line = some h ∧
    b = { openBlock now h line b.startIdx with lines := line :: body }

theorem Opened.headed {now : Nat → Timestamp} {b : Block} (hb : Opened now b) : Headed b := by
  obtain ⟨h, line, body, hh, hb⟩ := hb
  exact ⟨line, body, by rw [hb], by rw [hh]; rfl⟩

theorem groupFrom_opened (now : Nat → Timestamp) (idx : Nat) (current : Option Block)
    (lines : List Str) (h : ∀ b ∈ current.toList, Opened now b) :
    ∀ b ∈ groupFrom now idx current lines, Opened now b := by
  induction lines generalizing idx current with
  | nil => exact h
  | cons line rest ih =>
    rw [groupFrom]
    cases hh : header? (rstripNewline line) with
    | some hd =>
      intro b hb
      obtain hb | hb := List.mem_append.mp hb
      · exact h b hb
      · refine ih (idx + 1) (some (openBlock now hd (rstripNewline line) idx)) ?_ b hb
        intro b' hb'
        rw [Option.toList_some, List.mem_singleton] at hb'
        exact ⟨hd, rstripNewline line, [], hh, by rw [hb']; rfl⟩
    | none =>
      apply ih (idx + 1) (current.map (·.push (rstripNewline line)))
      cases current with
      | none => exact fun b hb => absurd hb List.not_mem_nil
      | some b0 =>
        intro b hb
        obtain ⟨hd, head, body, hhead, hb0⟩ := h b0 (by simp)
        rw [Option.map_some, Option.toList_some, List.mem_singleton] at hb
        exact ⟨hd, head, body ++ [rstripNewline line], hhead, by rw [hb, Block.push, hb0]; rfl⟩

theorem groupBlocks_opened (now : Nat → Timestamp) (lines : List Str) :
    ∀ b ∈ groupBlocks now lines, Opened now b :=
  groupFrom_opened now 0 none lines (fun _ hb => absurd hb List.not_mem_nil)

theorem groupBlocks_headed (now : Nat → Timestamp) (lines : List Str) :
    ∀ b ∈ groupBlocks now lines, Headed b :=
  fun b hb => (groupBlocks_opened now lines b hb).headed

theorem keptBlocks_nodup (blocks : List Block) : ((keptBlocks blocks).map Block.key).Nodup := by
  have hnil : (([] : List Block).filterMap blockKey).Nodup := List.nodup_nil
  have h := record_nodup blockKey blocks hnil
  rwa [filterMap_blockKey] at h

section Words

variable [Alnum]

omit [Alnum] in
theorem snapshotVerdict_ops {snaps snaps' : List CassetteSnapshot}
    (h : snaps.map (·.operationType) = snaps'.map (·.operationType)) (v : Verdict) :
    snaps.foldl snapshotVerdict v = snaps'.foldl snapshotVerdict v := by
  have hfold : ∀ snaps : List CassetteSnapshot,
      snaps.foldl snapshotVerdict v = (snaps.map (·.operationType)).foldl (fun v op =>
        snapshotVerdict v { cassetteNo := 0, cassetteStatus := .normal, operationType := op }) v := by
    intro snaps
    rw [List.foldl_map]
    rfl
  rw [hfold, hfold, h]

theorem blockVerdict_congr {fileName : Str} {b b' : Block}
    (htext : textVerdict b.searchText = textVerdict b'.searchText)
    (haction : supervisorAction b.lines = supervisorAction b'.lines)
    (hops : (blockSnapshots fileName b).map (·.operationType) =
      (blockSnapshots fileName b').map (·.operationType)) :
    blockVerdict fileName b = blockVerdict fileName b' := by
  have hbase : supervisorVerdict (textVerdict b.searchText)
      (SupervisorParser.parseBlock b.lines b.seq b.dt fileName b.startLine) =
        supervisorVerdict (textVerdict b'.searchText)
          (SupervisorParser.parseBlock b'.lines b'.seq b'.dt fileName b'.startLine) := by
    rw [htext, SupervisorParser.parseBlock, SupervisorParser.parseBlock, haction]
    cases supervisorAction b'.lines <;> rfl
  rw [blockVerdict, blockVerdict, hbase, snapshotVerdict_ops hops]

def emits (fileName : Str) (b : Block) : Bool := !isIgnored b.searchText && b.recognised fileName

def blockEvents (fileName : Str) (blocks : List Block) : List ATMParsedEvent :=
  (blocks.filter (emits fileName)).map (blockEvent fileName)

def blocksSnapshots (fileName : Str) (blocks : List Block) : List CassetteSnapshot :=
  (blocks.filter fun b => !isIgnored b.searchText).flatMap (blockSnapshots fileName)

/-- The state of the loop after it kept the blocks of the log. -/
structure Tracks (fileName : Str) (st : ParseState) (log : List Block) : Prop where
  seen : st.seenBlocks = log.map Block.key
  events : st.events = blockEvents fileName log
  snapshots : st.snapshots = blocksSnapshots fileName log

theorem tracks_step {fileName : Str} {st : ParseState} {log : List Block}
    (h : Tracks fileName st log) (b : Block) :
    Tracks fileName (parseStep fileName st b) (insertNew blockKey log b) := by
  by_cases hk : known blockKey log (blockKey b) = true
  · have hseen : b.key ∈ st.seenBlocks := by
      rw [h.seen]
      exact (mem_seen log b).mpr hk
    rw [insertNew_known blockKey hk, parseStep, if_pos hseen]
    exact ⟨h.seen, h.events, h.snapshots⟩
  · have hseen : b.key ∉ st.seenBlocks := by
      rw [h.seen]
      exact fun hm => hk ((mem_seen log b).mp hm)
    have hseen' : st.seenBlocks ++ [b.key] = (log ++ [b]).map Block.key := by
      rw [h.seen, List.map_append]
      rfl
    rw [insertNew_new blockKey (by simpa using hk), parseStep, if_neg hseen]
    cases hi : isIgnored b.searchText with
    | true =>
      simp only [if_true]
      refine ⟨hseen', ?_, ?_⟩
      · simp [blockEvents, emits, hi, h.events]
      · simp [blocksSnapshots, hi, h.snapshots]
    | false =>
      simp only [Bool.false_eq_true, if_false]
      cases hr : b.recognised fileName with
      | true =>
        simp only [if_true]
        refine ⟨hseen', ?_, ?_⟩
        · simp [blockEvents, emits, hi, hr, h.events]
        · simp [blocksSnapshots, hi, h.snapshots]
      | false =>
        simp only [Bool.false_eq_true, if_false]
        refine ⟨hseen', ?_, ?_⟩
        · simp [blockEvents, emits, hi, hr, h.events]
        · simp [blocksSnapshots, hi, h.snapshots]

theorem tracks_blocks {fileName : Str} {st : ParseState} {log : List Block}
    (h : Tracks fileName st log) (blocks : List Block) :
    Tracks fileName (blocks.foldl (parseStep fileName) st)
      (Library.FirstWins.record blockKey log blocks) := by
  induction blocks generalizing st log with
  | nil => exact h
  | cons b rest ih => exact ih (tracks_step h b)

/-- The events of `parse_lines` are those of the kept blocks, and so are the snapshots. -/
theorem parseLines_tracks (now : Nat → Timestamp) (lines : List Str) (fileName : Str) :
    (parseLines now lines fileName).events =
        blockEvents fileName (keptBlocks (groupBlocks now lines)) ∧
      (parseLines now lines fileName).cassetteSnapshots =
        blocksSnapshots fileName (keptBlocks (groupBlocks now lines)) := by
  have h : Tracks fileName (parseBlocks fileName (groupBlocks now lines))
      (keptBlocks (groupBlocks now lines)) := tracks_blocks ⟨rfl, rfl, rfl⟩ _
  exact ⟨h.events, h.snapshots⟩

theorem mem_parseLines {now : Nat → Timestamp} {lines : List Str} {fileName : Str}
    {ev : ATMParsedEvent} (h : ev ∈ (parseLines now lines fileName).events) :
    ∃ b ∈ keptBlocks (groupBlocks now lines), emits fileName b = true ∧
      blockEvent fileName b = ev := by
  rw [(parseLines_tracks now lines fileName).1, blockEvents, List.mem_map] at h
  obtain ⟨b, hb, rfl⟩ := h
  exact ⟨b, (List.mem_filter.mp hb).1, (List.mem_filter.mp hb).2, rfl⟩

theorem parseLines_numbered (now : Nat → Timestamp) (lines : List Str) (fileName : Str) :
    ∀ ev ∈ (parseLines now lines fileName).events, ev.eventSequenceNumber.isSome := by
  intro ev h
  obtain ⟨b, -, -, rfl⟩ := mem_parseLines h
  rfl

theorem parseLines_nodup (now : Nat → Timestamp) (lines : List Str) (fileName : Str) :
    ((parseLines now lines fileName).events.map
      fun ev => (ev.eventSequenceNumber, ev.eventTime)).Nodup := by
  rw [(parseLines_tracks now lines fileName).1, blockEvents, List.map_map]
  have hkeys : ((keptBlocks (groupBlocks now lines)).filter (emits fileName)).Pairwise
      fun b b' => b.key ≠ b'.key :=
    (List.pairwise_map.mp (keptBlocks_nodup _)).filter _
  refine List.pairwise_map.mpr (hkeys.imp fun {b b'} hne heq => hne ?_)
  simp only [Function.comp_apply, blockEvent, Prod.mk.injEq, Option.some.injEq] at heq
  exact Prod.ext heq.1 heq.2

end Words

end AtmMonitor.ParsedBlocks
