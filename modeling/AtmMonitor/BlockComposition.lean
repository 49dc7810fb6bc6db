import AtmMonitor.BlockAccounts
import AtmMonitor.BlockPlaces

namespace AtmMonitor.BlockComposition

open Library.FirstWins PyText ParserModels EjParser ParsedBlocks ParseClock BlockPlaces BlockAccounts

def shiftBlock (n : Nat) (b : Block) : Block := { b with startIdx := n + b.startIdx }

def shiftEvent (n : Nat) (e : ATMParsedEvent) : ATMParsedEvent :=
  { e with startLineNumber := n + e.startLineNumber, endLineNumber := n + e.endLineNumber }

def shiftWarning (n : Nat) (w : ParserWarning) : ParserWarning :=
  { w with startLineNumber := n + w.startLineNumber, endLineNumber := n + w.endLineNumber }

theorem groupFrom_shift (now : Nat → Timestamp) (n idx : Nat) (current : Option Block)
    (lines : List Str) :
    groupFrom now (n + idx) (current.map (shiftBlock n)) lines =
      (groupFrom (fun i => now (n + i)) idx current lines).map (shiftBlock n) := by
  induction lines generalizing idx current with
  | nil => rw [groupFrom, groupFrom, ← Option.toList_map]
  | cons line rest ih =>
    rw [groupFrom, groupFrom, Nat.add_assoc]
    cases header? (rstripNewline line) with
    | some h =>
      simp only [List.map_append]
      rw [← ih (idx + 1) (some (openBlock (fun i => now (n + i)) h (rstripNewline line) idx)),
        Option.toList_map]
      rfl
    | none =>
      simp only
      rw [← ih (idx + 1) (current.map (·.push (rstripNewline line))), Option.map_map, Option.map_map]
      rfl

/-- The blocks of the second half are those that it has by itself, further down. -/
theorem groupBlocks_append (now : Nat → Timestamp) {xs ys : List Str}
    (h : ∀ line ∈ ys.head?, isHeader line = true) :
    groupBlocks now (xs ++ ys) =
      groupBlocks now xs ++ (groupBlocks (fun i => now (xs.length + i)) ys).map
        (shiftBlock xs.length) := by
  rw [groupBlocks, groupFrom_append now 0 none h, Nat.zero_add]
  congr 1
  exact groupFrom_shift now xs.length 0 none ys

section Words

variable [Alnum] (fileName : Str) (n : Nat) (b : Block)

theorem blockSnapshots_shift :
    blockSnapshots fileName (shiftBlock n b) = (blockSnapshots fileName b).map (renumbered (n + ·)) := by
  have hstart : (shiftBlock n b).startLine = n + b.startLine := Nat.add_assoc n b.startIdx 1
  rw [blockSnapshots, hstart]
  exact parseBlock_shift fileName (Nat.succ_pos b.startIdx) n b.lines

theorem blockVerdict_shift : blockVerdict fileName (shiftBlock n b) = blockVerdict fileName b := by
  rw [← blockVerdict_unplaced, ← blockVerdict_unplaced fileName b]
  rfl

theorem emits_shift : emits fileName (shiftBlock n b) = emits fileName b := by
  rw [emits, emits, Block.recognised, Block.recognised, blockVerdict_shift]
  rfl

theorem unhandled_shift : unhandled fileName (shiftBlock n b) = unhandled fileName b := by
  rw [unhandled, unhandled, Block.recognised, Block.recognised, blockVerdict_shift]
  rfl

omit [Alnum] in
theorem endLine_shift : (shiftBlock n b).endLine = n + b.endLine := by
  rw [BlockRanges.endLine_eq, BlockRanges.endLine_eq]
  exact Nat.add_assoc n b.startIdx b.lines.length

theorem blockEvent_shift :
    blockEvent fileName (shiftBlock n b) = shiftEvent n (blockEvent fileName b) := by
  have hstart : (shiftBlock n b).startLine = n + b.startLine := Nat.add_assoc n b.startIdx 1
  rw [blockEvent, blockVerdict_shift, hstart, endLine_shift]
  rfl

omit [Alnum] in
theorem blockWarning_shift :
    blockWarning fileName (shiftBlock n b) = shiftWarning n (blockWarning fileName b) := by
  have hstart : (shiftBlock n b).startLine = n + b.startLine := Nat.add_assoc n b.startIdx 1
  rw [blockWarning, hstart, endLine_shift]
  rfl

end Words

/-- The numbers and times that head a block of the lines. -/
def seenKeys (now : Nat → Timestamp) (lines : List Str) : List (Option Nat × Option Timestamp) :=
  (groupBlocks now lines).map optionKey

theorem known_kept (now : Nat → Timestamp) (lines : List Str) (b : Block) :
    known blockKey (keptBlocks (groupBlocks now lines)) (blockKey b) =
      decide (optionKey b ∈ seenKeys now lines) := by
  rw [Bool.eq_iff_iff, decide_eq_true_iff, ← mem_seen, List.mem_map, seenKeys, List.mem_map]
  constructor
  · rintro ⟨c, hc, hkey⟩
    rw [Block.key, Block.key, Prod.mk.injEq] at hkey
    exact ⟨c, keptBlocks_subset _ c hc, by rw [optionKey, optionKey, hkey.1, hkey.2]⟩
  · rintro ⟨c, hc, hkey⟩
    obtain ⟨c', hc', hsame⟩ := Library.EarliestWins.exists_kept Block.key hc
    exact ⟨c', hc', hsame.trans (optionKey_inj hkey)⟩

theorem keptBlocks_append (now : Nat → Timestamp) {xs ys : List Str}
    (h : ∀ line ∈ ys.head?, isHeader line = true) :
    keptBlocks (groupBlocks now (xs ++ ys)) =
      keptBlocks (groupBlocks now xs) ++
        ((keptBlocks (groupBlocks (fun i => now (xs.length + i)) ys)).filter
          fun b => decide (optionKey b ∉ seenKeys now xs)).map (shiftBlock xs.length) := by
  have hshift : ∀ blocks : List Block, keptBlocks (blocks.map (shiftBlock xs.length)) =
      (keptBlocks blocks).map (shiftBlock xs.length) := by
    intro blocks
    exact (record_map blockKey blockKey (shiftBlock xs.length) (fun _ => rfl) [] blocks).symm
  have hsplit : ∀ blocks blocks' : List Block, keptBlocks (blocks ++ blocks') =
      keptBlocks blocks ++ (keptBlocks blocks').filter
        fun b => !known blockKey (keptBlocks blocks) (blockKey b) := by
    intro blocks blocks'
    rw [keptBlocks, Library.FirstWins.record, List.foldl_append]
    exact record_append_fresh blockKey (keptBlocks blocks) blocks'
  rw [groupBlocks_append now h, hsplit, hshift, List.filter_map]
  congr 3
  funext b
  have hkey : blockKey (shiftBlock xs.length b) = blockKey b := rfl
  rw [Function.comp_apply, hkey, known_kept, decide_not]

theorem reports_moved {β : Type} {makes : Block → Bool} {move : β → β} (report : Block → β)
    (key : β → Option Nat × Option Timestamp) (n : Nat)
    (hmakes : ∀ b, makes (shiftBlock n b) = makes b)
    (hmove : ∀ b, report (shiftBlock n b) = move (report b))
    (hkey : ∀ b, key (report b) = optionKey b) (seen : List (Option Nat × Option Timestamp))
    (blocks : List Block) :
    (((blocks.filter fun b => decide (optionKey b ∉ seen)).map (shiftBlock n)).filter makes).map
        report =
      (((blocks.filter makes).map report).filter fun r => decide (key r ∉ seen)).map move := by
  have hreport : report ∘ shiftBlock n = move ∘ report := by
    funext b
    exact hmove b
  have hsame : makes ∘ shiftBlock n = makes := by
    funext b
    exact hmakes b
  have hseen : (fun r => decide (key r ∉ seen)) ∘ report = fun b => decide (optionKey b ∉ seen) := by
    funext b
    rw [Function.comp_apply, hkey]
  rw [List.filter_map, List.map_map, hreport, hsame, List.filter_map, List.map_map, hseen,
    List.filter_filter, List.filter_filter]
  simp only [Bool.and_comm]

section Words

variable [Alnum] (fileName : Str)

/-- A parse in two halves, the second from a header on, with one reading of the clock for each
header in all three parses: it reports what the first half reports and
then what the second reports by itself, without the blocks whose number and time head a block of
the first half, further down by the lines of the first half. -/
theorem parseLines_append (now : Nat → Timestamp) (xs ys : List Str)
    (h : ∀ line ∈ ys.head?, isHeader line = true) :
    let whole := parseLines now (xs ++ ys) fileName
    let front := parseLines now xs fileName
    let later := fun i => now (xs.length + i)
    let back := parseLines later ys fileName
    let seen := seenKeys now xs
    let backBlocks := (keptBlocks (groupBlocks later ys)).filter fun b => !isIgnored b.searchText
    whole.events = front.events ++
        (back.events.filter fun e => decide (eventKey e ∉ seen)).map (shiftEvent xs.length) ∧
      whole.warnings = front.warnings ++
        (back.warnings.filter fun w => decide (warningKey w ∉ seen)).map (shiftWarning xs.length) ∧
      back.cassetteSnapshots = backBlocks.flatMap (blockSnapshots fileName) ∧
      whole.cassetteSnapshots = front.cassetteSnapshots ++
        ((backBlocks.filter fun b => decide (optionKey b ∉ seen)).flatMap
          (blockSnapshots fileName)).map (renumbered (xs.length + ·)) := by
  intro whole front later back seen backBlocks
  have hkept : keptBlocks (groupBlocks now (xs ++ ys)) = _ := keptBlocks_append now h
  have hwhole := recounts_parse fileName (groupBlocks now (xs ++ ys))
  have hfront := recounts_parse fileName (groupBlocks now xs)
  have hback := recounts_parse fileName (groupBlocks later ys)
  refine ⟨?_, ?_, hback.snapshots, ?_⟩
  · have hmoved := reports_moved (blockEvent fileName) eventKey xs.length
      (emits_shift fileName xs.length) (blockEvent_shift fileName xs.length) (fun _ => rfl) seen
      (keptBlocks (groupBlocks later ys))
    have hfrontEvents : front.events = _ := hfront.events
    have hbackEvents : back.events = _ := hback.events
    rw [show whole.events = _ from hwhole.events, hkept, blockEvents, List.filter_append,
      List.map_append, hmoved, hfrontEvents, hbackEvents, blockEvents, blockEvents]
  · have hmoved := reports_moved (blockWarning fileName) warningKey xs.length
      (unhandled_shift fileName xs.length) (blockWarning_shift fileName xs.length) (fun _ => rfl)
      seen (keptBlocks (groupBlocks later ys))
    have hfrontWarnings : front.warnings = _ := hfront.warnings
    have hbackWarnings : back.warnings = _ := hback.warnings
    rw [show whole.warnings = _ from hwhole.warnings, hkept, List.filter_append, List.map_append,
      hmoved, hfrontWarnings, hbackWarnings]
  · have hfrontSnapshots : front.cassetteSnapshots = _ := hfront.snapshots
    have hsnaps : (fun b => blockSnapshots fileName (shiftBlock xs.length b)) =
        fun b => (blockSnapshots fileName b).map (renumbered (xs.length + ·)) := by
      funext b
      exact blockSnapshots_shift fileName xs.length b
    rw [show whole.cassetteSnapshots = _ from hwhole.snapshots, hkept, blocksSnapshots,
      List.filter_append, List.flatMap_append, hfrontSnapshots, blocksSnapshots, List.filter_map,
      List.flatMap_map, hsnaps, List.map_flatMap]
    simp only [backBlocks, List.filter_filter, Function.comp_def, Bool.and_comm]
    rfl

end Words

def frontLines : List Str := ["*5*15/07/2026*08:52*".toList, "TOP CASSETTE REMOVED".toList]

def backLines : List Str :=
  ["*5*15/07/2026*08:52*".toList, "SST OFF-LINE".toList, "*6*15/07/2026*08:53*".toList,
    "TOP CASSETTE INSERTED".toList, "*7*15/07/2026*08:54*".toList, "PAPER OUT".toList]

/-- The first block of the second half is dropped; the others follow, two lines further down. -/
theorem parseLines_append_repeated :
    let whole := @parseLines asciiAlnum (fun _ => 0) (frontLines ++ backLines) []
    let back := @parseLines asciiAlnum (fun _ => 0) backLines []
    whole.events.map (fun e => (e.eventSequenceNumber, e.startLineNumber)) = [(some 5, 1), (some 6, 5)] ∧
      whole.warnings.map (fun w => (w.sequenceNumber, w.startLineNumber)) = [(some 7, 7)] ∧
      back.cassetteSnapshots.map (·.startLineNumber) = [4] ∧
      whole.cassetteSnapshots.map (·.startLineNumber) = [2, 6] := by
  obtain ⟨hevents, hwarnings, hback, hwhole⟩ :=
    @parseLines_append asciiAlnum [] (fun _ => 0) frontLines backLines (by decide)
  intro whole back
  rw [hevents, hwarnings, hwhole]
  refine ⟨?_, ?_, ?_, ?_⟩
  · decide +kernel
  · decide +kernel
  · have hsnapshots : back.cassetteSnapshots = _ := hback
    rw [hsnapshots]
    decide +kernel
  · decide +kernel

end AtmMonitor.BlockComposition
