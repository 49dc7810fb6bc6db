import AtmMonitor.BlockComposition
import AtmMonitor.BlockPartition
import AtmMonitor.SnapshotOwners

namespace AtmMonitor.RawEvents

open Library.FirstWins PyText ParserModels EjParser ParsedBlocks ParseClock BlockPlaces BlockAccounts
  BlockRanges BlockComposition SnapshotRouting SnapshotOwners

def rawLines (raw : Str) : List Str := raw.splitOn '\n'

/-- A line of a file, which has no newline but at its end. -/
def OneLine (line : Str) : Prop := '\n' ∉ rstripNewline line

instance (line : Str) : Decidable (OneLine line) :=
  inferInstanceAs (Decidable ('\n' ∉ rstripNewline line))

theorem rawLines_join {ls : List Str} (h : ∀ l ∈ ls, '\n' ∉ l) (hne : ls ≠ []) :
    rawLines (joinLines ls) = ls :=
  List.splitOn_intercalate '\n' h hne

theorem lines_stripped {now : Nat → Timestamp} {lines : List Str} {b : Block}
    (hb : b ∈ groupBlocks now lines) : ∀ l ∈ b.lines, ∃ line ∈ lines, rstripNewline line = l := by
  intro l hl
  obtain ⟨i, -, hslice⟩ := Library.Sections.slice_of_mem (place_mem hb)
  have hmem := List.mem_of_mem_drop (hslice.subset hl)
  exact List.mem_map.mp hmem

theorem lines_fixed {now : Nat → Timestamp} {lines : List Str} {b : Block}
    (hb : b ∈ groupBlocks now lines) : b.lines.map rstripNewline = b.lines := by
  rw [List.map_congr_left, List.map_id]
  intro l hl
  obtain ⟨line, -, rfl⟩ := lines_stripped hb l hl
  exact rstripNewline_idem line

theorem rawLines_block {now : Nat → Timestamp} {lines : List Str} (h : ∀ line ∈ lines, OneLine line)
    {b : Block} (hb : b ∈ groupBlocks now lines) : rawLines b.rawBlock = b.lines := by
  obtain ⟨line, body, hlines, -⟩ := groupBlocks_headed now lines b hb
  apply rawLines_join
  · intro l hl
    obtain ⟨line, hline, rfl⟩ := lines_stripped hb l hl
    exact h line hline
  · rw [hlines]
    exact List.cons_ne_nil line body

theorem groupFrom_body (now : Nat → Timestamp) (idx : Nat) (b : Block) {body : List Str}
    (hfixed : body.map rstripNewline = body) (hbody : ∀ l ∈ body, header? l = none) :
    groupFrom now idx (some b) body = [{ b with lines := b.lines ++ body }] := by
  induction body generalizing idx b with
  | nil => rw [groupFrom, List.append_nil]; rfl
  | cons l rest ih =>
    obtain ⟨hl, hrest⟩ := List.cons.inj hfixed
    rw [groupFrom, hl, hbody l (by simp)]
    simp only [Option.map_some]
    rw [ih (idx + 1) (b.push l) hrest fun l' hl' => hbody l' (List.mem_cons_of_mem l hl')]
    simp [Block.push]

theorem groupBlocks_lines {now now' : Nat → Timestamp} {lines : List Str} {b : Block}
    (hb : b ∈ groupBlocks now lines) (hnow : now' 0 = now b.startIdx) :
    groupBlocks now' b.lines = [unplaced b] := by
  have hfixed := lines_fixed hb
  obtain ⟨line', body', hlines', -, hbody⟩ := Library.Sections.mem_sections (place_mem hb)
  obtain ⟨h, line, body, hh, hopen⟩ := groupBlocks_opened now lines b hb
  have hlines : b.lines = line :: body := by rw [hopen]
  have hsame : line :: body = line' :: body' := by rw [← hlines]; exact hlines'
  obtain ⟨rfl, rfl⟩ := List.cons.inj hsame
  rw [hlines, List.map_cons] at hfixed
  obtain ⟨hline, hbodyFixed⟩ := List.cons.inj hfixed
  have hnone : ∀ l ∈ body, header? l = none := by
    intro l hl
    simpa [isHeaderText] using hbody l hl
  rw [hlines, groupBlocks, groupFrom, hline, hh]
  simp only [Option.toList_none, List.nil_append]
  rw [groupFrom_body now' 1 _ hbodyFixed hnone, unplaced, hopen, openBlock, hnow]
  rfl

theorem shift_unplaced (b : Block) : shiftBlock b.startIdx (unplaced b) = b := rfl

theorem parseLines_blocks {now : Nat → Timestamp} {lines : List Str} {blocks : List Block}
    (h : groupBlocks now lines = blocks) (hnodup : keptBlocks blocks = blocks) [Alnum]
    (fileName : Str) : let r := parseLines now lines fileName
    r.events = (blocks.filter (emits fileName)).map (blockEvent fileName) ∧
      r.warnings = (blocks.filter (unhandled fileName)).map (blockWarning fileName) ∧
      r.cassetteSnapshots =
        (blocks.filter fun b => !isIgnored b.searchText).flatMap (blockSnapshots fileName) := by
  intro r
  have hrecounts := recounts_parse fileName (groupBlocks now lines)
  rw [h, hnodup] at hrecounts
  have hparse : r = parseLines now lines fileName := rfl
  rw [parseLines, h] at hparse
  rw [hparse]
  exact ⟨hrecounts.events, hrecounts.warnings, hrecounts.snapshots⟩

section Words

variable [Alnum] {now now' : Nat → Timestamp} {lines : List Str} {b : Block} (fileName : Str)

theorem parseLines_block (hb : b ∈ processedBlocks now lines) (hnow : now' 0 = now b.startIdx) :
    let again := parseLines now' b.lines fileName
    again.events.map (shiftEvent b.startIdx) =
        ([b].filter (emits fileName)).map (blockEvent fileName) ∧
      again.warnings.map (shiftWarning b.startIdx) =
        ([b].filter (unhandled fileName)).map (blockWarning fileName) ∧
      again.cassetteSnapshots.map (renumbered (b.startIdx + ·)) = blockSnapshots fileName b := by
  intro again
  obtain ⟨hkept, hproc⟩ := List.mem_filter.mp hb
  obtain ⟨hevents, hwarnings, hsnaps⟩ :=
    parseLines_blocks (groupBlocks_lines (grouped_of_processed hb) hnow) rfl fileName
  have hmoved : ([unplaced b].map (shiftBlock b.startIdx)) = [b] := rfl
  have hall : ([unplaced b].filter fun b => !isIgnored b.searchText) = [unplaced b] :=
    List.filter_eq_self.mpr fun c hc => by rw [List.mem_singleton.mp hc]; exact hproc
  have hemits : emits fileName ∘ shiftBlock b.startIdx = emits fileName :=
    funext (emits_shift fileName b.startIdx)
  have hunhandled : unhandled fileName ∘ shiftBlock b.startIdx = unhandled fileName :=
    funext (unhandled_shift fileName b.startIdx)
  refine ⟨?_, ?_, ?_⟩
  · rw [show again.events = _ from hevents, ← hmoved, List.filter_map, hemits, List.map_map,
      List.map_map]
    congr 1
    exact funext fun c => (blockEvent_shift fileName b.startIdx c).symm
  · rw [show again.warnings = _ from hwarnings, ← hmoved, List.filter_map, hunhandled, List.map_map,
      List.map_map]
    congr 1
    exact funext fun c => (blockWarning_shift fileName b.startIdx c).symm
  · rw [show again.cassetteSnapshots = _ from hsnaps, hall, List.flatMap_singleton,
      ← blockSnapshots_shift, shift_unplaced]

def snapshotsIn (range : Nat × Nat) (snaps : List CassetteSnapshot) : List CassetteSnapshot :=
  snaps.filter fun s => decide (range.1 ≤ s.startLineNumber ∧ s.endLineNumber ≤ range.2)

theorem snapshotsIn_block (hb : b ∈ processedBlocks now lines) :
    snapshotsIn (b.startLine, b.endLine) (parseLines now lines fileName).cassetteSnapshots =
      blockSnapshots fileName b := by
  have hranges := (groupBlocks_ranges now lines).2
  rw [snapshotsIn, snapshots_processed,
    filter_flatMap_owner hb (processedBlocks_nodup now lines)]
  · rw [List.filter_eq_self]
    intro s hs
    have hwithin := blockSnapshots_within fileName (hranges b (grouped_of_processed hb)) s hs
    rw [decide_eq_true_iff]
    exact ⟨hwithin.start, hwithin.stop⟩
  · intro b' hb' s hs hin
    rw [decide_eq_true_iff] at hin
    have hwithin := blockSnapshots_within fileName (hranges b' (grouped_of_processed hb')) s hs
    obtain ⟨hstart, hordered, hstop⟩ := hwithin
    by_contra hne
    have hapart := blocks_apart (grouped_of_processed hb') (grouped_of_processed hb) hne
    simp only [Precedes] at hapart
    omega

variable (now now' lines)

/-- An event and a warning can be rebuilt from the raw text that is stored with them: parsed as a
file of its own, with the same reading of the clock at its header, the text gives back the event
with all its fields, or the warning, and the snapshots in its lines, and nothing else. -/
theorem rawEvent_reparsed (h : ∀ line ∈ lines, OneLine line) :
    let r := parseLines now lines fileName
    (∀ e ∈ r.events, now' 0 = now (e.startLineNumber - 1) →
      let again := parseLines now' (rawLines e.rawEvent) fileName
      again.events.map (shiftEvent (e.startLineNumber - 1)) = [e] ∧ again.warnings = [] ∧
        again.cassetteSnapshots.map (renumbered (e.startLineNumber - 1 + ·)) =
          snapshotsIn (eventRange e) r.cassetteSnapshots) ∧
      ∀ w ∈ r.warnings, now' 0 = now (w.startLineNumber - 1) →
        let again := parseLines now' (rawLines w.rawEvent) fileName
        again.events = [] ∧ again.warnings.map (shiftWarning (w.startLineNumber - 1)) = [w] ∧
          again.cassetteSnapshots.map (renumbered (w.startLineNumber - 1 + ·)) =
            snapshotsIn (warningRange w) r.cassetteSnapshots := by
  intro r
  refine ⟨?_, ?_⟩
  · intro e he hnow again
    obtain ⟨b, hkept, hemits, rfl⟩ := mem_parseLines he
    have hproc : (!isIgnored b.searchText) = true := (Bool.and_eq_true_iff.mp hemits).1
    have hb : b ∈ processedBlocks now lines := List.mem_filter.mpr ⟨hkept, hproc⟩
    have hraw : again = parseLines now' b.lines fileName := by
      rw [← rawLines_block h (grouped_of_processed hb)]
      rfl
    have hunhandled : unhandled fileName b = false := by
      rw [emits, hproc, Bool.true_and] at hemits
      rw [unhandled, hemits, Bool.not_true, Bool.and_false]
    obtain ⟨hevents, hwarnings, hsnaps⟩ := parseLines_block fileName hb hnow
    refine ⟨?_, ?_, ?_⟩
    · rw [hraw]
      exact hevents.trans (by rw [List.filter_cons_of_pos hemits]; rfl)
    · rw [List.filter_cons_of_neg (by simp [hunhandled]), List.filter_nil, List.map_nil,
        List.map_eq_nil_iff] at hwarnings
      rw [hraw, hwarnings]
    · rw [hraw]
      exact hsnaps.trans (snapshotsIn_block fileName hb).symm
  · intro w hw hnow again
    have hreports : r.warnings = _ := (recounts_parse fileName (groupBlocks now lines)).warnings
    rw [hreports, List.mem_map] at hw
    obtain ⟨b, hb, rfl⟩ := hw
    obtain ⟨hkept, hunhandled⟩ := List.mem_filter.mp hb
    have hproc : (!isIgnored b.searchText) = true := (Bool.and_eq_true_iff.mp hunhandled).1
    have hb : b ∈ processedBlocks now lines := List.mem_filter.mpr ⟨hkept, hproc⟩
    have hraw : again = parseLines now' b.lines fileName := by
      rw [← rawLines_block h (grouped_of_processed hb)]
      rfl
    have hemits : emits fileName b = false := by
      rw [unhandled, hproc, Bool.true_and, Bool.not_eq_true'] at hunhandled
      rw [emits, hunhandled, Bool.and_false]
    obtain ⟨hevents, hwarnings, hsnaps⟩ := parseLines_block fileName hb hnow
    refine ⟨?_, ?_, ?_⟩
    · rw [List.filter_cons_of_neg (by simp [hemits]), List.filter_nil, List.map_nil,
        List.map_eq_nil_iff] at hevents
      rw [hraw, hevents]
    · rw [hraw]
      exact hwarnings.trans (by rw [List.filter_cons_of_pos hunhandled]; rfl)
    · rw [hraw]
      exact hsnaps.trans (snapshotsIn_block fileName hb).symm

def archive (events : List ATMParsedEvent) : List Str := events.flatMap fun e => rawLines e.rawEvent

def unplacedEvent (e : ATMParsedEvent) : ATMParsedEvent :=
  { e with startLineNumber := 0, endLineNumber := 0 }

def eventBlocks (now : Nat → Timestamp) (lines : List Str) : List Block :=
  (keptBlocks (groupBlocks now lines)).filter (emits fileName)

variable {now now' lines}

omit [Alnum] in
theorem keptBlocks_self {blocks : List Block} (h : (blocks.map Block.key).Nodup) :
    keptBlocks blocks = blocks := by
  have hlength := keptBlocks_length blocks
  rw [List.toFinset_card_of_nodup h, List.length_map] at hlength
  exact (keptBlocks_sublist blocks).eq_of_length hlength

omit [Alnum] in
theorem isHeader_first (hb : b ∈ groupBlocks now lines) :
    ∀ line ∈ b.lines.head?, isHeader line = true := by
  obtain ⟨line, body, hlines, hhead⟩ := groupBlocks_headed now lines b hb
  have hfixed := lines_fixed hb
  rw [hlines, List.map_cons] at hfixed
  intro l hl
  rw [hlines, List.head?_cons, Option.mem_some_iff] at hl
  rw [← hl, isHeader, (List.cons.inj hfixed).1]
  exact hhead

omit [Alnum] in
theorem dated_blocks {blocks : List Block} (hblocks : ∀ b ∈ blocks, b ∈ groupBlocks now lines)
    (hd : Dated lines) : Dated (blocks.flatMap (·.lines)) := by
  intro l hl h hh
  obtain ⟨b, hb, hl⟩ := List.mem_flatMap.mp hl
  obtain ⟨line, hline, rfl⟩ := lines_stripped (hblocks b hb) l hl
  rw [rstripNewline_idem] at hh
  exact hd line hline h hh

omit [Alnum] in
theorem journal_block (hb : b ∈ groupBlocks now lines) (hd : Dated lines) :
    journal b.lines = [unplaced b] := by
  have hone : Dated b.lines := by
    have hall : ∀ b' ∈ [b], b' ∈ groupBlocks now lines := by simpa using hb
    have h := dated_blocks hall hd
    rwa [List.flatMap_singleton] at h
  rw [← groupBlocks_unplaced hone rfl fun _ => now b.startIdx, groupBlocks_lines hb rfl]
  rfl

omit [Alnum] in
/-- Blocks put one after another are grouped into the same blocks. -/
theorem journal_blocks {blocks : List Block} (hblocks : ∀ b ∈ blocks, b ∈ groupBlocks now lines)
    (hd : Dated lines) : journal (blocks.flatMap (·.lines)) = blocks.map unplaced := by
  induction blocks with
  | nil => rfl
  | cons b rest ih =>
    have hrest : ∀ b' ∈ rest, b' ∈ groupBlocks now lines :=
      fun b' hb' => hblocks b' (List.mem_cons_of_mem b hb')
    have hhead : ∀ line ∈ (rest.flatMap (·.lines)).head?, isHeader line = true := by
      cases rest with
      | nil => intro line hline; cases hline
      | cons b' rest' =>
        obtain ⟨line', body', hlines', -⟩ := groupBlocks_headed now lines b' (hrest b' (by simp))
        intro line hline
        rw [List.flatMap_cons, hlines', List.cons_append, List.head?_cons] at hline
        exact isHeader_first (hrest b' (by simp)) line (by rwa [hlines', List.head?_cons])
    rw [List.flatMap_cons, journal_append (dated_blocks hrest hd) (Or.inr hhead),
      journal_block (hblocks b (by simp)) hd, ih hrest]
    rfl

theorem archive_blocks (h : ∀ line ∈ lines, OneLine line) :
    archive (parseLines now lines fileName).events =
      (eventBlocks fileName now lines).flatMap (·.lines) := by
  rw [archive, (parseLines_tracks now lines fileName).1, blockEvents, List.flatMap_map, eventBlocks]
  have hraw : ∀ blocks : List Block, (∀ b ∈ blocks, b ∈ groupBlocks now lines) →
      (blocks.flatMap fun b => rawLines (blockEvent fileName b).rawEvent) =
        blocks.flatMap (·.lines) := by
    intro blocks hblocks
    induction blocks with
    | nil => rfl
    | cons b rest ih =>
      rw [List.flatMap_cons, List.flatMap_cons, ih fun b' hb' => hblocks b' (List.mem_cons_of_mem b hb')]
      congr 1
      exact rawLines_block h (hblocks b (by simp))
  exact hraw _ fun b hb => keptBlocks_subset _ b (List.mem_of_mem_filter hb)

def eventSnapshots (r : ParserResult) : List CassetteSnapshot :=
  r.cassetteSnapshots.filter fun s => r.events.any fun e =>
    decide (e.startLineNumber ≤ s.startLineNumber ∧ s.endLineNumber ≤ e.endLineNumber)

theorem eventSnapshots_blocks : eventSnapshots (parseLines now lines fileName) =
    (eventBlocks fileName now lines).flatMap (blockSnapshots fileName) := by
  have hsplit : eventBlocks fileName now lines =
      (processedBlocks now lines).filter (·.recognised fileName) := by
    rw [eventBlocks, processedBlocks, List.filter_filter]
    congr 1
    funext b
    rw [emits, Bool.and_comm]
  have hown : ∀ b ∈ processedBlocks now lines, ∀ s ∈ blockSnapshots fileName b,
      ((parseLines now lines fileName).events.any fun e =>
        decide (e.startLineNumber ≤ s.startLineNumber ∧ s.endLineNumber ≤ e.endLineNumber)) =
          b.recognised fileName := by
    intro b hb s hs
    have hranges := (groupBlocks_ranges now lines).2
    obtain ⟨hstart, hordered, hstop⟩ :=
      blockSnapshots_within fileName (hranges b (grouped_of_processed hb)) s hs
    rw [Bool.eq_iff_iff, List.any_eq_true]
    constructor
    · rintro ⟨e, he, hin⟩
      rw [decide_eq_true_iff] at hin
      rw [parseLines_processed, List.mem_map] at he
      obtain ⟨b', hb', rfl⟩ := he
      obtain ⟨hb', hrec⟩ := List.mem_filter.mp hb'
      by_contra hne
      have hdiff : b ≠ b' := fun heq => hne (heq ▸ hrec)
      have hapart := blocks_apart (grouped_of_processed hb) (grouped_of_processed hb') hdiff
      have hlow : b'.startLine ≤ s.startLineNumber := hin.1
      have hhigh : s.endLineNumber ≤ b'.endLine := hin.2
      simp only [Precedes] at hapart
      omega
    · intro hrec
      refine ⟨blockEvent fileName b, (blockEvent_mem hb).mpr hrec, ?_⟩
      rw [decide_eq_true_iff]
      exact ⟨hstart, hstop⟩
  rw [eventSnapshots, snapshots_processed, hsplit]
  generalize processedBlocks now lines = blocks at hown
  induction blocks with
  | nil => rfl
  | cons b rest ih =>
    have hrest := ih fun b' hb' => hown b' (List.mem_cons_of_mem b hb')
    have hb := hown b (by simp)
    rw [List.flatMap_cons, List.filter_append, hrest]
    cases hrec : b.recognised fileName with
    | true =>
      rw [List.filter_cons_of_pos hrec, List.flatMap_cons, List.filter_eq_self.mpr]
      intro s hs
      rw [hb s hs, hrec]
    | false =>
      rw [List.filter_cons_of_neg (by simp [hrec]), List.filter_eq_nil_iff.mpr, List.nil_append]
      intro s hs
      rw [hb s hs, hrec]
      exact Bool.false_ne_true

theorem unplacedEvent_block : unplacedEvent (blockEvent fileName (unplaced b)) =
    unplacedEvent (blockEvent fileName b) := by
  rw [blockEvent, blockVerdict_unplaced]
  rfl

variable (now now' lines)

/-- The stored texts of all events, one after another, make a file with the same events in the same
order and no more: parsed under any clock, it gives no warning, no duplicate and nothing to ignore,
and of the snapshots those in the lines of the events. -/
theorem archive_reparsed (h : ∀ line ∈ lines, OneLine line) (hd : Dated lines) :
    let r := parseLines now lines fileName
    let again := parseLines now' (archive r.events) fileName
    again.events.map unplacedEvent = r.events.map unplacedEvent ∧
      again.cassetteSnapshots.map unplacedSnapshot = (eventSnapshots r).map unplacedSnapshot ∧
      again.warnings = [] ∧ again.unknownEventsRegistry = [] ∧
      again.statistics.duplicatesIgnored = 0 ∧ again.statistics.ignoredBlocks = 0 ∧
      archive again.events = archive r.events := by
  intro r again
  have hmem : ∀ b ∈ eventBlocks fileName now lines, b ∈ groupBlocks now lines :=
    fun b hb => keptBlocks_subset _ b (List.mem_of_mem_filter hb)
  have hlines : archive r.events = (eventBlocks fileName now lines).flatMap (·.lines) :=
    archive_blocks fileName h
  have hunplaced : (groupBlocks now' (archive r.events)).map unplaced =
      (eventBlocks fileName now lines).map unplaced := by
    rw [hlines, groupBlocks_unplaced (dated_blocks hmem hd) rfl, journal_blocks hmem hd]
  have hkept : keptBlocks (groupBlocks now' (archive r.events)) =
      groupBlocks now' (archive r.events) := by
    apply keptBlocks_self
    have hkeys : (groupBlocks now' (archive r.events)).map Block.key =
        (eventBlocks fileName now lines).map Block.key := by
      have hsame := congrArg (List.map Block.key) hunplaced
      rwa [List.map_map, List.map_map] at hsame
    rw [hkeys]
    exact (keptBlocks_nodup _).sublist (List.filter_sublist.map _)
  have hemits : ∀ c ∈ groupBlocks now' (archive r.events), emits fileName c = true := by
    intro c hc
    have hc : unplaced c ∈ (eventBlocks fileName now lines).map unplaced := by
      rw [← hunplaced]
      exact List.mem_map_of_mem hc
    obtain ⟨b, hb, hsame⟩ := List.mem_map.mp hc
    rw [← emits_unplaced, ← hsame, emits_unplaced]
    exact (List.mem_filter.mp hb).2
  have haccounts := accounts_parse fileName (groupBlocks now' (archive r.events))
  rw [hkept] at haccounts
  have hproc : ∀ c ∈ groupBlocks now' (archive r.events), isIgnored c.searchText = false := by
    intro c hc
    simpa using (Bool.and_eq_true_iff.mp (hemits c hc)).1
  have hnone : (groupBlocks now' (archive r.events)).filter (unhandled fileName) = [] := by
    rw [List.filter_eq_nil_iff]
    intro c hc
    have hrec := hemits c hc
    rw [emits, hproc c hc, Bool.not_false, Bool.true_and] at hrec
    simp [unhandled, hrec]
  have hevents : again.events =
      (groupBlocks now' (archive r.events)).map (blockEvent fileName) := by
    rw [show again.events = _ from haccounts.events, blockEvents, List.filter_eq_self.mpr hemits]
  have hsnaps : again.cassetteSnapshots =
      (groupBlocks now' (archive r.events)).flatMap (blockSnapshots fileName) := by
    rw [show again.cassetteSnapshots = _ from haccounts.snapshots, blocksSnapshots,
      List.filter_eq_self.mpr fun c hc => by rw [hproc c hc]; rfl]
  have hsame : again.events.map unplacedEvent = r.events.map unplacedEvent := by
    have hplace : ∀ blocks : List Block, (blocks.map (blockEvent fileName)).map unplacedEvent =
        (blocks.map unplaced).map fun c => unplacedEvent (blockEvent fileName c) := by
      intro blocks
      rw [List.map_map, List.map_map]
      exact List.map_congr_left fun c _ => (unplacedEvent_block fileName).symm
    have hfirst : r.events = (eventBlocks fileName now lines).map (blockEvent fileName) :=
      (parseLines_tracks now lines fileName).1
    rw [hevents, hplace, hunplaced, hfirst, hplace]
  refine ⟨hsame, ?_, ?_, ?_, ?_, ?_, ?_⟩
  · have hplace : ∀ blocks : List Block,
        (blocks.flatMap (blockSnapshots fileName)).map unplacedSnapshot =
          (blocks.map unplaced).flatMap fun c => (blockSnapshots fileName c).map unplacedSnapshot := by
      intro blocks
      rw [List.map_flatMap, List.flatMap_map]
      congr 1
      funext c
      rw [blockSnapshots, blockSnapshots, parseBlock_unplaced,
        parseBlock_unplaced fileName (unplaced c).startLine]
      rfl
    rw [hsnaps, eventSnapshots_blocks, hplace, hplace, hunplaced]
  · rw [show again.warnings = _ from haccounts.warnings, hnone, List.map_nil]
  · rw [show again.unknownEventsRegistry = _ from haccounts.registry, hnone, List.foldl_nil]
  · have hcount : again.statistics.duplicatesIgnored + (groupBlocks now' (archive r.events)).length =
        (groupBlocks now' (archive r.events)).length := haccounts.duplicates
    omega
  · rw [show again.statistics.ignoredBlocks = _ from haccounts.ignored, List.countP_eq_zero]
    intro c hc
    rw [hproc c hc]
    exact Bool.false_ne_true
  · have hraw : ∀ events : List ATMParsedEvent, archive events =
        archive (events.map unplacedEvent) := by
      intro events
      rw [archive, archive, List.flatMap_map]
      rfl
    rw [hraw again.events, hsame, ← hraw]

end Words

def storedJournal : List Str :=
  ["UNREAD".toList, "*5*15/07/2026*08:52*\r\n".toList, "TOP CASSETTE REMOVED\n".toList,
    "*6*15/07/2026*08:53*\n".toList, "SOMETHING ELSE\n".toList, "*5*15/07/2026*08:52*\n".toList]

theorem rawEvent_reparsed_stored :
    let r := @parseLines asciiAlnum (fun _ => 0) storedJournal []
    (∀ e ∈ r.events, (0 : Timestamp) = 0 →
      let again := @parseLines asciiAlnum (fun _ => 0) (rawLines e.rawEvent) []
      again.events.map (shiftEvent (e.startLineNumber - 1)) = [e] ∧ again.warnings = [] ∧
        again.cassetteSnapshots.map (renumbered (e.startLineNumber - 1 + ·)) =
          snapshotsIn (eventRange e) r.cassetteSnapshots) :=
  (@rawEvent_reparsed asciiAlnum (fun _ => 0) (fun _ => 0) storedJournal [] (by decide)).1

theorem archive_reparsed_stored :
    archive (@parseLines asciiAlnum (fun _ => 7) (archive
      (@parseLines asciiAlnum (fun _ => 0) storedJournal []).events) []).events =
        archive (@parseLines asciiAlnum (fun _ => 0) storedJournal []).events :=
  (@archive_reparsed asciiAlnum (fun _ => 0) (fun _ => 7) storedJournal [] (by decide)
    (by intro line hline h hh; revert h; revert line; decide)).2.2.2.2.2.2

end AtmMonitor.RawEvents
