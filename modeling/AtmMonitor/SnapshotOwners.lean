import AtmMonitor.BlockAccounts
import AtmMonitor.SnapshotRouting

namespace AtmMonitor.SnapshotOwners

open Library.FirstWins PyText ParserModels CassetteParser EventProcessor EjParser ParsedBlocks
  ParseClock BlockRanges BlockAccounts SnapshotRouting

structure Within (b : Block) (s : CassetteSnapshot) : Prop where
  start : b.startLine ≤ s.startLineNumber
  ordered : s.startLineNumber ≤ s.endLineNumber
  stop : s.endLineNumber ≤ b.endLine

theorem within_flatMap {g : Str → Nat → List CassetteSnapshot} {b : Block}
    (h : ∀ line n, ∀ s ∈ g line n, s.startLineNumber = n ∧ s.endLineNumber = n) :
    ∀ s ∈ (b.lines.zipIdx b.startLine).flatMap (fun p => g p.1 p.2), Within b s := by
  intro s hs
  obtain ⟨⟨line, n⟩, hm, hs⟩ := List.mem_flatMap.mp hs
  obtain ⟨hstart, hend⟩ := h line n s hs
  obtain ⟨hlow, hhigh, -⟩ := List.mem_zipIdx hm
  rw [Block.startLine] at hlow hhigh
  refine ⟨?_, ?_, ?_⟩
  · rw [Block.startLine]
    omega
  · omega
  · rw [endLine_eq]
    omega

theorem actionLine_place {fileName line : Str} {n : Nat} :
    ∀ s ∈ actionLine fileName line n, s.startLineNumber = n ∧ s.endLineNumber = n := by
  intro s hs
  obtain ⟨_, _, _, -, rfl⟩ := mem_actionLine hs
  exact ⟨rfl, rfl⟩

section Words

variable [Alnum]

theorem infoLine_place {fileName line : Str} {n : Nat} :
    ∀ s ∈ infoLine fileName line n, s.startLineNumber = n ∧ s.endLineNumber = n := by
  intro s hs
  obtain ⟨_, _, _, _, rfl⟩ := mem_infoLine hs
  exact ⟨rfl, rfl⟩

theorem earlySnapshots_within (fileName : Str) (b : Block) :
    ∀ s ∈ earlySnapshots fileName b, Within b s := by
  have hactions : ∀ s ∈ actionSnapshots fileName b.startLine b.lines, Within b s :=
    within_flatMap fun _ _ => actionLine_place
  have hinfo : ∀ s ∈ infoSnapshots fileName b.startLine b.lines, Within b s :=
    within_flatMap fun _ _ => infoLine_place
  intro s hs
  rw [earlySnapshots] at hs
  split_ifs at hs
  · obtain hs | hs := List.mem_append.mp hs
    · exact hactions s hs
    · exact hinfo s hs
  · exact hactions s hs

theorem blockSnapshots_within (fileName : Str) {b : Block} (hb : b.startLine ≤ b.endLine) :
    ∀ s ∈ blockSnapshots fileName b, Within b s := by
  have hearly := earlySnapshots_within fileName b
  rw [blockSnapshots_stages]
  split_ifs
  · exact hearly
  · intro s hs
    obtain hs | hs := List.mem_append.mp hs
    · exact hearly s hs
    · obtain ⟨hstart, hstop, -⟩ := mem_totals hs
      exact ⟨hstart.ge, by rwa [hstart, hstop], hstop.le⟩
  · refine countSnapshots_all ?_ (fun _ => ⟨le_rfl, hb, le_rfl⟩) b.lines hearly
    rintro sect val s ⟨hstart, hordered, hstop⟩
    obtain ⟨h1, h2, -⟩ :=
      applyCount_frame (countMode fileName b.startLine b.lines).added sect val s
    exact ⟨by rwa [h1], by rwa [h1, h2], by rwa [h2]⟩
  · exact hearly

theorem owner_unique {now : Nat → Timestamp} {lines : List Str} (fileName : Str) {b b' : Block}
    (hb : b ∈ groupBlocks now lines) (hb' : b' ∈ groupBlocks now lines) {s : CassetteSnapshot}
    (hs : s ∈ blockSnapshots fileName b) (hstart : s.startLineNumber = b'.startLine)
    (hstop : s.endLineNumber = b'.endLine) : b = b' := by
  have hrange := (groupBlocks_ranges now lines).2 b hb
  obtain ⟨hlow, hordered, hhigh⟩ := blockSnapshots_within fileName hrange s hs
  by_contra hne
  have hdisjoint := blocks_apart hb hb' hne
  simp only [Precedes] at hdisjoint
  omega

omit [Alnum] in
theorem filter_flatMap_owner {α β : Type} {q : β → Bool} {f : α → List β} {xs : List α} {x : α}
    (hx : x ∈ xs) (hnodup : xs.Nodup) (h : ∀ y ∈ xs, ∀ z ∈ f y, q z = true → y = x) :
    (xs.flatMap f).filter q = (f x).filter q := by
  induction xs with
  | nil => exact absurd hx List.not_mem_nil
  | cons y ys ih =>
    obtain ⟨hfresh, hnodup⟩ := List.nodup_cons.mp hnodup
    rw [List.flatMap_cons, List.filter_append]
    by_cases hy : y = x
    · have hrest : (ys.flatMap f).filter q = [] := by
        rw [List.filter_eq_nil_iff]
        intro z hz hq
        obtain ⟨y', hy', hz⟩ := List.mem_flatMap.mp hz
        rw [h y' (List.mem_cons_of_mem y hy') z hz hq, ← hy] at hy'
        exact hfresh hy'
      rw [hrest, List.append_nil, hy]
    · have hhead : (f y).filter q = [] := by
        rw [List.filter_eq_nil_iff]
        exact fun z hz hq => hy (h y (by simp) z hz hq)
      rw [hhead, List.nil_append]
      exact ih ((List.mem_cons.mp hx).resolve_left (Ne.symm hy)) hnodup
        fun y' hy' => h y' (List.mem_cons_of_mem y hy')

/-- Ranges that are not empty, each before the next. -/
def InOrder (ranges : List (Nat × Nat)) : Prop :=
  ranges.Pairwise (fun p q => p.2 < q.1) ∧ ∀ p ∈ ranges, p.1 ≤ p.2

def eventRange (e : ATMParsedEvent) : Nat × Nat := (e.startLineNumber, e.endLineNumber)

def warningRange (w : ParserWarning) : Nat × Nat := (w.startLineNumber, w.endLineNumber)

omit [Alnum] in
theorem inOrder_kept (now : Nat → Timestamp) (lines : List Str) (p : Block → Bool) :
    InOrder (((keptBlocks (groupBlocks now lines)).filter p).map
      fun b => (b.startLine, b.endLine)) := by
  obtain ⟨hsorted, hrange⟩ := groupBlocks_ranges now lines
  refine ⟨?_, ?_⟩
  · rw [List.pairwise_map]
    exact (hsorted.sublist (keptBlocks_sublist _)).filter p
  · intro q hq
    obtain ⟨b, hb, rfl⟩ := List.mem_map.mp hq
    exact hrange b (keptBlocks_subset _ b (List.mem_of_mem_filter hb))

theorem parseLines_processed (now : Nat → Timestamp) (lines : List Str) (fileName : Str) :
    (parseLines now lines fileName).events =
      ((processedBlocks now lines).filter (·.recognised fileName)).map (blockEvent fileName) := by
  rw [(parseLines_tracks now lines fileName).1, blockEvents, processedBlocks, List.filter_filter]
  congr 2
  funext b
  rw [emits, Bool.and_comm]

theorem event_warning_apart {now : Nat → Timestamp} {lines : List Str} {fileName : Str}
    {e : ATMParsedEvent} {w : ParserWarning} (he : e ∈ (parseLines now lines fileName).events)
    (hw : w ∈ (parseLines now lines fileName).warnings) :
    e.endLineNumber < w.startLineNumber ∨ w.endLineNumber < e.startLineNumber := by
  have hrecounts := recounts_parse fileName (groupBlocks now lines)
  rw [show (parseLines now lines fileName).warnings = _ from hrecounts.warnings] at hw
  obtain ⟨b, hb, hemits, rfl⟩ := mem_parseLines he
  obtain ⟨b', hb', rfl⟩ := List.mem_map.mp hw
  obtain ⟨hkept', hunhandled⟩ := List.mem_filter.mp hb'
  have hne : b ≠ b' := by
    rintro rfl
    rw [emits, Bool.and_eq_true] at hemits
    rw [unhandled, hemits.2] at hunhandled
    simp at hunhandled
  exact blocks_apart (keptBlocks_subset _ b hb) (keptBlocks_subset _ b' hkept') hne

theorem processed_owner {now : Nat → Timestamp} {lines : List Str} (fileName : Str)
    {b b' : Block} (hb : b ∈ processedBlocks now lines) (hb' : b' ∈ processedBlocks now lines)
    {s : CassetteSnapshot} (hs : s ∈ blockSnapshots fileName b)
    (hstart : s.startLineNumber = (blockEvent fileName b').startLineNumber)
    (hstop : s.endLineNumber = (blockEvent fileName b').endLineNumber) : b = b' :=
  owner_unique fileName (grouped_of_processed hb) (grouped_of_processed hb') hs hstart hstop

/-- What is found for the event of a block is found among the snapshots of the block. -/
theorem matchingSnaps_own {now : Nat → Timestamp} {lines : List Str} (fileName : Str) {b : Block}
    (hb : b ∈ processedBlocks now lines) :
    matchingSnaps (parseLines now lines fileName).cassetteSnapshots (blockEvent fileName b) =
      matchingSnaps (blockSnapshots fileName b) (blockEvent fileName b) := by
  rw [snapshots_processed now lines fileName]
  apply filter_flatMap_owner hb (processedBlocks_nodup now lines)
  intro b' hb' s hs hsame
  rw [Bool.and_eq_true, beq_iff_eq, beq_iff_eq] at hsame
  exact processed_owner fileName hb' hb hs hsame.1 hsame.2

theorem mem_matchingSnaps_owner {now : Nat → Timestamp} {lines : List Str} {fileName : Str}
    {b : Block} (hb : b ∈ processedBlocks now lines) {s : CassetteSnapshot}
    (hs : s ∈ matchingSnaps (parseLines now lines fileName).cassetteSnapshots
      (blockEvent fileName b)) : s ∈ blockSnapshots fileName b := by
  rw [matchingSnaps_own fileName hb] at hs
  exact List.mem_of_mem_filter hs

/-- The ranges of the events and of the warnings are in order and do not meet. A snapshot and an
event with the same line numbers are of one block, so the snapshots that are found for the event
of a block are among those of that block, and no snapshot is found for two events. -/
theorem snapshots_not_foreign (now : Nat → Timestamp) (lines : List Str) (fileName : Str) :
    let r := parseLines now lines fileName
    let blocks := processedBlocks now lines
    (InOrder (r.events.map eventRange) ∧ InOrder (r.warnings.map warningRange) ∧
        ∀ e ∈ r.events, ∀ w ∈ r.warnings,
          e.endLineNumber < w.startLineNumber ∨ w.endLineNumber < e.startLineNumber) ∧
      r.events = (blocks.filter (·.recognised fileName)).map (blockEvent fileName) ∧
      r.cassetteSnapshots = blocks.flatMap (blockSnapshots fileName) ∧
      (∀ b ∈ blocks, ∀ s ∈ blockSnapshots fileName b, ∀ b' ∈ blocks,
        s.startLineNumber = (blockEvent fileName b').startLineNumber →
          s.endLineNumber = (blockEvent fileName b').endLineNumber → b = b') ∧
      (∀ b ∈ blocks, matchingSnaps r.cassetteSnapshots (blockEvent fileName b) =
        matchingSnaps (blockSnapshots fileName b) (blockEvent fileName b)) ∧
      ∀ e ∈ r.events, ∀ e' ∈ r.events, ∀ s ∈ matchingSnaps r.cassetteSnapshots e,
        s ∈ matchingSnaps r.cassetteSnapshots e' → e = e' := by
  intro r blocks
  have hrecounts := recounts_parse fileName (groupBlocks now lines)
  have hevents : r.events = (blocks.filter (·.recognised fileName)).map (blockEvent fileName) :=
    parseLines_processed now lines fileName
  refine ⟨⟨?_, ?_, ?_⟩, hevents, snapshots_processed now lines fileName, ?_, ?_, ?_⟩
  · rw [show r.events = _ from hrecounts.events, blockEvents, List.map_map]
    exact inOrder_kept now lines (emits fileName)
  · rw [show r.warnings = _ from hrecounts.warnings, List.map_map]
    exact inOrder_kept now lines (unhandled fileName)
  · intro e he w hw
    exact event_warning_apart he hw
  · intro b hb s hs b' hb' hstart hstop
    exact processed_owner fileName hb hb' hs hstart hstop
  · intro b hb
    exact matchingSnaps_own fileName hb
  · intro e he e' he' s hs hs'
    rw [hevents] at he he'
    obtain ⟨b, hb, rfl⟩ := List.mem_map.mp he
    obtain ⟨b', hb', rfl⟩ := List.mem_map.mp he'
    have hb := List.mem_of_mem_filter hb
    have hb' := List.mem_of_mem_filter hb'
    have hown := mem_matchingSnaps_owner hb hs
    obtain ⟨-, hrange'⟩ := List.mem_filter.mp hs'
    rw [Bool.and_eq_true, beq_iff_eq, beq_iff_eq] at hrange'
    rw [processed_owner fileName hb hb' hown hrange'.1 hrange'.2]

end Words

end AtmMonitor.SnapshotOwners
