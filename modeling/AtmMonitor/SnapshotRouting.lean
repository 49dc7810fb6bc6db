import AtmMonitor.EventProcessor
import AtmMonitor.ParsedBlocks

namespace AtmMonitor.SnapshotRouting

open Library.Regex Library.FirstWins PyText ParserModels EventPatterns CassetteParser
  SupervisorParser EventProcessor EjParser ParsedBlocks

theorem strip_header {line : Str} (h : (header? line).isSome) : ∃ rest, strip line = '*' :: rest := by
  obtain ⟨hd, hh⟩ := Option.isSome_iff_exists.mp h
  obtain ⟨m, hm, -⟩ := Option.map_eq_some_iff.mp hh
  obtain ⟨c0, hc0, hm⟩ := mem_run_seq (mem_run_of_matchStart hm)
  obtain ⟨c1, hc1, hm⟩ := mem_run_seq hm
  obtain ⟨c2, hc2, -⟩ := mem_run_seq hm
  have hstart : c0 = start line := by
    simpa [atStart, run, start] using hc0
  rw [hstart] at hc1
  obtain ⟨w, hw, hline⟩ := mem_manyRun hc1
  obtain ⟨x, hx, hright⟩ := mem_run_cls hc2
  have hstar : x = '*' := by simpa using hx
  have hdrop : line.dropWhile isSpace = '*' :: c2.right := by
    have hl : line = w ++ c1.right := hline
    rw [hl, List.dropWhile_append_of_pos hw, hright, hstar]
    exact List.dropWhile_cons_of_neg (by decide)
  rw [strip, hdrop]
  cases hr : ('*' :: c2.right).rdropWhile isSpace with
  | nil =>
    have hall := List.rdropWhile_eq_nil_iff.mp hr '*' (by simp)
    exact absurd hall (by decide)
  | cons y ys =>
    have hp := List.rdropWhile_prefix isSpace ('*' :: c2.right)
    rw [hr, List.cons_prefix_cons] at hp
    exact ⟨ys, by rw [hp.1]⟩

def reportsAction (line : Str) : Bool :=
  match matchStart CASSETTE_REMOVED_PATTERN (strip line) with
  | some m => decide (positionNumber (groupText m "1") > 0)
  | none =>
    match matchStart CASSETTE_INSERTED_PATTERN (strip line) with
    | some m => decide (positionNumber (groupText m "1") > 0)
    | none => false

theorem reportsAction_header {line : Str} (h : (header? line).isSome) :
    reportsAction line = false := by
  obtain ⟨rest, hr⟩ := strip_header h
  have hremoved : matchStart CASSETTE_REMOVED_PATTERN ('*' :: rest) = none := rfl
  have hinserted : matchStart CASSETTE_INSERTED_PATTERN ('*' :: rest) = none := rfl
  rw [reportsAction, hr, hremoved, hinserted]

theorem actionLine_eq_nil (fileName line : Str) (n : Nat) :
    actionLine fileName line n = [] ↔ reportsAction line = false := by
  unfold actionLine reportsAction
  cases matchStart CASSETTE_REMOVED_PATTERN (strip line) with
  | some m => by_cases hp : positionNumber (groupText m "1") > 0 <;> simp [actionSnapshot, hp]
  | none =>
    cases matchStart CASSETTE_INSERTED_PATTERN (strip line) with
    | some m => by_cases hp : positionNumber (groupText m "1") > 0 <;> simp [actionSnapshot, hp]
    | none => simp

theorem mem_actionLine {fileName line : Str} {n : Nat} {s : CassetteSnapshot}
    (h : s ∈ actionLine fileName line n) :
    ∃ cNo op status, (op = .cassetteRemoved ∨ op = .cassetteInserted) ∧
      s = { cassetteNo := cNo, cassetteStatus := status, operationType := op,
            sourceFileName := fileName, startLineNumber := n, endLineNumber := n } := by
  have haction : ∀ op status m, (op = .cassetteRemoved ∨ op = .cassetteInserted) →
      s ∈ actionSnapshot op status fileName n m → ∃ cNo op status,
        (op = .cassetteRemoved ∨ op = .cassetteInserted) ∧
          s = { cassetteNo := cNo, cassetteStatus := status, operationType := op,
                sourceFileName := fileName, startLineNumber := n, endLineNumber := n } := by
    intro op status m hop hs
    simp only [actionSnapshot] at hs
    split_ifs at hs
    · exact ⟨_, op, status, hop, List.mem_singleton.mp hs⟩
    · exact absurd hs List.not_mem_nil
  rw [actionLine] at h
  split at h
  · exact haction _ _ _ (Or.inl rfl) h
  · split at h
    · exact haction _ _ _ (Or.inr rfl) h
    · exact absurd h List.not_mem_nil

theorem actionLine_range {fileName line : Str} {n : Nat} {s : CassetteSnapshot}
    (h : s ∈ actionLine fileName line n) : s.startLineNumber = n := by
  obtain ⟨_, _, _, -, rfl⟩ := mem_actionLine h
  rfl

/-- A stage that looks at one line at a time, finds nothing in a header and stamps what it finds
with the number of the line. -/
structure PerLine (stage : Str → Nat → List CassetteSnapshot) (hit : Str → Bool) : Prop where
  nil_iff : ∀ line n, stage line n = [] ↔ hit line = false
  range : ∀ line n, ∀ s ∈ stage line n, s.startLineNumber = n
  header : ∀ line, (header? line).isSome → hit line = false

theorem perLine_range {stage : Str → Nat → List CassetteSnapshot} {hit : Str → Bool}
    (h : PerLine stage hit) {line : Str} {rest : List Str} (hh : (header? line).isSome) {n : Nat}
    {s : CassetteSnapshot} (hs : s ∈ ((line :: rest).zipIdx n).flatMap fun p => stage p.1 p.2) :
    s.startLineNumber ≠ n := by
  obtain ⟨⟨l, k⟩, hm, hs⟩ := List.mem_flatMap.mp hs
  rw [h.range l k s hs]
  rw [List.zipIdx_cons, List.mem_cons] at hm
  obtain hm | hm := hm
  · rw [Prod.mk.injEq] at hm
    rw [hm.1, (h.nil_iff line k).mpr (h.header line hh)] at hs
    exact absurd hs List.not_mem_nil
  · have := List.le_snd_of_mem_zipIdx hm
    omega

theorem perLine_nil_iff {stage : Str → Nat → List CassetteSnapshot} {hit : Str → Bool}
    (h : PerLine stage hit) (lines : List Str) (n : Nat) :
    (lines.zipIdx n).flatMap (fun p => stage p.1 p.2) = [] ↔ ∀ line ∈ lines, hit line = false := by
  rw [List.flatMap_eq_nil_iff]
  constructor
  · intro hn line hl
    obtain ⟨k, hk⟩ := List.mem_iff_getElem?.mp hl
    have hm : (line, n + k) ∈ lines.zipIdx n := by
      rw [List.mem_zipIdx_iff_le_and_getElem?_sub]
      exact ⟨Nat.le_add_right n k, by simpa using hk⟩
    exact (h.nil_iff line _).mp (hn _ hm)
  · intro hn p hp
    exact (h.nil_iff p.1 p.2).mpr (hn p.1 (List.fst_mem_of_mem_zipIdx hp))

theorem perLine_action (fileName : Str) : PerLine (actionLine fileName) reportsAction :=
  ⟨fun line n => actionLine_eq_nil fileName line n, fun _ _ _ h => actionLine_range h,
    fun _ h => reportsAction_header h⟩

/-- The snapshot reports cash counts over the whole of a block. -/
structure WholeCounts (mode : CountMode) (s : CassetteSnapshot) : Prop where
  start : s.startLineNumber = mode.startLine
  stop : s.endLineNumber = mode.endLine
  op : s.operationType = mode.op

theorem applyCount_frame (added : Bool) (sect : Option Section) (val : Nat) (s : CassetteSnapshot) :
    (applyCount added sect val s).startLineNumber = s.startLineNumber ∧
      (applyCount added sect val s).endLineNumber = s.endLineNumber ∧
      (applyCount added sect val s).operationType = s.operationType := by
  cases added with
  | true => exact ⟨rfl, rfl, rfl⟩
  | false =>
    cases sect with
    | none => exact ⟨rfl, rfl, rfl⟩
    | some part => cases part <;> exact ⟨rfl, rfl, rfl⟩

theorem mem_modifyCassette {P : CassetteSnapshot → Prop} {fresh : CassetteSnapshot}
    {f : CassetteSnapshot → CassetteSnapshot} (hf : ∀ s, P s → P (f s)) (hfresh : P fresh)
    {snaps : List CassetteSnapshot} (h : ∀ s ∈ snaps, P s) :
    ∀ s ∈ modifyCassette fresh f snaps, P s := by
  induction snaps with
  | nil => simpa [modifyCassette] using hf fresh hfresh
  | cons a rest ih =>
    have hrest := ih fun s hs => h s (List.mem_cons_of_mem a hs)
    rw [modifyCassette]
    split_ifs
    · intro s hs
      obtain rfl | hs := List.mem_cons.mp hs
      · exact hf a (h a (by simp))
      · exact h s (List.mem_cons_of_mem a hs)
    · intro s hs
      obtain rfl | hs := List.mem_cons.mp hs
      · exact h s (by simp)
      · exact hrest s hs

theorem modifyCassette_starts {fresh : CassetteSnapshot}
    {f : CassetteSnapshot → CassetteSnapshot} (hf : ∀ s, (f s).startLineNumber = s.startLineNumber)
    (snaps : List CassetteSnapshot) :
    snaps.map (·.startLineNumber) <+:
      (modifyCassette fresh f snaps).map (·.startLineNumber) := by
  induction snaps with
  | nil => exact List.nil_prefix
  | cons a rest ih =>
    rw [modifyCassette]
    split_ifs
    · have hmap : (f a :: rest).map (·.startLineNumber) = (a :: rest).map (·.startLineNumber) := by
        simp [hf a]
      exact ⟨[], by rw [List.append_nil, hmap]⟩
    · rw [List.map_cons, List.map_cons, List.cons_prefix_cons]
      exact ⟨rfl, ih⟩

theorem countRow_all {P : CassetteSnapshot → Prop} {mode : CountMode} {sect : Option Section}
    (hf : ∀ val s, P s → P (applyCount mode.added sect val s))
    (hfresh : ∀ cNo, P (freshCount mode.op mode.fileName mode.startLine mode.endLine cNo))
    (vals : List Nat) {snaps : List CassetteSnapshot} (h : ∀ s ∈ snaps, P s) :
    ∀ s ∈ countRow mode sect vals snaps, P s := by
  rw [countRow]
  generalize vals.zipIdx 1 = ps
  induction ps generalizing snaps with
  | nil => exact h
  | cons p rest ih =>
    rw [List.foldl_cons]
    exact ih (mem_modifyCassette (hf p.1) (hfresh p.2) h)

theorem countSnapshots_all {P : CassetteSnapshot → Prop} {mode : CountMode}
    (hf : ∀ sect val s, P s → P (applyCount mode.added sect val s))
    (hfresh : ∀ cNo, P (freshCount mode.op mode.fileName mode.startLine mode.endLine cNo))
    (lines : List Str) {snaps : List CassetteSnapshot} (h : ∀ s ∈ snaps, P s) :
    ∀ s ∈ countSnapshots mode lines snaps, P s := by
  rw [countSnapshots]
  generalize (none : Option Section) = sect
  induction lines generalizing sect snaps with
  | nil => exact h
  | cons line rest ih =>
    rw [List.foldl_cons, countLine]
    split_ifs
    · exact ih h _
    · exact ih h _
    · exact ih h _
    · split
      · rename_i m _
        exact ih (countRow_all (hf sect) hfresh (rowCounts m) h) sect
      · exact ih h sect

theorem countRow_starts (mode : CountMode) (sect : Option Section) (vals : List Nat)
    (snaps : List CassetteSnapshot) :
    snaps.map (·.startLineNumber) <+:
      (countRow mode sect vals snaps).map (·.startLineNumber) := by
  rw [countRow]
  generalize vals.zipIdx 1 = ps
  induction ps generalizing snaps with
  | nil => exact List.prefix_rfl
  | cons p rest ih =>
    rw [List.foldl_cons]
    exact (modifyCassette_starts (fun s => (applyCount_frame _ _ _ s).1) snaps).trans (ih _)

theorem countSnapshots_frame (mode : CountMode) (lines : List Str)
    (snaps : List CassetteSnapshot) :
    ((∀ s ∈ snaps, WholeCounts mode s) →
        ∀ s ∈ countSnapshots mode lines snaps, WholeCounts mode s) ∧
      snaps.map (·.startLineNumber) <+:
        (countSnapshots mode lines snaps).map (·.startLineNumber) := by
  constructor
  · apply countSnapshots_all
    · rintro sect val s ⟨hs, he, ho⟩
      obtain ⟨h1, h2, h3⟩ := applyCount_frame mode.added sect val s
      exact ⟨h1.trans hs, h2.trans he, h3.trans ho⟩
    · exact fun cNo => ⟨rfl, rfl, rfl⟩
  · rw [countSnapshots]
    generalize (none : Option Section) = sect
    induction lines generalizing sect snaps with
    | nil => exact List.prefix_rfl
    | cons line rest ih =>
      rw [List.foldl_cons, countLine]
      split_ifs
      · exact ih snaps _
      · exact ih snaps _
      · exact ih snaps _
      · split
        · exact (countRow_starts mode sect _ snaps).trans (ih _ sect)
        · exact ih snaps sect

theorem snapshotVerdict_matched (v : Verdict) (snaps : List CassetteSnapshot) :
    (snaps.foldl snapshotVerdict v).matched =
      (v.matched || snaps.any fun s => (primaryType s.operationType).isSome) := by
  induction snaps generalizing v with
  | nil => simp
  | cons s rest ih =>
    rw [List.foldl_cons, ih, List.any_cons, snapshotVerdict]
    cases primaryType s.operationType <;> simp

theorem snapshotVerdict_balance (v : Verdict) {snaps : List CassetteSnapshot}
    (h : ∀ s ∈ snaps, s.operationType = .balanceUpdate) : snaps.foldl snapshotVerdict v = v := by
  induction snaps with
  | nil => rfl
  | cons s rest ih =>
    rw [List.foldl_cons, snapshotVerdict, h s (by simp)]
    exact ih fun s' hs => h s' (List.mem_cons_of_mem s hs)

/-- A phrase of the block names an operational or a supervisor event. -/
def named (b : Block) : Bool :=
  (operationalMatch b.searchText).isSome || (supervisorAction b.lines).isSome

theorem baseVerdict_recognised (fileName : Str) (b : Block) :
    let v := supervisorVerdict (textVerdict b.searchText)
      (SupervisorParser.parseBlock b.lines b.seq b.dt fileName b.startLine)
    (v.matched || v.eventType != .unknown) = named b := by
  unfold SupervisorParser.parseBlock named textVerdict
  cases supervisorAction b.lines with
  | some entered => simp [supervisorVerdict]
  | none => cases operationalMatch b.searchText <;> simp [supervisorVerdict]

theorem totals_ne_nil {t : CashTotals} (h : t.present = true) (fileName : Str)
    (startLine endLine : Nat) : totalSnapshots t fileName startLine endLine ≠ [] := by
  have hpos : 0 < t.numCassettes := by
    unfold CashTotals.present at h
    rw [CashTotals.numCassettes]
    simp only [Bool.or_eq_true, Bool.not_eq_eq_eq_not, Bool.not_true, List.isEmpty_eq_false_iff,
      ← List.length_pos_iff] at h
    omega
  rw [totalSnapshots, ne_eq, List.map_eq_nil_iff, List.range_eq_nil]
  omega

theorem mem_totals {t : CashTotals} {fileName : Str} {startLine endLine : Nat} {s : CassetteSnapshot}
    (hs : s ∈ totalSnapshots t fileName startLine endLine) : s.startLineNumber = startLine ∧
      s.endLineNumber = endLine ∧ s.operationType = .balanceUpdate := by
  obtain ⟨i, -, rfl⟩ := List.mem_map.mp hs
  exact ⟨rfl, rfl, rfl⟩

def processedBlocks (now : Nat → Timestamp) (lines : List Str) : List Block :=
  (keptBlocks (groupBlocks now lines)).filter fun b => !isIgnored b.searchText

theorem grouped_of_processed {now : Nat → Timestamp} {lines : List Str} {b : Block}
    (hb : b ∈ processedBlocks now lines) : b ∈ groupBlocks now lines :=
  keptBlocks_subset _ b (List.mem_of_mem_filter hb)

theorem headed_of_processed {now : Nat → Timestamp} {lines : List Str} {b : Block}
    (hb : b ∈ processedBlocks now lines) : Headed b :=
  groupBlocks_headed now lines b (grouped_of_processed hb)

theorem processedBlocks_nodup (now : Nat → Timestamp) (lines : List Str) :
    (processedBlocks now lines).Nodup :=
  (List.Nodup.of_map Block.key (keptBlocks_nodup _)).filter _

section Words

variable [Alnum]

def isTableRow (line : Str) : Bool :=
  match matchStart CASSETTE_INFO_ROW (strip line) with
  | some m => decide (positionNumber (groupText m "1") > 0)
  | none => false

theorem isTableRow_header {line : Str} (h : (header? line).isSome) : isTableRow line = false := by
  obtain ⟨rest, hr⟩ := strip_header h
  have hrow : matchStart CASSETTE_INFO_ROW ('*' :: rest) = none := rfl
  rw [isTableRow, hr, hrow]

theorem infoLine_eq_nil (fileName line : Str) (n : Nat) :
    infoLine fileName line n = [] ↔ isTableRow line = false := by
  unfold infoLine isTableRow
  cases matchStart CASSETTE_INFO_ROW (strip line) with
  | some m => by_cases hp : positionNumber (groupText m "1") > 0 <;> simp [hp]
  | none => simp

theorem mem_infoLine {fileName line : Str} {n : Nat} {s : CassetteSnapshot}
    (h : s ∈ infoLine fileName line n) :
    ∃ cNo status value currency,
      s = { cassetteNo := cNo, cassetteStatus := status, denomination := some value,
            currencyCode := currency, operationType := .balanceUpdate,
            sourceFileName := fileName, startLineNumber := n, endLineNumber := n } := by
  rw [infoLine] at h
  split at h
  · exact absurd h List.not_mem_nil
  · simp only at h
    split_ifs at h
    · exact ⟨_, _, _, _, List.mem_singleton.mp h⟩
    · exact absurd h List.not_mem_nil

theorem infoLine_range {fileName line : Str} {n : Nat} {s : CassetteSnapshot}
    (h : s ∈ infoLine fileName line n) : s.startLineNumber = n := by
  obtain ⟨_, _, _, _, rfl⟩ := mem_infoLine h
  rfl

theorem infoSnapshots_op {fileName : Str} {startLine : Nat} {lines : List Str} :
    ∀ s ∈ infoSnapshots fileName startLine lines, s.operationType = .balanceUpdate := by
  intro s hs
  obtain ⟨⟨line, n⟩, -, hs⟩ := List.mem_flatMap.mp hs
  obtain ⟨_, _, _, _, rfl⟩ := mem_infoLine hs
  rfl

theorem perLine_info (fileName : Str) : PerLine (infoLine fileName) isTableRow :=
  ⟨fun line n => infoLine_eq_nil fileName line n, fun _ _ _ h => infoLine_range h,
    fun _ h => isTableRow_header h⟩

structure Routable (b : Block) : Prop where
  actions : ∀ line ∈ b.lines, reportsAction line = false
  table : hasCassetteInfo b.lines = true → ∀ line ∈ b.lines, isTableRow line = false
  totals : (cashTotals b.lines).present = true → named b = true

/-- The snapshot carries the range of the block, and the block makes an event. -/
structure Reaches (fileName : Str) (b : Block) (s : CassetteSnapshot) : Prop where
  start : s.startLineNumber = b.startLine
  stop : s.endLineNumber = b.endLine
  event : b.recognised fileName = true

def earlySnapshots (fileName : Str) (b : Block) : List CassetteSnapshot :=
  if hasCassetteInfo b.lines then
    actionSnapshots fileName b.startLine b.lines ++ infoSnapshots fileName b.startLine b.lines
  else actionSnapshots fileName b.startLine b.lines

theorem blockSnapshots_stages (fileName : Str) (b : Block) :
    blockSnapshots fileName b =
      if hasCassetteInfo b.lines && !(earlySnapshots fileName b).isEmpty then
        earlySnapshots fileName b
      else if (cashTotals b.lines).present then
        earlySnapshots fileName b ++
          totalSnapshots (cashTotals b.lines) fileName b.startLine b.endLine
      else if isCleared b.lines || isAdded b.lines then
        countSnapshots (countMode fileName b.startLine b.lines) b.lines (earlySnapshots fileName b)
      else earlySnapshots fileName b := rfl

theorem earlySnapshots_routable (fileName : Str) {b : Block} (h : Routable b) :
    earlySnapshots fileName b = [] := by
  have hactions : actionSnapshots fileName b.startLine b.lines = [] :=
    (perLine_nil_iff (perLine_action fileName) b.lines b.startLine).mpr h.actions
  rw [earlySnapshots]
  split_ifs with hinfo
  · have htable : infoSnapshots fileName b.startLine b.lines = [] :=
      (perLine_nil_iff (perLine_info fileName) b.lines b.startLine).mpr (h.table hinfo)
    rw [hactions, htable, List.append_nil]
  · exact hactions

/-- The stages of the cassette parser on a routable block. -/
theorem blockSnapshots_routable (fileName : Str) {b : Block} (h : Routable b) :
    blockSnapshots fileName b =
      if (cashTotals b.lines).present then
        totalSnapshots (cashTotals b.lines) fileName b.startLine b.endLine
      else if isCleared b.lines || isAdded b.lines then
        countSnapshots (countMode fileName b.startLine b.lines) b.lines []
      else [] := by
  rw [blockSnapshots_stages, earlySnapshots_routable fileName h]
  simp only [List.isEmpty_nil, Bool.not_true, Bool.and_false, Bool.false_eq_true, if_false,
    List.nil_append]

theorem reaches_of_routable (fileName : Str) {b : Block} (h : Routable b) :
    ∀ s ∈ blockSnapshots fileName b, Reaches fileName b s := by
  intro s hs
  have hsnaps := blockSnapshots_routable fileName h
  by_cases ht : (cashTotals b.lines).present = true
  · rw [if_pos ht] at hsnaps
    have hbalance : ∀ s ∈ blockSnapshots fileName b, s.startLineNumber = b.startLine ∧
        s.endLineNumber = b.endLine ∧ s.operationType = .balanceUpdate := by
      intro s hs
      rw [hsnaps] at hs
      exact mem_totals hs
    obtain ⟨h1, h2, -⟩ := hbalance s hs
    refine ⟨h1, h2, ?_⟩
    have hverdict := snapshotVerdict_balance (supervisorVerdict (textVerdict b.searchText)
      (SupervisorParser.parseBlock b.lines b.seq b.dt fileName b.startLine))
      fun s hs => (hbalance s hs).2.2
    rw [Block.recognised, blockVerdict, hverdict]
    exact (baseVerdict_recognised fileName b).trans (h.totals ht)
  · rw [if_neg ht] at hsnaps
    by_cases hc : (isCleared b.lines || isAdded b.lines) = true
    · rw [if_pos hc] at hsnaps
      have hwhole : ∀ s ∈ blockSnapshots fileName b,
          WholeCounts (countMode fileName b.startLine b.lines) s := by
        rw [hsnaps]
        exact (countSnapshots_frame _ _ _).1 fun s hs => absurd hs List.not_mem_nil
      refine ⟨(hwhole s hs).start, (hwhole s hs).stop, ?_⟩
      have hprimary : (primaryType s.operationType).isSome = true := by
        rw [(hwhole s hs).op, countMode]
        cases isCleared b.lines <;> rfl
      have hmatched : (blockVerdict fileName b).matched = true := by
        rw [blockVerdict, snapshotVerdict_matched, Bool.or_eq_true]
        exact Or.inr (List.any_eq_true.mpr ⟨s, hs, hprimary⟩)
      rw [Block.recognised, hmatched]
      rfl
    · rw [if_neg hc] at hsnaps
      rw [hsnaps] at hs
      exact absurd hs List.not_mem_nil

theorem mem_blockSnapshots_start {fileName : Str} {b : Block} {s : CassetteSnapshot}
    (h : s ∈ earlySnapshots fileName b) :
    ∃ s' ∈ blockSnapshots fileName b, s'.startLineNumber = s.startLineNumber := by
  rw [blockSnapshots_stages]
  split_ifs
  · exact ⟨s, h, rfl⟩
  · exact ⟨s, List.mem_append_left _ h, rfl⟩
  · have hstarts := (countSnapshots_frame (countMode fileName b.startLine b.lines) b.lines
      (earlySnapshots fileName b)).2
    exact List.mem_map.mp (hstarts.subset (List.mem_map_of_mem h))
  · exact ⟨s, h, rfl⟩

theorem starts_after {fileName : Str} {b : Block} (hb : Headed b) :
    ∀ s ∈ actionSnapshots fileName b.startLine b.lines ++ infoSnapshots fileName b.startLine b.lines,
      s.startLineNumber ≠ b.startLine := by
  obtain ⟨line, rest, hlines, hhead⟩ := hb
  rw [hlines]
  intro s hs
  obtain hs | hs := List.mem_append.mp hs
  · exact perLine_range (perLine_action fileName) hhead hs
  · exact perLine_range (perLine_info fileName) hhead hs

theorem earlySnapshots_after {fileName : Str} {b : Block} (hb : Headed b) :
    ∀ s ∈ earlySnapshots fileName b, s.startLineNumber ≠ b.startLine := by
  intro s hs
  rw [earlySnapshots] at hs
  split_ifs at hs
  · exact starts_after hb s hs
  · exact starts_after hb s (List.mem_append_left _ hs)

theorem lines_of_no_early {fileName : Str} {b : Block} (h : earlySnapshots fileName b = []) :
    (∀ line ∈ b.lines, reportsAction line = false) ∧
      (hasCassetteInfo b.lines = true → ∀ line ∈ b.lines, isTableRow line = false) := by
  have haction := perLine_nil_iff (perLine_action fileName) b.lines b.startLine
  have hinfo := perLine_nil_iff (perLine_info fileName) b.lines b.startLine
  rw [earlySnapshots] at h
  split_ifs at h with htable
  · obtain ⟨hactions, hrows⟩ := List.append_eq_nil_iff.mp h
    exact ⟨haction.mp hactions, fun _ => hinfo.mp hrows⟩
  · exact ⟨haction.mp h, fun ht => absurd ht htable⟩

theorem routable_of_reaches {fileName : Str} {b : Block} (hb : Headed b)
    (h : ∀ s ∈ blockSnapshots fileName b, Reaches fileName b s) : Routable b := by
  have hearly : earlySnapshots fileName b = [] := by
    apply List.eq_nil_iff_forall_not_mem.mpr
    intro s hs
    obtain ⟨s', hs', hstart⟩ := mem_blockSnapshots_start hs
    exact earlySnapshots_after hb s hs (hstart.symm.trans (h s' hs').start)
  obtain ⟨hlinewise, hrows⟩ := lines_of_no_early hearly
  refine ⟨hlinewise, hrows, fun ht => ?_⟩
  have hsnaps : blockSnapshots fileName b =
      totalSnapshots (cashTotals b.lines) fileName b.startLine b.endLine := by
    rw [blockSnapshots_stages, hearly]
    simp only [List.isEmpty_nil, Bool.not_true, Bool.and_false, Bool.false_eq_true, if_false, ht,
      if_true, List.nil_append]
  obtain ⟨s, hs⟩ := List.exists_mem_of_ne_nil _
    (totals_ne_nil ht fileName b.startLine b.endLine)
  have hrec := (h s (by rw [hsnaps]; exact hs)).event
  have hverdict : blockVerdict fileName b = _ :=
    snapshotVerdict_balance _ fun s hs => by
      rw [hsnaps] at hs
      exact (mem_totals hs).2.2
  rw [Block.recognised, hverdict] at hrec
  exact (baseVerdict_recognised fileName b).symm.trans hrec

theorem snapshots_processed (now : Nat → Timestamp) (lines : List Str) (fileName : Str) :
    (parseLines now lines fileName).cassetteSnapshots =
      (processedBlocks now lines).flatMap (blockSnapshots fileName) :=
  (parseLines_tracks now lines fileName).2

theorem blockEvent_mem {now : Nat → Timestamp} {lines : List Str} {fileName : Str} {b : Block}
    (hb : b ∈ processedBlocks now lines) :
    blockEvent fileName b ∈ (parseLines now lines fileName).events ↔
      b.recognised fileName = true := by
  obtain ⟨hkept, hproc⟩ := List.mem_filter.mp hb
  constructor
  · intro hev
    obtain ⟨b', hb', hemits, heq⟩ := mem_parseLines hev
    have hkey : b'.key = b.key := by
      simp only [blockEvent, ATMParsedEvent.mk.injEq, Option.some.injEq] at heq
      exact Prod.ext heq.1 heq.2.1
    have hsame : b' = b := List.inj_on_of_nodup_map (keptBlocks_nodup _) hb' hkept hkey
    rw [hsame, emits, Bool.and_eq_true] at hemits
    exact hemits.2
  · intro hrec
    rw [(parseLines_tracks now lines fileName).1, blockEvents]
    refine List.mem_map_of_mem (List.mem_filter.mpr ⟨hkept, ?_⟩)
    rw [emits, hproc, hrec]
    rfl

/-- The snapshots of a parse are those of its blocks, and each of them is found for the event of
its block exactly if no line of a block reports a cassette removed or inserted, no block has rows
of a cassette table, and every block with cash totals names an event besides. -/
theorem snapshots_routed_iff (now : Nat → Timestamp) (lines : List Str) (fileName : Str) :
    let r := parseLines now lines fileName
    let blocks := processedBlocks now lines
    r.cassetteSnapshots = blocks.flatMap (blockSnapshots fileName) ∧
      ((∀ b ∈ blocks, ∀ s ∈ blockSnapshots fileName b, blockEvent fileName b ∈ r.events ∧
          s ∈ matchingSnaps r.cassetteSnapshots (blockEvent fileName b)) ↔
        ∀ b ∈ blocks, Routable b) := by
  intro r blocks
  have hall : r.cassetteSnapshots = blocks.flatMap (blockSnapshots fileName) :=
    snapshots_processed now lines fileName
  have hreach : ∀ b ∈ blocks, ∀ s ∈ blockSnapshots fileName b,
      (blockEvent fileName b ∈ r.events ∧
          s ∈ matchingSnaps r.cassetteSnapshots (blockEvent fileName b)) ↔
        Reaches fileName b s := by
    intro b hb s hs
    have hmem : s ∈ r.cassetteSnapshots := by
      rw [hall]
      exact List.mem_flatMap.mpr ⟨b, hb, hs⟩
    rw [blockEvent_mem hb, matchingSnaps, List.mem_filter]
    simp only [hmem, true_and, Bool.and_eq_true, beq_iff_eq]
    exact ⟨fun ⟨hrec, hstart, hstop⟩ => ⟨hstart, hstop, hrec⟩,
      fun ⟨hstart, hstop, hrec⟩ => ⟨hrec, hstart, hstop⟩⟩
  refine ⟨hall, ?_⟩
  constructor
  · intro h b hb
    exact routable_of_reaches (headed_of_processed hb) fun s hs =>
      (hreach b hb s hs).mp (h b hb s hs)
  · intro h b hb s hs
    exact (hreach b hb s hs).mpr (reaches_of_routable fileName (h b hb) s hs)

end Words

def removedJournal : List Str :=
  ["*5*15/07/2026*08:52*".toList, "TOP CASSETTE REMOVED".toList]

/-- The snapshot of a removed cassette carries the number of its line and is not found for the
event of its block. -/
theorem removed_cassette_not_routed :
    ∃ b ∈ @processedBlocks (fun _ => 0) removedJournal,
      ∃ s ∈ @blockSnapshots asciiAlnum [] b,
        s ∉ matchingSnaps (@parseLines asciiAlnum (fun _ => 0) removedJournal []).cassetteSnapshots
          (@blockEvent asciiAlnum [] b) := by
  decide +kernel

end AtmMonitor.SnapshotRouting
