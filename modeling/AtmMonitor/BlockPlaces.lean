import AtmMonitor.DatabaseModels
import AtmMonitor.ParsedBlocks

namespace AtmMonitor.BlockPlaces

open Library.Regex PyText ParserModels DatabaseModels NcrDatetime EjParser ParsedBlocks

def unplacedSnapshot (s : CassetteSnapshot) : CassetteSnapshot :=
  { s with startLineNumber := 0, endLineNumber := 0 }

def unplaced (b : Block) : Block := { b with startIdx := 0 }

section Snapshots

open CassetteParser EventPatterns

variable (fileName : Str) (k : Nat)

def renumbered (f : Nat → Nat) (s : CassetteSnapshot) : CassetteSnapshot :=
  { s with startLineNumber := f s.startLineNumber, endLineNumber := f s.endLineNumber }

theorem actionLine_renumbered (f : Nat → Nat) (line : Str) :
    (actionLine fileName line k).map (renumbered f) = actionLine fileName line (f k) := by
  have haction : ∀ op status m, (actionSnapshot op status fileName k m).map (renumbered f) =
      actionSnapshot op status fileName (f k) m := by
    intro op status m
    simp only [actionSnapshot]
    split_ifs <;> rfl
  unfold actionLine
  split
  · exact haction ..
  · split
    · exact haction ..
    · rfl

theorem flatMap_zipIdx_renumbered {g : Str → Nat → List CassetteSnapshot} {f : Nat → Nat}
    (h : ∀ line i, (g line i).map (renumbered f) = g line (f i)) (lines : List Str) :
    ((lines.zipIdx k).flatMap fun p => g p.1 p.2).map (renumbered f) =
      (lines.zipIdx k).flatMap fun p => g p.1 (f p.2) := by
  rw [List.map_flatMap]
  congr 1
  funext p
  exact h p.1 p.2

theorem totalSnapshots_renumbered (f : Nat → Nat) (t : CashTotals) (endLine : Nat) :
    (totalSnapshots t fileName k endLine).map (renumbered f) =
      totalSnapshots t fileName (f k) (f endLine) := by
  rw [totalSnapshots, totalSnapshots, List.map_map]
  rfl

theorem modifyCassette_renumbered {f : Nat → Nat} {g : CassetteSnapshot → CassetteSnapshot}
    (h : ∀ s, renumbered f (g s) = g (renumbered f s)) (fresh : CassetteSnapshot)
    (snaps : List CassetteSnapshot) :
    (modifyCassette fresh g snaps).map (renumbered f) =
      modifyCassette (renumbered f fresh) g (snaps.map (renumbered f)) := by
  induction snaps with
  | nil => rw [modifyCassette, List.map_singleton, h]; rfl
  | cons s rest ih =>
    have hno : ∀ s, (renumbered f s).cassetteNo = s.cassetteNo := fun _ => rfl
    rw [modifyCassette, List.map_cons, modifyCassette, hno, hno]
    split_ifs
    · rw [List.map_cons, h]
    · rw [List.map_cons, ih]

theorem applyCount_renumbered (f : Nat → Nat) (added : Bool) (sect : Option Section) (val : Nat)
    (s : CassetteSnapshot) :
    renumbered f (applyCount added sect val s) = applyCount added sect val (renumbered f s) := by
  cases added with
  | true => rfl
  | false =>
    cases sect with
    | none => rfl
    | some sect => cases sect <;> rfl

def renumberedMode (f : Nat → Nat) (mode : CountMode) : CountMode :=
  { mode with startLine := f mode.startLine, endLine := f mode.endLine }

theorem countRow_renumbered (f : Nat → Nat) (mode : CountMode) (sect : Option Section)
    (vals : List Nat) (snaps : List CassetteSnapshot) :
    (countRow mode sect vals snaps).map (renumbered f) =
      countRow (renumberedMode f mode) sect vals (snaps.map (renumbered f)) := by
  unfold countRow
  generalize vals.zipIdx 1 = ps
  induction ps generalizing snaps with
  | nil => rfl
  | cons p rest ih =>
    rw [List.foldl_cons, List.foldl_cons, ih,
      modifyCassette_renumbered (applyCount_renumbered f mode.added sect p.1)]
    rfl

theorem countSnapshots_renumbered (f : Nat → Nat) (mode : CountMode) (lines : List Str)
    (snaps : List CassetteSnapshot) :
    (countSnapshots mode lines snaps).map (renumbered f) =
      countSnapshots (renumberedMode f mode) lines (snaps.map (renumbered f)) := by
  unfold countSnapshots
  generalize (none : Option Section) = sect
  induction lines generalizing sect snaps with
  | nil => rfl
  | cons line rest ih =>
    have hline : countLine (renumberedMode f mode) (sect, snaps.map (renumbered f)) line =
        ((countLine mode (sect, snaps) line).1,
          (countLine mode (sect, snaps) line).2.map (renumbered f)) := by
      simp only [countLine]
      split_ifs
      · rfl
      · rfl
      · rfl
      · split
        · rw [countRow_renumbered]
        · rfl
    rw [List.foldl_cons, List.foldl_cons, hline]
    exact ih _ _

theorem infoLine_renumbered [Alnum] (f : Nat → Nat) (line : Str) :
    (infoLine fileName line k).map (renumbered f) = infoLine fileName line (f k) := by
  unfold infoLine
  split
  · rfl
  · simp only
    split_ifs <;> rfl

/-- The snapshots of the first two stages. -/
def knownSnapshots [Alnum] (lines : List Str) : List CassetteSnapshot :=
  if hasCassetteInfo lines then actionSnapshots fileName k lines ++ infoSnapshots fileName k lines
  else actionSnapshots fileName k lines

theorem knownSnapshots_renumbered [Alnum] (f : Nat → Nat) (lines : List Str) :
    (knownSnapshots fileName k lines).map (renumbered f) =
      if hasCassetteInfo lines then
        ((lines.zipIdx k).flatMap fun p => actionLine fileName p.1 (f p.2)) ++
          (lines.zipIdx k).flatMap fun p => infoLine fileName p.1 (f p.2)
      else (lines.zipIdx k).flatMap fun p => actionLine fileName p.1 (f p.2) := by
  have haction : (actionSnapshots fileName k lines).map (renumbered f) =
      (lines.zipIdx k).flatMap fun p => actionLine fileName p.1 (f p.2) :=
    flatMap_zipIdx_renumbered k (fun line j => actionLine_renumbered fileName j f line) lines
  have hinfo : (infoSnapshots fileName k lines).map (renumbered f) =
      (lines.zipIdx k).flatMap fun p => infoLine fileName p.1 (f p.2) :=
    flatMap_zipIdx_renumbered k (fun line j => infoLine_renumbered fileName j f line) lines
  unfold knownSnapshots
  split_ifs
  · rw [List.map_append, haction, hinfo]
  · exact haction

/-- What the last two stages of `parse_block` make of the snapshots of the others. -/
def laterStages (lines : List Str) (mode : CountMode) (known : List CassetteSnapshot) :
    List CassetteSnapshot :=
  if hasCassetteInfo lines && !known.isEmpty then known
  else if (cashTotals lines).present then
    known ++ totalSnapshots (cashTotals lines) mode.fileName mode.startLine mode.endLine
  else if isCleared lines || isAdded lines then countSnapshots mode lines known
  else known

theorem parseBlock_stages [Alnum] (lines : List Str) :
    CassetteParser.parseBlock lines fileName k =
      laterStages lines (countMode fileName k lines) (knownSnapshots fileName k lines) := rfl

theorem laterStages_renumbered (f : Nat → Nat) (lines : List Str) (mode : CountMode)
    (known : List CassetteSnapshot) :
    (laterStages lines mode known).map (renumbered f) =
      laterStages lines (renumberedMode f mode) (known.map (renumbered f)) := by
  unfold laterStages
  rw [List.isEmpty_map]
  split_ifs
  · rfl
  · rw [List.map_append, totalSnapshots_renumbered]
    rfl
  · exact countSnapshots_renumbered f mode lines known
  · rfl

def unplacedMode (mode : CountMode) : CountMode := { mode with startLine := 0, endLine := 0 }

theorem laterStages_unplaced (lines : List Str) (mode : CountMode) (known : List CassetteSnapshot) :
    (laterStages lines mode known).map unplacedSnapshot =
      laterStages lines (unplacedMode mode) (known.map unplacedSnapshot) :=
  laterStages_renumbered (fun _ => 0) lines mode known

def linesKnown [Alnum] (table : Bool) (lines : List Str) : List CassetteSnapshot :=
  lines.flatMap (actionLine fileName · 0) ++ if table then lines.flatMap (infoLine fileName · 0) else []

theorem knownSnapshots_lines [Alnum] (lines : List Str) :
    (knownSnapshots fileName k lines).map unplacedSnapshot =
      linesKnown fileName (hasCassetteInfo lines) lines := by
  have hlines : ∀ g : Str → List CassetteSnapshot,
      ((lines.zipIdx k).flatMap fun p => g p.1) = lines.flatMap g := by
    intro g
    rw [← List.flatMap_map, List.zipIdx_map_fst]
  have hunplaced := knownSnapshots_renumbered fileName k (fun _ => 0) lines
  rw [hlines fun line => actionLine fileName line 0, hlines fun line => infoLine fileName line 0]
    at hunplaced
  refine hunplaced.trans ?_
  rw [linesKnown]
  split_ifs
  · rfl
  · exact (List.append_nil _).symm

theorem parseBlock_unplaced [Alnum] (lines : List Str) :
    (CassetteParser.parseBlock lines fileName k).map unplacedSnapshot =
      (CassetteParser.parseBlock lines fileName 0).map unplacedSnapshot := by
  rw [parseBlock_stages, parseBlock_stages, laterStages_unplaced, laterStages_unplaced,
    knownSnapshots_lines, knownSnapshots_lines]
  rfl

theorem parseBlock_shift [Alnum] {k : Nat} (hk : 0 < k) (n : Nat) (lines : List Str) :
    CassetteParser.parseBlock lines fileName (n + k) =
      (CassetteParser.parseBlock lines fileName k).map (renumbered (n + ·)) := by
  have hlines : ∀ g : Str → Nat → List CassetteSnapshot,
      ((lines.zipIdx k).flatMap fun p => g p.1 (n + p.2)) =
        (lines.zipIdx (n + k)).flatMap fun p => g p.1 p.2 := by
    intro g
    rw [← List.map_snd_add_zipIdx_eq_zipIdx, List.flatMap_map]
    simp only [Prod.map_fst, Prod.map_snd, id_eq, Nat.add_comm]
  have hknown : (knownSnapshots fileName k lines).map (renumbered (n + ·)) =
      knownSnapshots fileName (n + k) lines := by
    rw [knownSnapshots_renumbered, hlines (actionLine fileName), hlines (infoLine fileName)]
    rfl
  have hmode : renumberedMode (n + ·) (countMode fileName k lines) =
      countMode fileName (n + k) lines := by
    have hstop : n + (k + lines.length - 1) = n + k + lines.length - 1 := by omega
    simp only [renumberedMode, countMode, hstop]
  rw [parseBlock_stages, parseBlock_stages, laterStages_renumbered, hknown, hmode]

end Snapshots

section Events

variable [Alnum] (fileName : Str) (b : Block)

theorem blockVerdict_unplaced : blockVerdict fileName (unplaced b) = blockVerdict fileName b := by
  apply blockVerdict_congr
  · rfl
  · rfl
  have hsnaps := congrArg (List.map (·.operationType))
    ((parseBlock_unplaced fileName (unplaced b).startLine b.lines).trans
      (parseBlock_unplaced fileName b.startLine b.lines).symm)
  rw [List.map_map, List.map_map] at hsnaps
  exact hsnaps

theorem emits_unplaced : emits fileName (unplaced b) = emits fileName b := by
  rw [emits, emits, Block.recognised, Block.recognised, blockVerdict_unplaced]
  rfl

/-- A row without its identity value and the line number that it got from its chunk. -/
def unplacedRow (r : ATMEvent) : ATMEvent := { r with id := 0, sourceLineNumber := 0 }

/-- What the store keeps of a block. -/
def blockRow (atmId : Nat) : ATMEvent :=
  unplacedRow (ATMEvent.ofParsed 0 atmId (blockEvent fileName b))

theorem blockRow_unplaced (atmId : Nat) :
    blockRow fileName (unplaced b) atmId = blockRow fileName b atmId := by
  rw [blockRow, blockEvent, blockVerdict_unplaced]
  rfl

end Events

def isHeader (line : Str) : Bool := (header? (rstripNewline line)).isSome

/-- The dates of all headers are calendar dates. -/
def Dated (lines : List Str) : Prop :=
  ∀ line ∈ lines, ∀ h ∈ header? (rstripNewline line), (headerTime h.dateText h.timeText).isSome

theorem rstripNewline_idem (line : Str) : rstripNewline (rstripNewline line) = rstripNewline line :=
  List.rdropWhile_idempotent ..

theorem stripped_twice (lines : List Str) :
    (lines.map rstripNewline).map rstripNewline = lines.map rstripNewline := by
  rw [List.map_map]
  congr 1
  funext line
  exact rstripNewline_idem line

theorem Dated.of_stripped {lines : List Str} (h : Dated (lines.map rstripNewline)) :
    Dated lines := by
  intro line hline hd hh
  apply h _ (List.mem_map_of_mem hline) hd
  rwa [rstripNewline_idem]

def journal (lines : List Str) : List Block := (groupBlocks (fun _ => 0) lines).map unplaced

theorem groupFrom_unplaced {now now' : Nat → Timestamp} {idx idx' : Nat}
    {current current' : Option Block} {lines lines' : List Str} (hd : Dated lines)
    (hlines : lines.map rstripNewline = lines'.map rstripNewline)
    (hcurrent : current.map unplaced = current'.map unplaced) :
    (groupFrom now idx current lines).map unplaced =
      (groupFrom now' idx' current' lines').map unplaced := by
  have hlist : ∀ {c c' : Option Block}, c.map unplaced = c'.map unplaced →
      c.toList.map unplaced = c'.toList.map unplaced := by
    intro c c' h
    rw [← Option.toList_map, ← Option.toList_map, h]
  induction lines generalizing idx idx' current current' lines' with
  | nil =>
    obtain rfl : lines' = [] := by simpa using hlines
    exact hlist hcurrent
  | cons line rest ih =>
    cases lines' with
    | nil => simp at hlines
    | cons line' rest' =>
      rw [List.map_cons, List.map_cons, List.cons.injEq] at hlines
      have hrest : Dated rest := fun l hl => hd l (List.mem_cons_of_mem line hl)
      rw [groupFrom, groupFrom, ← hlines.1]
      cases hh : header? (rstripNewline line) with
      | none =>
        apply ih hrest hlines.2
        cases current <;> cases current' <;> simp_all [Block.push, unplaced]
      | some h =>
        obtain ⟨t, ht⟩ := Option.isSome_iff_exists.mp (hd line (by simp) h hh)
        simp only [List.map_append]
        rw [hlist hcurrent]
        congr 1
        apply ih hrest hlines.2
        simp [openBlock, parseNcrDatetime, ht, unplaced]

/-- With good dates the blocks of a chunk are those of its journal, whatever the clock says. -/
theorem groupBlocks_unplaced {lines lines' : List Str} (hd : Dated lines)
    (hlines : lines.map rstripNewline = lines'.map rstripNewline) (now : Nat → Timestamp) :
    (groupBlocks now lines).map unplaced = journal lines' :=
  groupFrom_unplaced hd hlines rfl

theorem groupFrom_append (now : Nat → Timestamp) (idx : Nat) (current : Option Block)
    {lines rest : List Str} (h : ∀ line ∈ rest.head?, isHeader line = true) :
    groupFrom now idx current (lines ++ rest) =
      groupFrom now idx current lines ++ groupFrom now (idx + lines.length) none rest := by
  induction lines generalizing idx current with
  | nil =>
    cases rest with
    | nil => simp [groupFrom]
    | cons line rest =>
      obtain ⟨hd, hh⟩ := Option.isSome_iff_exists.mp (h line rfl)
      simp [groupFrom, hh]
  | cons line lines ih =>
    have hidx : idx + (line :: lines).length = idx + 1 + lines.length := by
      rw [List.length_cons]
      omega
    rw [List.cons_append, groupFrom, groupFrom, hidx]
    cases header? (rstripNewline line) with
    | none => exact ih ..
    | some hd =>
      simp only [List.append_assoc]
      rw [ih]

theorem groupFrom_headless (now : Nat → Timestamp) (idx : Nat) {lines : List Str}
    (h : ∀ line ∈ lines, isHeader line = false) (rest : List Str) :
    groupFrom now idx none (lines ++ rest) = groupFrom now (idx + lines.length) none rest := by
  induction lines generalizing idx with
  | nil => rfl
  | cons line lines ih =>
    have hline : header? (rstripNewline line) = none := by
      simpa [isHeader] using h line (by simp)
    have hidx : idx + (line :: lines).length = idx + 1 + lines.length := by
      rw [List.length_cons]
      omega
    rw [List.cons_append, groupFrom, hline, hidx]
    exact ih (idx + 1) fun l hl => h l (List.mem_cons_of_mem line hl)

/-- The lines that come next do not belong to a block that is open. -/
def Resumes (lines rest : List Str) : Prop :=
  (∀ line ∈ lines, isHeader line = false) ∨ ∀ line ∈ rest.head?, isHeader line = true

instance (lines rest : List Str) : Decidable (Resumes lines rest) :=
  inferInstanceAs (Decidable ((∀ line ∈ lines, isHeader line = false) ∨
    ∀ line ∈ rest.head?, isHeader line = true))

theorem journal_append {lines rest : List Str} (hd : Dated rest) (h : Resumes lines rest) :
    journal (lines ++ rest) = journal lines ++ journal rest := by
  have hmove : ∀ idx, (groupFrom (fun _ => 0) idx none rest).map unplaced = journal rest :=
    fun idx => groupFrom_unplaced hd rfl rfl
  obtain h | h := h
  · have hnone : journal lines = [] := by
      have := groupFrom_headless (fun _ => 0) 0 h []
      rw [List.append_nil] at this
      rw [journal, groupBlocks, this]
      rfl
    rw [hnone, List.nil_append, ← hmove (0 + lines.length), ← groupFrom_headless _ _ h]
    rfl
  · rw [journal, groupBlocks, groupFrom_append _ _ _ h, List.map_append, hmove]
    rfl

theorem journal_blank {lines : List Str} (hd : Dated lines) :
    journal ([] :: lines) = journal lines := by
  have hblank : Resumes [[]] lines := Or.inl (by decide)
  exact journal_append hd hblank

end AtmMonitor.BlockPlaces
