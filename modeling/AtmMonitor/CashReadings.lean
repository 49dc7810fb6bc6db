import AtmMonitor.CaseTwins
import AtmMonitor.CountSections

namespace AtmMonitor.CashReadings

open Library.Upsert PyText ParserModels CassetteParser EjParser ParsedBlocks BlockPlaces
  SnapshotRouting CountRows CountSections BlockTwins LetterCase CaseTwins

inductive Reading where
  | plain | table | totals | added (cleared : Bool) | cleared
  deriving DecidableEq

/-- A row counts a cassette that no line reports. -/
def countsNew (lines : List Str) : Bool :=
  (bookings lines).any fun bk => !decide (bk.cassetteNo ∈ reportedCassettes lines)

/-- A row stands under one of the headings of the three sections. -/
def countsSection (lines : List Str) : Bool :=
  (bookings lines).any fun bk => (bk.heading.bind Heading.section?).isSome

def modeOf (added : Bool) (op : OperationType) (fileName : Str) (startLine : Nat)
    (lines : List Str) : CountMode :=
  ⟨added, op, fileName, startLine, startLine + lines.length - 1⟩

def opOf (cleared : Bool) : OperationType := if cleared then .cashCountsCleared else .cashAdded

theorem known_of_not_new {lines : List Str} (h : countsNew lines = false) (fileName : Str)
    (startLine : Nat) : ∀ bk ∈ bookings lines,
      bk.cassetteNo ∈ (actionSnapshots fileName startLine lines).map (·.cassetteNo) := by
  rw [actionSnapshots_cassettes]
  rw [countsNew, List.any_eq_false] at h
  intro bk hbk
  simpa using h bk hbk

theorem countSnapshots_op {lines : List Str} (h : countsNew lines = false) (op op' : OperationType)
    (fileName : Str) (startLine : Nat) :
    countSnapshots (modeOf true op fileName startLine lines) lines
        (actionSnapshots fileName startLine lines) =
      countSnapshots (modeOf true op' fileName startLine lines) lines
        (actionSnapshots fileName startLine lines) := by
  rw [countSnapshots_bookings (fun hadded => absurd hadded (by simp [modeOf])),
    countSnapshots_bookings (fun hadded => absurd hadded (by simp [modeOf]))]
  refine upserts_known (applyBooking_key (modeOf true op fileName startLine lines)) ?_ ?_
  · exact fun _ => rfl
  · exact known_of_not_new h fileName startLine

theorem bookAll_unsectioned {mode : CountMode} (hadded : mode.added = false) {lines : List Str}
    (hnew : countsNew lines = false) (hsection : countsSection lines = false) (fileName : Str)
    (startLine : Nat) :
    bookAll mode (actionSnapshots fileName startLine lines) (bookings lines) =
      actionSnapshots fileName startLine lines := by
  have hnone : ∀ bk ∈ bookings lines, ∀ s, id (applyBooking mode.added bk s) = id s := by
    intro bk hbk s
    rw [countsSection, List.any_eq_false] at hsection
    have hheading : bk.heading.bind Heading.section? = none := by simpa using hsection bk hbk
    rw [applyBooking, hheading, hadded]
    rfl
  have hmap : (bookAll mode (actionSnapshots fileName startLine lines) (bookings lines)).map id =
      (actionSnapshots fileName startLine lines).map id := by
    refine upserts_map (applyBooking_key mode) hnone ?_
    exact known_of_not_new hnew fileName startLine
  rwa [List.map_id, List.map_id] at hmap

/-- The reading of the lines as the snapshots give it away. -/
def seenAs (startLine : Nat) (snaps : List CassetteSnapshot) : Reading :=
  if snaps.any fun s => s.operationType == .balanceUpdate && s.startLineNumber == startLine then .totals
  else if snaps.any fun s => s.operationType == .balanceUpdate then .table
  else if snaps.any fun s => s.loadedNotes.isSome then
    .added (snaps.any fun s => s.operationType == .cashCountsCleared)
  else if snaps.any fun s => s.operationType == .cashCountsCleared || s.dispensedNotes.isSome ||
      s.remainingNotes.isSome || s.rejectedNotes.isSome then .cleared
  else .plain

theorem any_snapshots_same {snaps snaps' : List CassetteSnapshot} (h : SameSnapshots snaps snaps')
    (p : CassetteSnapshot → Bool) (hp : ∀ s, p { s with currencyCode := none } = p s) :
    snaps'.any p = snaps.any p := by
  have hany : ∀ l : List CassetteSnapshot, l.any p = (l.map p).any id := fun l => by
    rw [List.any_map]
    rfl
  rw [hany, hany, map_same h p hp]

theorem seenAs_same {snaps snaps' : List CassetteSnapshot} (h : SameSnapshots snaps snaps')
    (startLine : Nat) : seenAs startLine snaps' = seenAs startLine snaps := by
  rw [seenAs, seenAs, any_snapshots_same h _ fun _ => rfl, any_snapshots_same h _ fun _ => rfl,
    any_snapshots_same h _ fun _ => rfl, any_snapshots_same h _ fun _ => rfl,
    any_snapshots_same h _ fun _ => rfl]

theorem any_none {snaps : List CassetteSnapshot} {p : CassetteSnapshot → Bool}
    (h : ∀ s ∈ snaps, p s = false) : snaps.any p = false :=
  List.any_eq_false.mpr fun s hs => by rw [h s hs]; exact Bool.false_ne_true

theorem seenAs_totals {startLine : Nat} {snaps : List CassetteSnapshot} {s : CassetteSnapshot}
    (hs : s ∈ snaps) (hop : s.operationType = .balanceUpdate)
    (hstart : s.startLineNumber = startLine) : seenAs startLine snaps = .totals := by
  rw [seenAs, if_pos]
  exact List.any_eq_true.mpr ⟨s, hs, by rw [hop, hstart]; simp⟩

theorem seenAs_table {startLine : Nat} {snaps : List CassetteSnapshot}
    (hstart : ∀ s ∈ snaps, s.startLineNumber ≠ startLine) {s : CassetteSnapshot} (hs : s ∈ snaps)
    (hop : s.operationType = .balanceUpdate) : seenAs startLine snaps = .table := by
  rw [seenAs, any_none fun s hs => by simp [hstart s hs], if_neg Bool.false_ne_true, if_pos]
  exact List.any_eq_true.mpr ⟨s, hs, by rw [hop]; rfl⟩

theorem seenAs_added (startLine : Nat) {snaps : List CassetteSnapshot}
    (hop : ∀ s ∈ snaps, s.operationType ≠ .balanceUpdate) {s : CassetteSnapshot} (hs : s ∈ snaps)
    (hloaded : s.loadedNotes.isSome = true) : seenAs startLine snaps =
      .added (snaps.any fun s => s.operationType == .cashCountsCleared) := by
  rw [seenAs, any_none fun s hs => by simp [hop s hs], any_none fun s hs => by simp [hop s hs],
    if_neg Bool.false_ne_true, if_neg Bool.false_ne_true, if_pos]
  exact List.any_eq_true.mpr ⟨s, hs, hloaded⟩

theorem seenAs_unloaded (startLine : Nat) {snaps : List CassetteSnapshot}
    (hop : ∀ s ∈ snaps, s.operationType ≠ .balanceUpdate)
    (hloaded : ∀ s ∈ snaps, s.loadedNotes = none) : seenAs startLine snaps =
      if snaps.any fun s => s.operationType == .cashCountsCleared || s.dispensedNotes.isSome ||
        s.remainingNotes.isSome || s.rejectedNotes.isSome then .cleared else .plain := by
  rw [seenAs, any_none fun s hs => by simp [hop s hs], any_none fun s hs => by simp [hop s hs],
    if_neg Bool.false_ne_true, if_neg Bool.false_ne_true, any_none fun s hs => by simp [hloaded s hs],
    if_neg Bool.false_ne_true]

theorem seenAs_plain (fileName : Str) (startLine : Nat) (lines : List Str) :
    seenAs startLine (actionSnapshots fileName startLine lines) = .plain := by
  have hbare := actionSnapshots_bare fileName startLine lines
  have hop : ∀ s ∈ actionSnapshots fileName startLine lines,
      s.operationType ≠ .balanceUpdate ∧ s.operationType ≠ .cashCountsCleared := by
    intro s hs
    obtain h | h := (hbare s hs).op <;> rw [h] <;> decide
  rw [seenAs_unloaded startLine (fun s hs => (hop s hs).1) fun s hs => (hbare s hs).loaded,
    any_none, if_neg Bool.false_ne_true]
  intro s hs
  simp [(hop s hs).2, (hbare s hs).dispensed, (hbare s hs).remaining, (hbare s hs).rejected]

section Counts

variable (fileName : Str) (startLine : Nat) (lines : List Str)

theorem countSnapshots_ops (added : Bool) (op : OperationType) :
    ∀ s ∈ countSnapshots (modeOf added op fileName startLine lines) lines
      (actionSnapshots fileName startLine lines),
      s.operationType = .cassetteRemoved ∨ s.operationType = .cassetteInserted ∨
        s.operationType = op := by
  refine countSnapshots_all (fun sect val s hs => ?_) (fun _ => Or.inr (Or.inr rfl)) lines ?_
  · rw [(applyCount_frame _ sect val s).2.2]
    exact hs
  · intro s hs
    exact (actionSnapshots_bare fileName startLine lines s hs).op.imp_right Or.inl

theorem countSnapshots_unloaded (op : OperationType) :
    ∀ s ∈ countSnapshots (modeOf false op fileName startLine lines) lines
      (actionSnapshots fileName startLine lines), s.loadedNotes = none := by
  refine countSnapshots_all (fun sect val s hs => ?_) (fun _ => rfl) lines ?_
  · rw [← hs]
    rcases sect with _ | _ | _ | _ <;> rfl
  · exact fun s hs => (actionSnapshots_bare fileName startLine lines s hs).loaded

variable {lines}

theorem exists_new (added : Bool) (hadded : added = false → isAdded lines = false)
    (op : OperationType) (h : countsNew lines = true) :
    ∃ s ∈ countSnapshots (modeOf added op fileName startLine lines) lines
      (actionSnapshots fileName startLine lines), s.operationType = op := by
  obtain ⟨bk, hbk, hnew⟩ := List.any_eq_true.mp h
  rw [countSnapshots_bookings hadded, bookAll_split]
  refine ⟨_, List.mem_append_right _ (mem_unreported.mpr
    ⟨bk.cassetteNo, by simpa using hnew, ⟨bk, hbk, rfl⟩, rfl⟩), ?_⟩
  exact foldBookings_op ..

theorem exists_written {snaps : List CassetteSnapshot} {field : CassetteSnapshot → Option Int}
    {writes : Booking → Bool} {bk : Booking} (hbk : bk ∈ bookings lines) (hwrites : writes bk = true)
    (h : noteOf snaps field bk.cassetteNo = lastCount (bookings lines) writes bk.cassetteNo) :
    ∃ s ∈ snaps, (field s).isSome = true := by
  have hsome : lastCount (bookings lines) writes bk.cassetteNo ≠ none := by
    rw [lastCount, ne_eq, List.getLast?_eq_none_iff, List.filterMap_eq_nil_iff]
    intro hnone
    have hcount := hnone bk (List.mem_filter.mpr ⟨hbk, by simp⟩)
    rw [if_pos hwrites] at hcount
    cases hcount
  rw [← h, noteOf, ← Option.isSome_iff_ne_none] at hsome
  cases hentry : entryOf CassetteSnapshot.cassetteNo snaps bk.cassetteNo with
  | none =>
    rw [hentry] at hsome
    cases hsome
  | some s =>
    rw [hentry] at hsome
    exact ⟨s, List.mem_of_find?_eq_some hentry, hsome⟩

theorem exists_loaded (op : OperationType) (h : (bookings lines).isEmpty = false) :
    ∃ s ∈ countSnapshots (modeOf true op fileName startLine lines) lines
      (actionSnapshots fileName startLine lines), s.loadedNotes.isSome = true := by
  obtain ⟨bk, hbk⟩ := List.exists_mem_of_ne_nil _ (List.isEmpty_eq_false_iff.mp h)
  obtain ⟨-, -, hloaded, -⟩ := notes_bookAll (modeOf true op fileName startLine lines)
    (actionSnapshots_bare fileName startLine lines) (bookings lines) bk.cassetteNo
  rw [countSnapshots_bookings fun hadded => absurd hadded (by simp [modeOf])]
  exact exists_written hbk rfl hloaded

theorem exists_sectioned (hadded : isAdded lines = false) (op : OperationType)
    (h : countsSection lines = true) :
    ∃ s ∈ countSnapshots (modeOf false op fileName startLine lines) lines
      (actionSnapshots fileName startLine lines),
      s.dispensedNotes.isSome = true ∨ s.remainingNotes.isSome = true ∨
        s.rejectedNotes.isSome = true := by
  obtain ⟨bk, hbk, hsection⟩ := List.any_eq_true.mp h
  obtain ⟨hdispensed, hrejected, -, hremaining⟩ :=
    notes_bookAll (modeOf false op fileName startLine lines)
      (actionSnapshots_bare fileName startLine lines) (bookings lines) bk.cassetteNo
  rw [countSnapshots_bookings fun _ => hadded]
  cases hheading : bk.heading with
  | none => simp [hheading] at hsection
  | some heading =>
    cases heading with
    | added => simp [hheading, Heading.section?] at hsection
    | dispensed =>
      obtain ⟨s, hs, hset⟩ := exists_written hbk (by simp [modeOf, hheading]) hdispensed
      exact ⟨s, hs, Or.inl hset⟩
    | remaining =>
      obtain ⟨s, hs, hset⟩ := exists_written hbk (by simp [hheading]) hremaining
      exact ⟨s, hs, Or.inr (Or.inl hset)⟩
    | rejected =>
      obtain ⟨s, hs, hset⟩ := exists_written hbk (by simp [modeOf, hheading]) hrejected
      exact ⟨s, hs, Or.inr (Or.inr hset)⟩

theorem bookings_nonempty (h : countsNew lines = true ∨ countsSection lines = true) :
    (bookings lines).isEmpty = false := by
  rw [List.isEmpty_eq_false_iff]
  intro hnil
  obtain h | h := h
  · rw [countsNew, hnil] at h
    cases h
  · rw [countsSection, hnil] at h
    cases h

theorem seenAs_addedCounts {cleared : Bool} (hrows : (bookings lines).isEmpty = false)
    (hnew : cleared = true → countsNew lines = true) :
    seenAs startLine (countSnapshots (modeOf true (opOf cleared) fileName startLine lines) lines
      (actionSnapshots fileName startLine lines)) = .added cleared := by
  have hops := countSnapshots_ops fileName startLine lines true (opOf cleared)
  obtain ⟨s, hs, hloaded⟩ := exists_loaded fileName startLine (opOf cleared) hrows
  rw [seenAs_added startLine ?_ hs hloaded]
  · congr 1
    cases cleared with
    | true =>
      obtain ⟨s, hs, hsop⟩ := exists_new fileName startLine true (fun h => absurd h (by simp))
        (opOf true) (hnew rfl)
      exact List.any_eq_true.mpr ⟨s, hs, by rw [hsop]; rfl⟩
    | false =>
      apply any_none
      intro s hs
      obtain h | h | h := hops s hs <;> rw [h] <;> rfl
  · intro s hs
    obtain h | h | h := hops s hs <;> rw [h]
    · decide
    · decide
    · cases cleared <;> decide

theorem seenAs_clearedCounts (hadded : isAdded lines = false)
    (h : countsNew lines = true ∨ countsSection lines = true) :
    seenAs startLine (countSnapshots (modeOf false .cashCountsCleared fileName startLine lines) lines
      (actionSnapshots fileName startLine lines)) = .cleared := by
  have hops := countSnapshots_ops fileName startLine lines false .cashCountsCleared
  have hunloaded := countSnapshots_unloaded fileName startLine lines .cashCountsCleared
  rw [seenAs_unloaded startLine ?_ hunloaded, if_pos]
  · obtain h | h := h
    · obtain ⟨s, hs, hsop⟩ := exists_new fileName startLine false (fun _ => hadded)
        .cashCountsCleared h
      exact List.any_eq_true.mpr ⟨s, hs, by rw [hsop]; rfl⟩
    · obtain ⟨s, hs, hset⟩ := exists_sectioned fileName startLine hadded .cashCountsCleared h
      refine List.any_eq_true.mpr ⟨s, hs, ?_⟩
      obtain h | h | h := hset <;> simp [h]
  · intro s hs
    obtain h | h | h := hops s hs <;> rw [h] <;> decide

end Counts

section Words

variable [Alnum]

/-- The lines are a table of cassettes, or report some next to the caption of one. -/
def hasTable (lines : List Str) : Bool :=
  hasCassetteInfo lines && lines.any fun line => reportsAction line || isTableRow line

def readingOf (lines : List Str) : Reading :=
  if hasTable lines then (if lines.any isTableRow then .table else .plain)
  else if (cashTotals lines).present then .totals
  else if isAdded lines && !(bookings lines).isEmpty then .added (isCleared lines && countsNew lines)
  else if isCleared lines && (countsNew lines || countsSection lines) then .cleared
  else .plain

def snapshotsAs (reading : Reading) (fileName : Str) (startLine : Nat) (lines : List Str) :
    List CassetteSnapshot :=
  let actions := actionSnapshots fileName startLine lines
  match reading with
  | .plain => actions
  | .table => actions ++ infoSnapshots fileName startLine lines
  | .totals =>
    actions ++ totalSnapshots (cashTotals lines) fileName startLine (startLine + lines.length - 1)
  | .added cleared =>
    countSnapshots (modeOf true (opOf cleared) fileName startLine lines) lines actions
  | .cleared =>
    countSnapshots (modeOf false .cashCountsCleared fileName startLine lines) lines actions

theorem infoSnapshots_nil {lines : List Str} (fileName : Str) (startLine : Nat) :
    infoSnapshots fileName startLine lines = [] ↔ lines.any isTableRow = false := by
  rw [List.any_eq_false]
  simp only [Bool.not_eq_true]
  exact perLine_nil_iff (perLine_info fileName) lines startLine

theorem known_nonempty (fileName : Str) (startLine : Nat) (lines : List Str) :
    (hasCassetteInfo lines && !(knownSnapshots fileName startLine lines).isEmpty) =
      hasTable lines := by
  rw [hasTable]
  cases hinfo : hasCassetteInfo lines with
  | false => rfl
  | true =>
    have hactions : actionSnapshots fileName startLine lines = [] ↔
        ∀ line ∈ lines, reportsAction line = false :=
      perLine_nil_iff (perLine_action fileName) lines startLine
    have hnil : knownSnapshots fileName startLine lines = [] ↔
        (lines.any fun line => reportsAction line || isTableRow line) = false := by
      rw [knownSnapshots, if_pos hinfo, List.append_eq_nil_iff, infoSnapshots_nil, hactions,
        List.any_eq_false, List.any_eq_false, ← forall₂_and]
      simp only [Bool.or_eq_true, not_or, Bool.not_eq_true]
    rw [Bool.true_and, Bool.true_and]
    cases hany : lines.any fun line => reportsAction line || isTableRow line with
    | true =>
      have hne : knownSnapshots fileName startLine lines ≠ [] := fun h => by
        rw [hnil, hany] at h
        cases h
      rw [List.isEmpty_eq_false_iff.mpr hne]
      rfl
    | false =>
      rw [hnil.mpr hany]
      rfl

theorem known_of_no_table {lines : List Str} (h : hasTable lines = false) (fileName : Str)
    (startLine : Nat) :
    knownSnapshots fileName startLine lines = actionSnapshots fileName startLine lines := by
  rw [← known_nonempty fileName startLine] at h
  rw [knownSnapshots] at h ⊢
  split_ifs with hinfo
  · have hnil : actionSnapshots fileName startLine lines ++
        infoSnapshots fileName startLine lines = [] := by simpa [hinfo] using h
    rw [hnil, (List.append_eq_nil_iff.mp hnil).1]
  · rfl

theorem countMode_added {lines : List Str} (hadded : isAdded lines = true) (fileName : Str)
    (startLine : Nat) :
    countSnapshots (countMode fileName startLine lines) lines
        (actionSnapshots fileName startLine lines) =
      snapshotsAs (if !(bookings lines).isEmpty then .added (isCleared lines && countsNew lines)
        else if isCleared lines && (countsNew lines || countsSection lines) then .cleared
        else .plain) fileName startLine lines := by
  have hmode : countMode fileName startLine lines =
      modeOf true (opOf (isCleared lines)) fileName startLine lines := by
    rw [countMode, hadded]
    rfl
  rw [hmode]
  cases hrows : (bookings lines).isEmpty with
  | true =>
    rw [List.isEmpty_iff] at hrows
    rw [countSnapshots_bookings (fun h => absurd h (by simp [modeOf])), countsNew, countsSection,
      hrows, List.any_nil, Bool.false_or, List.any_nil, Bool.and_false]
    rfl
  | false =>
    cases hnew : countsNew lines with
    | true =>
      rw [Bool.and_true]
      rfl
    | false => exact countSnapshots_op hnew ..

theorem countMode_cleared {lines : List Str} (hadded : isAdded lines = false)
    (hcleared : isCleared lines = true) (fileName : Str) (startLine : Nat) :
    countSnapshots (countMode fileName startLine lines) lines
        (actionSnapshots fileName startLine lines) =
      snapshotsAs (if countsNew lines || countsSection lines then .cleared else .plain) fileName
        startLine lines := by
  have hmode : countMode fileName startLine lines =
      modeOf false .cashCountsCleared fileName startLine lines := by
    rw [countMode, hadded, hcleared]
    rfl
  rw [hmode]
  cases hnew : countsNew lines with
  | true => rfl
  | false =>
    cases hsection : countsSection lines with
    | true => rfl
    | false =>
      rw [countSnapshots_bookings fun _ => hadded]
      exact bookAll_unsectioned rfl hnew hsection fileName startLine

/-- The snapshots of a block are those of its reading. -/
theorem parseBlock_reading (lines : List Str) (fileName : Str) (startLine : Nat) :
    CassetteParser.parseBlock lines fileName startLine =
      snapshotsAs (readingOf lines) fileName startLine lines := by
  rw [parseBlock_stages, laterStages, known_nonempty, readingOf]
  cases htable : hasTable lines with
  | true =>
    have hinfo : hasCassetteInfo lines = true := (Bool.and_eq_true_iff.mp htable).1
    rw [if_pos rfl, if_pos rfl, knownSnapshots, if_pos hinfo]
    cases hrow : lines.any isTableRow with
    | true => rfl
    | false =>
      rw [(infoSnapshots_nil fileName startLine).mpr hrow, List.append_nil]
      rfl
  | false =>
    rw [if_neg Bool.false_ne_true, if_neg Bool.false_ne_true, known_of_no_table htable]
    cases htotals : (cashTotals lines).present with
    | true => rfl
    | false =>
      rw [if_neg Bool.false_ne_true, if_neg Bool.false_ne_true]
      cases hadded : isAdded lines with
      | true =>
        rw [Bool.or_true, if_pos rfl, countMode_added hadded]
        rfl
      | false =>
        rw [Bool.or_false, Bool.false_and, if_neg Bool.false_ne_true]
        cases hcleared : isCleared lines with
        | false => rfl
        | true =>
          rw [if_pos rfl, countMode_cleared hadded hcleared]
          rfl

theorem seenAs_reading (fileName : Str) {b : Block} (hb : Headed b) :
    seenAs b.startLine (blockSnapshots fileName b) = readingOf b.lines := by
  rw [blockSnapshots, parseBlock_reading, readingOf]
  split_ifs with htable hrow htotals hadded hcleared
  · have hne : infoSnapshots fileName b.startLine b.lines ≠ [] := by
      rw [ne_eq, infoSnapshots_nil, hrow]
      exact Bool.false_ne_true.symm
    obtain ⟨s, hs⟩ := List.exists_mem_of_ne_nil _ hne
    exact seenAs_table (starts_after hb) (List.mem_append_right _ hs) (infoSnapshots_op s hs)
  · exact seenAs_plain fileName b.startLine b.lines
  · obtain ⟨s, hs⟩ := List.exists_mem_of_ne_nil _
      (totals_ne_nil htotals fileName b.startLine (b.startLine + b.lines.length - 1))
    obtain ⟨idx, -, hidx⟩ := List.mem_map.mp hs
    exact seenAs_totals (List.mem_append_right _ hs) (by rw [← hidx]; rfl) (by rw [← hidx]; rfl)
  · rw [Bool.and_eq_true, Bool.not_eq_true'] at hadded
    refine seenAs_addedCounts fileName b.startLine hadded.2 fun h => ?_
    exact (Bool.and_eq_true_iff.mp h).2
  · rw [Bool.and_eq_true, Bool.or_eq_true] at hcleared
    have hrows := bookings_nonempty hcleared.2
    rw [hrows, Bool.not_false, Bool.and_true, Bool.not_eq_true] at hadded
    exact seenAs_clearedCounts fileName b.startLine hadded hcleared.2
  · exact seenAs_plain fileName b.startLine b.lines

theorem snapshotsAs_same {lines lines' : List Str} (h : SameLines lines lines') (reading : Reading)
    (fileName : Str) (startLine : Nat) :
    SameSnapshots (snapshotsAs reading fileName startLine lines)
      (snapshotsAs reading fileName startLine lines') := by
  have hactions := actionSnapshots_same h fileName startLine
  cases reading with
  | plain =>
    rw [snapshotsAs, snapshotsAs, hactions]
    exact sameSnapshots_refl _
  | table =>
    rw [snapshotsAs, snapshotsAs, hactions]
    exact List.rel_append (sameSnapshots_refl _) (infoSnapshots_same h fileName startLine)
  | totals =>
    rw [snapshotsAs, snapshotsAs, hactions, cashTotals_same h, h.length_eq]
    exact sameSnapshots_refl _
  | added | cleared =>
    rw [snapshotsAs, snapshotsAs, hactions, countSnapshots_same h, modeOf, modeOf, h.length_eq]
    exact sameSnapshots_refl _

theorem snapshots_same_iff (fileName : Str) {b b' : Block} (h : Twins SameLetter b b')
    (hb : Headed b) (hb' : Headed b') :
    SameSnapshots (blockSnapshots fileName b) (blockSnapshots fileName b') ↔
      readingOf b.lines = readingOf b'.lines := by
  constructor
  · intro hsame
    rw [← seenAs_reading fileName hb, ← seenAs_reading fileName hb', h.startLine, seenAs_same hsame]
  · intro hreading
    rw [blockSnapshots, blockSnapshots, parseBlock_reading, parseBlock_reading, ← hreading,
      h.startLine]
    exact snapshotsAs_same h.lines _ fileName b.startLine

end Words

end AtmMonitor.CashReadings
