import AtmMonitor.CountRows
import AtmMonitor.SnapshotOwners

namespace AtmMonitor.MaskedOperations

open Library.Regex Library.Upsert PyText ParserModels EventPatterns CassetteParser SupervisorParser
  EjParser ParsedBlocks BlockPlaces SnapshotRouting CountRows

def reportsRemoval (line : Str) : Bool := (matchStart CASSETTE_REMOVED_PATTERN (strip line)).isSome

def reportsInsertion (line : Str) : Bool := (matchStart CASSETTE_INSERTED_PATTERN (strip line)).isSome

/-- The phrase is a line of the text that the operational patterns are searched in. -/
def reportsPhrase (b : Block) (words : String) : Bool := found (linePhrase words) b.searchText

/-- The flags say what the body of the block reports. -/
structure FlagsRight (b : Block) (e : ATMParsedEvent) : Prop where
  removed : e.isCassetteRemoved = true ↔ ∃ line ∈ b.lines.tail, reportsRemoval line = true
  inserted : e.isCassetteInserted = true ↔ ∃ line ∈ b.lines.tail, reportsInsertion line = true
  binRemoved : e.isRejectBinRemoved = true ↔ reportsPhrase b "REJECT BIN REMOVED" = true
  binInserted : e.isRejectBinInserted = true ↔ reportsPhrase b "REJECT BIN INSERTED" = true

/-- The operation that a line reports of a cassette with a known position. -/
def actionType (line : Str) : Option EventType :=
  match matchStart CASSETTE_REMOVED_PATTERN (strip line) with
  | some m => if positionNumber (groupText m "1") > 0 then some .cassetteRemoved else none
  | none =>
    match matchStart CASSETTE_INSERTED_PATTERN (strip line) with
    | some m => if positionNumber (groupText m "1") > 0 then some .cassetteInserted else none
    | none => none

def primaries (snaps : List CassetteSnapshot) : List EventType :=
  snaps.filterMap fun s => primaryType s.operationType

theorem primaries_balance {snaps : List CassetteSnapshot}
    (h : ∀ s ∈ snaps, s.operationType = .balanceUpdate) : primaries snaps = [] := by
  rw [primaries, List.filterMap_eq_nil_iff]
  intro s hs
  rw [h s hs]
  rfl

theorem primaries_append (xs ys : List CassetteSnapshot) :
    primaries (xs ++ ys) = primaries xs ++ primaries ys := List.filterMap_append

theorem primaries_ops (snaps : List CassetteSnapshot) :
    primaries snaps = (snaps.map (·.operationType)).filterMap primaryType := by
  rw [primaries, List.filterMap_map]
  rfl

theorem primaries_actions (fileName : Str) (startLine : Nat) (lines : List Str) :
    primaries (actionSnapshots fileName startLine lines) = lines.filterMap actionType := by
  have hline : ∀ (line : Str) (n : Nat),
      primaries (actionLine fileName line n) = (actionType line).toList := by
    intro line n
    unfold actionLine actionType
    cases matchStart CASSETTE_REMOVED_PATTERN (strip line) with
    | some m =>
      simp only [actionSnapshot]
      split_ifs <;> rfl
    | none =>
      cases matchStart CASSETTE_INSERTED_PATTERN (strip line) with
      | some m =>
        simp only [actionSnapshot]
        split_ifs <;> rfl
      | none => rfl
  rw [actionSnapshots]
  induction lines generalizing startLine with
  | nil => rfl
  | cons line rest ih =>
    have hrest := ih (startLine + 1)
    rw [primaries] at hrest ⊢
    rw [List.zipIdx_cons, List.flatMap_cons, List.filterMap_append, hrest, List.filterMap_cons]
    have hhead := hline line startLine
    rw [primaries] at hhead
    rw [hhead]
    cases actionType line <;> rfl

theorem actionType_isSome (line : Str) : (actionType line).isSome = reportsAction line := by
  unfold actionType reportsAction
  cases matchStart CASSETTE_REMOVED_PATTERN (strip line) with
  | some m => by_cases hp : positionNumber (groupText m "1") > 0 <;> simp [hp]
  | none =>
    cases matchStart CASSETTE_INSERTED_PATTERN (strip line) with
    | some m => by_cases hp : positionNumber (groupText m "1") > 0 <;> simp [hp]
    | none => rfl

theorem actionType_removal {line : Str} (h : actionType line = some .cassetteRemoved) :
    reportsRemoval line = true := by
  unfold actionType at h
  rw [reportsRemoval]
  cases hm : matchStart CASSETTE_REMOVED_PATTERN (strip line) with
  | some m => rfl
  | none =>
    rw [hm] at h
    cases hi : matchStart CASSETTE_INSERTED_PATTERN (strip line) <;> simp [hi] at h

theorem actionType_insertion {line : Str} (h : actionType line = some .cassetteInserted) :
    reportsInsertion line = true := by
  unfold actionType at h
  rw [reportsInsertion]
  cases hm : matchStart CASSETTE_REMOVED_PATTERN (strip line) with
  | some m => simp [hm] at h
  | none =>
    rw [hm] at h
    cases hi : matchStart CASSETTE_INSERTED_PATTERN (strip line) with
    | some m => rfl
    | none => simp [hi] at h

theorem actionType_cases {line : Str} {t : EventType} (h : actionType line = some t) :
    t = .cassetteRemoved ∨ t = .cassetteInserted := by
  unfold actionType at h
  cases hm : matchStart CASSETTE_REMOVED_PATTERN (strip line) with
  | some m =>
    rw [hm] at h
    simp only [Option.ite_none_right_eq_some, Option.some.injEq] at h
    exact Or.inl h.2.symm
  | none =>
    rw [hm] at h
    cases hi : matchStart CASSETTE_INSERTED_PATTERN (strip line) with
    | some m =>
      rw [hi] at h
      simp only [Option.ite_none_right_eq_some, Option.some.injEq] at h
      exact Or.inr h.2.symm
    | none => simp [hi] at h

/-- The type of the event before the snapshots of the block are looked at. -/
def baseType (b : Block) : EventType :=
  match supervisorAction b.lines with
  | some true => .supervisorModeEntered
  | some false => .supervisorModeExited
  | none => ((operationalMatch b.searchText).map (·.evType)).getD .unknown

section Words

variable [Alnum]

theorem eventType_eq (fileName : Str) (b : Block) :
    (blockEvent fileName b).eventType =
      (primaries (blockSnapshots fileName b)).getLast?.getD (baseType b) := by
  have hbase : (supervisorVerdict (textVerdict b.searchText)
      (SupervisorParser.parseBlock b.lines b.seq b.dt fileName b.startLine)).eventType =
        baseType b := by
    rw [SupervisorParser.parseBlock, baseType]
    cases supervisorAction b.lines with
    | some entered => cases entered <;> rfl
    | none =>
      rw [textVerdict]
      cases operationalMatch b.searchText <;> rfl
  have hlast : ∀ v : Verdict, ((blockSnapshots fileName b).foldl (fun v s => snapshotVerdict v s)
      v).eventType = (primaries (blockSnapshots fileName b)).getLast?.getD v.eventType := by
    refine foldl_last (f := fun s v => snapshotVerdict v s) (fun s v => ?_) _
    rw [snapshotVerdict]
    cases primaryType s.operationType <;> rfl
  rw [← hbase]
  exact hlast _

/-- The rows of the block make snapshots of cassettes that no line reports. -/
def AddsCounts (lines : List Str) : Prop :=
  ReachesCounts lines ∧ ∃ bk ∈ bookings lines, bk.cassetteNo ∉ reportedCassettes lines

theorem primaries_known (fileName : Str) (startLine : Nat) (lines : List Str) :
    primaries (knownSnapshots fileName startLine lines) = lines.filterMap actionType := by
  have hinfo : primaries (infoSnapshots fileName startLine lines) = [] :=
    primaries_balance infoSnapshots_op
  rw [knownSnapshots]
  split_ifs
  · rw [primaries_append, hinfo, List.append_nil, primaries_actions]
  · exact primaries_actions fileName startLine lines

theorem primaries_unreached (fileName : Str) (startLine : Nat) {lines : List Str}
    (h : ¬ ReachesCounts lines) :
    primaries (CassetteParser.parseBlock lines fileName startLine) = lines.filterMap actionType := by
  have htotals : ∀ stop, primaries (totalSnapshots (cashTotals lines) fileName startLine stop) = [] :=
    fun stop => primaries_balance fun s hs => (mem_totals hs).2.2
  obtain hparse | hparse := parseBlock_uncounted h fileName startLine
  · rw [hparse, primaries_known]
  · rw [hparse, primaries_append, htotals, List.append_nil, primaries_known]

theorem primaries_reached (fileName : Str) (startLine : Nat) {lines : List Str}
    (h : ReachesCounts lines) :
    primaries (CassetteParser.parseBlock lines fileName startLine) = lines.filterMap actionType ++
      primaries (bookAll (countMode fileName startLine lines) [] ((bookings lines).filter
        fun bk => !decide (bk.cassetteNo ∈ reportedCassettes lines))) := by
  rw [parseBlock_split h, primaries_append, primaries_ops, reported_ops, ← primaries_ops,
    primaries_actions]

theorem primaries_uncounted (fileName : Str) {b : Block} (h : ¬ AddsCounts b.lines) :
    primaries (blockSnapshots fileName b) = b.lines.filterMap actionType := by
  rw [blockSnapshots]
  by_cases hreach : ReachesCounts b.lines
  · have hnone : ((bookings b.lines).filter
        fun bk => !decide (bk.cassetteNo ∈ reportedCassettes b.lines)) = [] := by
      rw [List.filter_eq_nil_iff]
      intro bk hbk hnew
      exact h ⟨hreach, bk, hbk, by simpa using hnew⟩
    rw [primaries_reached fileName b.startLine hreach, hnone]
    exact List.append_nil _
  · exact primaries_unreached fileName b.startLine hreach

theorem primaries_counted (fileName : Str) {b : Block} (h : AddsCounts b.lines) :
    (primaries (blockSnapshots fileName b)).getLast? = some .cashCountsCleared ∨
      (primaries (blockSnapshots fileName b)).getLast? = some .cashAdded := by
  obtain ⟨hreach, bk, hbk, hnew⟩ := h
  set mode := countMode fileName b.startLine b.lines with hmode
  set fresh := bookAll mode [] ((bookings b.lines).filter
    fun bk => !decide (bk.cassetteNo ∈ reportedCassettes b.lines)) with hfresh
  have hops : ∀ s ∈ fresh, s.operationType = mode.op := by
    intro s hs
    obtain ⟨k, -, -, rfl⟩ := mem_unreported.mp hs
    exact foldBookings_op _ _ _
  obtain ⟨t, ht, htype⟩ : ∃ t, primaryType mode.op = some t ∧
      (t = .cashCountsCleared ∨ t = .cashAdded) := by
    rw [hmode, countMode]
    cases isCleared b.lines
    · exact ⟨_, rfl, Or.inr rfl⟩
    · exact ⟨_, rfl, Or.inl rfl⟩
  have hprimaries : ∀ t' ∈ primaries fresh, t' = t := by
    intro t' ht'
    obtain ⟨s, hs, hst⟩ := List.mem_filterMap.mp ht'
    rw [hops s hs, ht] at hst
    exact (Option.some.inj hst).symm
  obtain ⟨s, hs⟩ : ∃ s, s ∈ fresh :=
    ⟨_, mem_unreported.mpr ⟨bk.cassetteNo, hnew, ⟨bk, hbk, rfl⟩, rfl⟩⟩
  have hmem : t ∈ primaries fresh :=
    List.mem_filterMap.mpr ⟨s, hs, by rw [hops s hs, ht]⟩
  have hlast : (primaries fresh).getLast? = some t := by
    rw [List.getLast?_eq_some_getLast (List.ne_nil_of_mem hmem)]
    exact congrArg some (hprimaries _ (List.getLast_mem _))
  have hall : (primaries (blockSnapshots fileName b)).getLast? = some t := by
    rw [blockSnapshots, primaries_reached fileName b.startLine hreach, List.getLast?_append, hlast]
    rfl
  rw [hall]
  exact htype.imp (congrArg some) (congrArg some)

def BodyReports (b : Block) (reports : Str → Bool) : Prop := ∃ line ∈ b.lines.tail, reports line = true

/-- An operation on a cassette shows if the position of a cassette in one of its lines is known, the
block reports nothing else and its rows add no counts. -/
structure CassetteAlone (b : Block) (other : Str → Bool) : Prop where
  other : ¬ BodyReports b other
  binRemoved : reportsPhrase b "REJECT BIN REMOVED" = false
  binInserted : reportsPhrase b "REJECT BIN INSERTED" = false
  position : BodyReports b reportsAction
  counts : ¬ AddsCounts b.lines

/-- An operation on the reject bin shows if its entry is the first of the table that matches, no
line is for the supervisor, the block reports nothing else and its rows add no counts. -/
structure BinAlone (b : Block) (other : String) (type : EventType) : Prop where
  removal : ¬ BodyReports b reportsRemoval
  insertion : ¬ BodyReports b reportsInsertion
  other : reportsPhrase b other = false
  first : (operationalMatch b.searchText).map (·.evType) = some type
  supervisor : supervisorAction b.lines = none
  counts : ¬ AddsCounts b.lines

structure Unmasked (b : Block) : Prop where
  removal : BodyReports b reportsRemoval → CassetteAlone b reportsInsertion
  insertion : BodyReports b reportsInsertion → CassetteAlone b reportsRemoval
  binRemoved : reportsPhrase b "REJECT BIN REMOVED" = true →
    BinAlone b "REJECT BIN INSERTED" .rejectBinRemoved
  binInserted : reportsPhrase b "REJECT BIN INSERTED" = true →
    BinAlone b "REJECT BIN REMOVED" .rejectBinInserted

omit [Alnum] in
theorem bin_entries : ∀ o ∈ OPERATIONAL_PATTERNS,
    (o.evType = .rejectBinRemoved → o.pattern = linePhrase "REJECT BIN REMOVED") ∧
      (o.evType = .rejectBinInserted → o.pattern = linePhrase "REJECT BIN INSERTED") ∧
      o.evType ≠ .cassetteRemoved ∧ o.evType ≠ .cassetteInserted := by
  simp [OPERATIONAL_PATTERNS]

omit [Alnum] in
theorem bodyReports_of_action {b : Block} (hb : Headed b) {reports : Str → Bool} {t : EventType}
    (h : ∃ line ∈ b.lines, actionType line = some t)
    (hreports : ∀ line, actionType line = some t → reports line = true) : BodyReports b reports := by
  obtain ⟨header, rest, hlines, hhead⟩ := hb
  obtain ⟨line, hline, ht⟩ := h
  rw [hlines, List.mem_cons] at hline
  obtain rfl | hline := hline
  · have hnone := reportsAction_header hhead
    rw [← actionType_isSome, ht] at hnone
    cases hnone
  · exact ⟨line, by rwa [hlines], hreports line ht⟩

omit [Alnum] in
theorem baseType_cases (b : Block) (t : EventType)
    (ht : t ≠ .supervisorModeEntered ∧ t ≠ .supervisorModeExited ∧ t ≠ .unknown) :
    baseType b = t ↔ supervisorAction b.lines = none ∧
      (operationalMatch b.searchText).map (·.evType) = some t := by
  rw [baseType]
  cases supervisorAction b.lines with
  | some entered => cases entered <;> simp [ht.1.symm, ht.2.1.symm]
  | none => cases operationalMatch b.searchText <;> simp [ht.2.2.symm]

omit [Alnum] in
theorem baseType_no_cassette (b : Block) :
    baseType b ≠ .cassetteRemoved ∧ baseType b ≠ .cassetteInserted := by
  have hentry : ∀ t, t ≠ .supervisorModeEntered ∧ t ≠ .supervisorModeExited ∧ t ≠ .unknown →
      (∀ o ∈ OPERATIONAL_PATTERNS, o.evType ≠ t) → baseType b ≠ t := by
    intro t ht hnot h
    obtain ⟨-, hmatch⟩ := (baseType_cases b t ht).mp h
    obtain ⟨o, ho, hto⟩ := Option.map_eq_some_iff.mp hmatch
    exact hnot o (List.mem_of_find?_eq_some ho) hto
  exact ⟨hentry _ (by decide) fun o ho => (bin_entries o ho).2.2.1,
    hentry _ (by decide) fun o ho => (bin_entries o ho).2.2.2⟩

theorem eventType_cases (fileName : Str) (b : Block) :
    (AddsCounts b.lines ∧ ((blockEvent fileName b).eventType = .cashCountsCleared ∨
        (blockEvent fileName b).eventType = .cashAdded)) ∨
      (¬ AddsCounts b.lines ∧ ∃ line ∈ b.lines,
        actionType line = some (blockEvent fileName b).eventType) ∨
      (¬ AddsCounts b.lines ∧ (∀ line ∈ b.lines, actionType line = none) ∧
        (blockEvent fileName b).eventType = baseType b) := by
  rw [eventType_eq]
  by_cases hcounts : AddsCounts b.lines
  · obtain h | h := primaries_counted fileName hcounts <;> simp [h, hcounts]
  · rw [primaries_uncounted fileName hcounts]
    cases hlast : (b.lines.filterMap actionType).getLast? with
    | some t =>
      obtain ⟨line, hline, ht⟩ := List.mem_filterMap.mp (List.mem_of_getLast? hlast)
      exact Or.inr (Or.inl ⟨hcounts, line, hline, ht⟩)
    | none =>
      rw [List.getLast?_eq_none_iff, List.filterMap_eq_nil_iff] at hlast
      exact Or.inr (Or.inr ⟨hcounts, hlast, rfl⟩)

omit [Alnum] in
theorem bodyReports_action {b : Block} (hb : Headed b) {t : EventType}
    (h : ∃ line ∈ b.lines, actionType line = some t) : BodyReports b reportsAction :=
  bodyReports_of_action hb h fun line ht => by rw [← actionType_isSome, ht]; rfl

theorem eventType_of_cassetteAlone (fileName : Str) {b : Block} (hb : Headed b) {t t' : EventType}
    {other : Str → Bool} (hcases : ∀ line u, actionType line = some u → u = t ∨ u = t')
    (hother : ∀ line, actionType line = some t' → other line = true) (h : CassetteAlone b other) :
    (blockEvent fileName b).eventType = t := by
  obtain ⟨hcounts, -⟩ | ⟨-, line, hline, ht⟩ | ⟨-, hnone, -⟩ := eventType_cases fileName b
  · exact absurd hcounts h.counts
  · obtain hu | hu := hcases line _ ht
    · exact hu
    · rw [hu] at ht
      exact absurd (bodyReports_of_action hb ⟨line, hline, ht⟩ hother) h.other
  · obtain ⟨line, hline, haction⟩ := h.position
    rw [← actionType_isSome, hnone line (List.mem_of_mem_tail hline)] at haction
    cases haction

theorem cassette_eventType (fileName : Str) {b : Block} (hb : Headed b) {t : EventType}
    (ht : t = .cassetteRemoved ∨ t = .cassetteInserted)
    (h : (blockEvent fileName b).eventType = t) :
    BodyReports b reportsAction ∧ ¬ AddsCounts b.lines ∧ ∃ line ∈ b.lines, actionType line = some t := by
  obtain ⟨-, hop⟩ | ⟨hcounts, hline⟩ | ⟨-, -, hbase⟩ := eventType_cases fileName b
  · rw [h] at hop
    rcases ht with rfl | rfl <;> simp at hop
  · rw [h] at hline
    exact ⟨bodyReports_action hb hline, hcounts, hline⟩
  · rw [h] at hbase
    obtain ⟨hremoved, hinserted⟩ := baseType_no_cassette b
    rcases ht with rfl | rfl
    · exact absurd hbase.symm hremoved
    · exact absurd hbase.symm hinserted

theorem eventType_named (fileName : Str) (b : Block) {t : EventType}
    (ht : t ≠ .supervisorModeEntered ∧ t ≠ .supervisorModeExited ∧ t ≠ .unknown)
    (hop : t ∉ [.cassetteRemoved, .cassetteInserted, .cashCountsCleared, .cashAdded]) :
    (blockEvent fileName b).eventType = t ↔
      ¬ AddsCounts b.lines ∧ (∀ line ∈ b.lines, actionType line = none) ∧
        supervisorAction b.lines = none ∧
        (operationalMatch b.searchText).map (·.evType) = some t := by
  have hcases := eventType_cases fileName b
  constructor
  · intro h
    rw [h] at hcases
    obtain ⟨-, hcount | hcount⟩ | ⟨-, line, -, haction⟩ | ⟨hcounts, hnone, hbase⟩ := hcases
    · exact absurd (by simp [hcount]) hop
    · exact absurd (by simp [hcount]) hop
    · obtain rfl | rfl := actionType_cases haction <;> exact absurd (by simp) hop
    · exact ⟨hcounts, hnone, (baseType_cases b t ht).mp hbase.symm⟩
  · rintro ⟨hcounts, hnone, hbase⟩
    obtain ⟨h, -⟩ | ⟨-, line, hline, haction⟩ | ⟨-, -, htype⟩ := hcases
    · exact absurd h hcounts
    · rw [hnone line hline] at haction
      cases haction
    · rw [htype]
      exact (baseType_cases b t ht).mpr hbase

theorem eventType_of_binAlone (fileName : Str) {b : Block} (hb : Headed b) {other : String}
    {t : EventType} (ht : t = .rejectBinRemoved ∨ t = .rejectBinInserted) (h : BinAlone b other t) :
    (blockEvent fileName b).eventType = t := by
  have hnone : ∀ line ∈ b.lines, actionType line = none := by
    intro line hline
    rw [Option.eq_none_iff_forall_ne_some]
    intro u hu
    obtain rfl | rfl := actionType_cases hu
    · exact h.removal (bodyReports_of_action hb ⟨line, hline, hu⟩ fun _ => actionType_removal)
    · exact h.insertion (bodyReports_of_action hb ⟨line, hline, hu⟩ fun _ => actionType_insertion)
  rw [eventType_named fileName b (by rcases ht with rfl | rfl <;> decide)
    (by rcases ht with rfl | rfl <;> decide)]
  exact ⟨h.counts, hnone, h.supervisor, h.first⟩

theorem bin_eventType (fileName : Str) {b : Block} {t : EventType}
    (ht : t = .rejectBinRemoved ∨ t = .rejectBinInserted)
    (h : (blockEvent fileName b).eventType = t) :
    ¬ AddsCounts b.lines ∧ supervisorAction b.lines = none ∧
      (operationalMatch b.searchText).map (·.evType) = some t := by
  rw [eventType_named fileName b (by rcases ht with rfl | rfl <;> decide)
    (by rcases ht with rfl | rfl <;> decide)] at h
  exact ⟨h.1, h.2.2⟩

omit [Alnum] in
theorem phrase_of_first {b : Block} {t : EventType} {words : String}
    (hentry : ∀ o ∈ OPERATIONAL_PATTERNS, o.evType = t → o.pattern = linePhrase words)
    (h : (operationalMatch b.searchText).map (·.evType) = some t) : reportsPhrase b words = true := by
  obtain ⟨o, ho, hto⟩ := Option.map_eq_some_iff.mp h
  have hfound := List.find?_some ho
  rwa [hentry o (List.mem_of_find?_eq_some ho) hto] at hfound

theorem flagsRight_type (fileName : Str) (b : Block) :
    FlagsRight b (blockEvent fileName b) ↔
      ((blockEvent fileName b).eventType = .cassetteRemoved ↔ BodyReports b reportsRemoval) ∧
      ((blockEvent fileName b).eventType = .cassetteInserted ↔ BodyReports b reportsInsertion) ∧
      ((blockEvent fileName b).eventType = .rejectBinRemoved ↔
        reportsPhrase b "REJECT BIN REMOVED" = true) ∧
      ((blockEvent fileName b).eventType = .rejectBinInserted ↔
        reportsPhrase b "REJECT BIN INSERTED" = true) := by
  have hremoved : (blockEvent fileName b).isCassetteRemoved = true ↔
      (blockEvent fileName b).eventType = .cassetteRemoved := beq_iff_eq
  have hinserted : (blockEvent fileName b).isCassetteInserted = true ↔
      (blockEvent fileName b).eventType = .cassetteInserted := beq_iff_eq
  have hbinRemoved : (blockEvent fileName b).isRejectBinRemoved = true ↔
      (blockEvent fileName b).eventType = .rejectBinRemoved := beq_iff_eq
  have hbinInserted : (blockEvent fileName b).isRejectBinInserted = true ↔
      (blockEvent fileName b).eventType = .rejectBinInserted := beq_iff_eq
  rw [← hremoved, ← hinserted, ← hbinRemoved, ← hbinInserted]
  exact ⟨fun h => ⟨h.removed, h.inserted, h.binRemoved, h.binInserted⟩,
    fun h => ⟨h.1, h.2.1, h.2.2.1, h.2.2.2⟩⟩

theorem flagsRight_iff (fileName : Str) {b : Block} (hb : Headed b) :
    FlagsRight b (blockEvent fileName b) ↔ Unmasked b := by
  rw [flagsRight_type]
  have hremoval : ∀ line, actionType line = some .cassetteRemoved → reportsRemoval line = true :=
    fun _ => actionType_removal
  have hinsertion : ∀ line, actionType line = some .cassetteInserted → reportsInsertion line = true :=
    fun _ => actionType_insertion
  constructor
  · rintro ⟨hr, hi, hbr, hbi⟩
    refine ⟨fun h => ?_, fun h => ?_, fun h => ?_, fun h => ?_⟩
    · have htype := hr.mpr h
      obtain ⟨hposition, hcounts, -⟩ := cassette_eventType fileName hb (Or.inl rfl) htype
      rw [htype] at hi hbr hbi
      exact ⟨fun h' => by simpa using hi.mpr h', by simpa using hbr, by simpa using hbi, hposition,
        hcounts⟩
    · have htype := hi.mpr h
      obtain ⟨hposition, hcounts, -⟩ := cassette_eventType fileName hb (Or.inr rfl) htype
      rw [htype] at hr hbr hbi
      exact ⟨fun h' => by simpa using hr.mpr h', by simpa using hbr, by simpa using hbi, hposition,
        hcounts⟩
    · have htype := hbr.mpr h
      obtain ⟨hcounts, hsupervisor, hfirst⟩ := bin_eventType fileName (Or.inl rfl) htype
      rw [htype] at hr hi hbi
      exact ⟨fun h' => by simpa using hr.mpr h', fun h' => by simpa using hi.mpr h',
        by simpa using hbi, hfirst, hsupervisor, hcounts⟩
    · have htype := hbi.mpr h
      obtain ⟨hcounts, hsupervisor, hfirst⟩ := bin_eventType fileName (Or.inr rfl) htype
      rw [htype] at hr hi hbr
      exact ⟨fun h' => by simpa using hr.mpr h', fun h' => by simpa using hi.mpr h',
        by simpa using hbr, hfirst, hsupervisor, hcounts⟩
  · rintro ⟨hr, hi, hbr, hbi⟩
    refine ⟨?_, ?_, ?_, ?_⟩
    · refine ⟨fun h => ?_, fun h => eventType_of_cassetteAlone fileName hb
        (fun line u => actionType_cases) hinsertion (hr h)⟩
      obtain ⟨-, -, hline⟩ := cassette_eventType fileName hb (Or.inl rfl) h
      exact bodyReports_of_action hb hline hremoval
    · refine ⟨fun h => ?_, fun h => eventType_of_cassetteAlone fileName hb
        (fun line u hu => (actionType_cases hu).symm) hremoval (hi h)⟩
      obtain ⟨-, -, hline⟩ := cassette_eventType fileName hb (Or.inr rfl) h
      exact bodyReports_of_action hb hline hinsertion
    · refine ⟨fun h => ?_, fun h => eventType_of_binAlone fileName hb (Or.inl rfl) (hbr h)⟩
      exact phrase_of_first (fun o ho => (bin_entries o ho).1)
        (bin_eventType fileName (Or.inl rfl) h).2.2
    · refine ⟨fun h => ?_, fun h => eventType_of_binAlone fileName hb (Or.inr rfl) (hbi h)⟩
      exact phrase_of_first (fun o ho => (bin_entries o ho).2.1)
        (bin_eventType fileName (Or.inr rfl) h).2.2

/-- The flags of the event of a block are right exactly if none of its operations masks another. -/
theorem operations_unmasked_iff (now : Nat → Timestamp) (lines : List Str) (fileName : Str) :
    let blocks := (processedBlocks now lines).filter (·.recognised fileName)
    (parseLines now lines fileName).events = blocks.map (blockEvent fileName) ∧
      ∀ b ∈ blocks, (FlagsRight b (blockEvent fileName b) ↔ Unmasked b) := by
  intro blocks
  refine ⟨SnapshotOwners.parseLines_processed now lines fileName, fun b hb => ?_⟩
  exact flagsRight_iff fileName (headed_of_processed (List.mem_of_mem_filter hb))

end Words

def swapJournal : List Str :=
  ["*5*15/07/2026*08:52*".toList, "TOP CASSETTE REMOVED".toList, "TOP CASSETTE INSERTED".toList]

/-- Of a cassette that is taken out and put back only the second shows. -/
theorem removal_masked :
    ∃ b ∈ (processedBlocks (fun _ => 0) swapJournal).filter (@Block.recognised asciiAlnum []),
      BodyReports b reportsRemoval ∧ (@blockEvent asciiAlnum [] b).isCassetteRemoved = false ∧
        ¬ FlagsRight b (@blockEvent asciiAlnum [] b) := by
  have hblock :
      ∃ b ∈ (processedBlocks (fun _ => 0) swapJournal).filter (@Block.recognised asciiAlnum []),
        (∃ line ∈ b.lines.tail, reportsRemoval line = true) ∧
          (@blockEvent asciiAlnum [] b).isCassetteRemoved = false := by
    decide +kernel
  obtain ⟨b, hb, hreports, hflag⟩ := hblock
  refine ⟨b, hb, hreports, hflag, fun h => ?_⟩
  have hset := h.removed.mpr hreports
  rw [hflag] at hset
  cases hset

end AtmMonitor.MaskedOperations
