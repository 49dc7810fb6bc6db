import AtmMonitor.HeaderReading
import AtmMonitor.MaskedOperations

namespace AtmMonitor.HeaderSnapshots

open Library.Regex PyText ParserModels EventPatterns CassetteParser EjParser HeaderLines HeaderReading
  BlockPlaces SnapshotRouting CountRows MaskedOperations

structure SnapshotFacts where
  cassetteNo : Nat
  cassetteStatus : CassetteStatus
  loadedNotes : Option Int
  remainingNotes : Option Int
  rejectedNotes : Option Int
  dispensedNotes : Option Int
  operationType : OperationType
  deriving DecidableEq

def snapshotFacts (s : CassetteSnapshot) : SnapshotFacts where
  cassetteNo := s.cassetteNo
  cassetteStatus := s.cassetteStatus
  loadedNotes := s.loadedNotes
  remainingNotes := s.remainingNotes
  rejectedNotes := s.rejectedNotes
  dispensedNotes := s.dispensedNotes
  operationType := s.operationType

theorem facts_unplaced (snaps : List CassetteSnapshot) :
    (snaps.map unplacedSnapshot).map snapshotFacts = snaps.map snapshotFacts := by
  rw [List.map_map]
  rfl

theorem primaries_facts {snaps snaps' : List CassetteSnapshot}
    (h : snaps.map snapshotFacts = snaps'.map snapshotFacts) : primaries snaps = primaries snaps' := by
  have hops := congrArg (List.map SnapshotFacts.operationType) h
  rw [List.map_map, List.map_map] at hops
  rw [primaries_ops, primaries_ops]
  exact congrArg (List.filterMap primaryType) hops

def cassetteType (t : EventType) : Bool := t == .cassetteRemoved || t == .cassetteInserted

theorem cassetteType_action {line : Str} {t : EventType} (h : actionType line = some t) :
    cassetteType t = true := by
  obtain rfl | rfl := actionType_cases h <;> rfl

section Words

variable [Alnum] (fileName : Str)

theorem cassette_primaries (b : Block) :
    (primaries (blockSnapshots fileName b)).filter cassetteType = b.lines.filterMap actionType := by
  have hactions : (b.lines.filterMap actionType).filter cassetteType = b.lines.filterMap actionType := by
    refine List.filter_eq_self.mpr fun t ht => ?_
    obtain ⟨line, -, hline⟩ := List.mem_filterMap.mp ht
    exact cassetteType_action hline
  rw [blockSnapshots]
  by_cases hreach : ReachesCounts b.lines
  · set mode := countMode fileName b.startLine b.lines with hmode
    have hop : ∀ t ∈ primaryType mode.op, cassetteType t = false := by
      rw [hmode, countMode]
      cases isCleared b.lines <;> simp [primaryType, cassetteType]
    have hfresh : (primaries (bookAll mode [] ((bookings b.lines).filter
        fun bk => !decide (bk.cassetteNo ∈ reportedCassettes b.lines)))).filter cassetteType = [] := by
      refine List.filter_eq_nil_iff.mpr fun t ht => ?_
      obtain ⟨s, hs, hst⟩ := List.mem_filterMap.mp ht
      obtain ⟨k, -, -, rfl⟩ := mem_unreported.mp hs
      rw [foldBookings_op] at hst
      simp [hop t hst]
    rw [primaries_reached fileName b.startLine hreach, List.filter_append, hfresh, List.append_nil]
    exact hactions
  · rw [primaries_unreached fileName b.startLine hreach]
    exact hactions

theorem linesKnown_header {header : Str} (h : (header? header).isSome) (table : Bool) (lines : List Str) :
    linesKnown fileName table (header :: lines) = linesKnown fileName table lines := by
  have haction : actionLine fileName header 0 = [] :=
    (actionLine_eq_nil fileName header 0).mpr (reportsAction_header h)
  have hinfo : infoLine fileName header 0 = [] :=
    (infoLine_eq_nil fileName header 0).mpr (isTableRow_header h)
  rw [linesKnown, linesKnown, List.flatMap_cons, List.flatMap_cons, haction, hinfo]
  rfl

theorem blockSnapshots_reading {b : Block} {lines : List Str} (h : SameReading b.lines lines) :
    (blockSnapshots fileName b).map unplacedSnapshot =
      laterStages lines (unplacedMode (countMode fileName 0 lines))
        (linesKnown fileName (hasCassetteInfo lines) b.lines) := by
  rw [blockSnapshots, parseBlock_stages, laterStages_unplaced, knownSnapshots_lines,
    laterStages_reading h, countMode_reading h, h.table]
  rfl

/-- The row is for the first cassette and says that it is well, the other lines make no snapshot of
the first two stages, and the totals have one cassette without any counts. -/
structure OneCassette (x : Str) (body : List Str) : Prop where
  alone : ∀ line ∈ body, reportsAction line = false ∧ isTableRow line = false
  row : ∀ s ∈ infoLine [] x 0, s.cassetteNo = 1 ∧ s.cassetteStatus = .normal
  totals : ∃ d, cashTotals (x :: body) = { denoms := [d] }

omit fileName in
theorem infoLine_row {x : Str} (h : isTableRow x = true) : ∃ cNo status value currency,
    ∀ fileName n, infoLine fileName x n =
      [{ cassetteNo := cNo, cassetteStatus := status, denomination := some value,
         currencyCode := currency, operationType := .balanceUpdate, sourceFileName := fileName,
         startLineNumber := n, endLineNumber := n }] := by
  unfold isTableRow at h
  unfold infoLine
  cases hm : matchStart CASSETTE_INFO_ROW (strip x) with
  | none => simp [hm] at h
  | some m =>
    simp only [hm, decide_eq_true_eq] at h
    simp only [if_pos h]
    exact ⟨_, _, _, _, fun _ _ => rfl⟩

omit [Alnum] in
theorem totals_single {t : CashTotals} {cNo : Nat} {status : CassetteStatus} :
    (totalSnapshots t fileName 0 0).map snapshotFacts =
        [⟨cNo, status, none, none, none, none, .balanceUpdate⟩] ↔
      (cNo = 1 ∧ status = .normal) ∧ ∃ d, t = { denoms := [d] } := by
  constructor
  · intro h
    have hone : t.numCassettes = 1 := by
      have hlength := congrArg List.length h
      rwa [List.length_map, totalSnapshots, List.length_map, List.length_range] at hlength
    rw [totalSnapshots, hone] at h
    simp only [List.range_one, List.map_cons, List.map_nil, snapshotFacts, totalSnapshot, zero_add,
      List.cons.injEq, SnapshotFacts.mk.injEq, Option.map_eq_none_iff, List.getElem?_eq_none_iff,
      Nat.le_zero, List.length_eq_zero_iff, and_true] at h
    obtain ⟨hno, hstatus, -, hremaining, hrejected, hdispensed⟩ := h
    obtain ⟨d, hd⟩ : ∃ d, t.denoms = [d] := by
      rw [← List.length_eq_one_iff, ← hone, CashTotals.numCassettes, hremaining, hrejected, hdispensed]
      simp
    rw [hremaining] at hstatus
    refine ⟨⟨hno.symm, hstatus.symm⟩, d, ?_⟩
    cases t
    simp only at hd hremaining hrejected hdispensed
    rw [hd, hremaining, hrejected, hdispensed]
  · rintro ⟨⟨rfl, rfl⟩, d, rfl⟩
    rfl

theorem linesKnown_eq_nil (lines : List Str) : linesKnown fileName true lines = [] ↔
    ∀ line ∈ lines, reportsAction line = false ∧ isTableRow line = false := by
  simp only [linesKnown, if_true, List.append_eq_nil_iff, List.flatMap_eq_nil_iff, actionLine_eq_nil,
    infoLine_eq_nil]
  exact ⟨fun h line hline => ⟨h.1 line hline, h.2 line hline⟩,
    fun h => ⟨fun line hline => (h line hline).1, fun line hline => (h line hline).2⟩⟩

omit [Alnum] in
theorem laterStages_rows {lines : List Str} (h : hasCassetteInfo lines = true) (mode : CountMode)
    {known : List CassetteSnapshot} (hne : known ≠ []) : laterStages lines mode known = known := by
  have hempty : known.isEmpty = false := List.isEmpty_eq_false_iff.mpr hne
  rw [laterStages, h, hempty]
  rfl

theorem facts_row {x : Str} {body : List Str} {mode : CountMode} (hmode : mode.op ≠ .balanceUpdate)
    (hinfo : hasCassetteInfo (x :: body) = true) (haction : reportsAction x = false)
    (hrow : isTableRow x = true) :
    (laterStages (x :: body) (unplacedMode mode) (linesKnown fileName true body)).map snapshotFacts =
        (laterStages (x :: body) (unplacedMode mode)
          (linesKnown fileName true (x :: body))).map snapshotFacts ↔ OneCassette x body := by
  obtain ⟨cNo, status, value, currency, hline⟩ := infoLine_row hrow
  have hbelow : linesKnown fileName true (x :: body) = body.flatMap (actionLine fileName · 0) ++
      infoLine fileName x 0 ++ body.flatMap (infoLine fileName · 0) := by
    rw [linesKnown, List.flatMap_cons, List.flatMap_cons, (actionLine_eq_nil fileName x 0).mpr haction,
      if_pos rfl, List.nil_append, List.append_assoc]
  have hsome : linesKnown fileName true (x :: body) ≠ [] := by
    rw [hbelow, hline]
    simp
  rw [laterStages_rows hinfo (unplacedMode mode) hsome]
  by_cases halone : linesKnown fileName true body = []
  · have hnone := halone
    rw [linesKnown, if_pos rfl, List.append_eq_nil_iff] at hnone
    rw [halone, hbelow, hnone.1, hnone.2, hline, List.nil_append, List.append_nil]
    have hone : OneCassette x body ↔ (cNo = 1 ∧ status = .normal) ∧
        ∃ d, cashTotals (x :: body) = { denoms := [d] } := by
      constructor
      · exact fun h => ⟨h.row _ (by rw [hline]; exact List.mem_singleton_self _), h.totals⟩
      · refine fun h => ⟨(linesKnown_eq_nil fileName body).mp halone, fun s hs => ?_, h.2⟩
        rw [hline, List.mem_singleton] at hs
        rw [hs]
        exact h.1
    have hno : ¬ (cashTotals (x :: body)).present = true → ¬ ((cNo = 1 ∧ status = .normal) ∧
        ∃ d, cashTotals (x :: body) = { denoms := [d] }) := by
      rintro hpresent ⟨-, d, hd⟩
      rw [hd] at hpresent
      exact hpresent rfl
    rw [hone, laterStages, hinfo]
    simp only [List.isEmpty_nil, Bool.not_true, Bool.and_false, Bool.false_eq_true, if_false,
      List.nil_append]
    split_ifs with hpresent hcounts
    · exact totals_single mode.fileName
    · refine iff_of_false (fun h => ?_) (hno hpresent)
      obtain ⟨s, rest, hsnaps, hfacts, -⟩ := List.map_eq_cons_iff.mp h
      have hs : s ∈ countSnapshots (unplacedMode mode) (x :: body) [] := hsnaps ▸ List.mem_cons_self ..
      have hwhole := (countSnapshots_frame (unplacedMode mode) (x :: body) []).1 (by simp) s hs
      exact hmode (hwhole.op.symm.trans (congrArg SnapshotFacts.operationType hfacts))
    · exact iff_of_false (by simp) (hno hpresent)
  · have hlength : ¬ OneCassette x body := fun h =>
      halone ((linesKnown_eq_nil fileName body).mpr h.alone)
    rw [laterStages_rows hinfo (unplacedMode mode) halone]
    refine iff_of_false (fun h => ?_) hlength
    have hlength := congrArg List.length h
    rw [List.length_map, List.length_map, hbelow, hline, linesKnown, if_pos rfl] at hlength
    simp only [List.length_append, List.length_singleton] at hlength
    omega

structure ReadsLike (b : Block) (lines rest : List Str) : Prop where
  headed : ∃ header, b.lines = header :: rest ∧ (header? header).isSome
  reading : SameReading b.lines lines

omit [Alnum] in
theorem ReadsLike.actions {b : Block} {lines rest : List Str} (h : ReadsLike b lines rest) :
    b.lines.filterMap actionType = rest.filterMap actionType := by
  obtain ⟨header, hlines, hheader⟩ := h.headed
  have hnone : actionType header = none := by
    rw [← Option.not_isSome_iff_eq_none, actionType_isSome, reportsAction_header hheader]
    exact Bool.false_ne_true
  rw [hlines, List.filterMap_cons, hnone]

theorem ReadsLike.facts {b : Block} {lines rest : List Str} (h : ReadsLike b lines rest) :
    (blockSnapshots fileName b).map snapshotFacts =
      (laterStages lines (unplacedMode (countMode fileName 0 lines))
        (linesKnown fileName (hasCassetteInfo lines) rest)).map snapshotFacts := by
  obtain ⟨header, hlines, hheader⟩ := h.headed
  rw [← facts_unplaced, blockSnapshots_reading fileName h.reading, hlines,
    linesKnown_header fileName hheader]

variable {b b' : Block} {x : Str} {body : List Str} (hbeside : ReadsLike b (x :: body) body)
  (hbelow : ReadsLike b' (x :: body) (x :: body))

include hbeside hbelow

theorem no_action_of_facts
    (h : (blockSnapshots fileName b).map snapshotFacts = (blockSnapshots fileName b').map snapshotFacts) :
    reportsAction x = false := by
  have hactions := congrArg (List.filter cassetteType) (primaries_facts h)
  rw [cassette_primaries, cassette_primaries, hbeside.actions, hbelow.actions] at hactions
  rw [← actionType_isSome, Option.isSome_eq_false_iff, Option.isNone_iff_eq_none]
  cases htype : actionType x with
  | none => rfl
  | some t =>
    rw [List.filterMap_cons, htype] at hactions
    have hlength := congrArg List.length hactions
    rw [List.length_cons] at hlength
    omega

/-- The snapshots say the same just when the text reports no cassette removed or inserted and is no
row of a table, unless the totals make the one snapshot that the row makes. -/
theorem snapshotFacts_iff :
    (blockSnapshots fileName b).map snapshotFacts = (blockSnapshots fileName b').map snapshotFacts ↔
      reportsAction x = false ∧
        (hasCassetteInfo (x :: body) = true → isTableRow x = true → OneCassette x body) := by
  by_cases haction : reportsAction x = false
  · have hmode : (countMode fileName 0 (x :: body)).op ≠ .balanceUpdate := by
      rw [countMode]
      cases isCleared (x :: body) <;> simp
    rw [hbeside.facts, hbelow.facts, and_iff_right haction]
    cases hinfo : hasCassetteInfo (x :: body) with
    | false =>
      have hsame : linesKnown fileName false (x :: body) = linesKnown fileName false body := by
        rw [linesKnown, linesKnown, List.flatMap_cons, (actionLine_eq_nil fileName x 0).mpr haction]
        rfl
      simp [hsame]
    | true =>
      cases hrow : isTableRow x with
      | false =>
        have hsame : linesKnown fileName true (x :: body) = linesKnown fileName true body := by
          rw [linesKnown, linesKnown, List.flatMap_cons, List.flatMap_cons,
            (actionLine_eq_nil fileName x 0).mpr haction, (infoLine_eq_nil fileName x 0).mpr hrow]
          rfl
        simp [hsame]
      | true => simpa using facts_row fileName hmode hinfo haction hrow
  · exact iff_of_false (fun h => haction (no_action_of_facts fileName hbeside hbelow h))
      fun h => haction h.1

end Words

end AtmMonitor.HeaderSnapshots
