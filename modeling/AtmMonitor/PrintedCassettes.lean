import AtmMonitor.PrintedText

namespace AtmMonitor.PrintedCassettes

open Library.Regex PyText ParserModels EventPatterns CassetteParser EjParser SnapshotRouting HeaderLines
  HeaderSearch PrintedLines PrintedRows PrintedHeader PrintedMessages PrintedText NvrCheck

/-- The line reports no cassette and stands in no table of cassettes. -/
structure Plain (l : Str) : Prop where
  action : reportsAction l = false
  table : contains l "CASSETTE INFORMATION".toList = false
  rows : ∀ caption ∈ rowCaptions, (search (valuesAfter caption) (strip l)).isNone = true

instance : DecidablePred Plain := fun l =>
  decidable_of_iff (reportsAction l = false ∧ contains l "CASSETTE INFORMATION".toList = false ∧
      ∀ caption ∈ rowCaptions, (search (valuesAfter caption) (strip l)).isNone = true)
    ⟨fun ⟨ha, ht, hr⟩ => ⟨ha, ht, hr⟩, fun ⟨ha, ht, hr⟩ => ⟨ha, ht, hr⟩⟩

theorem reportsAction_unsaid {l : Str} (hremoved : Unsaid "REMOVED" (strip l))
    (hinserted : Unsaid "INSERTED" (strip l)) : reportsAction l = false := by
  have hneeds : ∀ w : String, Needs sameFold w.toList (cassetteAction w) := fun w =>
    needs_phrase w (by simp)
  have hnoRemoved : matchStart CASSETTE_REMOVED_PATTERN (strip l) = none :=
    matchStart_of_needs (hneeds "REMOVED") hremoved
  have hnoInserted : matchStart CASSETTE_INSERTED_PATTERN (strip l) = none :=
    matchStart_of_needs (hneeds "INSERTED") hinserted
  rw [reportsAction, hnoRemoved, hnoInserted]

def cassetteCaptions : List String := ["REMOVED", "INSERTED", "CASSETTE INFORMATION"]

theorem plain_spelt {alphabet l : Str} (h : ∀ w ∈ cassetteCaptions ++ rowCaptions, Lacks alphabet w)
    (hl : Spelt alphabet l) : Plain l := by
  have hunsaid : ∀ w ∈ cassetteCaptions ++ rowCaptions, Unsaid w (strip l) :=
    fun w hw => unsaid_of_lacks (h w hw) (spelt_strip hl)
  refine ⟨reportsAction_unsaid (hunsaid _ (by decide)) (hunsaid _ (by decide)),
    contains_of_unsaid (unsaid_of_lacks (h _ (by decide)) hl), fun caption hc => ?_⟩
  rw [search_lacking hl (h caption (List.mem_append_right _ hc))]
  rfl

theorem plain_headerLine (seqNum : Nat) (d : Datetime) : Plain (headerLine seqNum d) :=
  @plain_spelt [] _ (by decide) (spelt_headerChars [] (headerLine_chars seqNum d))

theorem plain_countRow (counts : PerType Nat) : Plain (countRowText counts) :=
  plain_spelt (by decide) (countRow_spelt counts)

theorem plain_amountLine (n : Nat) : Plain (amountLine n) :=
  @plain_spelt "REQUEST SENT AMOUNT≈".toList _ (by decide +kernel)
    (Spelt.append (fun _ => .inl) (spelt_headerChars _ fun c hc => headerChar_digit (numeral_digits 12 n c hc)))

theorem plain_vocabulary : ∀ row ∈ vocabulary, Plain row.1.toList := by decide +kernel

theorem plain_captions : ∀ w ∈ ["CASH ADDED", "CASH COUNTS CLEARED", "CASH DISPENSED", "CASH REMAINING",
    "CASH REJECTED"], Plain w.toList := by decide +kernel

theorem actionSnapshots_none {ls : List Str} (h : ∀ l ∈ ls, reportsAction l = false) (fileName : Str)
    (startLine : Nat) : actionSnapshots fileName startLine ls = [] := by
  rw [actionSnapshots, List.flatMap_eq_nil_iff]
  intro p hp
  exact (actionLine_eq_nil fileName p.1 p.2).mpr (h p.1 (List.fst_mem_of_mem_zipIdx hp))

theorem totalsLine_rowless {l : Str}
    (h : ∀ caption ∈ rowCaptions, (search (valuesAfter caption) (strip l)).isNone = true) (t : CashTotals) :
    totalsLine t l = t := by
  have hnone := fun caption hc => Option.isNone_iff_eq_none.mp (h caption hc)
  have hdenomination : search DENOMINATION_ROW_PATTERN (strip l) = none := hnone _ (by decide)
  have hdispensed : search DISPENSED_ROW_PATTERN (strip l) = none := hnone _ (by decide)
  have hrejected : search REJECTED_ROW_PATTERN (strip l) = none := hnone _ (by decide)
  have hremaining : search REMAINING_ROW_PATTERN (strip l) = none := hnone _ (by decide)
  rw [totalsLine, hdenomination, hdispensed, hrejected, hremaining]

theorem cashTotals_none {ls : List Str} (h : ∀ l ∈ ls, Plain l) : cashTotals ls = {} := by
  rw [cashTotals]
  induction ls with
  | nil => rfl
  | cons l ls ih =>
    rw [List.foldl_cons, totalsLine_rowless (h l (by simp)).rows]
    exact ih fun l' hl' => h l' (List.mem_cons_of_mem l hl')

section Words

variable [Alnum] {ls : List Str} (fileName : Str) (startLine : Nat)

theorem parseBlock_plain (h : ∀ l ∈ ls, Plain l) : CassetteParser.parseBlock ls fileName startLine =
    if isCleared ls || isAdded ls then countSnapshots (countMode fileName startLine ls) ls [] else [] := by
  have hinfo : hasCassetteInfo ls = false := by
    rw [hasCassetteInfo, List.any_eq_false]
    intro l hl
    rw [(h l hl).table]
    exact Bool.false_ne_true
  have hactions := actionSnapshots_none (fun l hl => (h l hl).action) fileName startLine
  have habsent : ({} : CashTotals).present = false := rfl
  simp only [CassetteParser.parseBlock, hinfo, hactions, cashTotals_none h, habsent, Bool.false_eq_true,
    if_false, Bool.false_and]

end Words

/-- The line neither opens a section nor counts. -/
structure Countless (l : Str) : Prop where
  sections : ∀ w ∈ ["CASH DISPENSED", "CASH REMAINING", "CASH REJECTED"], Unsaid w (strip l)
  count : Unsaid "TYPE" (strip l)

instance : DecidablePred Countless := fun l =>
  decidable_of_iff ((∀ w ∈ ["CASH DISPENSED", "CASH REMAINING", "CASH REJECTED"], Unsaid w (strip l)) ∧
    Unsaid "TYPE" (strip l)) ⟨fun ⟨hs, hc⟩ => ⟨hs, hc⟩, fun ⟨hs, hc⟩ => ⟨hs, hc⟩⟩

theorem search_countless {l : Str} (h : Unsaid "TYPE" l) : search CASH_ROW_TYPE_PATTERN l = none :=
  search_of_needs (needs_seqs (List.mem_cons_self ..) (needs_phrase "TYPE" (by simp))) h

theorem countLine_countless {l : Str} (h : Countless l) (mode : CountMode)
    (st : Option Section × List CassetteSnapshot) : countLine mode st l = st := by
  have hdispensed : found CASH_COUNTS_CLEARED_CASH_DISPENSED (strip l) = false :=
    h.sections "CASH DISPENSED" (by decide)
  have hremaining : found CASH_COUNTS_CLEARED_CASH_REMAINING (strip l) = false :=
    h.sections "CASH REMAINING" (by decide)
  have hrejected : found CASH_COUNTS_CLEARED_CASH_REJECTED (strip l) = false :=
    h.sections "CASH REJECTED" (by decide)
  have hcount := search_countless h.count
  unfold countLine
  simp only [hdispensed, hremaining, hrejected, hcount, Bool.false_eq_true, if_false]

theorem countless_headerLine (seqNum : Nat) (d : Datetime) : Countless (headerLine seqNum d) := by
  have hspelt : Spelt [] (strip (headerLine seqNum d)) :=
    spelt_strip (spelt_headerChars [] (headerLine_chars seqNum d))
  have hlacks : ∀ w ∈ ["CASH DISPENSED", "CASH REMAINING", "CASH REJECTED"], Lacks [] w := by decide
  exact ⟨fun w hw => unsaid_of_lacks (hlacks w hw) hspelt, @unsaid_of_lacks [] _ "TYPE" (by decide) hspelt⟩

theorem countless_captions : ∀ w ∈ ["CASH ADDED", "CASH COUNTS CLEARED"], Countless w.toList := by
  decide +kernel

theorem countLine_section (mode : CountMode) (st : Option Section × List CassetteSnapshot) :
    countLine mode st "CASH DISPENSED".toList = (some .dispensed, st.2) ∧
      countLine mode st "CASH REMAINING".toList = (some .remaining, st.2) ∧
      countLine mode st "CASH REJECTED".toList = (some .rejected, st.2) := by
  have hfound : ∀ w ∈ [("CASH DISPENSED", CASH_COUNTS_CLEARED_CASH_DISPENSED),
      ("CASH REMAINING", CASH_COUNTS_CLEARED_CASH_REMAINING),
      ("CASH REJECTED", CASH_COUNTS_CLEARED_CASH_REJECTED)], found w.2 (strip w.1.toList) = true := by
    decide +kernel
  have hother : ∀ w ∈ [("CASH REMAINING", CASH_COUNTS_CLEARED_CASH_DISPENSED),
      ("CASH REJECTED", CASH_COUNTS_CLEARED_CASH_DISPENSED),
      ("CASH REJECTED", CASH_COUNTS_CLEARED_CASH_REMAINING)], found w.2 (strip w.1.toList) = false := by
    decide +kernel
  simp only [List.forall_mem_cons, List.not_mem_nil, false_imp_iff, implies_true, and_true] at hfound hother
  unfold countLine
  simp only [hfound, hother, if_true, Bool.false_eq_true, if_false, and_self]

theorem countRow_added (fileName : Str) (startLine endLine : Nat) (counts : PerType Nat) :
    countRow ⟨true, .cashAdded, fileName, startLine, endLine⟩ none counts.toList [] =
      (Message.added counts).snapshots fileName startLine endLine := by
  cases counts <;> rfl

theorem countRow_cleared (fileName : Str) (startLine endLine : Nat) (counts : PerType Cleared) :
    let mode : CountMode := ⟨false, .cashCountsCleared, fileName, startLine, endLine⟩
    countRow mode (some .rejected) (counts.map Cleared.rejected).toList
        (countRow mode (some .remaining) (counts.map Cleared.remaining).toList
          (countRow mode (some .dispensed) (counts.map Cleared.dispensed).toList [])) =
      (Message.cleared counts).snapshots fileName startLine endLine := by
  cases counts <;> rfl

theorem cashTotals_columns (seqNum : Nat) (d : Datetime) {columns : List Column} (hne : columns ≠ []) :
    cashTotals (headerLine seqNum d :: totalsLines columns) =
      ⟨columns.map (·.denomination.val), columns.map (·.dispensed.val), columns.map (·.rejected.val),
        columns.map (·.remaining.val)⟩ := by
  have hcells : ∀ cell : Column → Cell, columns.map cell ≠ [] := fun cell h => hne (List.map_eq_nil_iff.mp h)
  have hheading : Plain (totalsHeading columns.length) :=
    plain_spelt (by decide) (totalsHeading_spelt columns.length)
  rw [cashTotals, totalsLines]
  simp only [List.foldl_cons, List.foldl_nil]
  rw [totalsLine_rowless (plain_headerLine seqNum d).rows, totalsLine_rowless hheading.rows,
    totalsLine_denomination _ (hcells _), totalsLine_dispensed _ (hcells _),
    totalsLine_rejected _ (hcells _), totalsLine_remaining _ (hcells _)]
  simp only [List.map_map, Function.comp_def, denominationCell_value, countCell_value]

theorem totalSnapshots_columns (columns : List Column) (fileName : Str) (startLine endLine : Nat) :
    totalSnapshots ⟨columns.map (·.denomination.val), columns.map (·.dispensed.val),
        columns.map (·.rejected.val), columns.map (·.remaining.val)⟩ fileName startLine endLine =
      (columns.zipIdx 1).map fun p => columnSnapshot fileName startLine endLine p.2 p.1 := by
  apply List.ext_getElem
  · simp [totalSnapshots, CashTotals.numCassettes]
  · intro i hi hcolumn
    have hlt : i < columns.length := by simpa using hcolumn
    simp only [totalSnapshots, List.getElem_map, List.getElem_range, List.getElem_zipIdx, totalSnapshot,
      List.getElem?_map, List.getElem?_eq_getElem hlt, Option.map_some, Option.bind_some]
    rw [Nat.add_comm 1 i]
    rfl

theorem position_read : ∀ pos ∈ CASSETTE_POSITION_MAP, 0 < pos.2 ∧
    (matchStart CASSETTE_REMOVED_PATTERN (strip (pos.1 ++ " CASSETTE REMOVED".toList))).map
        (fun m => positionNumber (groupText m "1")) = some pos.2 ∧
      (matchStart CASSETTE_REMOVED_PATTERN (strip (pos.1 ++ " CASSETTE INSERTED".toList))).isNone = true ∧
      (matchStart CASSETTE_INSERTED_PATTERN (strip (pos.1 ++ " CASSETTE INSERTED".toList))).map
        (fun m => positionNumber (groupText m "1")) = some pos.2 := by decide +kernel

theorem position_line : ∀ pos ∈ CASSETTE_POSITION_MAP,
    ∀ w ∈ [" CASSETTE INSERTED", " CASSETTE REMOVED"],
      contains (pos.1 ++ w.toList) "CASSETTE INFORMATION".toList = false ∧
        ∀ caption ∈ rowCaptions, (search (valuesAfter caption) (strip (pos.1 ++ w.toList))).isNone = true := by
  decide +kernel

theorem actionLine_cassette (c : Cassette) (fileName : Str) (lineNo : Nat) :
    actionLine fileName c.line lineNo =
      [{ cassetteNo := c.cassetteNo
         cassetteStatus := if c.inserted then .normal else .missing
         operationType := if c.inserted then .cassetteInserted else .cassetteRemoved
         sourceFileName := fileName
         startLineNumber := lineNo
         endLineNumber := lineNo }] := by
  obtain ⟨hpos, hremoved, hnone, hinserted⟩ := position_read _ c.listed
  cases hcase : c.inserted with
  | true =>
    obtain ⟨m, hm, hno⟩ := Option.map_eq_some_iff.mp hinserted
    rw [actionLine, Cassette.line, hcase, if_pos rfl, Option.isNone_iff_eq_none.mp hnone]
    simp only [hm, actionSnapshot, hno, gt_iff_lt, hpos, if_true]
  | false =>
    obtain ⟨m, hm, hno⟩ := Option.map_eq_some_iff.mp hremoved
    rw [actionLine, Cassette.line, hcase, if_neg Bool.false_ne_true, hm]
    simp only [actionSnapshot, hno, gt_iff_lt, hpos, if_true, Bool.false_eq_true, if_false]

theorem exchanged_none {ls : List Str}
    (h : ∀ l ∈ ls, contains l "CASH COUNTS CLEARED".toList = false ∧ contains l "CASH ADDED".toList = false) :
    (isCleared ls || isAdded ls) = false := by
  rw [isCleared, isAdded, Bool.or_eq_false_iff, List.any_eq_false, List.any_eq_false]
  exact ⟨fun l hl => by rw [(h l hl).1]; exact Bool.false_ne_true,
    fun l hl => by rw [(h l hl).2]; exact Bool.false_ne_true⟩

theorem silent_exchange {l : Str} (h : Silent l) :
    contains l "CASH COUNTS CLEARED".toList = false ∧ contains l "CASH ADDED".toList = false :=
  ⟨h.absent (by decide), h.absent (by decide)⟩

section Words

variable [Alnum] (fileName : Str) (startLine : Nat)

theorem parseBlock_totals (first : Column) (others : List Column) (seqNum : Nat) (d : Datetime) :
    CassetteParser.parseBlock (headerLine seqNum d :: totalsLines (first :: others)) fileName startLine =
      (Message.totals first others).snapshots fileName startLine
        (startLine + (headerLine seqNum d :: totalsLines (first :: others)).length - 1) := by
  have hsilent : ∀ l ∈ headerLine seqNum d :: totalsLines (first :: others), reportsAction l = false ∧
      contains l "CASSETTE INFORMATION".toList = false := by
    have hheading : Plain (totalsHeading (first :: others).length) :=
      plain_spelt (by decide) (totalsHeading_spelt _)
    have hrow : ∀ caption cells, (∀ w ∈ cassetteCaptions, Lacks caption.toList w) →
        reportsAction (rowText caption cells) = false ∧
          contains (rowText caption cells) "CASSETTE INFORMATION".toList = false := by
      intro caption cells h
      have hspelt := rowText_spelt caption cells
      exact ⟨reportsAction_unsaid (unsaid_of_lacks (h _ (by decide)) (spelt_strip hspelt))
        (unsaid_of_lacks (h _ (by decide)) (spelt_strip hspelt)),
        contains_of_unsaid (unsaid_of_lacks (h _ (by decide)) hspelt)⟩
    simp only [totalsLines, List.forall_mem_cons, List.not_mem_nil, false_imp_iff, implies_true, and_true]
    have hheader := plain_headerLine seqNum d
    exact ⟨⟨hheader.action, hheader.table⟩, ⟨hheading.action, hheading.table⟩, hrow _ _ (by decide),
      hrow _ _ (by decide), hrow _ _ (by decide), hrow _ _ (by decide)⟩
  have hinfo : hasCassetteInfo (headerLine seqNum d :: totalsLines (first :: others)) = false := by
    rw [hasCassetteInfo, List.any_eq_false]
    intro l hl
    rw [(hsilent l hl).2]
    exact Bool.false_ne_true
  have hactions := actionSnapshots_none (fun l hl => (hsilent l hl).1) fileName startLine
  have htotals := cashTotals_columns seqNum d (List.cons_ne_nil first others)
  have hpresent : (cashTotals (headerLine seqNum d :: totalsLines (first :: others))).present = true := by
    rw [htotals]
    rfl
  rw [CassetteParser.parseBlock]
  simp only [hinfo, hactions, hpresent, Bool.false_eq_true, if_false, Bool.false_and, if_true, List.nil_append]
  rw [htotals]
  exact totalSnapshots_columns (first :: others) fileName startLine _

theorem parseBlock_phrase (p : Phrase) (seqNum : Nat) (d : Datetime) :
    CassetteParser.parseBlock (headerLine seqNum d :: (Message.phrase p).lines) fileName startLine = [] := by
  have hplain : ∀ l ∈ headerLine seqNum d :: (Message.phrase p).lines, Plain l ∧
      contains l "CASH COUNTS CLEARED".toList = false ∧ contains l "CASH ADDED".toList = false := by
    have hvocabulary : ∀ row ∈ vocabulary, contains row.1.toList "CASH COUNTS CLEARED".toList = false ∧
        contains row.1.toList "CASH ADDED".toList = false := by decide +kernel
    intro l hl
    obtain rfl | hl := List.mem_cons.mp hl
    · exact ⟨plain_headerLine seqNum d, silent_exchange (silent_headerLine seqNum d)⟩
    obtain rfl | hl := List.mem_cons.mp hl
    · exact ⟨plain_vocabulary _ p.listed, hvocabulary _ p.listed⟩
    · obtain ⟨n, -, rfl⟩ := Option.map_eq_some_iff.mp (Option.mem_toList.mp hl)
      exact ⟨plain_amountLine n.val, silent_exchange (silent_amountLine n.val)⟩
  rw [parseBlock_plain fileName startLine fun l hl => (hplain l hl).1,
    exchanged_none fun l hl => (hplain l hl).2]
  rfl

theorem parseBlock_added (counts : PerType Nat) (seqNum : Nat) (d : Datetime) :
    CassetteParser.parseBlock (headerLine seqNum d :: (Message.added counts).lines) fileName startLine =
      (Message.added counts).snapshots fileName startLine (startLine + 2) := by
  have hplain : ∀ l ∈ headerLine seqNum d :: (Message.added counts).lines, Plain l := by
    simp only [Message.lines, List.forall_mem_cons, List.not_mem_nil, false_imp_iff, implies_true, and_true]
    exact ⟨plain_headerLine seqNum d, plain_captions _ (by simp), plain_countRow counts⟩
  have hheader := silent_exchange (silent_headerLine seqNum d)
  have hrow := silent_exchange (silent_countRow counts)
  have hcaption : contains "CASH ADDED".toList "CASH COUNTS CLEARED".toList = false ∧
      contains "CASH ADDED".toList "CASH ADDED".toList = true := by decide
  have hcleared : isCleared (headerLine seqNum d :: (Message.added counts).lines) = false := by
    simp only [Message.lines, isCleared, List.any_cons, List.any_nil, hheader.1, hrow.1, hcaption.1,
      Bool.or_self]
  have hadded : isAdded (headerLine seqNum d :: (Message.added counts).lines) = true := by
    simp only [Message.lines, isAdded, List.any_cons, hcaption.2, Bool.true_or, Bool.or_true]
  rw [parseBlock_plain fileName startLine hplain, hcleared, hadded, countMode, hcleared, hadded,
    countSnapshots]
  simp only [Message.lines, List.foldl_cons, List.foldl_nil, Bool.or_true, if_true, Bool.false_eq_true,
    if_false]
  rw [countLine_countless (countless_headerLine seqNum d),
    countLine_countless (countless_captions "CASH ADDED" (by simp)), countLine_row]
  exact countRow_added fileName startLine _ counts

theorem parseBlock_cleared (counts : PerType Cleared) (seqNum : Nat) (d : Datetime) :
    CassetteParser.parseBlock (headerLine seqNum d :: (Message.cleared counts).lines) fileName startLine =
      (Message.cleared counts).snapshots fileName startLine (startLine + 7) := by
  have hplain : ∀ l ∈ headerLine seqNum d :: (Message.cleared counts).lines, Plain l := by
    simp only [Message.lines, List.forall_mem_cons, List.not_mem_nil, false_imp_iff, implies_true, and_true]
    exact ⟨plain_headerLine seqNum d, plain_captions _ (by simp), plain_captions _ (by simp),
      plain_countRow _, plain_captions _ (by simp), plain_countRow _, plain_captions _ (by simp),
      plain_countRow _⟩
  have hheader := silent_exchange (silent_headerLine seqNum d)
  have hrow := fun counts => silent_exchange (silent_countRow counts)
  have hsection := fun w hw => silent_exchange (silent_sections w hw)
  have hcaption : contains "CASH COUNTS CLEARED".toList "CASH COUNTS CLEARED".toList = true ∧
      contains "CASH COUNTS CLEARED".toList "CASH ADDED".toList = false := by decide
  have hcleared : isCleared (headerLine seqNum d :: (Message.cleared counts).lines) = true := by
    simp only [Message.lines, isCleared, List.any_cons, hcaption.1, Bool.true_or, Bool.or_true]
  have hadded : isAdded (headerLine seqNum d :: (Message.cleared counts).lines) = false := by
    simp only [Message.lines, isAdded, List.any_cons, List.any_nil, hheader.2, (hrow _).2, hcaption.2,
      (hsection "CASH DISPENSED" (by simp)).2, (hsection "CASH REMAINING" (by simp)).2,
      (hsection "CASH REJECTED" (by simp)).2, Bool.or_self]
  rw [parseBlock_plain fileName startLine hplain, hcleared, hadded, countMode, hcleared, hadded,
    countSnapshots]
  simp only [Message.lines, List.foldl_cons, List.foldl_nil, Bool.true_or, if_true]
  rw [countLine_countless (countless_headerLine seqNum d),
    countLine_countless (countless_captions "CASH COUNTS CLEARED" (by simp)), (countLine_section _ _).1,
    countLine_row, (countLine_section _ _).2.1, countLine_row, (countLine_section _ _).2.2, countLine_row]
  exact countRow_cleared fileName startLine _ counts

theorem parseBlock_cassette (c : Cassette) (seqNum : Nat) (d : Datetime) :
    CassetteParser.parseBlock (headerLine seqNum d :: (Message.cassette c).lines) fileName startLine =
      (Message.cassette c).snapshots fileName startLine (startLine + 1) := by
  have hheader := plain_headerLine seqNum d
  have hline : contains c.line "CASSETTE INFORMATION".toList = false ∧
      ∀ caption ∈ rowCaptions, (search (valuesAfter caption) (strip c.line)).isNone = true := by
    rw [Cassette.line]
    split_ifs
    · exact position_line _ c.listed _ (by simp)
    · exact position_line _ c.listed _ (by simp)
  have hinfo : hasCassetteInfo (headerLine seqNum d :: (Message.cassette c).lines) = false := by
    simp only [Message.lines, hasCassetteInfo, List.any_cons, List.any_nil, hheader.table, hline.1, Bool.or_self]
  have htotals : cashTotals (headerLine seqNum d :: (Message.cassette c).lines) = {} := by
    rw [cashTotals, Message.lines]
    simp only [List.foldl_cons, List.foldl_nil]
    rw [totalsLine_rowless hheader.rows, totalsLine_rowless hline.2]
  have hactions : actionSnapshots fileName startLine (headerLine seqNum d :: (Message.cassette c).lines) =
      (Message.cassette c).snapshots fileName startLine (startLine + 1) := by
    rw [actionSnapshots, Message.lines]
    simp only [List.zipIdx_cons, List.zipIdx_nil, List.flatMap_cons, List.flatMap_nil, List.append_nil]
    rw [(actionLine_eq_nil fileName _ startLine).mpr hheader.action, actionLine_cassette]
    rfl
  have hexchange : (isCleared (headerLine seqNum d :: (Message.cassette c).lines) ||
      isAdded (headerLine seqNum d :: (Message.cassette c).lines)) = false := by
    apply exchanged_none
    simp only [Message.lines, List.forall_mem_cons, List.not_mem_nil, false_imp_iff, implies_true, and_true]
    exact ⟨silent_exchange (silent_headerLine seqNum d), silent_exchange (silent_line c)⟩
  have habsent : ({} : CashTotals).present = false := rfl
  simp only [CassetteParser.parseBlock, hinfo, hactions, htotals, habsent, hexchange, Bool.false_eq_true,
    if_false, Bool.false_and]

/-- The snapshots of a printed block are those of its message. -/
theorem snapshots_message (m : Message) (seqNum : Nat) (d : Datetime) :
    CassetteParser.parseBlock (headerLine seqNum d :: m.lines) fileName startLine =
      m.snapshots fileName startLine (startLine + m.lines.length) := by
  cases m with
  | phrase p => exact parseBlock_phrase fileName startLine p seqNum d
  | cassette c => exact parseBlock_cassette fileName startLine c seqNum d
  | totals first others => exact parseBlock_totals fileName startLine first others seqNum d
  | added counts => exact parseBlock_added fileName startLine counts seqNum d
  | cleared counts => exact parseBlock_cleared fileName startLine counts seqNum d

end Words

end AtmMonitor.PrintedCassettes
