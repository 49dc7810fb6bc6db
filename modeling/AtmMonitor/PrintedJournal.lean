import AtmMonitor.BlockAccounts
import AtmMonitor.PrintedCassettes

namespace AtmMonitor.PrintedJournal

open Library.Regex Library.FirstWins PyText ParserModels EventPatterns EjParser TrimmedLines HeaderSearch ParsedBlocks
  ParseClock BlockAccounts BrowserDate Decimal PrintedLines PrintedRows PrintedHeader PrintedMessages PrintedText
  PrintedCassettes NvrCheck

/-- A message under its header line. -/
structure Record where
  seqNum : Nat
  time : Datetime
  indent : Nat
  message : Message
  isDate : IsDate time

def Record.body (r : Record) : List Str := r.message.lines.map (List.replicate r.indent ' ' ++ ·)

def Record.lines (r : Record) : List Str := headerLine r.seqNum r.time :: r.body

def printed (records : List Record) : List Str := (records.flatMap Record.lines).map (· ++ ['\n'])

structure Entry where
  startIdx : Nat
  record : Record

def entries : Nat → List Record → List Entry
  | _, [] => []
  | idx, r :: rest => ⟨idx, r⟩ :: entries (idx + r.lines.length) rest

theorem entries_record (idx : Nat) (records : List Record) : (entries idx records).map Entry.record = records := by
  induction records generalizing idx with
  | nil => rfl
  | cons r rest ih => exact congrArg (List.cons r) (ih _)

def Entry.startLine (e : Entry) : Nat := e.startIdx + 1
def Entry.endLine (e : Entry) : Nat := e.startIdx + e.record.lines.length
def Entry.key (e : Entry) : Option (Nat × Timestamp) := some (e.record.seqNum, minuteOf e.record.time)

/-- The entries that are read: of several with one number and minute, the first. -/
def firsts (records : List Record) : List Entry := Library.FirstWins.record Entry.key [] (entries 0 records)

section Expected

variable (fileName : Str)

def Entry.event (e : Entry) : Option ATMParsedEvent :=
  e.record.message.verdict.map fun v =>
    { eventSequenceNumber := some e.record.seqNum
      eventTime := minuteOf e.record.time
      eventType := v.eventType
      eventCategory := v.eventCategory
      severity := v.severity
      confidence := v.confidence
      terminalStatus := v.terminalStatus
      message := some ("Parsed ".toList ++ v.eventType.name ++ " event".toList)
      amount := e.record.message.amount
      supervisorMode := v.supervisorMode
      isCashAdded := v.eventType == .cashAdded
      isCashRemoved := v.eventType == .cashCountsCleared
      isCassetteInserted := v.eventType == .cassetteInserted
      isCassetteRemoved := v.eventType == .cassetteRemoved
      isRejectBinInserted := v.eventType == .rejectBinInserted
      isRejectBinRemoved := v.eventType == .rejectBinRemoved
      isTransactionStart := v.eventType == .transactionStart
      isTransactionEnd := v.eventType == .transactionEnd
      rawEvent := joinLines e.record.lines
      sourceFileName := fileName
      startLineNumber := e.startLine
      endLineNumber := e.endLine }

/-- A table of totals makes no event. -/
def Entry.warning (e : Entry) : Option ParserWarning :=
  match e.record.message.verdict with
  | some _ => none
  | none => some
    { sequenceNumber := some e.record.seqNum
      eventTime := some (minuteOf e.record.time)
      message := "Unknown or unhandled event block".toList
      rawEvent := joinLines e.record.lines
      sourceFileName := fileName
      startLineNumber := e.startLine
      endLineNumber := e.endLine }

def Entry.snapshots (e : Entry) : List CassetteSnapshot :=
  e.record.message.snapshots fileName e.startLine e.endLine

end Expected

def Entry.block (e : Entry) : Block :=
  ⟨e.record.seqNum, minuteOf e.record.time, [], e.record.lines, e.startIdx⟩

def Entry.flush (e : Entry) : Block :=
  { e.block with lines := headerLine e.record.seqNum e.record.time :: e.record.message.lines }

theorem clean_lines (m : Message) : ∀ l ∈ m.lines, Clean l := clean_reads (reads_message m)

theorem strip_indent (k : Nat) (l : Str) : strip (List.replicate k ' ' ++ l) = strip l := by
  have hblank : ∀ c ∈ List.replicate k ' ', isSpace c = true := by
    intro c hc
    rw [List.eq_of_mem_replicate hc]
    rfl
  rw [strip, strip, List.dropWhile_append_of_pos hblank]

theorem strip_body (r : Record) : r.body.map strip = r.message.lines := by
  rw [Record.body, List.map_map]
  conv_rhs => rw [← List.map_id r.message.lines]
  refine List.map_congr_left fun l hl => ?_
  rw [Function.comp_apply, strip_indent]
  exact (clean_lines r.message l hl).trimmed

theorem trimmed_flush (e : Entry) : Trimmed e.flush e.block := by
  refine ⟨rfl, rfl, rfl, rfl, ?_⟩
  have hlines : e.record.message.lines.map strip = e.record.message.lines := by
    conv_rhs => rw [← List.map_id e.record.message.lines]
    exact List.map_congr_left fun l hl => (clean_lines e.record.message l hl).trimmed
  rw [Entry.block, Entry.flush, Record.lines, List.map_cons, List.map_cons, strip_body, hlines]

section Words

variable [Alnum] (fileName : Str) (e : Entry)

omit [Alnum] in
theorem searchText_flush :
    e.flush.searchText = joinLines (front e.record.seqNum e.record.time ++ e.record.message.lines) := by
  have hlines : e.flush.lines.map strip = e.flush.lines := by
    rw [← (trimmed_flush e).lines]
    exact congrArg₂ List.cons (strip_headerLine _ _) (strip_body e.record)
  rw [Block.searchText, hlines]
  exact (joinLines_cons [] _ _).symm

theorem blockSnapshots_entry : blockSnapshots fileName e.block = e.snapshots fileName := by
  have hlength : e.startLine + e.record.message.lines.length = e.endLine := by
    rw [Entry.startLine, Entry.endLine, Record.lines, Record.body, List.length_cons, List.length_map]
    omega
  rw [(trimmed_flush e).blockSnapshots, Entry.snapshots, ← hlength]
  exact snapshots_message fileName e.startLine e.record.message e.record.seqNum e.record.time

omit [Alnum] in
theorem foldl_snapshotVerdict {v : Verdict} {snaps : List CassetteSnapshot}
    (h : ∀ s ∈ snaps, snapshotVerdict v s = v) : snaps.foldl snapshotVerdict v = v := by
  induction snaps with
  | nil => rfl
  | cons s rest ih =>
    rw [List.foldl_cons, h s (by simp)]
    exact ih fun s' hs' => h s' (List.mem_cons_of_mem s hs')

omit [Alnum] in
theorem verdict_message (m : Message) (startLine endLine : Nat) :
    (m.snapshots fileName startLine endLine).foldl snapshotVerdict (wording m) = m.verdict.getD {} := by
  cases m with
  | phrase p => rfl
  | cassette c =>
    rw [Message.verdict, Message.snapshots]
    cases c.inserted <;> rfl
  | totals first others =>
    refine foldl_snapshotVerdict fun s hs => ?_
    obtain ⟨p, -, rfl⟩ := List.mem_map.mp hs
    rfl
  | added counts =>
    refine foldl_snapshotVerdict fun s hs => ?_
    obtain ⟨p, -, rfl⟩ := List.mem_map.mp hs
    rfl
  | cleared counts =>
    refine foldl_snapshotVerdict fun s hs => ?_
    obtain ⟨p, -, rfl⟩ := List.mem_map.mp hs
    rfl

omit [Alnum] in
theorem facts_entry : TextFacts e.block.searchText
    (SupervisorParser.supervisorAction e.record.message.lines) (wording e.record.message) := by
  rw [(trimmed_flush e).searchText, searchText_flush]
  exact textFacts (reads_message e.record.message) (silent_front e.record.seqNum e.record.time)

theorem blockVerdict_entry : blockVerdict fileName e.block = e.record.message.verdict.getD {} := by
  have hheader := (silent_headerLine e.record.seqNum e.record.time).supervisor
  have haction : SupervisorParser.supervisorAction e.flush.lines =
      SupervisorParser.supervisorAction e.record.message.lines := supervisorAction_silent hheader _
  have hverdict := (facts_entry e).verdict
  rw [(trimmed_flush e).searchText] at hverdict
  rw [(trimmed_flush e).blockVerdict, blockVerdict, ← (trimmed_flush e).blockSnapshots, supervisorVerdict_parse,
    haction, hverdict, blockSnapshots_entry]
  exact verdict_message fileName e.record.message e.startLine e.endLine

omit [Alnum] in
theorem verdict_matched (m : Message) : (m.verdict.getD {}).matched = m.verdict.isSome := by
  cases m with
  | phrase p =>
    have hvocabulary : ∀ row ∈ vocabulary, row.2.matched = true := by decide
    exact hvocabulary _ p.listed
  | cassette c =>
    rw [Message.verdict]
    cases c.inserted <;> rfl
  | _ => rfl

theorem recognised_entry : e.block.recognised fileName = e.record.message.verdict.isSome := by
  rw [Block.recognised, blockVerdict_entry, verdict_matched]
  cases e.record.message.verdict <;> rfl

omit [Alnum] in
theorem eventType_wording {v : Verdict} (hv : e.record.message.verdict = some v) (t : EventType)
    (ht : t = .transactionStart ∨ t = .transactionEnd) :
    ((wording e.record.message).eventType == t) = (v.eventType == t) := by
  cases hm : e.record.message with
  | phrase p =>
    rw [hm] at hv
    rw [← Option.some.inj hv]
    rfl
  | cassette c =>
    rw [hm, Message.verdict] at hv
    rw [← Option.some.inj hv]
    obtain rfl | rfl := ht <;> cases c.inserted <;> rfl
  | totals first others =>
    rw [hm] at hv
    cases hv
  | added counts =>
    rw [hm] at hv
    rw [← Option.some.inj hv]
    rfl
  | cleared counts =>
    rw [hm] at hv
    rw [← Option.some.inj hv]
    rfl

omit [Alnum] in
theorem endLine_block : e.block.endLine = e.endLine := by
  have hlines : e.block.lines.length = e.record.lines.length := rfl
  have hstart : e.block.startIdx = e.startIdx := rfl
  rw [Block.endLine, Block.startLine, Entry.endLine, hlines, hstart]
  omega

/-- The event of a printed block is the one that the message tells. -/
theorem blockEvent_entry {v : Verdict} (hv : e.record.message.verdict = some v) :
    e.event fileName = some (blockEvent fileName e.block) := by
  have hfacts := facts_entry e
  have hverdict : blockVerdict fileName e.block = v := by rw [blockVerdict_entry, hv]; rfl
  have hfields : transactionFields (textVerdict e.block.searchText).eventType e.block.searchText =
      { amount := e.record.message.amount } := by
    rw [(trimmed_flush e).searchText, searchText_flush]
    exact fields_message e.record.message e.record.seqNum e.record.time
  have hnames : ∀ t : EventType,
      contains t.name "TransactionStart".toList = (t == .transactionStart) ∧
        contains t.name "TransactionEnd".toList = (t == .transactionEnd) := by
    intro t
    cases t <;> decide
  have hstarts : contains e.block.searchText "*TRANSACTION START*".toList = (v.eventType == .transactionStart) :=
    hfacts.starts.trans (eventType_wording e hv _ (.inl rfl))
  have hends : contains e.block.searchText "TRANSACTION END".toList = (v.eventType == .transactionEnd) :=
    hfacts.ends.trans (eventType_wording e hv _ (.inr rfl))
  rw [Entry.event, hv, Option.map_some, blockEvent]
  simp only [hverdict, hfields, hfacts.captured, hstarts, hends, (hnames v.eventType).1, (hnames v.eventType).2,
    Bool.or_self, endLine_block, Option.map_none]
  rfl

omit [Alnum] in
theorem blockWarning_entry (hv : e.record.message.verdict = none) :
    e.warning fileName = some (blockWarning fileName e.block) := by
  rw [Entry.warning, hv, blockWarning, endLine_block]
  rfl

omit [Alnum] in
theorem ignored_entry : isIgnored e.block.searchText = false := (facts_entry e).ignored

end Words

theorem second_message (m : Message) : ∀ l ∈ m.lines, ∀ c ∈ l.tail.head?, isDigit c = false := by
  have hnone : ∀ {l : Str} {c : Char}, l.tail.head? = some c → isDigit c = false →
      ∀ d ∈ l.tail.head?, isDigit d = false := by
    intro l c hl hc d hd
    rw [hl] at hd
    rwa [← Option.some.inj hd]
  have hcount : ∀ counts, ∀ c ∈ (countRowText counts).tail.head?, isDigit c = false := fun counts => by
    cases counts <;> exact hnone rfl (by decide)
  cases m with
  | phrase p =>
    have hvocabulary : ∀ row ∈ vocabulary, ∀ c ∈ row.1.toList.tail.head?, isDigit c = false := by
      decide +kernel
    intro l hl
    obtain rfl | hl := List.mem_cons.mp hl
    · exact hvocabulary _ p.listed
    · obtain ⟨n, -, rfl⟩ := Option.map_eq_some_iff.mp (Option.mem_toList.mp hl)
      exact hnone rfl (by decide)
  | cassette c =>
    have hline : ∀ pos ∈ CASSETTE_POSITION_MAP, ∀ w ∈ [" CASSETTE INSERTED", " CASSETTE REMOVED"],
        ∀ c ∈ (pos.1 ++ w.toList).tail.head?, isDigit c = false := by decide +kernel
    intro l hl
    rw [List.mem_singleton.mp hl, Cassette.line]
    split_ifs
    · exact hline _ c.listed _ (by simp)
    · exact hline _ c.listed _ (by simp)
  | totals first others =>
    simp only [Message.lines, totalsLines, List.forall_mem_cons, List.not_mem_nil, false_imp_iff,
      implies_true, and_true]
    exact ⟨hnone rfl (by decide), hnone rfl (by decide), hnone rfl (by decide), hnone rfl (by decide),
      hnone rfl (by decide)⟩
  | added counts =>
    simp only [Message.lines, List.forall_mem_cons, List.not_mem_nil, false_imp_iff, implies_true, and_true]
    exact ⟨hnone rfl (by decide), hcount counts⟩
  | cleared counts =>
    simp only [Message.lines, List.forall_mem_cons, List.not_mem_nil, false_imp_iff, implies_true, and_true]
    exact ⟨hnone rfl (by decide), hnone rfl (by decide), hcount _, hnone rfl (by decide), hcount _,
      hnone rfl (by decide), hcount _⟩

theorem header?_body (r : Record) : ∀ l ∈ r.body, header? l = none := by
  intro l hl
  rw [← Option.not_isSome_iff_eq_none]
  intro hsome
  obtain ⟨c, hc, hdigit⟩ := digit_of_header hsome
  have hmem : strip l ∈ r.message.lines := by
    rw [← strip_body r]
    exact List.mem_map_of_mem hl
  rw [second_message r.message _ hmem c hc] at hdigit
  cases hdigit

theorem rstripNewline_printed {l : Str} (h : ∀ c ∈ l.getLast?, c ≠ '\r' ∧ c ≠ '\n') :
    rstripNewline (l ++ ['\n']) = l := by
  rw [rstripNewline, List.rdropWhile_concat_pos _ _ _ (by decide), List.rdropWhile_eq_self_iff]
  intro hne
  obtain ⟨hr, hn⟩ := h _ (List.getLast?_eq_some_getLast hne)
  simp [hr, hn]

theorem space_of_last {l : Str} (h : strip l = l) : ∀ c ∈ l.getLast?, c ≠ '\r' ∧ c ≠ '\n' := by
  intro c hc
  have hspace := strip_getLast l c (by rwa [h])
  refine ⟨?_, ?_⟩ <;> rintro rfl <;> exact absurd hspace (by decide)

theorem body_printed (r : Record) : ∀ l ∈ r.body, rstripNewline (l ++ ['\n']) = l := by
  intro l hl
  obtain ⟨x, hx, rfl⟩ := List.mem_map.mp hl
  apply rstripNewline_printed
  intro c hc
  rw [List.getLast?_append] at hc
  cases hlast : x.getLast? with
  | none =>
    rw [hlast, Option.none_or] at hc
    rw [List.eq_of_mem_replicate (List.mem_of_getLast? hc)]
    decide
  | some d =>
    rw [hlast, Option.some_or, Option.mem_some_iff] at hc
    rw [← hc]
    exact space_of_last (clean_lines r.message x hx).trimmed d hlast

theorem header_printed (r : Record) : rstripNewline (headerLine r.seqNum r.time ++ ['\n']) =
    headerLine r.seqNum r.time :=
  rstripNewline_printed (space_of_last (strip_headerLine r.seqNum r.time))

theorem groupFrom_lines (now : Nat → Timestamp) (idx : Nat) (b : Block) {body : List Str}
    (h : ∀ l ∈ body, rstripNewline (l ++ ['\n']) = l ∧ header? l = none) (rest : List Str) :
    groupFrom now idx (some b) (body.map (· ++ ['\n']) ++ rest) =
      groupFrom now (idx + body.length) (some { b with lines := b.lines ++ body }) rest := by
  induction body generalizing idx b with
  | nil => rw [List.append_nil]; rfl
  | cons l body ih =>
    obtain ⟨hl, hnone⟩ := h l (by simp)
    rw [List.map_cons, List.cons_append, groupFrom, hl, hnone]
    simp only [Option.map_some]
    rw [ih (idx + 1) (b.push l) fun l' hl' => h l' (List.mem_cons_of_mem l hl'), Block.push,
      List.length_cons, Nat.add_right_comm, Nat.add_assoc idx, List.append_assoc]
    rfl

/-- Each record becomes the block that was printed for it. -/
theorem groupFrom_printed (now : Nat → Timestamp) (idx : Nat) (current : Option Block)
    (records : List Record) : groupFrom now idx current (printed records) =
      current.toList ++ (entries idx records).map Entry.block := by
  induction records generalizing idx current with
  | nil => simp [printed, groupFrom, entries]
  | cons r rest ih =>
    have hsplit : printed (r :: rest) = (headerLine r.seqNum r.time ++ ['\n']) ::
        (r.body.map (· ++ ['\n']) ++ printed rest) := by
      simp [printed, Record.lines]
    have hopen : openBlock now ⟨decimal r.seqNum, headerDate r.time, headerClock r.time, []⟩
        (headerLine r.seqNum r.time) idx =
          ⟨r.seqNum, minuteOf r.time, [], [headerLine r.seqNum r.time], idx⟩ := by
      rw [openBlock, int_decimal, NcrDatetime.parseNcrDatetime, headerTime_line r.isDate, Option.getD_some]
    rw [hsplit, groupFrom, header_printed, header?_line]
    simp only [hopen]
    rw [groupFrom_lines now _ _ fun l hl => ⟨body_printed r l hl, header?_body r l hl⟩, ih, entries,
      List.map_cons]
    have hlength : idx + 1 + r.body.length = idx + r.lines.length := by
      rw [Record.lines, List.length_cons]
      omega
    rw [hlength]
    rfl

theorem groupBlocks_printed (now : Nat → Timestamp) (records : List Record) :
    groupBlocks now (printed records) = (entries 0 records).map Entry.block :=
  groupFrom_printed now 0 none records

theorem firsts_block (records : List Record) :
    keptBlocks ((entries 0 records).map Entry.block) = (firsts records).map Entry.block :=
  (record_map Entry.key blockKey Entry.block (fun _ => rfl) [] (entries 0 records)).symm

section Words

variable [Alnum]

theorem emits_entry (fileName : Str) (e : Entry) :
    emits fileName e.block = e.record.message.verdict.isSome := by
  rw [emits, ignored_entry, recognised_entry, Bool.not_false, Bool.true_and]

theorem unhandled_entry (fileName : Str) (e : Entry) :
    unhandled fileName e.block = !e.record.message.verdict.isSome := by
  rw [unhandled, ignored_entry, recognised_entry, Bool.not_false, Bool.true_and]

theorem events_entries (fileName : Str) (es : List Entry) :
    ((es.map Entry.block).filter (emits fileName)).map (blockEvent fileName) =
      es.filterMap (Entry.event fileName) := by
  induction es with
  | nil => rfl
  | cons e es ih =>
    have hemits := emits_entry fileName e
    cases hv : e.record.message.verdict with
    | none =>
      have hnone : e.event fileName = none := by rw [Entry.event, hv]; rfl
      rw [hv] at hemits
      rw [List.map_cons, List.filter_cons_of_neg (by simp [hemits]), ih, List.filterMap_cons_none hnone]
    | some v =>
      rw [hv] at hemits
      rw [List.map_cons, List.filter_cons_of_pos hemits, List.map_cons, ih,
        List.filterMap_cons_some (blockEvent_entry fileName e hv)]

theorem warnings_entries (fileName : Str) (es : List Entry) :
    ((es.map Entry.block).filter (unhandled fileName)).map (blockWarning fileName) =
      es.filterMap (Entry.warning fileName) := by
  induction es with
  | nil => rfl
  | cons e es ih =>
    have hunhandled := unhandled_entry fileName e
    cases hv : e.record.message.verdict with
    | none =>
      rw [hv] at hunhandled
      rw [List.map_cons, List.filter_cons_of_pos hunhandled, List.map_cons, ih,
        List.filterMap_cons_some (blockWarning_entry fileName e hv)]
    | some v =>
      have hnone : e.warning fileName = none := by rw [Entry.warning, hv]
      rw [hv] at hunhandled
      rw [List.map_cons, List.filter_cons_of_neg (by simp [hunhandled]), ih, List.filterMap_cons_none hnone]

theorem snapshots_entries (fileName : Str) (es : List Entry) :
    ((es.map Entry.block).filter fun b => !isIgnored b.searchText).flatMap (blockSnapshots fileName) =
      es.flatMap (Entry.snapshots fileName) := by
  have hall : ((es.map Entry.block).filter fun b => !isIgnored b.searchText) = es.map Entry.block := by
    rw [List.filter_eq_self]
    intro b hb
    obtain ⟨e, -, rfl⟩ := List.mem_map.mp hb
    rw [ignored_entry]
    rfl
  rw [hall, List.flatMap_map]
  exact congrArg (es.flatMap ·) (funext (blockSnapshots_entry fileName))

theorem events_printed (now : Nat → Timestamp) (records : List Record) (fileName : Str) :
    (parseLines now (printed records) fileName).events = (firsts records).filterMap (Entry.event fileName) := by
  have haccounts := accounts_parse fileName (groupBlocks now (printed records))
  rw [groupBlocks_printed, firsts_block] at haccounts
  rw [parseLines, groupBlocks_printed]
  exact haccounts.events.trans (events_entries fileName _)

/-- A journal of printed messages is read back: under any clock the parser finds in it the events,
the warnings and the snapshots that the messages tell, all with their place in the file, and takes
only the first of several messages with one number and minute. -/
theorem journal_read_back (now : Nat → Timestamp) (records : List Record) (fileName : Str) :
    let r := parseLines now (printed records) fileName
    r.events = (firsts records).filterMap (Entry.event fileName) ∧
      r.warnings = (firsts records).filterMap (Entry.warning fileName) ∧
      r.cassetteSnapshots = (firsts records).flatMap (Entry.snapshots fileName) ∧
      r.statistics.ignoredBlocks = 0 ∧
      r.statistics.duplicatesIgnored + (firsts records).length = records.length := by
  intro r
  have hgroup := groupBlocks_printed now records
  have hevents : r.events = (firsts records).filterMap (Entry.event fileName) :=
    events_printed now records fileName
  have haccounts := accounts_parse fileName ((entries 0 records).map Entry.block)
  rw [firsts_block] at haccounts
  have hparse : r = parseLines now (printed records) fileName := rfl
  rw [parseLines, hgroup] at hparse
  have hignored : ((firsts records).map Entry.block).countP (fun b => isIgnored b.searchText) = 0 := by
    rw [List.countP_eq_zero]
    intro b hb
    obtain ⟨e, -, rfl⟩ := List.mem_map.mp hb
    rw [ignored_entry]
    exact Bool.false_ne_true
  have hlength : (entries 0 records).length = records.length := by
    rw [← congrArg List.length (entries_record 0 records), List.length_map]
  refine ⟨hevents, ?_⟩
  rw [hparse]
  refine ⟨haccounts.warnings.trans (warnings_entries fileName _),
    haccounts.snapshots.trans (snapshots_entries fileName _), haccounts.ignored.trans hignored, ?_⟩
  have hduplicates := haccounts.duplicates
  rwa [List.length_map, List.length_map, hlength] at hduplicates

end Words

end AtmMonitor.PrintedJournal
