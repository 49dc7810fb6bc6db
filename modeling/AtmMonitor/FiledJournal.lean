import AtmMonitor.EncodedLines
import AtmMonitor.FileHistory
import AtmMonitor.Ingestion
import AtmMonitor.ToldJournal

namespace AtmMonitor.FiledJournal

open PyText ParserModels EventPatterns DatabaseModels Repositories FileUtils ParserService EventProcessor Ledger
  FileHistory Ingestion EjParser Decimal PrintedLines PrintedRows PrintedHeader PrintedMessages PrintedJournal
  ToldJournal EncodedLines

instance (s : Str) : Decidable (Bare s) := inferInstanceAs (Decidable (∀ c ∈ s, _))

theorem bare_append {s t : Str} (hs : Bare s) (ht : Bare t) : Bare (s ++ t) :=
  fun c hc => (List.mem_append.mp hc).elim (hs c) (ht c)

theorem bare_cons {c : Char} {s : Str} (hc : c ≠ '\n' ∧ c ≠ '\r') (hs : Bare s) : Bare (c :: s) :=
  List.forall_mem_cons.mpr ⟨hc, hs⟩

theorem bare_flatMap {β : Type} {f : β → Str} (h : ∀ x, Bare (f x)) (xs : List β) : Bare (xs.flatMap f) := by
  intro c hc
  obtain ⟨x, -, hc⟩ := List.mem_flatMap.mp hc
  exact h x c hc

theorem bare_blanks (k : Nat) : Bare (List.replicate k ' ') := by
  intro c hc
  rw [List.eq_of_mem_replicate hc]
  decide

theorem bare_digits {s : Str} (h : AsciiDigits s) : Bare s := by
  intro c hc
  refine ⟨?_, ?_⟩ <;> rintro rfl <;> exact absurd (h _ hc) (by decide)

theorem bare_header (seqNum : Nat) (d : NvrCheck.Datetime) : Bare (headerLine seqNum d) := by
  have hdate : Bare (headerDate d) :=
    bare_append (bare_digits (padded_digits 2 d.day)) (bare_cons (by decide)
      (bare_append (bare_digits (padded_digits 2 d.month)) (bare_cons (by decide)
        (bare_digits (padded_digits 4 d.year)))))
  have hclock : Bare (headerClock d) :=
    bare_append (bare_digits (padded_digits 2 d.hour)) (bare_cons (by decide)
      (bare_digits (padded_digits 2 d.minute)))
  exact bare_cons (by decide) (bare_append (bare_digits (decimal_digits seqNum)) (bare_cons (by decide)
    (bare_append hdate (bare_cons (by decide) (bare_append hclock (by decide))))))

theorem bare_cell (cell : Cell) : Bare cell.text := by
  refine bare_append (fun c hc => ?_) (bare_digits cell.of_digits)
  rw [cell.of_blanks c hc]
  decide

theorem bare_row {caption : String} (h : Bare caption.toList) (cells : List Cell) : Bare (rowText caption cells) :=
  bare_append h (bare_flatMap bare_cell cells)

theorem bare_counts (counts : PerType Nat) : Bare (countRowText counts) := by
  have hcount : ∀ (digit : Char) (n : Nat), digit.isDigit = true → Bare (countText digit n) := by
    intro digit n hdigit
    have hone : Bare [digit] := bare_digits (List.forall_mem_singleton.mpr hdigit)
    exact bare_append (by decide) (bare_cons (by decide) (bare_cons (hone digit (by simp)) (bare_cons (by decide)
      (bare_cons (by decide) (bare_cons (by decide) (bare_digits (numeral_digits 5 n)))))))
  have hgap : Bare gap := by decide
  cases counts with
  | two a b => exact bare_append (hcount _ a rfl) (bare_append hgap (hcount _ b rfl))
  | four a b c d =>
    exact bare_append (hcount _ a rfl) (bare_append hgap (bare_append (hcount _ b rfl) (bare_append hgap
      (bare_append (hcount _ c rfl) (bare_append hgap (hcount _ d rfl))))))

theorem bare_message (m : Message) : ∀ l ∈ m.lines, Bare l := by
  cases m with
  | phrase p =>
    have hvocabulary : ∀ row ∈ vocabulary, Bare row.1.toList := by decide +kernel
    intro l hl
    obtain rfl | hl := List.mem_cons.mp hl
    · exact hvocabulary _ p.listed
    · obtain ⟨n, -, rfl⟩ := Option.map_eq_some_iff.mp (Option.mem_toList.mp hl)
      exact bare_append (by decide) (bare_digits (numeral_digits 12 n.val))
  | cassette c =>
    have hposition : ∀ pos ∈ CASSETTE_POSITION_MAP, Bare pos.1 := by decide +kernel
    intro l hl
    rw [List.mem_singleton.mp hl, Cassette.line]
    refine bare_append (hposition _ c.listed) ?_
    split_ifs <;> decide
  | totals first others =>
    have hheading : ∀ n, Bare (totalsHeading n) := fun n =>
      bare_append (by decide) (bare_flatMap (fun i => bare_append (by decide) (bare_digits (decimal_digits i))) _)
    simp only [Message.lines, totalsLines, List.forall_mem_cons, List.not_mem_nil, false_imp_iff, implies_true,
      and_true]
    exact ⟨hheading _, bare_row (by decide) _, bare_row (by decide) _, bare_row (by decide) _,
      bare_row (by decide) _⟩
  | added counts =>
    simp only [Message.lines, List.forall_mem_cons, List.not_mem_nil, false_imp_iff, implies_true, and_true]
    exact ⟨by decide, bare_counts counts⟩
  | cleared counts =>
    simp only [Message.lines, List.forall_mem_cons, List.not_mem_nil, false_imp_iff, implies_true, and_true]
    exact ⟨by decide, by decide, bare_counts _, by decide, bare_counts _, by decide, bare_counts _⟩

theorem bare_record (r : Record) : ∀ l ∈ r.lines, Bare l := by
  refine List.forall_mem_cons.mpr ⟨bare_header r.seqNum r.time, fun l hl => ?_⟩
  obtain ⟨x, hx, rfl⟩ := List.mem_map.mp hl
  exact bare_append (bare_blanks r.indent) (bare_message r.message x hx)

def filed (records : List Record) : Bytes := fileOf (records.flatMap Record.lines)

theorem filed_append (records records' : List Record) : filed (records ++ records') = filed records ++ filed records' := by
  rw [filed, List.flatMap_append, fileOf_append]
  rfl

theorem filed_length_pos {records : List Record} (h : records ≠ []) : 0 < (filed records).length := by
  obtain ⟨r, rest, rfl⟩ := List.exists_cons_of_ne_nil h
  have hlines := length_le_fileOf ((r :: rest).flatMap Record.lines)
  rw [List.flatMap_cons, List.length_append, Record.lines, List.length_cons] at hlines
  exact Nat.lt_of_lt_of_le (by omega) hlines

theorem printed_eq_nil {records : List Record} : printed records = [] ↔ records = [] := by
  refine ⟨fun h => ?_, fun h => by rw [h]; rfl⟩
  rw [printed, List.map_eq_nil_iff, List.flatMap_eq_nil_iff] at h
  exact List.eq_nil_iff_forall_not_mem.mpr fun r hr => absurd (h r hr) (List.cons_ne_nil _ _)

/-- A scan finds this content, and the store takes what is read. The statements of the scan itself may
raise. -/
structure Visits (env : ScanEnv) (content : Bytes) : Prop where
  size : env.size = content.length
  header : env.header = some content
  found : env.found = true
  reads : env.reads.head? = some ⟨some content.length, some content, []⟩
  finalHeader : env.finalHeader = some content
  txs : ∀ i, Undisturbed (env.txs i)

theorem Visits.finds {env : ScanEnv} {content : Bytes} (h : Visits env content) :
    Finds { env with raises := fun _ => none } content :=
  ⟨h.size, h.header, h.found, h.reads, h.finalHeader, fun _ => rfl, h.txs⟩

theorem entries_append (idx : Nat) (records records' : List Record) :
    entries idx (records ++ records') =
      entries idx records ++ entries (idx + (records.flatMap Record.lines).length) records' := by
  induction records generalizing idx with
  | nil => rfl
  | cons r rest ih =>
    rw [List.cons_append, entries, ih, entries, List.flatMap_cons, List.length_append, Nat.add_assoc]
    rfl

theorem record_known {atmId : Nat} {snapshots : List CassetteSnapshot} {fileName : Str} {c : Contents}
    {es : List Entry}
    (h : ∀ e ∈ es, ∀ ev, e.event fileName = some ev → knownEvent c.events atmId ev.eventSequenceNumber = true) :
    (es.filterMap (Entry.event fileName)).foldl (record atmId snapshots) c = c := by
  apply Library.Runs.foldl_invariant (P := fun c' => c' = c) rfl
  rintro c' ev hev rfl
  obtain ⟨e, he, hev⟩ := List.mem_filterMap.mp hev
  rw [record, if_pos (h e he ev hev)]

theorem known_told {fileName : Str} {atmId : Nat} {es : List Entry} (c : Contents) (live : Option Terminal)
    {e : Entry} (he : e ∈ es) {ev : ATMParsedEvent} (hev : e.event fileName = some ev) :
    knownEvent (told fileName atmId es c live).events atmId (some e.record.seqNum) = true := by
  rw [knownEvent, List.any_eq_true]
  refine ⟨ATMEvent.ofParsed 0 atmId ev, List.mem_append_right _ (List.mem_map_of_mem ?_), ?_⟩
  · exact List.mem_filterMap.mpr ⟨e, he, hev⟩
  · simp only [ATMEvent.ofParsed, number_event hev, beq_self_eq_true, Bool.and_self]

/-- The store tells the first messages of the journal, each once and at some place. -/
def Shows (target : Target) (records : List Record) (c : Contents) (live : Option Terminal) (m : Nat)
    (db : Database) : Prop :=
  ∃ es : List Entry, es.map Entry.record = records.take m ∧
    contents db = told target.fileName target.atmId es c live

/-- Of the messages that are written, the saved offset is behind some, and the store shows some more. -/
structure Reached (target : Target) (records : List Record) (c : Contents) (live : Option Terminal) (n : Nat)
    (db : Database) (m o : Nat) : Prop where
  read_le : o ≤ m
  told_le : m ≤ n
  written : n ≤ records.length
  saved : offset target db = (filed (records.take o)).length
  tracked : Tracked target (filed records) db
  shown : Shows target records c live m db
  ready : Ready target.atmId (contents db) ((records.take m).foldl Record.heard live) (records.drop m)

section Reached

variable {target : Target} {records : List Record} {c : Contents} {live : Option Terminal} {n k : Nat}
  {db : Database} {m o : Nat}

theorem Reached.known (h : Reached target records c live n db m o) :
    ∀ r ∈ (records.take m).drop o, r.message.verdict.isSome →
      knownEvent (contents db).events target.atmId (some r.seqNum) = true := by
  intro r hr hverdict
  obtain ⟨es, hes, hcontents⟩ := h.shown
  have hmem := List.mem_of_mem_drop hr
  rw [← hes] at hmem
  obtain ⟨e, he, rfl⟩ := List.mem_map.mp hmem
  obtain ⟨v, hv⟩ := Option.isSome_iff_exists.mp hverdict
  obtain ⟨ev, hev⟩ : ∃ ev, e.event target.fileName = some ev := by
    rw [Entry.event, hv]
    exact ⟨_, rfl⟩
  rw [hcontents]
  exact known_told c live he hev

theorem Reached.more (h : Reached target records c live n db m o) (hmore : n ≤ k) (hwritten : k ≤ records.length) :
    Reached target records c live k db m o :=
  ⟨h.read_le, h.told_le.trans hmore, hwritten, h.saved, h.tracked, h.shown, h.ready⟩

theorem take_split (h : m ≤ k) : records.take k = records.take m ++ (records.take k).drop m := by
  conv_lhs => rw [← List.take_append_drop m (records.take k)]
  rw [List.take_take, min_eq_left h]

end Reached

section Runs

variable [Alnum]

section Parse

variable {atmId : Nat} {fileName : Str} {old new rest : List Record} {db : Database} {live : Option Terminal}

omit [Alnum] in
theorem known_entries (hknown : ∀ r ∈ old, r.message.verdict.isSome →
      knownEvent (contents db).events atmId (some r.seqNum) = true) :
    ∀ e ∈ entries 0 old, ∀ ev, e.event fileName = some ev →
      knownEvent (contents db).events atmId ev.eventSequenceNumber = true := by
  intro e he ev hev
  have hmem : e.record ∈ old := by
    rw [← entries_record 0 old]
    exact List.mem_map_of_mem he
  obtain ⟨v, hv, -⟩ := Option.map_eq_some_iff.mp hev
  rw [number_event hev]
  exact hknown e.record hmem (by rw [hv]; rfl)

theorem events_prefix (now : Nat → Timestamp) (hascending : Ascending (old ++ new)) {evs : List ATMParsedEvent}
    (hevs : evs <+: sortedEvents (parseLines now (printed (old ++ new)) fileName).events) :
    ∃ es, es <+: entries 0 (old ++ new) ∧ evs = es.filterMap (Entry.event fileName) ∧
      (evs = sortedEvents (parseLines now (printed (old ++ new)) fileName).events → es = entries 0 (old ++ new)) := by
  have hall : sortedEvents (parseLines now (printed (old ++ new)) fileName).events =
      (entries 0 (old ++ new)).filterMap (Entry.event fileName) := by
    rw [events_printed, firsts_ascending hascending, sortedEvents_ascending hascending]
  rw [hall] at hevs ⊢
  by_cases hfull : evs = (entries 0 (old ++ new)).filterMap (Entry.event fileName)
  · exact ⟨entries 0 (old ++ new), List.prefix_rfl, hfull, fun _ => rfl⟩
  · obtain ⟨es, hes, heq⟩ := List.prefix_filterMap_iff.mp hevs
    exact ⟨es, hes, heq, fun h => absurd h hfull⟩

theorem prefix_told (now : Nat → Timestamp) (hascending : Ascending (old ++ new))
    (hknown : ∀ r ∈ old, r.message.verdict.isSome → knownEvent (contents db).events atmId (some r.seqNum) = true)
    (h : Ready atmId (contents db) live (new ++ rest)) {evs : List ATMParsedEvent}
    (hevs : evs <+: sortedEvents (parseLines now (printed (old ++ new)) fileName).events) :
    ∃ (i : Nat) (es : List Entry), i ≤ new.length ∧ es.map Entry.record = new.take i ∧
      evs.foldl (record atmId (parseLines now (printed (old ++ new)) fileName).cassetteSnapshots) (contents db) =
        told fileName atmId es (contents db) live ∧
      Ready atmId (told fileName atmId es (contents db) live) ((new.take i).foldl Record.heard live)
        (new.drop i ++ rest) ∧
      (evs = sortedEvents (parseLines now (printed (old ++ new)) fileName).events → i = new.length) := by
  obtain ⟨es, hes, rfl, hfull⟩ := events_prefix now hascending hevs
  have hlengths : ∀ (idx : Nat) (rs : List Record), (entries idx rs).length = rs.length := by
    intro idx rs
    rw [← List.length_map Entry.record, entries_record]
  have hcomes : ∀ i, es.length ≤ old.length + i → i ≤ new.length →
      (es.filterMap (Entry.event fileName) =
        sortedEvents (parseLines now (printed (old ++ new)) fileName).events → i = new.length) := by
    intro i hi hle h
    rw [hfull h, hlengths, List.length_append] at hi
    omega
  rw [entries_append] at hes
  have hold : ∀ e ∈ entries 0 old, ∀ ev, e.event fileName = some ev →
      knownEvent (contents db).events atmId ev.eventSequenceNumber = true := known_entries hknown
  have hmap := entries_record (0 + (old.flatMap Record.lines).length) new
  obtain hshort | hlong := le_total es.length (entries 0 old).length
  · have hpart := List.prefix_of_prefix_length_le hes (List.prefix_append _ _) hshort
    refine ⟨0, [], Nat.zero_le _, rfl, ?_, ?_, hcomes 0 (by rwa [hlengths] at hshort) (Nat.zero_le _)⟩
    · rw [record_known fun e he => hold e (hpart.mem he), told_nil h.row]
    · rw [told_nil h.row]
      exact h
  · obtain ⟨news, rfl⟩ := List.prefix_of_prefix_length_le (List.prefix_append _ _) hes hlong
    have hnews := (List.prefix_append_right_inj _).mp hes
    have htake : news.map Entry.record = new.take news.length := by
      have hprefix := hnews.map Entry.record
      rw [hmap, List.prefix_iff_eq_take, List.length_map] at hprefix
      exact hprefix
    have hsnaps : ∀ e ∈ news, ∀ ev, e.event fileName = some ev →
        matchingSnaps (parseLines now (printed (old ++ new)) fileName).cassetteSnapshots ev =
          Entry.booked fileName e := by
      intro e he ev hev
      refine matching_parse ?_ hev
      rw [firsts_ascending hascending, entries_append]
      exact List.mem_append_right _ (hnews.mem he)
    have hsplit : new ++ rest = news.map Entry.record ++ (new.drop news.length ++ rest) := by
      rw [htake, ← List.append_assoc, List.take_append_drop]
    rw [hsplit] at h
    obtain ⟨hrun, hready⟩ := told_entries hsnaps h
    rw [htake] at hready
    have hlength := (hnews.map Entry.record).length_le
    rw [hmap, List.length_map] at hlength
    have hreach : (entries 0 old ++ news).length ≤ old.length + news.length := by
      rw [List.length_append, hlengths]
    refine ⟨news.length, news, hlength, htake, ?_, hready, hcomes _ hreach hlength⟩
    · rw [List.filterMap_append, List.foldl_append, record_known hold]
      exact hrun

end Parse

/-- What a scan leaves that dies after some of its event transactions. -/
def stopped (target : Target) (env : ScanEnv) (db : Database) (j : Nat) : Database :=
  let result := parseResult target env
    (readLines target env (currentState target env (savedState target db))).1
  (processEvents target.atmId result.cassetteSnapshots
    ((withEnvs env.txs (sortedEvents result.events)).take j) (db, {})).1

/-- The databases that scans of the growing journal lead to. The terminal writes whole messages, and
what it has written since the saved offset is not more than one scan may read. -/
inductive Scanned (target : Target) (records : List Record) (start : Database) : Nat → Database → Prop
  | start : Scanned target records start 0 start
  | visit {n k : Nat} {db : Database} {env : ScanEnv} (h : Scanned target records start n db) (hmore : n ≤ k)
      (hwritten : k ≤ records.length) (hvisit : Visits env (filed (records.take k)))
      (hcap : (filed (records.take k)).length ≤ offset target db + target.maxBytes) :
      Scanned target records start k (scan target env db).2
  | stop {n k : Nat} {db : Database} {env : ScanEnv} (h : Scanned target records start n db) (hmore : n ≤ k)
      (hwritten : k ≤ records.length) (hvisit : Visits env (filed (records.take k)))
      (hcap : (filed (records.take k)).length ≤ offset target db + target.maxBytes) (j : Nat) :
      Scanned target records start k (stopped target env db j)

section Visit

variable {target : Target} {records : List Record} {c : Contents} {live : Option Terminal} {n k : Nat}
  {db : Database} {m o : Nat}

/-- What is stored from a pass that reads the journal from the offset on, and comes to some of its
events. -/
theorem Reached.parse (h : Reached target records c live n db m o) (hascending : Ascending records) (hmore : n ≤ k)
    (hwritten : k ≤ records.length) (now : Nat → Timestamp) {evs : List ATMParsedEvent}
    (hevs : evs <+: sortedEvents
      (parseLines now (printed ((records.take k).drop o)) target.fileName).events)
    {db' : Database} (hcontents : contents db' = evs.foldl (record target.atmId
      (parseLines now (printed ((records.take k).drop o)) target.fileName).cassetteSnapshots) (contents db)) :
    ∃ m', m ≤ m' ∧ m' ≤ k ∧ Shows target records c live m' db' ∧
      Ready target.atmId (contents db') ((records.take m').foldl Record.heard live) (records.drop m') ∧
      (evs = sortedEvents (parseLines now (printed ((records.take k).drop o)) target.fileName).events → m' = k) := by
  have hmk : m ≤ k := h.told_le.trans hmore
  have hread : (records.take k).drop o = (records.take m).drop o ++ (records.take k).drop m := by
    have hlength : o ≤ (records.take m).length := by
      rw [List.length_take]
      exact le_min h.read_le (h.read_le.trans (hmk.trans hwritten))
    conv_lhs => rw [take_split hmk]
    exact List.drop_append_of_le_length hlength
  have hrest : (records.take k).drop m ++ records.drop k = records.drop m := by
    have hall : records.take m ++ ((records.take k).drop m ++ records.drop k) = records.take m ++ records.drop m := by
      rw [← List.append_assoc, ← take_split hmk, List.take_append_drop, List.take_append_drop]
    exact List.append_cancel_left hall
  have hnumber : ((records.take k).drop m).length = k - m := by
    rw [List.length_drop, List.length_take, min_eq_left hwritten]
  have hpart : Ascending ((records.take m).drop o ++ (records.take k).drop m) := by
    rw [← hread]
    exact hascending.sublist ((List.drop_sublist _ _).trans (List.take_sublist _ _))
  have hready := h.ready
  rw [← hrest] at hready
  rw [hread] at hevs hcontents ⊢
  obtain ⟨i, es', hi, hes', htold, hready', hfull⟩ := prefix_told now hpart h.known hready hevs
  obtain ⟨es, hes, hshown⟩ := h.shown
  rw [hnumber] at hi hfull
  rw [htold] at hcontents
  have htake : records.take (m + i) = records.take m ++ ((records.take k).drop m).take i := by
    rw [List.take_add, List.drop_take, List.take_take, min_eq_left hi]
  have hdrop : records.drop (m + i) = ((records.take k).drop m).drop i ++ records.drop k := by
    rw [← List.drop_drop, ← hrest, List.drop_append_of_le_length (by rw [hnumber]; exact hi)]
  refine ⟨m + i, Nat.le_add_right m i, by omega, ⟨es ++ es', ?_, ?_⟩, ?_, fun hall => ?_⟩
  · rw [List.map_append, hes, hes', htake]
  · rw [hcontents, told_append, hes, ← hshown]
  · rw [hcontents, htake, hdrop, List.foldl_append]
    exact hready'
  · have := hfull hall
    omega

omit [Alnum] in
/-- A scan begins where the offset says, and reads what is written. -/
theorem Reached.reads (h : Reached target records c live n db m o) (hmore : n ≤ k) {env : ScanEnv}
    (hvisit : Visits env (filed (records.take k)))
    (hcap : (filed (records.take k)).length ≤ offset target db + target.maxBytes) :
    let state := currentState target env (savedState target db)
    state.lastReadOffset = offset target db ∧ Hashed target (filed records) state ∧
      readLines target env state = (printed ((records.take k).drop o),
        (filed (records.take k)).length, (filed (records.take k)).length) := by
  intro state
  have hok : o ≤ k := h.read_le.trans (h.told_le.trans hmore)
  have hwhole : filed records = filed (records.take k) ++ filed (records.drop k) := by
    rw [← filed_append, List.take_append_drop]
  have hbefore : filed (records.take k) = filed (records.take o) ++ filed ((records.take k).drop o) := by
    rw [← filed_append, ← take_split hok]
  have hlength := congrArg List.length hbefore
  rw [List.length_append, ← h.saved] at hlength
  have hfinds : Finds { env with raises := fun _ => none }
      ((filed records).take (filed (records.take k)).length) := by
    rw [hwhole, List.take_left]
    exact hvisit.finds
  have hlen : (filed (records.take k)).length ≤ (filed records).length := by
    rw [hwhole, List.length_append]
    exact Nat.le_add_right ..
  have hbelow : offset target db ≤ (filed (records.take k)).length := by omega
  have htracked := currentState_tracked hfinds hlen h.tracked hbelow
  have hstate : state.lastReadOffset = offset target db ∧ Hashed target (filed records) state := htracked
  obtain ⟨hstay, hhashed⟩ := hstate
  have hbare : ∀ l ∈ ((records.take k).drop o).flatMap Record.lines, Bare l := by
    intro l hl
    obtain ⟨r, -, hl⟩ := List.mem_flatMap.mp hl
    exact bare_record r l hl
  have hreads := hvisit.reads
  rw [hbefore, filed, filed] at hreads
  have hbacklog : (filed ((records.take k).drop o)).length ≤ target.maxBytes := by omega
  have hlines := readAppendedLines_lines hbare (filed (records.take o)) hreads hbacklog
  refine ⟨hstay, hhashed, ?_⟩
  rw [readLines, hvisit.found, hstay, hlength, h.saved]
  refine hlines.trans ?_
  rw [List.length_append]
  rfl

theorem Reached.visit (h : Reached target records c live n db m o) (hascending : Ascending records) (hmore : n ≤ k)
    (hwritten : k ≤ records.length) {env : ScanEnv} (hvisit : Visits env (filed (records.take k)))
    (hcap : (filed (records.take k)).length ≤ offset target db + target.maxBytes) :
    ∃ m' o', Reached target records c live k (scan target env db).2 m' o' ∧
      ((∀ e : ScanError, (scan target env db).1 ≠ e.scanEnd) → m' = k) := by
  have hok : o ≤ k := h.read_le.trans (h.told_le.trans hmore)
  have hkey : (currentState target env (savedState target db)).atmId = target.atmId ∧
      (currentState target env (savedState target db)).filePath = target.filePath := currentState_key target env db
  obtain ⟨hstay, hhashed, hread⟩ := h.reads hmore hvisit hcap
  rw [scan_eq]
  generalize currentState target env (savedState target db) = state at hstay hhashed hread hkey
  have hsame : ∀ e : ScanError, ∃ m' o', Reached target records c live k db m' o' ∧
      ((∀ e' : ScanError, e.scanEnd ≠ e'.scanEnd) → m' = k) :=
    fun e => ⟨m, o, h.more hmore hwritten, fun hne => absurd rfl (hne e)⟩
  dsimp only
  cases openingError env (savedState target db) with
  | some e => exact hsame e
  | none =>
    rw [hread]
    dsimp only
    by_cases hidle : env.size = state.lastReadOffset ∨ printed ((records.take k).drop o) = []
    · rw [if_pos hidle]
      have hnone : (records.take k).drop o = [] := by
        obtain hsize | hempty := hidle
        · by_contra hne
          have hpos := filed_length_pos hne
          have hsplit : records.take k = records.take o ++ (records.take k).drop o := take_split hok
          have hbefore := congrArg List.length (congrArg filed hsplit)
          rw [filed_append, List.length_append, ← h.saved] at hbefore
          rw [hvisit.size, hstay] at hsize
          omega
        · exact printed_eq_nil.mp hempty
      have hko : k ≤ o := by
        have hmin := List.drop_eq_nil_iff.mp hnone
        rwa [List.length_take, min_eq_left hwritten] at hmin
      cases env.raises .commit with
      | some e => exact hsame e
      | none =>
        have hmk : m = k := le_antisymm (h.told_le.trans hmore) (hko.trans h.read_le)
        exact ⟨m, o, ⟨h.read_le, h.told_le.trans hmore, hwritten,
          (offset_saved hkey db).trans (hstay.trans h.saved), tracked_saved hkey hhashed db, h.shown, h.ready⟩,
          fun _ => hmk⟩
    · rw [if_neg hidle]
      set result := parseResult target env (printed ((records.take k).drop o)) with hresult
      set stored := (processResult env.txs target.atmId result db).1 with hstored
      have hrow : getFileState stored target.atmId target.filePath = getFileState db target.atmId target.filePath := by
        rw [hstored, getFileState, processResult, processEvents_fileStates]
        rfl
      obtain ⟨m', -, -, hshown, hready, hfull⟩ := h.parse hascending hmore hwritten env.parseClock
        List.prefix_rfl (processResult_undisturbed hvisit.txs target.atmId result db)
      rw [hfull rfl] at hshown hready
      cases env.raises .updateFileState <|> env.raises .commit with
      | some e =>
        refine ⟨k, o, ⟨hok, le_rfl, hwritten, ?_, ?_, hshown, hready⟩, fun _ => rfl⟩
        · rw [offset, hrow]
          exact h.saved
        · unfold Tracked
          rw [hrow]
          exact h.tracked
      | none =>
        have hhash : Hashed target (filed records) (advancedState target env state
            (filed (records.take k)).length result) := by
          intro _
          rw [advancedState, hvisit.finalHeader]
          dsimp only
          have hwhole : filed records = filed (records.take k) ++ filed (records.drop k) := by
            rw [← filed_append, List.take_append_drop]
          rw [hwhole, List.take_append_of_le_length (min_le_right _ _)]
          rfl
        have hnew : (advancedState target env state (filed (records.take k)).length result).atmId = target.atmId ∧
            (advancedState target env state (filed (records.take k)).length result).filePath = target.filePath := hkey
        exact ⟨k, k, ⟨le_rfl, le_rfl, hwritten, offset_saved hnew stored, tracked_saved hnew hhash stored, hshown,
          hready⟩, fun _ => rfl⟩

theorem Reached.stop (h : Reached target records c live n db m o) (hascending : Ascending records) (hmore : n ≤ k)
    (hwritten : k ≤ records.length) {env : ScanEnv} (hvisit : Visits env (filed (records.take k)))
    (hcap : (filed (records.take k)).length ≤ offset target db + target.maxBytes) (j : Nat) :
    ∃ m' o', Reached target records c live k (stopped target env db j) m' o' := by
  obtain ⟨-, -, hread⟩ := h.reads hmore hvisit hcap
  unfold stopped
  rw [hread]
  dsimp only
  set result := parseResult target env (printed ((records.take k).drop o)) with hresult
  set left := (processEvents target.atmId result.cassetteSnapshots
    ((withEnvs env.txs (sortedEvents result.events)).take j) (db, {})).1 with hleft
  have hrow : getFileState left target.atmId target.filePath = getFileState db target.atmId target.filePath := by
    rw [hleft, getFileState, processEvents_fileStates]
    rfl
  have hcontents : contents left =
      ((sortedEvents result.events).take j).foldl (record target.atmId result.cassetteSnapshots) (contents db) := by
    rw [hleft, processEvents_undisturbed target.atmId _ _ fun p hp =>
      withEnvs_undisturbed hvisit.txs _ p (List.mem_of_mem_take hp), List.map_take, withEnvs_events]
  obtain ⟨m', hmm', hm'k, hshown, hready, -⟩ := h.parse hascending hmore hwritten env.parseClock
    (List.take_prefix j _) hcontents
  refine ⟨m', o, ⟨h.read_le.trans hmm', hm'k, hwritten, ?_, ?_, hshown, hready⟩⟩
  · rw [offset, hrow]
    exact h.saved
  · unfold Tracked
    rw [hrow]
    exact h.tracked

end Visit

variable {target : Target} {records : List Record} {start : Database} {live : Option Terminal}

theorem scanned_reached (hready : Ready target.atmId (contents start) live records)
    (hnew : getFileState start target.atmId target.filePath = none) {n : Nat} {db : Database}
    (hs : Scanned target records start n db) : ∃ m o, Reached target records (contents start) live n db m o := by
  induction hs with
  | start =>
    refine ⟨0, 0, ⟨le_rfl, le_rfl, Nat.zero_le _, ?_, ?_, ⟨[], rfl, ?_⟩, hready⟩⟩
    · rw [offset, hnew]
      rfl
    · intro state hstate
      rw [hnew] at hstate
      cases hstate
    · exact (told_nil hready.row).symm
  | visit h hmore hwritten hvisit hcap ih =>
    obtain ⟨m, o, hreached⟩ := ih
    obtain ⟨m', o', hnext, -⟩ := hreached.visit hready.ascending hmore hwritten hvisit hcap
    exact ⟨m', o', hnext⟩
  | stop h hmore hwritten hvisit hcap j ih =>
    obtain ⟨m, o, hreached⟩ := ih
    exact hreached.stop hready.ascending hmore hwritten hvisit hcap j

/-- However the scans of a growing journal fail, and whenever they die, the store shows the first of its
messages, each of them once, and after a scan that ends well all that are written. -/
theorem journal_filed (hready : Ready target.atmId (contents start) live records)
    (hnew : getFileState start target.atmId target.filePath = none) {n : Nat} {db : Database}
    (hs : Scanned target records start n db) :
    (∃ m ≤ n, Shows target records (contents start) live m db) ∧
      ∀ (k : Nat) (env : ScanEnv), n ≤ k → k ≤ records.length → Visits env (filed (records.take k)) →
        (filed (records.take k)).length ≤ offset target db + target.maxBytes →
        (∀ e : ScanError, (scan target env db).1 ≠ e.scanEnd) →
        Shows target records (contents start) live k (scan target env db).2 := by
  obtain ⟨m, o, hreached⟩ := scanned_reached hready hnew hs
  refine ⟨⟨m, hreached.told_le, hreached.shown⟩, fun k env hmore hwritten hvisit hcap hends => ?_⟩
  obtain ⟨m', o', hnext, hall⟩ := hreached.visit hready.ascending hmore hwritten hvisit hcap
  exact hall hends ▸ hnext.shown

end Runs

def machineJournal : List Record := filledPass.records ++ withdrawnPass.records

def digest (bs : Bytes) : Str :=
  if bs.length = 103 then "30989d6df0e9d4bc9997efc5154c4447feb94d24c942f185fca590a55ddd0337".toList
  else "05ab1a3083953060472f3f12df23f297ff4ffd2c752d49f82642caa63c6db73d".toList

def machineFile : Target where
  sha256 := digest
  atmId := 7
  filePath := "EJDATA.LOG".toList
  fileName := "EJDATA.LOG".toList

def sight (content : Bytes) : ScanEnv where
  size := content.length
  modified := 0
  header := some content
  reads := [⟨some content.length, some content, []⟩]
  finalHeader := some content

theorem visits_sight (content : Bytes) : Visits (sight content) content :=
  ⟨rfl, rfl, rfl, rfl, rfl, fun _ => ⟨fun _ => rfl, fun _ => rfl⟩⟩

theorem journal_filed_stopped :
    Shows machineFile machineJournal (contents {}) none 3
      (@scan machineFile (sight (filed (machineJournal.take 3))) asciiAlnum
        (@stopped asciiAlnum machineFile (sight (filed (machineJournal.take 2))) {} 1)).2 := by
  have hready : Ready 7 (contents {}) none machineJournal :=
    ⟨by decide, fun r _ => ⟨by simp [contents], by simp [contents]⟩, rfl, by simp⟩
  have hcap : ∀ (k : Nat) (db : Database), k = 2 ∨ k = 3 →
      (filed (machineJournal.take k)).length ≤ offset machineFile db + machineFile.maxBytes := by
    have hlength : ∀ k, k = 2 ∨ k = 3 → (filed (machineJournal.take k)).length ≤ machineFile.maxBytes := by
      rintro k (rfl | rfl) <;> decide +kernel
    exact fun k db hk => Nat.le_add_left_of_le (hlength k hk)
  have hstop := @Scanned.stop asciiAlnum machineFile machineJournal {} 0 2 {} _
    (@Scanned.start asciiAlnum machineFile machineJournal {}) (by omega) (by decide)
    (visits_sight _) (hcap 2 {} (.inl rfl)) 1
  have hends : ∀ (db : Database) (env : ScanEnv), (∀ s, env.raises s = none) →
      ∀ e : ScanError, (@scan machineFile env asciiAlnum db).1 ≠ e.scanEnd := by
    intro db env hraises e
    rw [@scan_calm asciiAlnum machineFile env hraises db]
    split_ifs <;> cases e <;> exact ScanEnd.noConfusion
  exact (@journal_filed asciiAlnum machineFile machineJournal {} none hready rfl 2 _ hstop).2 3 _ (by omega)
    (by decide) (visits_sight _) (hcap 3 _ (.inr rfl)) (hends _ _ fun _ => rfl)

end AtmMonitor.FiledJournal
