import AtmMonitor.CaseBlindness
import AtmMonitor.HeaderEntries
import AtmMonitor.HeaderSnapshots
import Mathlib.Tactic.MkIffOfInductiveProp

namespace AtmMonitor.HeaderText

open Library.Regex PyText ParserModels EventPatterns CassetteParser SupervisorParser EjParser
  TrimmedLines HeaderLines HeaderSearch HeaderEntries HeaderReading HeaderSnapshots BlockPlaces
  ParsedBlocks SnapshotRouting MaskedOperations CaseBlindness

/-- Two parses of one block each say the same: both ignore it, both do not know it, or both make an
event of it and snapshots. -/
@[mk_iff]
structure SameOutcome (r r' : ParserResult) : Prop where
  ignored : r.statistics.ignoredBlocks = r'.statistics.ignoredBlocks
  unknown : r.warnings.length = r'.warnings.length
  events : List.Forall₂ SameEvent r.events r'.events
  snapshots : r.events ≠ [] →
    r.cassetteSnapshots.map snapshotFacts = r'.cassetteSnapshots.map snapshotFacts

/-- A line reports a cassette removed or inserted, or the rows add counts. -/
def Operates [Alnum] (lines : List Str) : Prop :=
  (∃ line ∈ lines, reportsAction line = true) ∨ AddsCounts lines

section Words

variable [Alnum] (fileName : Str)

theorem parse_single {now : Nat → Timestamp} {lines : List Str} {b : Block}
    (h : groupBlocks now lines = [b]) :
    let r := parseLines now lines fileName
    r.statistics.ignoredBlocks = (if isIgnored b.searchText then 1 else 0) ∧
      r.warnings = (if isIgnored b.searchText || b.recognised fileName then []
        else [blockWarning fileName b]) ∧
      r.events = (if isIgnored b.searchText || !b.recognised fileName then []
        else [blockEvent fileName b]) ∧
      r.cassetteSnapshots = if isIgnored b.searchText then [] else blockSnapshots fileName b := by
  have hparse : parseBlocks fileName [b] = parseStep fileName {} b := rfl
  simp only [parseLines, h, hparse, parseStep]
  cases isIgnored b.searchText
  · cases b.recognised fileName
    · exact ⟨rfl, rfl, rfl, rfl⟩
    · exact ⟨rfl, rfl, rfl, rfl⟩
  · exact ⟨rfl, rfl, rfl, rfl⟩

theorem sameOutcome_single {now : Nat → Timestamp} {lines lines' : List Str} {b b' : Block}
    (h : groupBlocks now lines = [b]) (h' : groupBlocks now lines' = [b'])
    (hignored : isIgnored b.searchText = isIgnored b'.searchText) :
    SameOutcome (parseLines now lines fileName) (parseLines now lines' fileName) ↔
      isIgnored b.searchText = true ∨
        (b.recognised fileName = b'.recognised fileName ∧
          (b.recognised fileName = true → SameEvent (blockEvent fileName b) (blockEvent fileName b') ∧
            (blockSnapshots fileName b).map snapshotFacts =
              (blockSnapshots fileName b').map snapshotFacts)) := by
  obtain ⟨hcount, hwarnings, hevents, hsnaps⟩ := parse_single fileName h
  obtain ⟨hcount', hwarnings', hevents', hsnaps'⟩ := parse_single fileName h'
  rw [← hignored] at hcount' hwarnings' hevents' hsnaps'
  rw [sameOutcome_iff, hcount, hcount', hwarnings, hwarnings', hevents, hevents', hsnaps, hsnaps']
  cases isIgnored b.searchText with
  | true => simp
  | false => cases b.recognised fileName <;> cases b'.recognised fileName <;> simp

omit [Alnum] in
theorem groupFrom_body (now : Nat → Timestamp) (idx : Nat) (b : Block) {lines : List Str}
    (h : ∀ line ∈ lines, isHeader line = false) :
    groupFrom now idx (some b) lines = [{ b with lines := b.lines ++ lines.map rstripNewline }] := by
  induction lines generalizing idx b with
  | nil => simp [groupFrom]
  | cons line rest ih =>
    have hline : header? (rstripNewline line) = none := by
      simpa [isHeader] using h line (by simp)
    rw [groupFrom, hline]
    simp only [Option.map_some]
    rw [ih (idx + 1) (b.push (rstripNewline line)) fun l hl => h l (List.mem_cons_of_mem line hl)]
    simp [Block.push]

theorem operates_iff (b : Block) : Operates b.lines ↔ primaries (blockSnapshots fileName b) ≠ [] := by
  rw [ne_eq, primaries_nil_iff, not_not]
  rfl

theorem operates_facts {b b' : Block} (h : (blockSnapshots fileName b).map snapshotFacts =
    (blockSnapshots fileName b').map snapshotFacts) : Operates b.lines ↔ Operates b'.lines := by
  rw [operates_iff fileName, operates_iff fileName, primaries_facts h]

def baseVerdict (b : Block) : Verdict :=
  supervisorVerdict (textVerdict b.searchText)
    (SupervisorParser.parseBlock b.lines b.seq b.dt fileName b.startLine)

theorem blockVerdict_base (b : Block) : blockVerdict fileName b =
    (blockSnapshots fileName b).foldl snapshotVerdict (baseVerdict fileName b) := rfl

omit [Alnum] in
theorem snapshotVerdict_replaces {v v' : Verdict} (hstatus : v.terminalStatus = v'.terminalStatus)
    (hmode : v.supervisorMode = v'.supervisorMode) {snaps : List CassetteSnapshot}
    (h : primaries snaps ≠ []) : snaps.foldl snapshotVerdict v = snaps.foldl snapshotVerdict v' := by
  induction snaps with
  | nil => exact absurd rfl h
  | cons s rest ih =>
    rw [List.foldl_cons, List.foldl_cons]
    cases hs : primaryType s.operationType with
    | none =>
      have hkeep : ∀ v, snapshotVerdict v s = v := fun v => by rw [snapshotVerdict, hs]
      rw [hkeep, hkeep]
      refine ih fun hrest => h ?_
      rw [primaries, List.filterMap_cons, hs]
      exact hrest
    | some t =>
      have hsame : snapshotVerdict v s = snapshotVerdict v' s := by
        simp only [snapshotVerdict, hs, hstatus, hmode]
      rw [hsame]

omit [Alnum] in
theorem baseVerdict_entry {b : Block} (h : supervisorAction b.lines = none) :
    baseVerdict fileName b = textVerdict b.searchText := by
  rw [baseVerdict, SupervisorParser.parseBlock, h]
  rfl

omit [Alnum] in
theorem baseVerdict_supervisor {b b' : Block} (h : supervisorAction b.lines = supervisorAction b'.lines)
    (hsome : (supervisorAction b.lines).isSome = true) :
    baseVerdict fileName b = baseVerdict fileName b' := by
  obtain ⟨entered, hentered⟩ := Option.isSome_iff_exists.mp hsome
  rw [baseVerdict, baseVerdict, SupervisorParser.parseBlock, SupervisorParser.parseBlock, ← h, hentered]
  rfl

end Words

/-- A block with the text behind its header, and one with the text below it. -/
structure Moved (p : HeaderParts) (x : Str) (body : List Str) (b b' : Block) : Prop where
  newline : '\n' ∉ p.line x
  beside : ReadsLike b (x :: body) body
  below : ReadsLike b' (x :: body) (x :: body)
  text : b.searchText = besideText p x body
  text' : b'.searchText = belowText p x body

section Moved

variable [Alnum]

structure Silent (lines : List Str) (x : Str) (body : List Str) : Prop where
  entry : operationalMatch (bodyText x body) = none
  supervisor : supervisorAction (x :: body) = none
  operations : ¬ Operates lines

structure Starts (lines : List Str) (x : Str) (body : List Str) : Prop where
  entry : found (linePhrase "*TRANSACTION START*") (bodyText x body) = true
  supervisor : supervisorAction (x :: body) = none
  operations : ¬ Operates lines

/-- The text says behind the header what it says below it. -/
structure Kept (lines : List Str) (x : Str) (body : List Str) : Prop where
  table : hasCassetteInfo (x :: body) = true → isTableRow x = true → OneCassette x body
  entry : EntryWithin x body ∨ (supervisorAction (x :: body)).isSome = true ∨ Operates lines
  start : "TRANSACTION START*".toList <+: x →
    contains (bodyText x body) "*TRANSACTION START*".toList = true ∨ Starts lines x body

variable {p : HeaderParts} {x : Str} {body : List Str} {b b' : Block} (h : Moved p x body b b')
  (fileName : Str)

include h

omit [Alnum] in
theorem Moved.supervisor : supervisorAction b.lines = supervisorAction (x :: body) ∧
    supervisorAction b'.lines = supervisorAction (x :: body) :=
  ⟨h.beside.reading.supervisor, h.below.reading.supervisor⟩

omit [Alnum] in
theorem Moved.entry_below : operationalMatch b'.searchText = operationalMatch (bodyText x body) := by
  rw [h.text']
  exact operationalMatch_below h.newline body

omit [Alnum] in
theorem Moved.silent_beside (hnone : operationalMatch (bodyText x body) = none) :
    operationalMatch b.searchText = none := by
  have hwithin : EntryWithin x body := by
    intro o ho
    rw [hnone] at ho
    cases ho
  rw [h.text, operationalMatch_beside h.newline body hwithin, hnone]

theorem Moved.verdict (hsnaps : (blockSnapshots fileName b).map snapshotFacts =
      (blockSnapshots fileName b').map snapshotFacts)
    (hentry : EntryWithin x body ∨ (supervisorAction (x :: body)).isSome = true ∨ Operates b.lines) :
    blockVerdict fileName b = blockVerdict fileName b' := by
  have hops := congrArg (List.map SnapshotFacts.operationType) hsnaps
  rw [List.map_map, List.map_map] at hops
  rw [blockVerdict_base, blockVerdict_base, snapshotVerdict_ops hops]
  obtain ⟨hbeside, hbelow⟩ := h.supervisor
  cases hsupervisor : supervisorAction (x :: body) with
  | some entered =>
    rw [baseVerdict_supervisor fileName (hbeside.trans hbelow.symm) (by rw [hbeside, hsupervisor]; rfl)]
  | none =>
    rw [baseVerdict_entry fileName (hbeside.trans hsupervisor),
      baseVerdict_entry fileName (hbelow.trans hsupervisor)]
    by_cases hwithin : EntryWithin x body
    · rw [textVerdict, textVerdict, h.entry_below, h.text, operationalMatch_beside h.newline body hwithin]
    · obtain ⟨o, hbody, hstatus, hother⟩ := operationalMatch_lost h.newline body hwithin
      have hoperates : Operates b.lines := by simpa [hwithin, hsupervisor] using hentry
      have hprimaries := (operates_iff fileName b).mp hoperates
      rw [primaries_facts hsnaps] at hprimaries
      refine snapshotVerdict_replaces ?_ ?_ hprimaries
      · rw [textVerdict, textVerdict, h.entry_below, hbody, h.text]
        cases hmatch : operationalMatch (besideText p x body) with
        | none => exact hstatus.symm
        | some o' => exact (hother o' hmatch).2.trans hstatus.symm
      · rw [textVerdict, textVerdict]
        cases operationalMatch b.searchText <;> cases operationalMatch b'.searchText <;> rfl

omit h [Alnum] in
theorem match_start {s : Str} : (operationalMatch s).map (·.evType) = some .transactionStart ↔
    found (linePhrase "*TRANSACTION START*") s = true := by
  have hentry : ∀ o ∈ OPERATIONAL_PATTERNS, o.evType = .transactionStart →
      o.pattern = linePhrase "*TRANSACTION START*" := by
    simp [OPERATIONAL_PATTERNS]
  constructor
  · intro hmatch
    obtain ⟨o, ho, htype⟩ := Option.map_eq_some_iff.mp hmatch
    obtain ⟨hmem, hfound⟩ := operationalMatch_mem ho
    rwa [hentry o hmem htype] at hfound
  · intro hfound
    have hfirst : operationalMatch s =
        some ⟨linePhrase "*TRANSACTION START*", .transactionStart, .transaction, .information, none, 100⟩ := by
      apply List.find?_cons_of_pos
      exact hfound
    rw [hfirst]
    rfl

theorem Moved.starts : NamesOnly b .transactionStart ↔ Starts b.lines x body := by
  have hfound : found (linePhrase "*TRANSACTION START*") b.searchText =
      found (linePhrase "*TRANSACTION START*") (bodyText x body) := by
    rw [h.text]
    exact entry_phrase h.newline body (o := ⟨_, .transactionStart, .transaction, .information, none, 100⟩)
      (List.mem_cons_self ..) ⟨_, rfl, by decide⟩
  constructor
  · rintro ⟨hcounts, hactions, hsupervisor, hfirst⟩
    rw [match_start, hfound] at hfirst
    refine ⟨hfirst, h.supervisor.1.symm.trans hsupervisor, ?_⟩
    rintro (⟨line, hline, haction⟩ | hadds)
    · rw [hactions line hline] at haction
      cases haction
    · exact hcounts hadds
  · rintro ⟨hentry, hsupervisor, hoperates⟩
    refine ⟨fun hadds => hoperates (.inr hadds), fun line hline => ?_, h.supervisor.1.trans hsupervisor, ?_⟩
    · rw [← Bool.not_eq_true]
      exact fun haction => hoperates (.inl ⟨line, hline, haction⟩)
    · rwa [match_start, hfound]

theorem Moved.event_iff (hverdict : blockVerdict fileName b = blockVerdict fileName b') :
    SameEvent (blockEvent fileName b) (blockEvent fileName b') ↔
      ("TRANSACTION START*".toList <+: x →
        contains (bodyText x body) "*TRANSACTION START*".toList = true ∨ Starts b.lines x body) := by
  have halike : ∀ words : String, Worded words.toList → Alike b b' words := by
    intro words hwords
    obtain ⟨hbeside, hbelow⟩ := contains_texts (p := p) (x := x) body hwords
    rw [Alike, h.text, h.text', hbeside, hbelow]
  have hstart : Alike b b' "*TRANSACTION START*" ↔ ("TRANSACTION START*".toList <+: x →
      contains (bodyText x body) "*TRANSACTION START*".toList = true) := by
    rw [Alike, h.text, h.text', contains_start_below, Bool.eq_iff_iff, contains_start_beside]
    exact or_iff_right_iff_imp
  rw [sameEvent_iff hverdict, hstart, h.starts, and_iff_right (halike _ (by decide)),
    and_iff_left fun _ => halike _ (by decide)]
  constructor
  · intro hsame hsaid
    by_cases hstarts : Starts b.lines x body
    · exact .inr hstarts
    · exact .inl (hsame hstarts hsaid)
  · exact fun hsame hstarts hsaid => (hsame hsaid).resolve_right hstarts

theorem Moved.no_operation_below (haction : reportsAction x = false) (hnone : ¬ Operates b.lines) :
    ¬ Operates b'.lines := by
  by_cases htable : hasCassetteInfo (x :: body) = true ∧ isTableRow x = true
  · obtain ⟨header, hlines, -⟩ := h.beside.headed
    obtain ⟨header', hlines', hheader'⟩ := h.below.headed
    rintro (⟨line, hline, hreports⟩ | ⟨hreach, -⟩)
    · rw [hlines', List.mem_cons, List.mem_cons] at hline
      obtain rfl | rfl | hline := hline
      · rw [reportsAction_header hheader'] at hreports
        cases hreports
      · rw [haction] at hreports
        cases hreports
      · exact hnone (.inl ⟨line, by rw [hlines]; exact List.mem_cons_of_mem header hline, hreports⟩)
    · have hrow := (hreach.table (h.below.reading.table.trans htable.1) x (by simp [hlines'])).2
      rw [htable.2] at hrow
      cases hrow
  · have hsnaps := (snapshotFacts_iff [] h.beside h.below).mpr
      ⟨haction, fun hinfo hrow => absurd ⟨hinfo, hrow⟩ htable⟩
    rwa [← operates_facts [] hsnaps]

theorem Moved.unrecognised (haction : reportsAction x = false) (hsilent : Silent b.lines x body) :
    b.recognised fileName = false ∧ b'.recognised fileName = false := by
  have hnot : ∀ {c : Block}, operationalMatch c.searchText = none → supervisorAction c.lines = none →
      ¬ Operates c.lines → c.recognised fileName = false := by
    intro c hentry hsupervisor hoperates
    rw [← Bool.not_eq_true, recognised_iff]
    rintro (hnamed | hoperates')
    · rw [named, hentry, hsupervisor] at hnamed
      cases hnamed
    · exact hoperates hoperates'
  constructor
  · exact hnot (h.silent_beside hsilent.entry) (h.supervisor.1.trans hsilent.supervisor)
      hsilent.operations
  · exact hnot (h.entry_below.trans hsilent.entry) (h.supervisor.2.trans hsilent.supervisor)
      (h.no_operation_below haction hsilent.operations)

theorem Moved.silent_of_unrecognised (hbeside : b.recognised fileName = false)
    (hbelow : b'.recognised fileName = false) : reportsAction x = false ∧ Silent b.lines x body := by
  rw [← Bool.not_eq_true, recognised_iff, MakesEvent, not_or] at hbeside hbelow
  obtain ⟨hnamed, hoperates⟩ := hbelow
  rw [Bool.not_eq_true, named, Bool.or_eq_false_iff, Option.isSome_eq_false_iff,
    Option.isSome_eq_false_iff, Option.isNone_iff_eq_none, Option.isNone_iff_eq_none, h.entry_below,
    h.supervisor.2] at hnamed
  refine ⟨?_, hnamed.1, hnamed.2, hbeside.2⟩
  obtain ⟨header, hlines, -⟩ := h.below.headed
  rw [← Bool.not_eq_true]
  exact fun haction => hoperates (.inl ⟨x, by simp [hlines], haction⟩)

theorem Moved.entry_kept (hsnaps : (blockSnapshots fileName b).map snapshotFacts =
      (blockSnapshots fileName b').map snapshotFacts)
    (hrecognised : b.recognised fileName = true)
    (htype : (blockEvent fileName b).eventType = (blockEvent fileName b').eventType) :
    EntryWithin x body ∨ (supervisorAction (x :: body)).isSome = true ∨ Operates b.lines := by
  by_contra hnone
  push Not at hnone
  obtain ⟨hwithin, hsupervisor, hoperates⟩ := hnone
  rw [ne_eq, Option.not_isSome_iff_eq_none] at hsupervisor
  obtain ⟨o, hbody, -, hother⟩ := operationalMatch_lost h.newline body hwithin
  have hprimaries : primaries (blockSnapshots fileName b) = [] :=
    not_not.mp fun hne => hoperates ((operates_iff fileName b).mpr hne)
  rw [eventType_eq, eventType_eq, ← primaries_facts hsnaps, hprimaries, baseType, baseType, h.supervisor.1,
    h.supervisor.2, hsupervisor, h.entry_below, hbody] at htype
  obtain hnamed | hoperates' := (recognised_iff fileName b).mp hrecognised
  · rw [named, h.supervisor.1, hsupervisor, Option.isSome_none, Bool.or_false] at hnamed
    obtain ⟨o', ho'⟩ := Option.isSome_iff_exists.mp hnamed
    rw [ho'] at htype
    rw [h.text] at ho'
    exact (hother o' ho').1 htype
  · exact hoperates hoperates'

/-- The blocks say the same just when nothing in them is recognised or all is kept. -/
theorem Moved.same_iff :
    (b.recognised fileName = b'.recognised fileName ∧
        (b.recognised fileName = true → SameEvent (blockEvent fileName b) (blockEvent fileName b') ∧
          (blockSnapshots fileName b).map snapshotFacts =
            (blockSnapshots fileName b').map snapshotFacts)) ↔
      reportsAction x = false ∧ (Silent b.lines x body ∨ Kept b.lines x body) := by
  have hfacts := snapshotFacts_iff fileName h.beside h.below
  constructor
  · rintro ⟨hsame, hsays⟩
    cases hrecognised : b.recognised fileName with
    | false =>
      obtain ⟨haction, hsilent⟩ :=
        h.silent_of_unrecognised fileName hrecognised (hsame.symm.trans hrecognised)
      exact ⟨haction, .inl hsilent⟩
    | true =>
      obtain ⟨hevent, hsnaps⟩ := hsays hrecognised
      obtain ⟨haction, htable⟩ := hfacts.mp hsnaps
      have hentry := h.entry_kept fileName hsnaps hrecognised hevent.eventType
      have hverdict := h.verdict fileName hsnaps hentry
      exact ⟨haction, .inr ⟨htable, hentry, (h.event_iff fileName hverdict).mp hevent⟩⟩
  · rintro ⟨haction, hsilent | hkept⟩
    · obtain ⟨hnone, hnone'⟩ := h.unrecognised fileName haction hsilent
      refine ⟨hnone.trans hnone'.symm, fun hrecognised => ?_⟩
      rw [hnone] at hrecognised
      cases hrecognised
    · have hsnaps := hfacts.mpr ⟨haction, hkept.table⟩
      have hverdict := h.verdict fileName hsnaps hkept.entry
      refine ⟨?_, fun _ => ⟨(h.event_iff fileName hverdict).mpr hkept.start, hsnaps⟩⟩
      rw [Block.recognised, Block.recognised, hverdict]

end Moved

theorem rstripNewline_text {x : Str} (hx : '\n' ∉ x ∧ '\r' ∉ x) : rstripNewline x = x := by
  apply List.rdropWhile_eq_self_iff.mpr
  intro hne hlast
  rw [Bool.or_eq_true, beq_iff_eq, beq_iff_eq] at hlast
  have hmem := List.getLast_mem hne
  obtain h | h := hlast
  · exact hx.2 (h ▸ hmem)
  · exact hx.1 (h ▸ hmem)

theorem rstripNewline_line (p : HeaderParts) {x : Str} (hx : '\n' ∉ x ∧ '\r' ∉ x) :
    rstripNewline (p.line x) = p.line x := by
  have hcore : rstripNewline (p.line []) = p.line [] := by
    rw [p.line_eq, List.append_nil, p.core_concat, ← List.append_assoc]
    exact List.rdropWhile_concat_neg _ _ _ (by decide)
  have hsplit : rstripNewline (p.line [] ++ x) =
      if (rstripNewline x).isEmpty then rstripNewline (p.line []) else p.line [] ++ rstripNewline x :=
    rdropWhile_append _ _ _
  rw [← p.line_append, hsplit, rstripNewline_text hx, hcore]
  split_ifs with hempty
  · rw [List.isEmpty_iff.mp hempty, List.append_nil]
  · rfl

theorem groupBlocks_single (now : Nat → Timestamp) {header : Str} {h : Header} (lines : List Str)
    (hheader : header? (rstripNewline header) = some h) (hlines : ∀ line ∈ lines, isHeader line = false) :
    groupBlocks now (header :: lines) =
      [{ openBlock now h (rstripNewline header) 0 with
          lines := rstripNewline header :: lines.map rstripNewline }] := by
  rw [groupBlocks, groupFrom, hheader]
  exact groupFrom_body now 1 _ hlines

/-- A text behind the header counts like the text below it just when the block is ignored, or the text
reports no cassette removed or inserted and either nothing in the block is recognised or all that the
block says is kept. -/
theorem header_text_iff [Alnum] (now : Nat → Timestamp) {header x : Str} {body : List Str} (fileName : Str)
    (hheader : EndsInStar header) (hx : '\n' ∉ x ∧ '\r' ∉ x) (hnot : header? x = none)
    (hbody : ∀ line ∈ body, isHeader line = false) :
    let rest := body.map rstripNewline
    SameOutcome (parseLines now ((header ++ x) :: body) fileName)
        (parseLines now (header :: x :: body) fileName) ↔
      isIgnored (bodyText x rest) = true ∨
        (reportsAction x = false ∧
          (Silent ((header ++ x) :: rest) x rest ∨ Kept ((header ++ x) :: rest) x rest)) := by
  intro rest
  obtain ⟨p, hline, hparts⟩ := hheader.parts
  have hempty : header = p.line [] := by rw [← hline [], List.append_nil]
  have hbeside : header? (p.line x) = some (p.header x) := by rw [← hline x, hparts x hx.1]
  have hbelow : header? (p.line []) = some (p.header []) := by
    rw [← hline [], hparts [] List.not_mem_nil]
  have hnewline : '\n' ∉ p.line x := by
    rw [← hline x, List.mem_append, not_or]
    exact ⟨hheader.newline, hx.1⟩
  have hstripped : rstripNewline (p.line x) = p.line x := rstripNewline_line p hx
  have hstripped' : rstripNewline (p.line []) = p.line [] := rstripNewline_line p (by simp)
  have hgroup := groupBlocks_single now (h := p.header x) body (hstripped.symm ▸ hbeside) hbody
  have hgroup' := groupBlocks_single now (h := p.header []) (x :: body)
    (hstripped'.symm ▸ hbelow) (by
      rw [List.forall_mem_cons, isHeader, rstripNewline_text hx, hnot]
      exact ⟨rfl, hbody⟩)
  rw [hstripped] at hgroup
  rw [hstripped', List.map_cons, rstripNewline_text hx] at hgroup'
  have hmoved : Moved p x rest
      { openBlock now (p.header x) (p.line x) 0 with lines := p.line x :: rest }
      { openBlock now (p.header []) (p.line []) 0 with lines := p.line [] :: x :: rest } :=
    { newline := hnewline
      beside := ⟨⟨p.line x, rfl, by rw [hbeside]; rfl⟩, sameReading_prefixed (prefixed_line p x) rest⟩
      below := ⟨⟨p.line [], rfl, by rw [hbelow]; rfl⟩, sameReading_header p (x :: rest)⟩
      text := (joinLines_cons _ _ _).symm
      text' := (joinLines_cons _ _ _).symm }
  obtain ⟨hignored, hignored'⟩ := isIgnored_texts hnewline rest
  rw [← hmoved.text] at hignored
  rw [← hmoved.text'] at hignored'
  rw [hline x, hempty, sameOutcome_single fileName hgroup hgroup' (hignored.trans hignored'.symm), hignored,
    hmoved.same_iff fileName]

def plainHeader : Str := "*5*15/07/2026*08:52*".toList

theorem plainHeader_ends : EndsInStar plainHeader :=
  ⟨⟨⟨"5".toList, "15/07/2026".toList, "08:52".toList, []⟩, by decide +kernel, rfl⟩, by decide⟩

theorem header_text_card_taken :
    SameOutcome (@parseLines asciiAlnum (fun _ => 0) [plainHeader ++ "CARD TAKEN".toList] [])
      (@parseLines asciiAlnum (fun _ => 0) [plainHeader, "CARD TAKEN".toList] []) := by
  have hwithin : EntryWithin "CARD TAKEN".toList [] :=
    fun o ho => .inl (operationalMatch_mem ho).2
  have htable : hasCassetteInfo ["CARD TAKEN".toList] = false := by decide
  have hstart : ¬ "TRANSACTION START*".toList <+: "CARD TAKEN".toList := by decide
  have hkept : @Kept asciiAlnum [plainHeader ++ "CARD TAKEN".toList] "CARD TAKEN".toList [] :=
    @Kept.mk asciiAlnum _ _ _ (fun hinfo => absurd (htable.symm.trans hinfo) Bool.false_ne_true)
      (.inl hwithin) fun hsaid => absurd hsaid hstart
  exact (@header_text_iff asciiAlnum (fun _ => 0) plainHeader "CARD TAKEN".toList [] [] plainHeader_ends
    (by decide) (by decide +kernel) (by simp)).mpr (.inr ⟨by decide +kernel, .inr hkept⟩)

/-- A cassette that is reported behind the header is overlooked. -/
theorem removal_behind_header :
    EndsInStar plainHeader ∧ header? "TOP CASSETTE REMOVED".toList = none ∧
      ¬ SameOutcome
        (@parseLines asciiAlnum (fun _ => 0) [plainHeader ++ "TOP CASSETTE REMOVED".toList] [])
        (@parseLines asciiAlnum (fun _ => 0) [plainHeader, "TOP CASSETTE REMOVED".toList] []) := by
  refine ⟨plainHeader_ends, by decide +kernel, fun h => ?_⟩
  have hbeside : (@parseLines asciiAlnum (fun _ => 0)
      [plainHeader ++ "TOP CASSETTE REMOVED".toList] []).warnings.length = 1 := by decide +kernel
  have hbelow : (@parseLines asciiAlnum (fun _ => 0)
      [plainHeader, "TOP CASSETTE REMOVED".toList] []).warnings.length = 0 := by decide +kernel
  have hunknown := h.unknown
  rw [hbeside, hbelow] at hunknown
  cases hunknown

end AtmMonitor.HeaderText
