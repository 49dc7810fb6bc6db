import AtmMonitor.CashReadings
import AtmMonitor.MaskedOperations
import AtmMonitor.SupervisorOverride

namespace AtmMonitor.CaseBlindness

open PyText ParserModels EventPatterns CassetteParser SupervisorParser EjParser ParsedBlocks BlockPlaces
  ParseClock BlockRanges SnapshotRouting SnapshotOwners SupervisorOverride CountRows MaskedOperations
  BlockTwins LetterCase CaseTwins CashReadings

/-- The line is the same, or a body line with letters in another case. -/
abbrev Recased : Str → Str → Prop := Changed SameLetter

/-- The events are of one kind, with the same flags. -/
structure SameEvent (e e' : ATMParsedEvent) : Prop where
  eventType : e.eventType = e'.eventType
  eventCategory : e.eventCategory = e'.eventCategory
  severity : e.severity = e'.severity
  terminalStatus : e.terminalStatus = e'.terminalStatus
  supervisorMode : e.supervisorMode = e'.supervisorMode
  cashAdded : e.isCashAdded = e'.isCashAdded
  cashRemoved : e.isCashRemoved = e'.isCashRemoved
  cassetteInserted : e.isCassetteInserted = e'.isCassetteInserted
  cassetteRemoved : e.isCassetteRemoved = e'.isCassetteRemoved
  binRemoved : e.isRejectBinRemoved = e'.isRejectBinRemoved
  binInserted : e.isRejectBinInserted = e'.isRejectBinInserted
  cardCaptured : e.isCardCaptured = e'.isCardCaptured
  transactionStart : e.isTransactionStart = e'.isTransactionStart
  transactionEnd : e.isTransactionEnd = e'.isTransactionEnd

structure SameRecognition (r r' : ParserResult) : Prop where
  events : List.Forall₂ SameEvent r.events r'.events
  warnings : r.warnings.length = r'.warnings.length
  snapshots : SameSnapshots r.cassetteSnapshots r'.cassetteSnapshots

theorem processedBlocks_twins (now : Nat → Timestamp) {lines lines' : List Str}
    (h : List.Forall₂ Recased lines lines') :
    List.Forall₂ (Twins SameLetter) (processedBlocks now lines) (processedBlocks now lines') := by
  refine List.rel_filter (fun b b' htwins => ?_) (keptBlocks_twins keepsHeaders now h)
  simp only [isIgnored_same htwins]

section Words

variable [Alnum]

/-- The block names an event, reports a cassette or counts a new one. -/
def MakesEvent (b : Block) : Prop :=
  named b = true ∨ (∃ line ∈ b.lines, reportsAction line = true) ∨ AddsCounts b.lines

/-- The entry of the pattern table decides about the event. -/
structure NamesOnly (b : Block) (t : EventType) : Prop where
  counts : ¬ AddsCounts b.lines
  actions : ∀ line ∈ b.lines, reportsAction line = false
  supervisor : supervisorAction b.lines = none
  first : (operationalMatch b.searchText).map (·.evType) = some t

theorem primaries_nil_iff (fileName : Str) (b : Block) :
    primaries (blockSnapshots fileName b) = [] ↔
      ¬ ((∃ line ∈ b.lines, reportsAction line = true) ∨ AddsCounts b.lines) := by
  by_cases hcounts : AddsCounts b.lines
  · have hne : primaries (blockSnapshots fileName b) ≠ [] := by
      intro hnil
      have hlast := primaries_counted fileName hcounts
      rw [hnil] at hlast
      obtain h | h := hlast <;> cases h
    simp [hne, hcounts]
  · rw [primaries_uncounted fileName hcounts, List.filterMap_eq_nil_iff]
    simp only [hcounts, or_false, not_exists, not_and, ← actionType_isSome, Option.not_isSome_iff_eq_none]

theorem recognised_iff (fileName : Str) (b : Block) :
    b.recognised fileName = true ↔ MakesEvent b := by
  have hprimary : ((blockSnapshots fileName b).any fun s => (primaryType s.operationType).isSome) =
      true ↔ ¬ primaries (blockSnapshots fileName b) = [] := by
    rw [primaries, List.filterMap_eq_nil_iff, List.any_eq_true]
    simp [Option.isSome_iff_ne_none]
  rw [primaries_nil_iff, not_not] at hprimary
  rw [MakesEvent, ← hprimary]
  by_cases hany : ((blockSnapshots fileName b).any
      fun s => (primaryType s.operationType).isSome) = true
  · have hmatched : (blockVerdict fileName b).matched = true := by
      rw [blockVerdict, snapshotVerdict_matched, hany, Bool.or_true]
    simp [Block.recognised, hmatched, hany]
  · have hnone : SupervisorOverride.NoOperation fileName b := by
      simpa [SupervisorOverride.NoOperation] using hany
    rw [Block.recognised, blockVerdict_noOperation hnone, or_iff_left hany]
    exact iff_of_eq (congrArg (· = true) (baseVerdict_recognised fileName b))

theorem transaction_type (fileName : Str) (b : Block) {t : EventType}
    (ht : t = .transactionStart ∨ t = .transactionEnd) :
    (blockVerdict fileName b).eventType = t ↔ NamesOnly b t := by
  have htype := eventType_named fileName b (t := t) (by rcases ht with rfl | rfl <;> decide)
    (by rcases ht with rfl | rfl <;> decide)
  have hactions : (∀ line ∈ b.lines, actionType line = none) ↔
      ∀ line ∈ b.lines, reportsAction line = false := by
    simp only [← actionType_isSome, Option.isSome_eq_false_iff, Option.isNone_iff_eq_none]
  rw [hactions] at htype
  rw [show (blockVerdict fileName b).eventType = (blockEvent fileName b).eventType from rfl, htype]
  exact ⟨fun ⟨h1, h2, h3, h4⟩ => ⟨h1, h2, h3, h4⟩, fun ⟨h1, h2, h3, h4⟩ => ⟨h1, h2, h3, h4⟩⟩

/-- The words in capitals stand in both texts or in neither. -/
def Alike (b b' : Block) (words : String) : Prop :=
  contains b.searchText words.toList = contains b'.searchText words.toList

/-- The case of letters makes no difference to what the two blocks say: the cassette parser reads
the lines of both alike, and the words in capitals that set a flag of the event stand in both or in
neither, unless the type of the event sets it. -/
structure CaseBlind (b b' : Block) : Prop where
  cash : readingOf b.lines = readingOf b'.lines
  captured : MakesEvent b → Alike b b' "CARDS CAPTURED"
  started : MakesEvent b → ¬ NamesOnly b .transactionStart → Alike b b' "*TRANSACTION START*"
  ended : MakesEvent b → ¬ NamesOnly b .transactionEnd → Alike b b' "TRANSACTION END"

theorem blockVerdict_same {fileName : Str} {b b' : Block} (h : Twins SameLetter b b')
    (hsnaps : SameSnapshots (blockSnapshots fileName b) (blockSnapshots fileName b')) :
    blockVerdict fileName b = blockVerdict fileName b' := by
  apply blockVerdict_congr
  · rw [textVerdict, textVerdict, operationalMatch_same h]
  · exact supervisorAction_same h.lines
  · exact (map_same hsnaps (·.operationType) fun _ => rfl).symm

theorem sameEvent_iff {fileName : Str} {b b' : Block}
    (hverdict : blockVerdict fileName b = blockVerdict fileName b') :
    SameEvent (blockEvent fileName b) (blockEvent fileName b') ↔
      Alike b b' "CARDS CAPTURED" ∧ (¬ NamesOnly b .transactionStart → Alike b b' "*TRANSACTION START*") ∧
        (¬ NamesOnly b .transactionEnd → Alike b b' "TRANSACTION END") := by
  have hstart : ∀ t : EventType, contains t.name "TransactionStart".toList = (t == .transactionStart) := by
    intro t
    cases t <;> decide
  have hend : ∀ t : EventType, contains t.name "TransactionEnd".toList = (t == .transactionEnd) := by
    intro t
    cases t <;> decide
  have hflag : ∀ (t : EventType) (words : String), t = .transactionStart ∨ t = .transactionEnd →
      (((blockVerdict fileName b).eventType == t || contains b.searchText words.toList) =
        ((blockVerdict fileName b).eventType == t || contains b'.searchText words.toList) ↔
          (¬ NamesOnly b t → Alike b b' words)) := by
    intro t words ht
    rw [← transaction_type fileName b ht, Alike]
    by_cases htype : (blockVerdict fileName b).eventType = t
    · simp [htype]
    · have hne : ((blockVerdict fileName b).eventType == t) = false := beq_eq_false_iff_ne.mpr htype
      simp [hne, htype]
  rw [← hflag .transactionStart _ (Or.inl rfl), ← hflag .transactionEnd _ (Or.inr rfl), ← hstart,
    ← hend]
  constructor
  · intro h
    have hs := h.transactionStart
    have he := h.transactionEnd
    simp only [blockEvent, ← hverdict] at hs he
    exact ⟨h.cardCaptured, hs, he⟩
  · rintro ⟨hc, hs, he⟩
    constructor <;> simp only [blockEvent, ← hverdict]
    · exact hc
    · exact hs
    · exact he

def inRange (b : Block) (s : CassetteSnapshot) : Bool :=
  decide (b.startLine ≤ s.startLineNumber) && decide (s.endLineNumber ≤ b.endLine)

theorem snapshots_in_range {now : Nat → Timestamp} {lines : List Str} {b : Block}
    (hb : b ∈ processedBlocks now lines) (fileName : Str) :
    (parseLines now lines fileName).cassetteSnapshots.filter (inRange b) =
      blockSnapshots fileName b := by
  have hwithin : ∀ c ∈ processedBlocks now lines, ∀ s ∈ blockSnapshots fileName c, Within c s :=
    fun c hc => blockSnapshots_within fileName
      ((groupBlocks_ranges now lines).2 c (grouped_of_processed hc))
  have hown : ((processedBlocks now lines).flatMap (blockSnapshots fileName)).filter (inRange b) =
      (blockSnapshots fileName b).filter (inRange b) := by
    apply filter_flatMap_owner hb (processedBlocks_nodup now lines)
    intro c hc s hs hrange
    rw [inRange, Bool.and_eq_true, decide_eq_true_eq, decide_eq_true_eq] at hrange
    obtain ⟨hstart, hordered, hstop⟩ := hwithin c hc s hs
    by_contra hne
    have hapart := blocks_apart (grouped_of_processed hc) (grouped_of_processed hb) hne
    simp only [Precedes] at hapart
    omega
  have hall : (blockSnapshots fileName b).filter (inRange b) = blockSnapshots fileName b := by
    rw [List.filter_eq_self]
    intro s hs
    obtain ⟨hstart, -, hstop⟩ := hwithin b hb s hs
    simp [inRange, hstart, hstop]
  rw [snapshots_processed, hown, hall]

structure ReadAlike (fileName : Str) (b b' : Block) : Prop where
  reading : readingOf b.lines = readingOf b'.lines
  snapshots : SameSnapshots (blockSnapshots fileName b) (blockSnapshots fileName b')
  verdict : blockVerdict fileName b = blockVerdict fileName b'

theorem ReadAlike.recognised {fileName : Str} {b b' : Block} (h : ReadAlike fileName b b') :
    b.recognised fileName = b'.recognised fileName := by
  rw [Block.recognised, Block.recognised, h.verdict]

theorem readAlike_of_reading {fileName : Str} {b b' : Block} (h : Twins SameLetter b b')
    (hb : Headed b) (hb' : Headed b') (hreading : readingOf b.lines = readingOf b'.lines) :
    ReadAlike fileName b b' := by
  have hsnaps := (snapshots_same_iff fileName h hb hb').mpr hreading
  exact ⟨hreading, hsnaps, blockVerdict_same h hsnaps⟩

theorem caseBlind_iff {fileName : Str} {b b' : Block} (h : ReadAlike fileName b b') :
    CaseBlind b b' ↔ (b.recognised fileName = true →
      SameEvent (blockEvent fileName b) (blockEvent fileName b')) := by
  rw [recognised_iff, sameEvent_iff h.verdict]
  constructor
  · intro hblind hmakes
    exact ⟨hblind.captured hmakes, hblind.started hmakes, hblind.ended hmakes⟩
  · intro hevent
    exact ⟨h.reading, fun hmakes => (hevent hmakes).1, fun hmakes => (hevent hmakes).2.1,
      fun hmakes => (hevent hmakes).2.2⟩

/-- The events of the two journals go side by side. -/
theorem sameEvents_iff {fileName : Str} {bs bs' : List Block}
    (h : List.Forall₂ (ReadAlike fileName) bs bs') :
    List.Forall₂ SameEvent ((bs.filter (·.recognised fileName)).map (blockEvent fileName))
        ((bs'.filter (·.recognised fileName)).map (blockEvent fileName)) ↔
      List.Forall₂ CaseBlind bs bs' := by
  induction h with
  | nil => exact iff_of_true .nil .nil
  | @cons b b' bs bs' halike _ ih =>
    rw [List.forall₂_cons, ← ih, caseBlind_iff halike, List.filter_cons, List.filter_cons,
      ← halike.recognised]
    by_cases hrec : b.recognised fileName = true
    · rw [if_pos hrec, if_pos hrec, List.map_cons, List.map_cons, List.forall₂_cons]
      simp only [hrec, true_imp_iff]
    · rw [if_neg hrec, if_neg hrec]
      simp only [hrec, false_imp_iff, true_and, Bool.false_eq_true]

theorem warnings_length (now : Nat → Timestamp) (lines : List Str) (fileName : Str) :
    (parseLines now lines fileName).warnings.length =
      (processedBlocks now lines).countP fun b => !b.recognised fileName := by
  have hwarnings : (parseLines now lines fileName).warnings = _ :=
    (recounts_parse fileName (groupBlocks now lines)).warnings
  rw [hwarnings, List.length_map, processedBlocks, List.countP_filter, List.countP_eq_length_filter]
  congr 2
  funext b
  rw [unhandled, Bool.and_comm]

theorem countP_unrecognised {fileName : Str} {bs bs' : List Block}
    (h : List.Forall₂ (ReadAlike fileName) bs bs') :
    (bs.countP fun b => !b.recognised fileName) = bs'.countP fun b => !b.recognised fileName := by
  induction h with
  | nil => rfl
  | cons hb _ ih => rw [List.countP_cons, List.countP_cons, ih, hb.recognised]

/-- Changing the case of letters leaves the recognition as it is exactly if no block tells the
difference. -/
theorem recognition_case_blind_iff (now : Nat → Timestamp) {lines lines' : List Str}
    (h : List.Forall₂ Recased lines lines') (fileName : Str) :
    SameRecognition (parseLines now lines fileName) (parseLines now lines' fileName) ↔
      List.Forall₂ CaseBlind (processedBlocks now lines) (processedBlocks now lines') := by
  have htwins := processedBlocks_twins now h
  have hmem : ∀ {b b'}, (b, b') ∈ (processedBlocks now lines).zip (processedBlocks now lines') →
      Twins SameLetter b b' ∧ b ∈ processedBlocks now lines ∧ b' ∈ processedBlocks now lines' :=
    fun hzip => ⟨List.forall₂_zip htwins hzip, List.of_mem_zip hzip⟩
  have hread : (∀ {b b'}, (b, b') ∈ (processedBlocks now lines).zip (processedBlocks now lines') →
      readingOf b.lines = readingOf b'.lines) →
        List.Forall₂ (ReadAlike fileName) (processedBlocks now lines) (processedBlocks now lines') := by
    intro hreading
    refine List.forall₂_iff_zip.mpr ⟨htwins.length_eq, fun {b b'} hzip => ?_⟩
    obtain ⟨htwin, hb, hb'⟩ := hmem hzip
    exact readAlike_of_reading htwin (headed_of_processed hb) (headed_of_processed hb') (hreading hzip)
  constructor
  · intro hsame
    have halike := hread fun {b b'} hzip => by
      obtain ⟨htwin, hb, hb'⟩ := hmem hzip
      rw [← snapshots_same_iff fileName htwin (headed_of_processed hb) (headed_of_processed hb'),
        ← snapshots_in_range hb, ← snapshots_in_range hb']
      refine List.rel_filter (fun s s' hs => ?_) hsame.snapshots
      simp only [inRange, htwin.startLine, htwin.endLine, hs.field (·.startLineNumber) fun _ => rfl,
        hs.field (·.endLineNumber) fun _ => rfl]
    rw [← sameEvents_iff halike, ← parseLines_processed, ← parseLines_processed]
    exact hsame.events
  · intro hblind
    have halike := hread fun hzip => (List.forall₂_zip hblind hzip).cash
    refine ⟨?_, ?_, ?_⟩
    · rw [parseLines_processed, parseLines_processed]
      exact (sameEvents_iff halike).mpr hblind
    · rw [warnings_length, warnings_length]
      exact countP_unrecognised halike
    · rw [snapshots_processed, snapshots_processed]
      exact List.rel_flatMap halike fun _ _ hb => hb.snapshots

end Words

def oneBlock (body : List String) : List Str :=
  "*5*15/07/2026*08:52*".toList :: body.map (·.toList)

theorem recased_body {body body' : List String} (h : List.Forall₂ (fun line line' =>
    isHeader line.toList = false ∧ SameText line.toList line'.toList) body body') :
    List.Forall₂ Recased (oneBlock body) (oneBlock body') :=
  .cons (Or.inl rfl) (List.forall₂_map_left_iff.mpr (List.forall₂_map_right_iff.mpr
    (h.imp fun _ _ => Or.inr)))

theorem in_service_case_blind :
    SameRecognition (@parseLines asciiAlnum (fun _ => 0) (oneBlock ["SST IN SERVICE"]) [])
      (@parseLines asciiAlnum (fun _ => 0) (oneBlock ["Sst in Service"]) []) := by
  have hrecased : List.Forall₂ Recased (oneBlock ["SST IN SERVICE"]) (oneBlock ["Sst in Service"]) :=
    recased_body (.cons (by decide +kernel) .nil)
  refine (@recognition_case_blind_iff asciiAlnum (fun _ => 0) _ _ hrecased []).mpr ?_
  have hlength : (processedBlocks (fun _ => 0) (oneBlock ["SST IN SERVICE"])).length =
      (processedBlocks (fun _ => 0) (oneBlock ["Sst in Service"])).length := by decide +kernel
  have hblocks : ∀ p ∈ (processedBlocks (fun _ => 0) (oneBlock ["SST IN SERVICE"])).zip
      (processedBlocks (fun _ => 0) (oneBlock ["Sst in Service"])),
      @readingOf asciiAlnum p.1.lines = @readingOf asciiAlnum p.2.lines ∧
        ∀ words ∈ ["CARDS CAPTURED", "*TRANSACTION START*", "TRANSACTION END"],
          contains p.1.searchText words.toList = contains p.2.searchText words.toList := by
    decide +kernel
  refine List.forall₂_iff_zip.mpr ⟨hlength, fun {b b'} hzip => ?_⟩
  obtain ⟨hreading, hwords⟩ := hblocks (b, b') hzip
  exact @CaseBlind.mk asciiAlnum b b' hreading (fun _ => hwords _ (by simp))
    (fun _ _ => hwords _ (by simp)) (fun _ _ => hwords _ (by simp))

/-- Cash that is added in small letters is an event without counts. -/
theorem added_cash_not_case_blind :
    List.Forall₂ Recased (oneBlock ["CASH ADDED", "TYPE 1 ≈ 100 TYPE 2 ≈ 200"])
        (oneBlock ["Cash Added", "TYPE 1 ≈ 100 TYPE 2 ≈ 200"]) ∧
      ¬ SameRecognition
        (@parseLines asciiAlnum (fun _ => 0) (oneBlock ["CASH ADDED", "TYPE 1 ≈ 100 TYPE 2 ≈ 200"]) [])
        (@parseLines asciiAlnum (fun _ => 0)
          (oneBlock ["Cash Added", "TYPE 1 ≈ 100 TYPE 2 ≈ 200"]) []) := by
  refine ⟨recased_body (.cons (by decide +kernel) (.cons (by decide +kernel) .nil)), fun h => ?_⟩
  have hlength := h.snapshots.length_eq
  exact absurd hlength (by decide +kernel)

end AtmMonitor.CaseBlindness
