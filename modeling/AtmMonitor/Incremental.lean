import AtmMonitor.BlockPlaces
import AtmMonitor.Ingestion
import AtmMonitor.Library.EarliestWins

namespace AtmMonitor.Incremental

open Library.EarliestWins Library.FirstWins Library.Runs PyText ParserModels DatabaseModels
  Repositories FileUtils EventProcessor Ledger Duplicates EjParser ParsedBlocks AppendedLines
  BlockPlaces ParserService Ingestion

/-- The cut tears no line and no block, and for each block behind it that makes an event: a block
of its number before the cut is not later, and makes an event too if it has the same time. -/
structure CleanCut [Alnum] (fileName : Str) (before after : Bytes) : Prop where
  lineEnd : AtLineEnd before after
  resumes : Resumes (strippedLines before) (strippedLines (afterLineEnd before after))
  separated : Separated Block.key (emits fileName) (journal (strippedLines before))
    (journal (strippedLines (afterLineEnd before after)))

instance [Alnum] (fileName : Str) (before after : Bytes) :
    Decidable (CleanCut fileName before after) :=
  decidable_of_iff (AtLineEnd before after ∧
      Resumes (strippedLines before) (strippedLines (afterLineEnd before after)) ∧
      Separated Block.key (emits fileName) (journal (strippedLines before))
        (journal (strippedLines (afterLineEnd before after))))
    ⟨fun ⟨hl, hr, hs⟩ => ⟨hl, hr, hs⟩, fun ⟨hl, hr, hs⟩ => ⟨hl, hr, hs⟩⟩

section Cut

variable [Alnum] {fileName : Str}

theorem cleanCut_start (content : Bytes) : CleanCut fileName [] content where
  lineEnd := Or.inl Library.Lines.complete_nil
  resumes := Or.inl fun _ h => absurd h List.not_mem_nil
  separated := fun _ h => absurd h List.not_mem_nil

theorem cleanCut_end (content : Bytes) : CleanCut fileName content [] := by
  have hnil : afterLineEnd content [] = [] := by
    rw [afterLineEnd]
    split_ifs <;> rfl
  refine ⟨Or.inr (fun _ h => by cases h), Or.inr ?_, ?_⟩
  · rw [hnil]
    exact fun _ h => by cases h
  · rw [hnil]
    exact fun _ _ _ h => absurd h List.not_mem_nil

/-- Between clean cuts a chunk adds its blocks to the journal. -/
theorem chunk_journal {before chunk after : Bytes} (hplain : Plain (before ++ chunk))
    (hdated : Dated (strippedLines (before ++ (chunk ++ after))))
    (hcut : CleanCut fileName before (chunk ++ after))
    (hcut' : CleanCut fileName (before ++ chunk) after) :
    Dated (fileLines chunk) ∧
      journal (strippedLines (before ++ chunk)) =
        journal (strippedLines before) ++ journal (strippedLines chunk) ∧
      Separated Block.key (emits fileName) (journal (strippedLines before))
        (journal (strippedLines chunk)) := by
  obtain ⟨ls, hbefore, hchunk, hafter⟩ := chunk_lines hplain hcut.lineEnd hcut'.lineEnd
  have hcontent := strippedLines_append hplain.left hcut.lineEnd
  rw [hafter] at hcontent
  rw [hcontent] at hdated
  have hls : Dated ls := fun line h => hdated line (by simp [h])
  have hrest : Dated (strippedLines (afterLineEnd (before ++ chunk) after)) :=
    fun line h => hdated line (by simp [h])
  have hblank : Dated ([] :: ls) := by
    intro line h
    obtain rfl | h := List.mem_cons.mp h
    · exact fun _ hh => by cases hh
    · exact hls line h
  have hjournal : journal (strippedLines chunk) = journal ls := by
    obtain h | h := hchunk
    · rw [h]
    · rw [h, journal_blank hls]
  have hresumes : Resumes (strippedLines before) ls := by
    obtain h | h := hcut.resumes
    · exact Or.inl h
    · refine Or.inr fun line hl => h line ?_
      rw [Option.mem_def] at hl ⊢
      rw [hafter, List.head?_append, hl, Option.some_or]
  have hresumes' : Resumes ls (strippedLines (afterLineEnd (before ++ chunk) after)) := by
    obtain h | h := hcut'.resumes
    · rw [hbefore] at h
      exact Or.inl fun line hl => h line (List.mem_append_right _ hl)
    · exact Or.inr h
  have hstripped : Dated (strippedLines chunk) := by
    obtain h | h := hchunk
    · rwa [h]
    · rwa [h]
  refine ⟨hstripped.of_stripped, ?_, ?_⟩
  · rw [hbefore, journal_append hls hresumes, hjournal]
  · rw [hjournal]
    intro b hb b' hb'
    apply hcut.separated b hb b'
    rw [hafter, journal_append hrest hresumes']
    exact List.mem_append_left _ hb'

end Cut

def rows (db : Database) : List ATMEvent := db.events.map unplacedRow

theorem rows_eq (db : Database) : rows db = (contents db).events.map unplacedRow := by
  rw [contents, List.map_map]
  rfl

section Rows

variable [Alnum]

def chosenRow (fileName : Str) (atmId : Nat) (blocks : List Block) (n : Nat) : Option ATMEvent :=
  (choice Block.key (emits fileName) blocks n).map fun b => blockRow fileName b atmId

theorem chosenRow_unplaced (fileName : Str) (atmId : Nat) (blocks : List Block) (n : Nat) :
    chosenRow fileName atmId (blocks.map unplaced) n = chosenRow fileName atmId blocks n := by
  have hmap : choice Block.key (emits fileName) (blocks.map unplaced) n =
      (choice Block.key (emits fileName) blocks n).map unplaced :=
    choice_map (fun _ => rfl) (emits_unplaced fileName) blocks n
  rw [chosenRow, hmap, Option.map_map, chosenRow]
  congr 1
  funext b
  exact blockRow_unplaced fileName b atmId

theorem chosenRow_append {fileName : Str} {blocks blocks' : List Block}
    (h : Separated Block.key (emits fileName) blocks blocks') (atmId n : Nat) :
    chosenRow fileName atmId (blocks ++ blocks') n =
      (chosenRow fileName atmId blocks n <|> chosenRow fileName atmId blocks' n) := by
  rw [chosenRow, choice_append h, chosenRow]
  cases choice Block.key (emits fileName) blocks n <;> rfl

theorem choice_find? (now : Nat → Timestamp) (lines : List Str) (fileName : Str) (n : Nat) :
    (choice Block.key (emits fileName) (groupBlocks now lines) n).map (blockEvent fileName) =
      (sortedEvents (parseLines now lines fileName).events).find?
        (·.eventSequenceNumber == some n) := by
  set events := (parseLines now lines fileName).events with hevents
  cases hc : choice Block.key (emits fileName) (groupBlocks now lines) n with
  | none =>
    refine (List.find?_eq_none.mpr fun ev hev hn => ?_).symm
    obtain ⟨b, hb, hemits, rfl⟩ := mem_parseLines (mem_sortedEvents.mp hev)
    exact choice_eq_none.mp hc b hb hemits (by simpa [blockEvent, Block.key] using hn)
  | some b =>
    obtain ⟨hb, hemits, hn, hearliest⟩ := choice_eq_some.mp hc
    have hev : blockEvent fileName b ∈ events := by
      rw [hevents, (parseLines_tracks now lines fileName).1]
      exact List.mem_map_of_mem (List.mem_filter.mpr ⟨hb, hemits⟩)
    have hfound : ((sortedEvents events).find? (·.eventSequenceNumber == some n)).isSome :=
      List.find?_isSome.mpr ⟨_, mem_sortedEvents.mpr hev, by simpa [blockEvent, Block.key] using hn⟩
    obtain ⟨ev, hfirst⟩ := Option.isSome_iff_exists.mp hfound
    obtain ⟨hmem, hnum, hleast⟩ := find?_sorted hfirst
    obtain ⟨b', hb', hemits', rfl⟩ := mem_parseLines hmem
    have hn' : b'.key.1 = n := by simpa [blockEvent, Block.key] using hnum
    have htime : b'.dt = b.dt :=
      le_antisymm (hleast _ hev (by simpa [blockEvent, Block.key] using hn)) (hearliest b' hb' hemits' hn')
    have hsame : b' = b := kept_injective hb' hb (Prod.ext (hn'.trans hn.symm) htime)
    rw [hfirst, hsame]
    rfl

theorem lookup_parsed {lines lines' : List Str} (hd : Dated lines)
    (hlines : lines.map rstripNewline = lines'.map rstripNewline) (now : Nat → Timestamp)
    (fileName : Str) (atmId n : Nat) :
    lookup (machineKey atmId)
        (((sortedEvents (parseLines now lines fileName).events).map
          (ATMEvent.ofParsed 0 atmId)).map unplacedRow) n =
      chosenRow fileName atmId (journal lines') n := by
  have hmap : ∀ events : List ATMEvent, lookup (machineKey atmId) (events.map unplacedRow) n =
      (lookup (machineKey atmId) events n).map unplacedRow := fun events => List.find?_map ..
  rw [hmap, lookup_ofParsed, ← choice_find?, Option.map_map, Option.map_map,
    ← groupBlocks_unplaced hd hlines now, chosenRow_unplaced]
  rfl

end Rows

/-- The passes find longer and longer beginnings of the content, the first at least `len` long. -/
def Growing (content : Bytes) : Nat → List ScanEnv → Prop
  | _, [] => True
  | len, env :: rest =>
    ∃ len', len ≤ len' ∧ len' ≤ content.length ∧ Finds env (content.take len') ∧
      Growing content len' rest

section Run

variable [Alnum] (target : Target) (content : Bytes)

/-- The next scan begins at a clean cut. -/
def BeginsClean (db : Database) : Prop :=
  CleanCut target.fileName (content.take (offset target db)) (content.drop (offset target db))

instance (db : Database) : Decidable (BeginsClean target content db) :=
  inferInstanceAs (Decidable (CleanCut target.fileName (content.take (offset target db))
    (content.drop (offset target db))))

/-- The store holds what one scan of the file up to the offset would leave in it. -/
structure Ingested (db : Database) : Prop where
  tracked : Tracked target content db
  lookups : ∀ n, lookup (machineKey target.atmId) (rows db) n =
    chosenRow target.fileName target.atmId
      (journal (strippedLines (content.take (offset target db)))) n
  nodup : ((rows db).filterMap (machineKey target.atmId)).Nodup
  numbered : ∀ r ∈ rows db, (machineKey target.atmId r).isSome

theorem ingested_empty : Ingested target content {} where
  tracked := tracked_empty target content
  lookups := fun _ => rfl
  nodup := List.nodup_nil
  numbered := fun _ h => absurd h List.not_mem_nil

variable {target content}

theorem ingested_pass (hplain : Plain content) (hdated : Dated (strippedLines content))
    {env : ScanEnv} {len : Nat} (hfinds : Finds env (content.take len))
    (hlen : len ≤ content.length) {db : Database} (hdb : Ingested target content db)
    (hoffset : offset target db ≤ len) (hclean : BeginsClean target content db)
    (hclean' : BeginsClean target content (pass target db env)) :
    Ingested target content (pass target db env) ∧ offset target (pass target db env) ≤ len := by
  obtain ⟨chunk, rest, hsplit, -, hnew, htracked, hevents⟩ :=
    pass_reads hplain hfinds hlen hdb.tracked hoffset
  set o := offset target db with ho
  obtain ⟨hbefore, hafter⟩ := chunk_cut hsplit
  have hcontent : content.take o ++ (chunk ++ content.drop (o + chunk.length)) = content := by
    rw [← hafter, List.take_append_drop]
  have hplain' : Plain (content.take o ++ chunk) := by
    rw [← hcontent, ← List.append_assoc] at hplain
    exact hplain.left
  rw [BeginsClean, hafter] at hclean
  rw [BeginsClean, hnew, hbefore] at hclean'
  obtain ⟨hlines, hjournal, hseparated⟩ :=
    chunk_journal hplain' (by rwa [hcontent]) hclean hclean'
  have hrows : rows (pass target db env) = record (machineKey target.atmId) (rows db)
      (((sortedEvents (parseLines env.parseClock (fileLines chunk) target.fileName).events).map
        (ATMEvent.ofParsed 0 target.atmId)).map unplacedRow) := by
    rw [rows_eq, hevents, record_map (machineKey target.atmId) (machineKey target.atmId) unplacedRow
      (fun _ => rfl), ← rows_eq]
  refine ⟨⟨htracked, fun n => ?_, ?_, ?_⟩, ?_⟩
  · rw [hrows, lookup_record, hdb.lookups, hnew, hbefore, hjournal, chosenRow_append hseparated,
      lookup_parsed hlines (stripped_twice (fileLines chunk)).symm]
    rfl
  · rw [hrows]
    exact record_nodup _ _ hdb.nodup
  · intro r hr
    rw [hrows] at hr
    obtain hr | hr := mem_record _ hr
    · exact hdb.numbered r hr
    · rw [List.map_map] at hr
      obtain ⟨ev, hev, rfl⟩ := List.mem_map.mp hr
      have hnum := parseLines_numbered _ _ _ ev (mem_sortedEvents.mp hev)
      simpa [machineKey, unplacedRow, ATMEvent.ofParsed] using hnum
  · have hlength := congrArg List.length hsplit
    rw [List.length_drop, List.length_take, min_eq_left hlen, List.length_append] at hlength
    omega

theorem ingested_run (hplain : Plain content) (hdated : Dated (strippedLines content))
    {envs : List ScanEnv} {len : Nat} (hgrowing : Growing content len envs) {db : Database}
    (hdb : Ingested target content db) (hoffset : offset target db ≤ len)
    (hclean : ∀ d ∈ states (pass target) db envs, BeginsClean target content d) :
    Ingested target content (envs.foldl (pass target) db) := by
  induction envs generalizing len db with
  | nil => exact hdb
  | cons env rest ih =>
    obtain ⟨len', hle, hlen, hfinds, hrest⟩ := hgrowing
    have hnext : pass target db env ∈ states (pass target) (pass target db env) rest :=
      List.mem_of_head? (head?_states _ _)
    obtain ⟨hpass, hoffset'⟩ := ingested_pass hplain hdated hfinds hlen hdb (hoffset.trans hle)
      (hclean db (by simp [states])) (hclean _ (List.mem_cons_of_mem db hnext))
    exact ih hrest hpass hoffset' fun d hd => hclean d (List.mem_cons_of_mem db hd)

/-- A scan whose cap is no smaller than the file reads all of it. -/
theorem pass_whole (hplain : Plain content) {env : ScanEnv} (hfinds : Finds env content)
    (hcap : content.length ≤ target.maxBytes) :
    offset target (pass target {} env) = content.length := by
  have hfinds' : Finds env (content.take content.length) := by rwa [List.take_length]
  obtain ⟨chunk, rest, hsplit, hstop, hnew, -⟩ :=
    pass_reads hplain hfinds' le_rfl (tracked_empty target content) (Nat.zero_le _)
  have hempty : offset target {} = 0 := rfl
  rw [List.take_length, hempty, List.drop_zero] at hsplit
  rw [hempty, Nat.zero_add] at hnew
  have hrest : rest = [] := by
    by_contra hne
    have hlong := hstop hne
    have hpos := List.length_pos_iff.mpr hne
    rw [hsplit, List.length_append] at hcap
    omega
  rw [hnew, hsplit, hrest, List.append_nil]

theorem ingested_whole (hplain : Plain content) (hdated : Dated (strippedLines content))
    {env : ScanEnv} (hfinds : Finds env content) (hcap : content.length ≤ target.maxBytes) :
    Ingested target content (pass target {} env) := by
  have hoff := pass_whole hplain hfinds hcap
  have hbegin : BeginsClean target content {} := by
    have hempty : offset target {} = 0 := rfl
    rw [BeginsClean, hempty]
    exact cleanCut_start _
  have hend : BeginsClean target content (pass target {} env) := by
    rw [BeginsClean, hoff, List.take_length, List.drop_length]
    exact cleanCut_end _
  have hfinds' : Finds env (content.take content.length) := by rwa [List.take_length]
  exact (ingested_pass hplain hdated hfinds' le_rfl (ingested_empty target content)
    (Nat.zero_le _) hbegin hend).1

end Run

/-- Scans of a growing file that begin at clean cuts, until nothing is left to read, store the same
rows as one scan of the complete file, identity values and line numbers aside. -/
theorem incremental_eq_batch [Alnum] {target : Target} {content : Bytes} (hplain : Plain content)
    (hdated : Dated (strippedLines content)) {envs : List ScanEnv}
    (hgrowing : Growing content 0 envs)
    (hclean : ∀ db ∈ states (pass target) {} envs, BeginsClean target content db)
    (hdone : offset target (envs.foldl (pass target) {}) = content.length) {env : ScanEnv}
    (hwhole : Finds env content) {cap : Nat} (hcap : content.length ≤ cap) :
    (rows (envs.foldl (pass target) {})).Perm (rows (pass { target with maxBytes := cap } {} env)) := by
  have hrun := ingested_run hplain hdated hgrowing (ingested_empty target content) le_rfl hclean
  have hbatch : Ingested { target with maxBytes := cap } content
      (pass { target with maxBytes := cap } {} env) := ingested_whole hplain hdated hwhole hcap
  have hoff : offset { target with maxBytes := cap } (pass { target with maxBytes := cap } {} env) =
      content.length := pass_whole hplain hwhole hcap
  refine perm_of_lookup (machineKey target.atmId) hrun.numbered hbatch.numbered hrun.nodup
    hbatch.nodup fun n => ?_
  have hlookup := hbatch.lookups n
  rw [hoff] at hlookup
  rw [hrun.lookups, hdone]
  exact hlookup.symm

def ascii (text : String) : Bytes := text.toList.map fun c => UInt8.ofNat c.toNat

def firstBlock : Bytes := ascii "*5*15/07/2026*08:52*\nSST IN SERVICE\n"

def bothBlocks : Bytes := firstBlock ++ ascii "*6*15/07/2026*08:53*\nSST OUT OF SERVICE\n"

def look (content : Bytes) : ScanEnv where
  size := content.length
  modified := 0
  header := some content
  reads := [⟨some content.length, some content, []⟩]
  finalHeader := some content

theorem look_finds (content : Bytes) : Finds (look content) content :=
  ⟨rfl, rfl, rfl, rfl, rfl, fun _ => rfl, fun _ => ⟨fun _ => rfl, fun _ => rfl⟩⟩

def digest (bs : Bytes) : Str :=
  if bs.length = 21 then
    "b8cf07a9e08b94488154405a0b7347c19a0242f3c6f94a271ee25799c39aff69".toList
  else if bs.length = 36 then
    "ad7c80bbf292acdad0477116b271463751765ea50d0b86ab4fbbe9aa89c71c87".toList
  else "97dc0f9dbbb989d060e855a59e9d9e4466a82d5092601214013d37b4ee1913e6".toList

def watched : Target where
  sha256 := digest
  atmId := 1
  filePath := "EJDATA.LOG".toList
  fileName := "EJDATA.LOG".toList

theorem incremental_eq_batch_two_scans :
    (rows ([look firstBlock, look bothBlocks].foldl (@pass asciiAlnum watched) {})).Perm
      (rows (@pass asciiAlnum { watched with maxBytes := 100 } {} (look bothBlocks))) := by
  have hfirst : firstBlock = bothBlocks.take 36 := by decide +kernel
  have hboth : bothBlocks = bothBlocks.take 76 := by decide +kernel
  have hgrowing : Growing bothBlocks 0 [look firstBlock, look bothBlocks] := by
    refine ⟨36, by decide, by decide +kernel, ?_, 76, by decide, by decide +kernel, ?_, trivial⟩
    · rw [← hfirst]
      exact look_finds firstBlock
    · rw [← hboth]
      exact look_finds bothBlocks
  exact @incremental_eq_batch asciiAlnum watched bothBlocks (by unfold Plain; decide +kernel)
    (by unfold Dated; decide +kernel) _ hgrowing (by decide +kernel) (by decide +kernel) _
    (look_finds bothBlocks) 100 (by decide +kernel)

/-- A scan between the header of a block and its body: the event is never stored, although the
whole file is read. -/
theorem torn_block_lost :
    Plain firstBlock ∧ Growing firstBlock 0 [look (firstBlock.take 21), look firstBlock] ∧
      offset watched ([look (firstBlock.take 21), look firstBlock].foldl
        (@pass asciiAlnum watched) {}) = firstBlock.length ∧
      ¬ (rows ([look (firstBlock.take 21), look firstBlock].foldl (@pass asciiAlnum watched) {})).Perm
        (rows (@pass asciiAlnum watched {} (look firstBlock))) := by
  have hall : firstBlock = firstBlock.take 36 := by decide +kernel
  refine ⟨by unfold Plain; decide +kernel, ?_, by decide +kernel, by decide +kernel⟩
  refine ⟨21, by decide, by decide +kernel, look_finds _, 36, by decide, by decide +kernel, ?_,
    trivial⟩
  rw [← hall]
  exact look_finds firstBlock

end AtmMonitor.Incremental
