import AtmMonitor.Library.Tally
import AtmMonitor.ParseClock

namespace AtmMonitor.BlockAccounts

open Library.FirstWins Library.Upsert Library.Tally PyText ParserModels EjParser ParsedBlocks ParseClock

section Words

variable [Alnum] {fileName : Str}

/-- The state of the loop with the count of the ignored blocks of the log. -/
structure Accounts (fileName : Str) (st : ParseState) (log : List Block) (n : Nat) : Prop
    extends Recounts fileName st log n where
  ignored : st.ignoredCount = log.countP fun b => isIgnored b.searchText

theorem accounts_step {st : ParseState} {log : List Block} {n : Nat}
    (h : Accounts fileName st log n) (b : Block) :
    Accounts fileName (parseStep fileName st b) (insertNew blockKey log b) (n + 1) := by
  refine ⟨recounts_step h.toRecounts b, ?_⟩
  by_cases hk : known blockKey log (blockKey b) = true
  · have hseen : b.key ∈ st.seenBlocks := by
      rw [h.seen]
      exact (mem_seen log b).mpr hk
    rw [insertNew_known blockKey hk, parseStep, if_pos hseen]
    exact h.ignored
  · have hseen : b.key ∉ st.seenBlocks := by
      rw [h.seen]
      exact fun hm => hk ((mem_seen log b).mp hm)
    rw [insertNew_new blockKey (by simpa using hk), parseStep, if_neg hseen, List.countP_append,
      List.countP_singleton, ← h.ignored]
    cases isIgnored b.searchText with
    | true => rfl
    | false =>
      simp only [Bool.false_eq_true, if_false]
      split_ifs <;> rfl

theorem accounts_blocks {st : ParseState} {log : List Block} {n : Nat}
    (h : Accounts fileName st log n) (blocks : List Block) :
    Accounts fileName (blocks.foldl (parseStep fileName) st)
      (Library.FirstWins.record blockKey log blocks) (n + blocks.length) := by
  induction blocks generalizing st log n with
  | nil => exact h
  | cons b rest ih =>
    have hlen : n + (b :: rest).length = n + 1 + rest.length := by
      rw [List.length_cons]
      omega
    rw [hlen]
    exact ih (accounts_step h b)

theorem accounts_parse (fileName : Str) (blocks : List Block) :
    Accounts fileName (parseBlocks fileName blocks) (keptBlocks blocks) blocks.length := by
  have hstart : Accounts fileName {} [] 0 := ⟨⟨⟨rfl, rfl, rfl⟩, rfl, rfl, rfl⟩, rfl⟩
  have h := accounts_blocks hstart blocks
  rwa [Nat.zero_add] at h

theorem length_partition (fileName : Str) (log : List Block) :
    log.length = (log.filter (emits fileName)).length + (log.filter (unhandled fileName)).length +
      log.countP fun b => isIgnored b.searchText := by
  induction log with
  | nil => rfl
  | cons b rest ih =>
    rw [List.length_cons, ih]
    cases hi : isIgnored b.searchText <;> cases hr : b.recognised fileName <;>
      simp [emits, unhandled, hi, hr] <;> omega

end Words

theorem unknownHeader_length (b : Block) : (unknownHeader b).length ≤ 100 := by
  unfold unknownHeader
  extract_lets cleaned signature
  split_ifs with h
  · rw [List.length_append, List.length_take]
    have : "...".toList.length = 3 := rfl
    omega
  · omega

def registryEntry (g : Bucket Block) : UnknownEventRegistryEntry :=
  ⟨unknownHeader g.first, g.count, some g.first.seq, some g.first.dt⟩

theorem registerUnknown_entries (b : Block) (gs : List (Bucket Block)) :
    registerUnknown b (gs.map registryEntry) =
      (upsert (bucketKey unknownHeader) ⟨b, 0⟩ Bucket.more gs).map registryEntry := by
  induction gs with
  | nil => rfl
  | cons g rest ih =>
    have hheader : (registryEntry g).header = bucketKey unknownHeader g := rfl
    have hfresh : bucketKey unknownHeader ⟨b, 0⟩ = unknownHeader b := rfl
    rw [List.map_cons, registerUnknown, upsert, hheader, hfresh]
    split_ifs
    · rfl
    · rw [ih, List.map_cons]

theorem registry_tally (blocks : List Block) :
    blocks.foldl (fun r b => registerUnknown b r) [] =
      (tally unknownHeader blocks).map registryEntry := by
  induction blocks using List.reverseRecOn with
  | nil => rfl
  | append_singleton blocks b ih =>
    rw [tally_snoc, List.foldl_append, List.foldl_cons, List.foldl_nil, ih, registerUnknown_entries]

def eventKey (e : ATMParsedEvent) : Option Nat × Option Timestamp :=
  (e.eventSequenceNumber, some e.eventTime)

def warningKey (w : ParserWarning) : Option Nat × Option Timestamp := (w.sequenceNumber, w.eventTime)

def optionKey (b : Block) : Option Nat × Option Timestamp := (some b.seq, some b.dt)

theorem optionKey_inj {b b' : Block} (h : optionKey b = optionKey b') : b.key = b'.key := by
  simp only [optionKey, Prod.mk.injEq, Option.some.injEq] at h
  exact Prod.ext h.1 h.2

section Words

variable [Alnum]

def unknownBlocks (now : Nat → Timestamp) (lines : List Str) (fileName : Str) : List Block :=
  (keptBlocks (groupBlocks now lines)).filter (unhandled fileName)

theorem reported_keys (now : Nat → Timestamp) (lines : List Str) (fileName : Str) :
    (parseLines now lines fileName).events.map eventKey ++
        (parseLines now lines fileName).warnings.map warningKey =
      (((keptBlocks (groupBlocks now lines)).filter (emits fileName)) ++
        unknownBlocks now lines fileName).map optionKey := by
  have h := accounts_parse fileName (groupBlocks now lines)
  have hevents : (parseLines now lines fileName).events =
      blockEvents fileName (keptBlocks (groupBlocks now lines)) := h.events
  have hwarnings : (parseLines now lines fileName).warnings =
      (unknownBlocks now lines fileName).map (blockWarning fileName) := h.warnings
  rw [hevents, hwarnings, blockEvents, List.map_map, List.map_map, List.map_append]
  rfl

theorem reported_keys_nodup (now : Nat → Timestamp) (lines : List Str) (fileName : Str) :
    ((parseLines now lines fileName).events.map eventKey ++
      (parseLines now lines fileName).warnings.map warningKey).Nodup := by
  have hkeys : (keptBlocks (groupBlocks now lines)).Pairwise fun b b' =>
      optionKey b ≠ optionKey b' :=
    (List.pairwise_map.mp (keptBlocks_nodup _)).imp fun hne heq => hne (optionKey_inj heq)
  rw [reported_keys, unknownBlocks, List.Nodup, List.pairwise_map, List.pairwise_append]
  refine ⟨hkeys.filter _, hkeys.filter _, ?_⟩
  intro b hb b' hb' heq
  obtain ⟨hmem, hemits⟩ := List.mem_filter.mp hb
  obtain ⟨hmem', hunhandled⟩ := List.mem_filter.mp hb'
  have hsame : b = b' :=
    List.inj_on_of_nodup_map (keptBlocks_nodup _) hmem hmem' (optionKey_inj heq)
  rw [← hsame, unhandled] at hunhandled
  rw [emits] at hemits
  cases hrec : b.recognised fileName <;> simp [hrec] at hemits hunhandled

/-- The statistics balance, no two reports are about one block, and the registry groups the blocks
of the warnings by their signature. -/
theorem blocks_accounted (now : Nat → Timestamp) (lines : List Str) (fileName : Str) :
    let r := parseLines now lines fileName
    let unknowns := unknownBlocks now lines fileName
    r.statistics.totalBlocks = r.statistics.parsedEvents + r.statistics.warnings +
        r.statistics.duplicatesIgnored + r.statistics.ignoredBlocks ∧
      (r.events.map eventKey ++ r.warnings.map warningKey).Nodup ∧
      r.warnings = unknowns.map (blockWarning fileName) ∧
      (∃ buckets, Tallied unknownHeader unknowns buckets ∧
        r.unknownEventsRegistry = buckets.map registryEntry) ∧
      (∀ e ∈ r.unknownEventsRegistry, e.header.length ≤ 100) ∧
      (r.unknownEventsRegistry.map (·.count)).sum = r.statistics.warnings := by
  intro r unknowns
  have h := accounts_parse fileName (groupBlocks now lines)
  have hwarnings : r.warnings = unknowns.map (blockWarning fileName) := h.warnings
  have hregistry : r.unknownEventsRegistry = (tally unknownHeader unknowns).map registryEntry := by
    rw [← registry_tally]
    exact h.registry
  have htallied : Tallied unknownHeader unknowns (tally unknownHeader unknowns) :=
    tallied_tally unknowns
  refine ⟨?_, reported_keys_nodup now lines fileName, hwarnings, ⟨_, htallied, hregistry⟩, ?_, ?_⟩
  · have hevents : r.statistics.parsedEvents =
        ((keptBlocks (groupBlocks now lines)).filter (emits fileName)).length := by
      have hlength := congrArg List.length h.events
      rwa [blockEvents, List.length_map] at hlength
    have hcount : r.statistics.warnings = unknowns.length := by
      have hlength := congrArg List.length hwarnings
      rwa [List.length_map] at hlength
    have hblocks : r.statistics.duplicatesIgnored + (keptBlocks (groupBlocks now lines)).length =
        r.statistics.totalBlocks := h.duplicates
    have hignored : r.statistics.ignoredBlocks =
        (keptBlocks (groupBlocks now lines)).countP fun b => isIgnored b.searchText := h.ignored
    have hsplit := length_partition fileName (keptBlocks (groupBlocks now lines))
    rw [← hblocks, hsplit, hevents, hcount, hignored]
    simp only [unknowns, unknownBlocks]
    omega
  · intro e he
    rw [hregistry] at he
    obtain ⟨g, -, rfl⟩ := List.mem_map.mp he
    exact unknownHeader_length g.first
  · have hcounts : r.unknownEventsRegistry.map (·.count) =
        (tally unknownHeader unknowns).map (·.count) := by
      rw [hregistry, List.map_map]
      rfl
    have hlength := congrArg List.length hwarnings
    rw [List.length_map] at hlength
    rw [hcounts, htallied.total]
    exact hlength.symm

end Words

end AtmMonitor.BlockAccounts
