import AtmMonitor.BlockRanges
import AtmMonitor.Library.EarliestWins
import Mathlib.Algebra.Order.BigOperators.Group.List
import Mathlib.Algebra.Order.Group.Nat
import Mathlib.Data.Finset.Card

namespace AtmMonitor.ParseClock

open Library.FirstWins PyText ParserModels NcrDatetime EjParser ParsedBlocks

def namedTime (b : Block) : Option Timestamp :=
  (header? (b.lines.headD [])).bind fun h => headerTime h.dateText h.timeText

def reclock (now : Nat → Timestamp) (b : Block) : Block :=
  { b with dt := (namedTime b).getD (now b.startIdx) }

variable (now now' : Nat → Timestamp)

theorem reclock_openBlock {h : Header} {lineStr : Str} (hh : header? lineStr = some h) (idx : Nat) :
    reclock now' (openBlock now h lineStr idx) = openBlock now' h lineStr idx := by
  simp [reclock, openBlock, namedTime, hh, parseNcrDatetime]

theorem reclock_push {b : Block} (h : b.lines ≠ []) (lineStr : Str) :
    reclock now (b.push lineStr) = (reclock now b).push lineStr := by
  obtain ⟨line, rest, hlines⟩ := List.exists_cons_of_ne_nil h
  simp [reclock, Block.push, namedTime, hlines]

theorem groupFrom_reclock (idx : Nat) {current : Option Block} (lines : List Str)
    (h : ∀ b ∈ current, b.lines ≠ []) :
    (groupFrom now idx current lines).map (reclock now') =
      groupFrom now' idx (current.map (reclock now')) lines := by
  induction lines generalizing idx current with
  | nil => rw [groupFrom, groupFrom, ← Option.toList_map]
  | cons line rest ih =>
    rw [groupFrom, groupFrom]
    cases hh : header? (rstripNewline line) with
    | some hd =>
      simp only [List.map_append]
      rw [← Option.toList_map, ih (idx + 1) (by simp [openBlock]), Option.map_some,
        reclock_openBlock now now' hh]
    | none =>
      cases current with
      | none => exact ih (idx + 1) (by simp)
      | some b =>
        simp only [Option.map_some]
        rw [ih (idx + 1) (by simp [Block.push]), Option.map_some, reclock_push now' (h b rfl)]

theorem groupBlocks_reclock (lines : List Str) :
    groupBlocks now' lines = (groupBlocks now lines).map (reclock now') :=
  have h := groupFrom_reclock now now' 0 lines (fun b hb => absurd hb (Option.not_mem_none b))
  h.symm

theorem reclock_self {lines : List Str} {b : Block} (h : b ∈ groupBlocks now lines) :
    reclock now b = b := by
  rw [groupBlocks_reclock now now] at h
  obtain ⟨b', -, rfl⟩ := List.mem_map.mp h
  rfl

theorem reclock_dated {lines : List Str} {b : Block} (h : b ∈ groupBlocks now lines)
    (hdate : namedTime b ≠ none) : reclock now' b = b := by
  obtain ⟨t, ht⟩ := Option.ne_none_iff_exists'.mp hdate
  have hb := reclock_self now h
  rw [reclock, ht] at hb ⊢
  exact hb

theorem startIdx_injective {lines : List Str} {b b' : Block} (hb : b ∈ groupBlocks now lines)
    (hb' : b' ∈ groupBlocks now lines) (h : b.startIdx = b'.startIdx) : b = b' := by
  have hnodup : ((groupBlocks now lines).map (·.startIdx)).Nodup :=
    List.pairwise_map.mpr (BlockRanges.startIdx_lt.imp ne_of_lt)
  exact List.inj_on_of_nodup_map hnodup hb hb' h

/-- A block without a calendar date is ignored, and no other block has its number. -/
def ClockFree (blocks : List Block) : Prop :=
  ∀ b ∈ blocks, namedTime b = none →
    isIgnored b.searchText = true ∧ ∀ b' ∈ blocks, b'.seq = b.seq → b' = b

variable {now}

theorem ClockFree.dated {blocks : List Block} (h : ClockFree blocks) {b : Block} (hb : b ∈ blocks)
    (hi : isIgnored b.searchText = false) : namedTime b ≠ none := by
  intro hnone
  rw [(h b hb hnone).1] at hi
  cases hi

theorem ClockFree.key_iff {lines : List Str} (h : ClockFree (groupBlocks now lines)) {b b' : Block}
    (hb : b ∈ groupBlocks now lines) (hb' : b' ∈ groupBlocks now lines) :
    (reclock now' b).key = (reclock now' b').key ↔ b.key = b'.key := by
  by_cases hdate : namedTime b = none
  · refine ⟨fun hkey => ?_, fun hkey => ?_⟩
    · rw [(h b hb hdate).2 b' hb' (Prod.ext_iff.mp hkey).1.symm]
    · rw [(h b hb hdate).2 b' hb' (Prod.ext_iff.mp hkey).1.symm]
  · by_cases hdate' : namedTime b' = none
    · refine ⟨fun hkey => ?_, fun hkey => ?_⟩
      · rw [(h b' hb' hdate').2 b hb (Prod.ext_iff.mp hkey).1]
      · rw [(h b' hb' hdate').2 b hb (Prod.ext_iff.mp hkey).1]
    · rw [reclock_dated now now' hb hdate, reclock_dated now now' hb' hdate']

theorem ClockFree.keptBlocks_eq {lines : List Str} (h : ClockFree (groupBlocks now lines)) :
    keptBlocks (groupBlocks now' lines) =
      (keptBlocks (groupBlocks now lines)).map (reclock now') := by
  rw [groupBlocks_reclock now now']
  refine (record_map_of_iff blockKey blockKey (reclock now') [] _ (fun _ _ => rfl) ?_).symm
  intro b hb b' hb'
  rw [blockKey, blockKey, Option.some_inj, h.key_iff now' hb hb']
  exact Option.some_inj.symm

theorem ClockFree.filter_kept {lines : List Str} (h : ClockFree (groupBlocks now lines))
    {p : Block → Bool} (hp : ∀ b, isIgnored b.searchText = true → p b = false) :
    (keptBlocks (groupBlocks now' lines)).filter p =
      (keptBlocks (groupBlocks now lines)).filter p := by
  have hsame : ∀ log : List Block, (∀ b ∈ log, b ∈ groupBlocks now lines) →
      (log.map (reclock now')).filter p = log.filter p := by
    intro log hlog
    induction log with
    | nil => rfl
    | cons b rest ih =>
      rw [List.map_cons, List.filter_cons, List.filter_cons, ih fun b' hb' => hlog b' (by simp [hb'])]
      cases hi : isIgnored b.searchText with
      | true => rw [hp b hi, hp (reclock now' b) hi, if_neg Bool.false_ne_true, if_neg Bool.false_ne_true]
      | false =>
        have hb := hlog b (by simp)
        rw [reclock_dated now now' hb (h.dated hb hi)]
  rw [h.keptBlocks_eq now']
  exact hsame _ (keptBlocks_subset _)

def bound (lines : List Str) : Nat :=
  ((groupBlocks (fun _ => 0) lines).map fun b => (namedTime b).getD 0).sum

def lateClock (m idx : Nat) : Nat := m + 1 + idx

theorem not_late (m idx : Nat) : ¬ lateClock m idx ≤ m := by
  rw [lateClock]
  omega

theorem le_bound {lines : List Str} {b : Block} (hb : b ∈ groupBlocks now lines) {t : Timestamp}
    (ht : namedTime b = some t) : t ≤ bound lines := by
  rw [groupBlocks_reclock fun _ => 0] at hb
  obtain ⟨c, hc, rfl⟩ := List.mem_map.mp hb
  have h := List.single_le_sum (fun _ _ => Nat.zero_le _) _
    (List.mem_map_of_mem (f := fun b => (namedTime b).getD 0) hc)
  have hc' : namedTime c = some t := ht
  simp only [hc', Option.getD_some] at h
  exact h

theorem startIdx_of_late {lines : List Str} {m idx : Nat} (hm : bound lines ≤ m) {b : Block}
    (hb : b ∈ groupBlocks (lateClock m) lines) (h : b.dt = lateClock m idx) : b.startIdx = idx := by
  have hdt : (namedTime b).getD (lateClock m b.startIdx) = lateClock m idx := by
    rw [← h, ← reclock_self _ hb]
    rfl
  cases hd : namedTime b with
  | some t =>
    have hle : t ≤ m := (le_bound hb hd).trans hm
    rw [hd, Option.getD_some] at hdt
    rw [hdt] at hle
    exact absurd hle (not_late m idx)
  | none =>
    rw [hd, Option.getD_none] at hdt
    exact Nat.add_left_cancel hdt

theorem keptBlocks_length (blocks : List Block) :
    (keptBlocks blocks).length = (blocks.map Block.key).toFinset.card := by
  have hsame : ((keptBlocks blocks).map Block.key).toFinset =
      (blocks.map Block.key).toFinset := by
    ext k
    simp only [List.mem_toFinset, List.mem_map]
    constructor
    · rintro ⟨b, hb, rfl⟩
      exact ⟨b, keptBlocks_subset _ b hb, rfl⟩
    · rintro ⟨b, hb, rfl⟩
      exact Library.EarliestWins.exists_kept Block.key hb
  rw [← hsame, List.toFinset_card_of_nodup (keptBlocks_nodup blocks), List.length_map]

/-- The two results agree, the counts of what they list and of what they ignore aside. -/
structure SameParse (r r' : ParserResult) : Prop where
  events : r.events = r'.events
  warnings : r.warnings = r'.warnings
  snapshots : r.cassetteSnapshots = r'.cassetteSnapshots
  registry : r.unknownEventsRegistry = r'.unknownEventsRegistry
  duplicates : r.statistics.duplicatesIgnored = r'.statistics.duplicatesIgnored

/-- The places and times of what a parse reports. -/
def reported (r : ParserResult) : List (Nat × Option Timestamp) :=
  r.events.map (fun e => (e.startLineNumber, some e.eventTime)) ++
    r.warnings.map fun w => (w.startLineNumber, w.eventTime)

theorem SameParse.reported {r r' : ParserResult} (h : SameParse r r') : reported r = reported r' := by
  rw [ParseClock.reported, h.events, h.warnings]
  rfl

section Words

variable [Alnum] (fileName : Str)

def unhandled (b : Block) : Bool := !isIgnored b.searchText && !b.recognised fileName

structure Recounts (st : ParseState) (log : List Block) (n : Nat) : Prop
    extends Tracks fileName st log where
  warnings : st.warnings = (log.filter (unhandled fileName)).map (blockWarning fileName)
  registry : st.unknownRegistry =
    (log.filter (unhandled fileName)).foldl (fun r b => registerUnknown b r) []
  duplicates : st.duplicatesCount + log.length = n

variable {fileName}

theorem recounts_step {st : ParseState} {log : List Block} {n : Nat} (h : Recounts fileName st log n)
    (b : Block) : Recounts fileName (parseStep fileName st b) (insertNew blockKey log b) (n + 1) := by
  have htracks := tracks_step h.toTracks b
  by_cases hk : known blockKey log (blockKey b) = true
  · have hseen : b.key ∈ st.seenBlocks := by
      rw [h.seen]
      exact (mem_seen log b).mpr hk
    rw [insertNew_known blockKey hk, parseStep, if_pos hseen] at htracks ⊢
    refine ⟨htracks, h.warnings, h.registry, ?_⟩
    rw [Nat.add_right_comm, h.duplicates]
  · have hseen : b.key ∉ st.seenBlocks := by
      rw [h.seen]
      exact fun hm => hk ((mem_seen log b).mp hm)
    have hcount : st.duplicatesCount + (log ++ [b]).length = n + 1 := by
      rw [List.length_append, List.length_singleton, ← Nat.add_assoc, h.duplicates]
    rw [insertNew_new blockKey (by simpa using hk)] at htracks ⊢
    refine ⟨htracks, ?_, ?_, ?_⟩ <;> rw [parseStep, if_neg hseen]
    · rw [List.filter_append, List.map_append, ← h.warnings]
      cases hi : isIgnored b.searchText <;> cases hr : b.recognised fileName <;>
        simp [unhandled, hi, hr]
    · rw [List.filter_append, List.foldl_append, ← h.registry]
      cases hi : isIgnored b.searchText <;> cases hr : b.recognised fileName <;>
        simp [unhandled, hi, hr]
    · rw [← hcount]
      simp only
      split_ifs <;> rfl

theorem recounts_blocks {st : ParseState} {log : List Block} {n : Nat} (h : Recounts fileName st log n)
    (blocks : List Block) :
    Recounts fileName (blocks.foldl (parseStep fileName) st)
      (Library.FirstWins.record blockKey log blocks) (n + blocks.length) := by
  induction blocks generalizing st log n with
  | nil => exact h
  | cons b rest ih =>
    have hlen : n + (b :: rest).length = n + 1 + rest.length := by
      rw [List.length_cons]
      omega
    rw [hlen]
    exact ih (recounts_step h b)

variable (fileName) in
theorem recounts_parse (blocks : List Block) :
    Recounts fileName (parseBlocks fileName blocks) (keptBlocks blocks) blocks.length := by
  have hstart : Recounts fileName {} [] 0 := ⟨⟨rfl, rfl, rfl⟩, rfl, rfl, rfl⟩
  have h := recounts_blocks hstart blocks
  rwa [Nat.zero_add] at h

theorem ClockFree.sameParse {lines : List Str} (h : ClockFree (groupBlocks now lines)) (fileName : Str) :
    SameParse (parseLines now lines fileName) (parseLines now' lines fileName) := by
  have hr := recounts_parse fileName (groupBlocks now lines)
  have hr' := recounts_parse fileName (groupBlocks now' lines)
  have hunhandled := h.filter_kept now' (p := unhandled fileName) fun b hi => by simp [unhandled, hi]
  have hemits := h.filter_kept now' (p := emits fileName) fun b hi => by simp [emits, hi]
  have hprocessed := h.filter_kept now' (p := fun b => !isIgnored b.searchText) fun b hi => by simp [hi]
  have hlength : (groupBlocks now' lines).length = (groupBlocks now lines).length := by
    rw [groupBlocks_reclock now now', List.length_map]
  have hkept : (keptBlocks (groupBlocks now' lines)).length =
      (keptBlocks (groupBlocks now lines)).length := by
    rw [h.keptBlocks_eq now', List.length_map]
  refine ⟨hr.events.trans ?_, hr.warnings.trans ?_, hr.snapshots.trans ?_, hr.registry.trans ?_, ?_⟩
  · exact (hr'.events.trans (by rw [blockEvents, hemits, blockEvents])).symm
  · exact (hr'.warnings.trans (by rw [hunhandled])).symm
  · exact (hr'.snapshots.trans (by rw [blocksSnapshots, hprocessed, blocksSnapshots])).symm
  · exact (hr'.registry.trans (by rw [hunhandled])).symm
  · have hd := hr.duplicates
    have hd' := hr'.duplicates
    simp only [parseLines]
    omega

theorem mem_reported_of_kept {lines : List Str} {b : Block} (fileName : Str)
    (hb : b ∈ keptBlocks (groupBlocks now lines)) (hi : isIgnored b.searchText = false) :
    (b.startLine, some b.dt) ∈ reported (parseLines now lines fileName) := by
  have hr := recounts_parse fileName (groupBlocks now lines)
  apply List.mem_append.mpr
  cases hrec : b.recognised fileName with
  | true =>
    left
    rw [show (parseLines now lines fileName).events = _ from hr.events, blockEvents, List.map_map]
    exact List.mem_map.mpr ⟨b, List.mem_filter.mpr ⟨hb, by simp [emits, hi, hrec]⟩, rfl⟩
  | false =>
    right
    rw [show (parseLines now lines fileName).warnings = _ from hr.warnings, List.map_map]
    exact List.mem_map.mpr ⟨b, List.mem_filter.mpr ⟨hb, by simp [unhandled, hi, hrec]⟩, rfl⟩

theorem kept_of_mem_reported {lines : List Str} {fileName : Str} {p : Nat × Option Timestamp}
    (h : p ∈ reported (parseLines now lines fileName)) :
    ∃ b ∈ groupBlocks now lines, p = (b.startLine, some b.dt) := by
  have hr := recounts_parse fileName (groupBlocks now lines)
  have hkept : ∀ {q : Block → Bool} {b}, b ∈ (keptBlocks (groupBlocks now lines)).filter q →
      b ∈ groupBlocks now lines := fun hb => keptBlocks_subset _ _ (List.mem_filter.mp hb).1
  obtain h | h := List.mem_append.mp h
  · rw [show (parseLines now lines fileName).events = _ from hr.events, blockEvents, List.map_map] at h
    obtain ⟨b, hb, rfl⟩ := List.mem_map.mp h
    exact ⟨b, hkept hb, rfl⟩
  · rw [show (parseLines now lines fileName).warnings = _ from hr.warnings, List.map_map] at h
    obtain ⟨b, hb, rfl⟩ := List.mem_map.mp h
    exact ⟨b, hkept hb, rfl⟩

/-- As many headers with different times in the one parse as in the other. -/
theorem keys_card_of_sameParse {lines : List Str} {fileName : Str} {now now' : Nat → Timestamp}
    (h : SameParse (parseLines now lines fileName) (parseLines now' lines fileName)) :
    ((groupBlocks now lines).map Block.key).toFinset.card =
      ((groupBlocks now' lines).map Block.key).toFinset.card := by
  have hr := (recounts_parse fileName (groupBlocks now lines)).duplicates
  have hr' := (recounts_parse fileName (groupBlocks now' lines)).duplicates
  have hdup : (parseBlocks fileName (groupBlocks now lines)).duplicatesCount =
      (parseBlocks fileName (groupBlocks now' lines)).duplicatesCount := h.duplicates
  have hlen : (groupBlocks now lines).length = (groupBlocks now' lines).length := by
    rw [groupBlocks_reclock now', List.length_map]
  rw [← keptBlocks_length, ← keptBlocks_length]
  omega

theorem ignored_of_sameParse {lines : List Str} {fileName : Str}
    (h : ∀ now now', SameParse (parseLines now lines fileName) (parseLines now' lines fileName))
    {b : Block} (hb : b ∈ groupBlocks now lines) (hd : namedTime b = none) :
    isIgnored b.searchText = true := by
  by_contra hi
  have hunder : ∀ now', reclock now' b ∈ groupBlocks now' lines := fun now' => by
    rw [groupBlocks_reclock now now']
    exact List.mem_map_of_mem hb
  have hdt : ∀ now', (reclock now' b).dt = now' b.startIdx := fun now' => by
    simp only [reclock, hd, Option.getD_none]
  set m := bound lines with hm
  obtain ⟨y, hy, hkey⟩ := Library.EarliestWins.exists_kept Block.key (hunder (lateClock m))
  have hmem : y ∈ groupBlocks (lateClock m) lines := keptBlocks_subset _ y hy
  have hyb : y = reclock (lateClock m) b := by
    refine startIdx_injective _ hmem (hunder _) (startIdx_of_late hm.ge hmem ?_)
    exact (Prod.ext_iff.mp hkey).2.trans (hdt _)
  subst hyb
  have hshown : isIgnored (reclock (lateClock m) b).searchText = false := by
    rwa [← Bool.not_eq_true]
  have hrep := mem_reported_of_kept fileName hy hshown
  rw [(h _ (lateClock (m + 1))).reported] at hrep
  obtain ⟨c, hc, heq⟩ := kept_of_mem_reported hrep
  rw [Prod.mk.injEq, Option.some_inj, hdt] at heq
  have hplace : (reclock (lateClock (m + 1)) b).startIdx = c.startIdx := Nat.succ.inj heq.1
  have hclocks : lateClock m b.startIdx = lateClock (m + 1) b.startIdx := by
    rw [heq.2, ← startIdx_injective _ (hunder _) hc hplace, hdt]
  exact absurd (Nat.add_right_cancel hclocks) (Nat.ne_of_lt (Nat.lt_succ_self _))

theorem unshared_of_sameParse {lines : List Str} {fileName : Str}
    (h : ∀ now now', SameParse (parseLines now lines fileName) (parseLines now' lines fileName))
    {b b' : Block} (hb : b ∈ groupBlocks now lines) (hb' : b' ∈ groupBlocks now lines)
    (hd : namedTime b = none) (hseq : b'.seq = b.seq) : b' = b := by
  set m := bound lines with hm
  set t := (namedTime b').getD 0
  let merge : Nat × Timestamp → Nat × Timestamp := fun k => if k.2 ≤ m then k else (k.1, t)
  have hmerge : ∀ c ∈ groupBlocks now lines,
      (reclock (fun _ => t) c).key = merge (reclock (lateClock m) c).key := by
    intro c hc
    cases hcd : namedTime c with
    | some t' => simp [merge, reclock, Block.key, hcd, le_bound hc hcd, hm]
    | none => simp [merge, reclock, Block.key, hcd, not_late]
  have himage : ((groupBlocks (fun _ => t) lines).map Block.key).toFinset =
      ((groupBlocks (lateClock m) lines).map Block.key).toFinset.image merge := by
    rw [groupBlocks_reclock now (fun _ => t), groupBlocks_reclock now (lateClock m), List.map_map,
      List.map_map]
    ext k
    simp only [List.mem_toFinset, Finset.mem_image, List.mem_map, exists_exists_and_eq_and]
    refine exists_congr fun c => and_congr_right fun hc => ?_
    rw [Function.comp_apply, Function.comp_apply, hmerge c hc]
  have hcard := keys_card_of_sameParse (h (fun _ => t) (lateClock m))
  rw [himage, Finset.card_image_iff] at hcard
  have hkey : ∀ c ∈ groupBlocks now lines, (reclock (lateClock m) c).key ∈
      ((groupBlocks (lateClock m) lines).map Block.key).toFinset := by
    intro c hc
    rw [List.mem_toFinset, groupBlocks_reclock now (lateClock m)]
    exact List.mem_map_of_mem (List.mem_map_of_mem hc)
  have hsame := hcard (hkey b' hb') (hkey b hb) <| by
    rw [← hmerge b' hb', ← hmerge b hb]
    cases hd' : namedTime b' <;> simp [t, reclock, Block.key, hd, hd', hseq]
  have hdt : (reclock (lateClock m) b').dt = lateClock m b.startIdx := by
    rw [show (reclock (lateClock m) b').dt = _ from (Prod.ext_iff.mp hsame).2]
    simp only [Block.key, reclock, hd, Option.getD_none]
  have hmem : reclock (lateClock m) b' ∈ groupBlocks (lateClock m) lines := by
    rw [groupBlocks_reclock now (lateClock m)]
    exact List.mem_map_of_mem hb'
  have hplace : (reclock (lateClock m) b').startIdx = b.startIdx := startIdx_of_late hm.ge hmem hdt
  exact startIdx_injective _ hb' hb hplace

/-- A parse does not depend on the clock exactly when each block whose header names no calendar date
is ignored and shares its number with no other block. -/
theorem sameParse_iff (lines : List Str) (fileName : Str) :
    (∀ now now', SameParse (parseLines now lines fileName) (parseLines now' lines fileName)) ↔
      ClockFree (groupBlocks (fun _ => 0) lines) := by
  constructor
  · exact fun h b hb hd =>
      ⟨ignored_of_sameParse h hb hd, fun b' hb' hseq => unshared_of_sameParse h hb hb' hd hseq⟩
  · intro h now now'
    have hnow := h.sameParse now fileName
    have hnow' := h.sameParse now' fileName
    exact ⟨hnow.events.symm.trans hnow'.events, hnow.warnings.symm.trans hnow'.warnings,
      hnow.snapshots.symm.trans hnow'.snapshots, hnow.registry.symm.trans hnow'.registry,
      hnow.duplicates.symm.trans hnow'.duplicates⟩

end Words

def undated : List Str := ["*5*99/99/2026*08:52*".toList, "SST IN SERVICE".toList]

theorem parse_at_two_times :
    ¬ SameParse (@parseLines asciiAlnum (fun _ => 10) undated "EJDATA.LOG".toList)
      (@parseLines asciiAlnum (fun _ => 20) undated "EJDATA.LOG".toList) := by
  intro h
  have htimes : (@parseLines asciiAlnum (fun _ => 10) undated "EJDATA.LOG".toList).events.map
      (·.eventTime) = [10] := by decide +kernel
  rw [h.events] at htimes
  exact absurd htimes (by decide +kernel)

end AtmMonitor.ParseClock
