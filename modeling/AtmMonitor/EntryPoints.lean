import AtmMonitor.BlockPlaces
import AtmMonitor.Library.EarliestWins
import AtmMonitor.SplitLines
import AtmMonitor.TrimmedLines

namespace AtmMonitor.EntryPoints

open PyText ParserModels EventPatterns FileUtils EjParser ParsedBlocks BlockPlaces TextLines SplitLines
  TrimmedLines

/-- The results are the same but for the duration and the registry. -/
structure SameResult (r r' : ParserResult) : Prop where
  events : r.events = r'.events
  warnings : r.warnings = r'.warnings
  snapshots : r.cassetteSnapshots = r'.cassetteSnapshots
  statistics : r.statistics = r'.statistics

/-- The last block, if there is one, is a repetition or ignored. -/
def Hidden (blocks : List Block) : Prop :=
  ∀ b ∈ blocks.getLast?, b.key ∈ blocks.dropLast.map Block.key ∨ isIgnored b.searchText = true

/-- What the two entry points need of a text to agree on it. -/
structure Agrees (now : Nat → Timestamp) (maxBytes : Nat) (text : Str) : Prop where
  whole : textLines text = [] ∨ encodedLength (textLines text).dropLast.flatten < maxBytes
  inner : ∀ c ∈ text.dropLast, isSeparator c = false
  last : ∀ c ∈ text.getLast?, isSeparator c = true → Hidden (groupBlocks now (splitlines text))

theorem groupFrom_stripped (now : Nat → Timestamp) (idx : Nat) (current : Option Block)
    (lines : List Str) :
    groupFrom now idx current (lines.map rstripNewline) = groupFrom now idx current lines := by
  induction lines generalizing idx current with
  | nil => rfl
  | cons line rest ih =>
    simp only [List.map_cons, groupFrom, rstripNewline_idem, ih]

theorem groupBlocks_of_stripped (now : Nat → Timestamp) {lines ls : List Str}
    (h : lines.map rstripNewline = ls) : groupBlocks now lines = groupBlocks now ls := by
  rw [groupBlocks, groupBlocks, ← h, groupFrom_stripped]

theorem length_of_stripped {lines ls : List Str} (h : lines.map rstripNewline = ls) :
    lines.length = ls.length := by
  rw [← h, List.length_map]

theorem groupFrom_ne_nil (now : Nat → Timestamp) (idx : Nat) (b : Block) (lines : List Str) :
    groupFrom now idx (some b) lines ≠ [] := by
  induction lines generalizing idx b with
  | nil => simp [groupFrom]
  | cons line rest ih =>
    rw [groupFrom]
    cases header? (rstripNewline line) with
    | some h => simp
    | none => exact ih (idx + 1) (b.push (rstripNewline line))

/-- Block lists that differ in the last line at most, which has a space more. -/
inductive LastPadded : List Block → List Block → Prop
  | none : LastPadded [] []
  | last (bs : List Block) {b b' : Block} (h : Trimmed b b') (hraw : b.rawBlock ≠ b'.rawBlock) :
      LastPadded (bs ++ [b]) (bs ++ [b'])

theorem LastPadded.prepend {bs bs' : List Block} (h : LastPadded bs bs') (hne : bs ≠ [])
    (cs : List Block) : LastPadded (cs ++ bs) (cs ++ bs') := by
  cases h with
  | none => exact absurd rfl hne
  | last bs h hraw =>
    rw [← List.append_assoc, ← List.append_assoc]
    exact .last (cs ++ bs) h hraw

theorem joinLines_concat (ls : List Str) (m : Str) (x : Char) :
    joinLines (ls ++ [m ++ [x]]) = joinLines (ls ++ [m]) ++ [x] := by
  induction ls with
  | nil => simp [joinLines]
  | cons l ls ih =>
    have hcons : ∀ ms : List Str, ms ≠ [] → joinLines (l :: ms) = l ++ ['\n'] ++ joinLines ms :=
      fun _ => List.intercalate_cons_of_ne_nil
    rw [List.cons_append, List.cons_append, hcons _ (by simp), hcons _ (by simp), ih,
      List.append_assoc _ _ [x]]

theorem rawBlock_push_ne (b : Block) (m : Str) (x : Char) :
    (b.push m).rawBlock ≠ (b.push (m ++ [x])).rawBlock := by
  simp [Block.rawBlock, Block.push, joinLines_concat]

theorem isSpace_of_separator {x : Char} (hx : isSeparator x = true) : isSpace x = true := by
  have hend := isBoundary_of_separator hx
  simp only [isBoundary, Bool.or_eq_true, Bool.and_eq_true, decide_eq_true_eq, beq_iff_eq] at hend
  simp only [isSpace, Bool.or_eq_true, Bool.and_eq_true, decide_eq_true_eq, beq_iff_eq]
  omega

theorem trimmed_push (b : Block) (m : Str) {x : Char} (hx : isSpace x = true) :
    Trimmed (b.push m) (b.push (m ++ [x])) := by
  refine ⟨rfl, rfl, rfl, rfl, ?_⟩
  simp only [Block.push, List.map_append, List.map_singleton, strip_concat m hx]

theorem trimmed_open (now : Nat → Timestamp) (h : Header) (m : Str) (idx : Nat) {x : Char}
    (hx : isSpace x = true) :
    Trimmed (openBlock now h m idx)
      (openBlock now { h with extra := h.extra ++ [x] } (m ++ [x]) idx) := by
  refine ⟨rfl, rfl, rfl, strip_concat h.extra hx, ?_⟩
  simp only [openBlock, List.map_singleton, strip_concat m hx]

theorem header?_padded {m : Str} {x : Char} (hm : ∀ c ∈ m, isBoundary c = false)
    (hx : isSeparator x = true) :
    header? (m ++ [x]) = (header? m).map fun h => { h with extra := h.extra ++ [x] } := by
  have hnewline : ∀ c, isBoundary c = false → isNewline c = false := by
    intro c hc
    by_contra hn
    rw [Bool.not_eq_false] at hn
    rw [boundary_of_newline c hn] at hc
    cases hc
  apply header?_concat (fun c hc => hnewline c (hm c hc))
  · simpa [isNewline] using (isSeparator_ne hx).1
  · rintro rfl
    exact absurd hx (by decide)

theorem groupFrom_padded (now : Nat → Timestamp) (idx : Nat) (current : Option Block)
    (ls : List Str) {m : Str} {x : Char} (hm : ∀ c ∈ m, isBoundary c = false)
    (hx : isSeparator x = true) :
    LastPadded (groupFrom now idx current (ls ++ [m])) (groupFrom now idx current (ls ++ [m ++ [x]])) := by
  have hspace := isSpace_of_separator hx
  induction ls generalizing idx current with
  | nil =>
    obtain ⟨hn, hr⟩ := isSeparator_ne hx
    have hkeep : rstripNewline (m ++ [x]) = m ++ [x] :=
      List.rdropWhile_concat_neg _ _ _ (by simp [hn, hr])
    simp only [List.nil_append, groupFrom, hkeep, rstripNewline_open hm, header?_padded hm hx]
    cases header? m with
    | some h =>
      refine .last current.toList (trimmed_open now h m idx hspace) ?_
      simp [Block.rawBlock, openBlock, joinLines]
    | none =>
      cases current with
      | none => exact .none
      | some b => exact .last [] (trimmed_push b m hspace) (rawBlock_push_ne b m x)
  | cons line rest ih =>
    rw [List.cons_append, List.cons_append, groupFrom, groupFrom]
    cases header? (rstripNewline line) with
    | some h => exact (ih (idx + 1) _).prepend (groupFrom_ne_nil now _ _ _) current.toList
    | none => exact ih (idx + 1) _

section Words

variable [Alnum] (fileName : Str)

theorem mem_seenBlocks (bs : List Block) (key : Nat × Timestamp) :
    key ∈ (parseBlocks fileName bs).seenBlocks ↔ key ∈ bs.map Block.key := by
  have htracks : Tracks fileName (parseBlocks fileName bs) (keptBlocks bs) :=
    tracks_blocks ⟨rfl, rfl, rfl⟩ bs
  rw [htracks.seen, List.mem_map, List.mem_map]
  constructor
  · rintro ⟨b, hb, rfl⟩
    exact ⟨b, keptBlocks_subset bs b hb, rfl⟩
  · rintro ⟨b, hb, rfl⟩
    exact Library.EarliestWins.exists_kept Block.key hb

variable {fileName} {st : ParseState} {b b' : Block}

theorem parseStep_hidden (h : Trimmed b b')
    (hidden : b.key ∈ st.seenBlocks ∨ isIgnored b.searchText = true) :
    parseStep fileName st b = parseStep fileName st b' := by
  have hkey : b'.key = b.key := by rw [Block.key, Block.key, h.seq, h.dt]
  rw [parseStep, parseStep, hkey, h.searchText]
  by_cases hseen : b.key ∈ st.seenBlocks
  · rw [if_pos hseen, if_pos hseen]
  · simp only [hseen, if_false, hidden.resolve_left hseen, if_true]

theorem parseStep_shown (h : Trimmed b b') (hraw : b.rawBlock ≠ b'.rawBlock)
    (hseen : b.key ∉ st.seenBlocks) (hignored : isIgnored b.searchText = false) :
    (parseStep fileName st b).events ≠ (parseStep fileName st b').events ∨
      (parseStep fileName st b).warnings ≠ (parseStep fileName st b').warnings := by
  have hkey : b'.key = b.key := by rw [Block.key, Block.key, h.seq, h.dt]
  rw [parseStep, parseStep, hkey, h.searchText]
  simp only [hseen, if_false, hignored, Bool.false_eq_true, h.recognised]
  cases b.recognised fileName with
  | true =>
    left
    intro hevents
    have hevent := List.singleton_inj.mp (List.append_cancel_left hevents)
    exact hraw (congrArg ATMParsedEvent.rawEvent hevent)
  | false =>
    right
    intro hwarnings
    have hwarning := List.singleton_inj.mp (List.append_cancel_left hwarnings)
    exact hraw (congrArg ParserWarning.rawEvent hwarning)

variable (fileName) (now : Nat → Timestamp) {lines lines' : List Str}

theorem parseLines_congr (hblocks : groupBlocks now lines = groupBlocks now lines')
    (hlength : lines.length = lines'.length) :
    parseLines now lines fileName = parseLines now lines' fileName := by
  simp only [parseLines, hblocks, hlength]

theorem sameResult_padded (h : LastPadded (groupBlocks now lines) (groupBlocks now lines'))
    (hlength : lines.length = lines'.length) :
    SameResult (parseLines now lines fileName) (parseLines now lines' fileName) ↔
      Hidden (groupBlocks now lines) := by
  generalize hbs : groupBlocks now lines = bs at h
  generalize hbs' : groupBlocks now lines' = bs' at h
  cases h with
  | none =>
    have hsame := parseLines_congr fileName now (hbs.trans hbs'.symm) hlength
    rw [hsame]
    exact iff_of_true ⟨rfl, rfl, rfl, rfl⟩ fun b hb => by cases hb
  | @last cs b b' htrim hraw =>
    have hhidden : Hidden (cs ++ [b]) ↔
        b.key ∈ (parseBlocks fileName cs).seenBlocks ∨ isIgnored b.searchText = true := by
      simp [Hidden, mem_seenBlocks]
    rw [hhidden]
    have hlast : ∀ c, parseBlocks fileName (cs ++ [c]) =
        parseStep fileName (parseBlocks fileName cs) c := fun c => by
      rw [parseBlocks, List.foldl_concat]
      rfl
    constructor
    · intro hsame
      by_contra hshown
      rw [not_or, Bool.not_eq_true] at hshown
      have hevents := hsame.events
      have hwarnings := hsame.warnings
      simp only [parseLines, hbs, hbs', hlast] at hevents hwarnings
      rcases parseStep_shown htrim hraw hshown.1 hshown.2 with hne | hne
      · exact hne hevents
      · exact hne hwarnings
    · intro hidden
      have hstep : parseStep fileName (parseBlocks fileName cs) b =
          parseStep fileName (parseBlocks fileName cs) b' := parseStep_hidden htrim hidden
      constructor <;>
        simp only [parseLines, hbs, hbs', hlast, hstep, hlength, List.length_append,
          List.length_singleton]

theorem sameResult_last {text : Str} (h : ∀ c ∈ text.dropLast, isSeparator c = false) {x : Char}
    (hlast : text.getLast? = some x) (hx : isSeparator x = true) :
    SameResult (parseText now text fileName) (parseLines now (textLines text) fileName) ↔
      Hidden (groupBlocks now (splitlines text)) := by
  obtain ⟨ls, m, hm, hsplit, hread⟩ := stripped_last h hlast hx
  refine sameResult_padded fileName now ?_ ?_
  · rw [groupBlocks_of_stripped now hsplit, groupBlocks_of_stripped now hread]
    exact groupFrom_padded now 0 none ls hm hx
  · rw [length_of_stripped hsplit, length_of_stripped hread]
    simp

theorem sameResult_plain {text : Str} (h : ∀ c ∈ text, isSeparator c = false) :
    parseText now text fileName = parseLines now (textLines text) fileName := by
  have hsame := stripped_same h
  apply parseLines_congr
  · rw [groupBlocks_of_stripped now hsame]
    exact (groupBlocks_of_stripped now rfl).symm
  · rw [length_of_stripped hsame, List.length_map]

/-- The test's entry point and the one of production agree exactly on the texts that are read whole
and whose separators are harmless. -/
theorem entry_points_agree_iff (maxBytes : Nat) (text : Str) :
    SameResult (parseText now text fileName) (parseLines now (journalLines maxBytes text) fileName) ↔
      Agrees now maxBytes text := by
  rw [journalLines_eq]
  constructor
  · intro hsame
    have hread : (splitlines text).length = (capped maxBytes 0 (textLines text)).length :=
      congrArg ParserStatistics.totalLinesRead hsame.statistics
    have hprefix := capped_prefix maxBytes 0 (textLines text)
    have hcapped := hprefix.length_le
    have hsplit := length_textLines_le text
    have hwhole : capped maxBytes 0 (textLines text) = textLines text :=
      hprefix.eq_of_length (by omega)
    have hinner : ∀ c ∈ text.dropLast, isSeparator c = false := separators_of_length (by omega)
    rw [hwhole] at hsame
    refine ⟨?_, hinner, fun x hlast hx => (sameResult_last fileName now hinner hlast hx).mp hsame⟩
    simpa using capped_eq_self.mp hwhole
  · intro h
    have hwhole : capped maxBytes 0 (textLines text) = textLines text :=
      capped_eq_self.mpr (by simpa using h.whole)
    rw [hwhole]
    by_cases hlast : ∃ x ∈ text.getLast?, isSeparator x = true
    · obtain ⟨x, hlast, hx⟩ := hlast
      exact (sameResult_last fileName now h.inner hlast hx).mpr (h.last x hlast hx)
    · have hplain : ∀ c ∈ text, isSeparator c = false := by
        obtain rfl | ⟨inner, x, rfl⟩ := List.eq_nil_or_concat' text
        · simp
        · have hinner := h.inner
          rw [List.dropLast_concat] at hinner
          simp only [List.getLast?_concat, Option.mem_some_iff, exists_eq_left', Bool.not_eq_true] at hlast
          intro c hc
          obtain hc | hc := List.mem_append.mp hc
          · exact hinner c hc
          · rwa [List.mem_singleton.mp hc]
      rw [sameResult_plain fileName now hplain]
      exact ⟨rfl, rfl, rfl, rfl⟩

end Words

def pageBreak : Str := "*5*15/07/2026*08:52*\nSST IN SERVICE\x0cPAGE 2".toList

theorem entry_points_differ :
    ¬ SameResult (@parseText asciiAlnum (fun _ => 0) pageBreak [])
      (@parseLines asciiAlnum (fun _ => 0) (journalLines (10 * 1024 * 1024) pageBreak) []) := by
  intro h
  have hevents := congrArg List.length h.events
  exact absurd hevents (by decide +kernel)

end AtmMonitor.EntryPoints
