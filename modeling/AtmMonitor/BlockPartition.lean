import AtmMonitor.BlockPlaces
import AtmMonitor.ParseClock

namespace AtmMonitor.BlockPartition

open Library.Sections PyText ParserModels NcrDatetime EjParser ParsedBlocks BlockPlaces
  BlockRanges ParseClock

def firstHeader (lines : List Str) : Nat := lines.findIdx isHeader

theorem before_length (lines : List Str) :
    (before isHeaderText (lines.map rstripNewline)).length = firstHeader lines := by
  have hle : lines.findIdx isHeader ≤ lines.length := List.findIdx_le_length
  have hnot : lines.findIdx (fun line => !(((fun x => !isHeaderText x) ∘ rstripNewline) line)) =
      firstHeader lines := by
    simp only [Function.comp_apply, Bool.not_not]
    rfl
  rw [before, List.takeWhile_map, List.length_map, List.takeWhile_eq_take_findIdx_not, hnot,
    List.length_take]
  exact Nat.min_eq_left hle

theorem rest_eq (lines : List Str) :
    rest isHeaderText (lines.map rstripNewline) =
      (lines.drop (firstHeader lines)).map rstripNewline := by
  rw [← drop_before, before_length, List.map_drop]

/-- The text of the lines in this range, which are there. -/
structure Reproduces (lines : List Str) (startLine endLine : Nat) (raw : Str) : Prop where
  start_pos : 1 ≤ startLine
  start_le_end : startLine ≤ endLine
  end_le_length : endLine ≤ lines.length
  text : raw = joinLines (((lines.take endLine).drop (startLine - 1)).map rstripNewline)

theorem block_reproduces {now : Nat → Timestamp} {lines : List Str} {b : Block}
    (hb : b ∈ groupBlocks now lines) : Reproduces lines b.startLine b.endLine b.rawBlock := by
  obtain ⟨i, hi, hprefix⟩ := slice_of_mem (place_mem hb)
  obtain ⟨line, body, hlines, -⟩ := mem_sections (place_mem hb)
  simp only [place] at hi hprefix hlines
  rw [Nat.zero_add] at hi
  rw [← hi] at hprefix
  have hend := endLine_eq b
  have hstart : b.startLine = b.startIdx + 1 := rfl
  have hpos : 0 < b.lines.length := by
    rw [hlines]
    exact Nat.succ_pos _
  have hlength := hprefix.length_le
  rw [List.length_drop, List.length_map] at hlength
  refine ⟨by omega, by omega, by omega, ?_⟩
  have hslice : (lines.take b.endLine).drop b.startIdx =
      (lines.drop b.startIdx).take b.lines.length := by
    rw [List.drop_take, hend, Nat.add_sub_cancel_left]
  rw [Block.rawBlock, hstart, Nat.add_sub_cancel, hslice, List.map_take, List.map_drop,
    ← List.prefix_iff_eq_take.mp hprefix]

section Words

variable [Alnum]

/-- The blocks partition the lines from the first header on, and what the parser reports about a
block points to its lines. -/
theorem groupBlocks_partition (now : Nat → Timestamp) (lines : List Str) (fileName : Str) :
    let blocks := groupBlocks now lines
    let result := parseLines now lines fileName
    blocks.flatMap (·.lines) = (lines.drop (firstHeader lines)).map rstripNewline ∧
      (∀ b ∈ blocks, ∃ h line body, b.lines = line :: body ∧ header? line = some h ∧
        (∀ l ∈ body, header? l = none) ∧ b.seq = int h.seqText ∧
        b.dt = parseNcrDatetime (now b.startIdx) h.dateText h.timeText ∧ b.extra = h.extra) ∧
      (∀ b ∈ blocks.head?, b.startIdx = firstHeader lines) ∧
      blocks.IsChain (fun b c => c.startIdx = b.startIdx + b.lines.length) ∧
      (∀ e ∈ result.events, Reproduces lines e.startLineNumber e.endLineNumber e.rawEvent) ∧
      ∀ w ∈ result.warnings, Reproduces lines w.startLineNumber w.endLineNumber w.rawEvent := by
  intro blocks result
  have hplaces : blocks.map place = sections isHeaderText 0 (lines.map rstripNewline) :=
    groupBlocks_places now lines
  refine ⟨?_, fun b hb => ?_, fun b hb => ?_, ?_, fun e he => ?_, fun w hw => ?_⟩
  · have hflat : (sections isHeaderText 0 (lines.map rstripNewline)).flatMap Prod.snd =
        rest isHeaderText (lines.map rstripNewline) := flatMap_sections 0 _
    rw [← hplaces, List.flatMap_map, rest_eq] at hflat
    exact hflat
  · obtain ⟨h, line, body, hh, hopen⟩ := groupBlocks_opened now lines b hb
    obtain ⟨line', body', hlines, -, hbody⟩ := mem_sections (place_mem hb)
    have hsame : line :: body = line' :: body' := by
      rw [← hlines, place, hopen]
    obtain ⟨rfl, rfl⟩ := List.cons.inj hsame
    refine ⟨h, line, body, hlines, hh, fun l hl => ?_, ?_, ?_, ?_⟩
    · simpa [isHeaderText] using hbody l hl
    · rw [hopen]; rfl
    · rw [hopen]; rfl
    · rw [hopen]; rfl
  · have hhead : (sections isHeaderText 0 (lines.map rstripNewline)).head? = some (place b) := by
      rw [← hplaces, List.head?_map, Option.mem_def.mp hb]
      rfl
    have hidx := head?_sections hhead
    rw [before_length, Nat.zero_add] at hidx
    exact hidx
  · have hchain : (sections isHeaderText 0 (lines.map rstripNewline)).IsChain
        fun p q => q.1 = p.1 + p.2.length := sections_chain 0 _
    rw [← hplaces, List.isChain_map] at hchain
    exact hchain
  · obtain ⟨b, hb, -, rfl⟩ := mem_parseLines he
    exact block_reproduces (keptBlocks_subset _ b hb)
  · have hwarnings : result.warnings = _ := (recounts_parse fileName blocks).warnings
    rw [hwarnings, List.mem_map] at hw
    obtain ⟨b, hb, rfl⟩ := hw
    exact block_reproduces (keptBlocks_subset _ b (List.mem_filter.mp hb).1)

end Words

end AtmMonitor.BlockPartition
