import AtmMonitor.Library.Sections
import AtmMonitor.ParsedBlocks
import Mathlib.Data.List.Pairwise
import Mathlib.Data.Option.Basic

namespace AtmMonitor.BlockRanges

open Library.FirstWins Library.Sections PyText ParserModels EjParser ParsedBlocks

def isHeaderText (lineStr : Str) : Bool := (header? lineStr).isSome

def place (b : Block) : Nat × List Str := (b.startIdx, b.lines)

/-- An open block goes on up to the next header. -/
def continued (lines : List Str) (b : Block) : Nat × List Str :=
  (b.startIdx, b.lines ++ before isHeaderText lines)

theorem groupFrom_places (now : Nat → Timestamp) (idx : Nat) (current : Option Block)
    (lines : List Str) :
    (groupFrom now idx current lines).map place =
      current.toList.map (continued (lines.map rstripNewline)) ++
        sections isHeaderText idx (lines.map rstripNewline) := by
  induction lines generalizing idx current with
  | nil =>
    rw [groupFrom, List.map_nil, sections, List.append_nil]
    congr 1
    funext b
    rw [place, continued, before, List.takeWhile_nil, List.append_nil]
  | cons line rest ih =>
    rw [groupFrom, List.map_cons, sections]
    cases hh : header? (rstripNewline line) with
    | some h =>
      have hhead : isHeaderText (rstripNewline line) = true := by rw [isHeaderText, hh]; rfl
      have hstop : continued (rstripNewline line :: rest.map rstripNewline) = place := by
        funext b
        rw [continued, before, List.takeWhile_cons_of_neg (by simp [hhead]), List.append_nil, place]
      rw [if_pos hhead, List.map_append, ih, hstop]
      rfl
    | none =>
      have hbody : isHeaderText (rstripNewline line) = false := by rw [isHeaderText, hh]; rfl
      rw [if_neg (by simp [hbody]), ih]
      congr 1
      cases current with
      | none => rfl
      | some b =>
        simp only [Option.map_some, Option.toList_some, List.map_cons, List.map_nil, continued, before,
          List.takeWhile_cons_of_pos (p := fun x => !isHeaderText x) (a := rstripNewline line)
            (by simp [hbody])]
        simp [Block.push]

theorem groupBlocks_places (now : Nat → Timestamp) (lines : List Str) :
    (groupBlocks now lines).map place = sections isHeaderText 0 (lines.map rstripNewline) :=
  groupFrom_places now 0 none lines

theorem place_mem {now : Nat → Timestamp} {lines : List Str} {b : Block}
    (hb : b ∈ groupBlocks now lines) :
    place b ∈ sections isHeaderText 0 (lines.map rstripNewline) := by
  rw [← groupBlocks_places now]
  exact List.mem_map_of_mem hb

def Precedes (b b' : Block) : Prop := b.endLine < b'.startLine

theorem endLine_eq (b : Block) : b.endLine = b.startIdx + b.lines.length := by
  rw [Block.endLine, Block.startLine]
  omega

/-- The ranges of the blocks are not empty, and each ends before the next begins. -/
theorem groupBlocks_ranges (now : Nat → Timestamp) (lines : List Str) :
    (groupBlocks now lines).Pairwise Precedes ∧
      ∀ b ∈ groupBlocks now lines, b.startLine ≤ b.endLine := by
  have hsorted : (sections isHeaderText 0 (lines.map rstripNewline)).Pairwise EndsBefore :=
    sections_sorted 0 _
  rw [← groupBlocks_places now, List.pairwise_map] at hsorted
  refine ⟨hsorted.imp fun {b b'} hle => ?_, fun b hb => ?_⟩
  · rw [Precedes, endLine_eq]
    exact Nat.lt_succ_of_le hle
  · obtain ⟨line, body, hlines, -⟩ := mem_sections (place_mem hb)
    have hpos : 0 < b.lines.length := by
      rw [show b.lines = line :: body from hlines]
      exact Nat.succ_pos _
    rw [endLine_eq, Block.startLine]
    omega

theorem blocks_apart {now : Nat → Timestamp} {lines : List Str} {b b' : Block}
    (hb : b ∈ groupBlocks now lines) (hb' : b' ∈ groupBlocks now lines) (hne : b ≠ b') :
    Precedes b b' ∨ Precedes b' b := by
  have hsymm : Std.Symm fun c c' : Block => Precedes c c' ∨ Precedes c' c :=
    ⟨fun _ _ => Or.symm⟩
  have hsorted : (groupBlocks now lines).Pairwise fun c c' => Precedes c c' ∨ Precedes c' c :=
    (groupBlocks_ranges now lines).1.imp Or.inl
  exact hsorted.forall hb hb' hne

theorem startIdx_lt {now : Nat → Timestamp} {lines : List Str} :
    (groupBlocks now lines).Pairwise (·.startIdx < ·.startIdx) := by
  obtain ⟨hsorted, hrange⟩ := groupBlocks_ranges now lines
  refine hsorted.imp_of_mem fun {b b'} hb _ hlt => ?_
  have hle := hrange b hb
  simp only [Precedes, Block.startLine] at hle hlt
  omega

theorem keptBlocks_sublist (blocks : List Block) : (keptBlocks blocks).Sublist blocks :=
  record_sublist blockKey [] blocks

end AtmMonitor.BlockRanges
