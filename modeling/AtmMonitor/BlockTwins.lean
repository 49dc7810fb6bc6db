import AtmMonitor.BlockPlaces

namespace AtmMonitor.BlockTwins

open Library.Regex PyText ParserModels EventPatterns EjParser ParsedBlocks BlockPlaces

variable {R : Char → Char → Prop}

/-- Related characters are of the same kind wherever a header is looked for. -/
structure KeepsHeaders (R : Char → Char → Prop) : Prop where
  refl : ∀ c, R c c
  space : ∀ c d, R c d → isSpace c = isSpace d
  digit : ∀ c d, R c d → isDigit c = isDigit d
  star : ∀ c d, R c d → (c == '*') = (d == '*')
  slash : ∀ c d, R c d → (c == '/') = (d == '/')
  colon : ∀ c d, R c d → (c == ':') = (d == ':')
  newline : ∀ c d, R c d → (c == '\n') = (d == '\n')
  carriageReturn : ∀ c d, R c d → (c == '\r') = (d == '\r')

theorem KeepsHeaders.header (h : KeepsHeaders R) : Respects R EVENT_HEADER_PATTERN := by
  have hdigits : ∀ n, Respects R (digits n) := fun n => respects_seqs fun r hr => by
    rw [(List.mem_replicate.mp hr).2]
    exact h.digit
  exact ⟨respects_atStart, h.space, h.star, respects_many1 h.digit, h.star,
    ⟨hdigits 2, h.slash, hdigits 2, h.slash, hdigits 4⟩, h.star,
    ⟨hdigits 2, h.colon, hdigits 2⟩, h.star, fun c d hcd => congrArg not (h.newline c d hcd)⟩

theorem KeepsHeaders.text (h : KeepsHeaders R) (s : Str) : List.Forall₂ R s s :=
  List.forall₂_same.mpr fun c _ => h.refl c

theorem rstripNewline_beside (h : KeepsHeaders R) {s t : Str} (hst : List.Forall₂ R s t) :
    List.Forall₂ R (rstripNewline s) (rstripNewline t) := by
  refine List.rel_reverse (dropWhile_beside (fun c d hcd => ?_) (List.rel_reverse hst))
  rw [h.carriageReturn c d hcd, h.newline c d hcd]

theorem header?_isSome (h : KeepsHeaders R) {s t : Str} (hst : List.Forall₂ R s t) :
    (header? s).isSome = (header? t).isSome := by
  rw [header?, header?, Option.isSome_map, Option.isSome_map, matchStart_isSome h.header hst]

variable (R) in
/-- The line is the same, or a body line with related characters. -/
def Changed (line line' : Str) : Prop :=
  line' = line ∨ isHeader line = false ∧ List.Forall₂ R line line'

variable (R) in
/-- Two blocks that differ in related characters of their lines at most. -/
structure Twins (b b' : Block) : Prop where
  seq : b'.seq = b.seq
  dt : b'.dt = b.dt
  extra : b'.extra = b.extra
  startIdx : b'.startIdx = b.startIdx
  lines : List.Forall₂ (List.Forall₂ R) b.lines b'.lines

theorem Twins.push {b b' : Block} (h : Twins R b b') {line line' : Str}
    (hline : List.Forall₂ R line line') : Twins R (b.push line) (b'.push line') :=
  ⟨h.seq, h.dt, h.extra, h.startIdx, List.rel_append h.lines (.cons hline .nil)⟩

theorem Twins.startLine {b b' : Block} (h : Twins R b b') : b'.startLine = b.startLine :=
  congrArg Nat.succ h.startIdx

theorem Twins.endLine {b b' : Block} (h : Twins R b b') : b'.endLine = b.endLine := by
  rw [Block.endLine, Block.endLine, h.startLine, h.lines.length_eq]

theorem toList_twins {current current' : Option Block} (h : Option.Rel (Twins R) current current') :
    List.Forall₂ (Twins R) current.toList current'.toList := by
  cases h with
  | none => exact .nil
  | some h => exact .cons h .nil

theorem push_twins {current current' : Option Block} (h : Option.Rel (Twins R) current current')
    {line line' : Str} (hline : List.Forall₂ R line line') :
    Option.Rel (Twins R) (current.map (·.push line)) (current'.map (·.push line')) := by
  cases h with
  | none => exact .none
  | some h => exact .some (h.push hline)

theorem groupFrom_twins (hR : KeepsHeaders R) (now : Nat → Timestamp) (idx : Nat)
    {current current' : Option Block} (hcurrent : Option.Rel (Twins R) current current')
    {lines lines' : List Str} (h : List.Forall₂ (Changed R) lines lines') :
    List.Forall₂ (Twins R) (groupFrom now idx current lines) (groupFrom now idx current' lines') := by
  induction h generalizing idx current current' with
  | nil => exact toList_twins hcurrent
  | @cons line line' lines lines' hline _ ih =>
    rw [groupFrom, groupFrom]
    obtain rfl | ⟨hbody, hre⟩ := hline
    · cases hh : header? (rstripNewline line') with
      | some hd =>
        have hopen : Twins R (openBlock now hd (rstripNewline line') idx)
            (openBlock now hd (rstripNewline line') idx) :=
          ⟨rfl, rfl, rfl, rfl, .cons (hR.text _) .nil⟩
        exact List.rel_append (toList_twins hcurrent) (ih (idx + 1) (.some hopen))
      | none => exact ih (idx + 1) (push_twins hcurrent (hR.text _))
    · have hstripped := rstripNewline_beside hR hre
      have hnone : header? (rstripNewline line) = none := by simpa [isHeader] using hbody
      have hnone' : header? (rstripNewline line') = none := by
        rw [← Option.not_isSome_iff_eq_none, ← header?_isSome hR hstripped, hnone]
        exact Bool.false_ne_true
      rw [hnone, hnone']
      exact ih (idx + 1) (push_twins hcurrent hstripped)

theorem keptBlocks_twins (hR : KeepsHeaders R) (now : Nat → Timestamp) {lines lines' : List Str}
    (h : List.Forall₂ (Changed R) lines lines') :
    List.Forall₂ (Twins R) (keptBlocks (groupBlocks now lines))
      (keptBlocks (groupBlocks now lines')) := by
  refine Library.FirstWins.record_forall₂ blockKey (fun b b' htwins => ?_) .nil
    (groupFrom_twins hR now 0 .none h)
  rw [blockKey, blockKey, Block.key, Block.key, htwins.seq, htwins.dt]

theorem exists_twin {T : Block → Block → Prop} {bs bs' : List Block} (h : List.Forall₂ T bs bs')
    {b : Block} (hb : b ∈ bs) : ∃ b' ∈ bs', T b b' := by
  induction h with
  | nil => exact absurd hb List.not_mem_nil
  | @cons c c' bs bs' htwins _ ih =>
    obtain rfl | hb := List.mem_cons.mp hb
    · exact ⟨c', by simp, htwins⟩
    · obtain ⟨b', hb', h⟩ := ih hb
      exact ⟨b', List.mem_cons_of_mem c' hb', h⟩

end AtmMonitor.BlockTwins
