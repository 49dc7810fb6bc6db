import AtmMonitor.FileUtils
import AtmMonitor.Library.Lines

namespace AtmMonitor.AppendedLines

open Library.Lines PyText FileUtils

def isNewline (b : UInt8) : Bool := b == 10

def Plain (bs : Bytes) : Prop := ∀ b ∈ bs, b.toNat < 128 ∧ b ≠ 13

theorem Plain.left {as bs : Bytes} (h : Plain (as ++ bs)) : Plain as :=
  fun b hb => h b (List.mem_append_left bs hb)

theorem Plain.right {as bs : Bytes} (h : Plain (as ++ bs)) : Plain bs :=
  fun b hb => h b (List.mem_append_right as hb)

theorem Plain.line {bs l : Bytes} (h : Plain bs) (hl : l ∈ lines isNewline bs) : Plain l := by
  rw [← lines_flatten isNewline bs] at h
  exact fun b hb => h b (List.mem_flatten.mpr ⟨l, hl, hb⟩)

/-- The lines of a file as `readline` returns them. -/
def fileLines (bs : Bytes) : List Str := (lines isNewline bs).map textLine

/-- The lines of a file as `_group_blocks` looks at them. -/
def strippedLines (bs : Bytes) : List Str := (fileLines bs).map rstripNewline

theorem takeLine_plain {bs : Bytes} (h : Plain bs) : takeLine bs = firstLine isNewline bs := by
  induction bs with
  | nil => rfl
  | cons b rest ih =>
    have hrest : Plain rest := fun c hc => h c (List.mem_cons_of_mem b hc)
    have hcr : b ≠ 13 := (h b (by simp)).2
    rw [takeLine, firstLine, if_neg hcr, ih hrest]
    by_cases hb : b = 10
    · rw [if_pos hb, if_pos (by simp [isNewline, hb])]
    · rw [if_neg hb, if_neg (by simpa [isNewline] using hb)]

theorem decode_plain {bs : Bytes} (h : ∀ b ∈ bs, b.toNat < 128) :
    decode bs = bs.map fun b => Char.ofNat b.toNat := by
  induction bs with
  | nil => rfl
  | cons b rest ih =>
    have hb : charAt (b :: rest) = some (Char.ofNat b.toNat, 1) := by
      have := h b (by simp)
      simp [charAt, this]
    have hrest := ih fun c hc => h c (List.mem_cons_of_mem b hc)
    rw [decode, decodeFrom, hb, List.map_cons, ← hrest]
    rfl

theorem utf8Size_ascii : ∀ n : Fin 128, (Char.ofNat n.val).utf8Size = 1 := by decide

theorem encodedLength_decode {bs : Bytes} (h : ∀ b ∈ bs, b.toNat < 128) :
    encodedLength (decode bs) = bs.length := by
  rw [decode_plain h, encodedLength, List.map_map]
  induction bs with
  | nil => rfl
  | cons b rest ih =>
    have hb : (Char.ofNat b.toNat).utf8Size = 1 := utf8Size_ascii ⟨b.toNat, h b (by simp)⟩
    rw [List.map_cons, List.sum_cons, ih fun c hc => h c (List.mem_cons_of_mem b hc),
      Function.comp_apply, hb, List.length_cons]
    omega

theorem no_lineEnd {bs : Bytes} (h : Plain bs) (hopen : ∀ b ∈ bs, isNewline b = false) :
    bs.any isLineEnd = false := by
  rw [List.any_eq_false]
  intro b hb
  have hn := hopen b hb
  have hcr := (h b hb).2
  simp_all [isLineEnd, isNewline]

theorem textLine_line {raw : Bytes} (h : Plain raw) (hopen : ∀ b ∈ raw.dropLast, isNewline b = false) :
    textLine raw = decode raw := by
  obtain rfl | ⟨bs, b, rfl⟩ := raw.eq_nil_or_concat
  · rfl
  rw [List.concat_eq_append, List.dropLast_concat] at *
  have hbs := no_lineEnd h.left hopen
  cases hb : isNewline b with
  | false =>
    have hall : (bs ++ [b]).any isLineEnd = false := by
      refine no_lineEnd h fun c hc => ?_
      obtain hc | hc := List.mem_append.mp hc
      · exact hopen c hc
      · rw [List.mem_singleton.mp hc, hb]
    rw [textLine, if_neg (by simp [hall])]
  | true =>
    rw [isNewline, beq_iff_eq] at hb
    subst hb
    have hcut : (bs ++ [10]).takeWhile (fun c => !isLineEnd c) = bs := by
      rw [List.takeWhile_append_of_pos]
      · simp [isLineEnd]
      · simpa using hbs
    have hany : (bs ++ [10]).any isLineEnd = true := by simp [isLineEnd]
    rw [textLine, if_pos hany, hcut, decode_plain fun c hc => (h c hc).1,
      decode_plain fun c hc => (h.left c hc).1, List.map_append]
    rfl

theorem textLine_ne_nil {raw : Bytes} (h : Plain raw) (hne : raw ≠ []) : textLine raw ≠ [] := by
  rw [textLine]
  split_ifs
  · simp
  · rw [decode_plain fun b hb => (h b hb).1]
    simpa using hne

theorem rest_of_appended (rest : Bytes) (b : Bool) :
    (if rest.isEmpty && b then [] else rest) = rest := by
  cases rest <;> simp

/-- What the loop consumes when `n` bytes have been counted: lines, the last of which begins before
the cap. -/
structure Consumes (maxBytes n : Nat) (bs chunk rest : Bytes) : Prop where
  split : chunk ++ rest = bs
  stops : rest ≠ [] → maxBytes ≤ n + chunk.length
  whole : rest ≠ [] → Complete isNewline chunk
  last : chunk ≠ [] → n + (lines isNewline chunk).dropLast.flatten.length < maxBytes

theorem Consumes.ne_nil {maxBytes : Nat} {bs chunk rest : Bytes} (h : Consumes maxBytes 0 bs chunk rest)
    (hmax : 0 < maxBytes) (hrest : rest ≠ []) : chunk ≠ [] := by
  rintro rfl
  have hcap := h.stops hrest
  rw [List.length_nil] at hcap
  omega

theorem Consumes.line {maxBytes n : Nat} {bs chunk rest : Bytes} (hne : bs ≠ []) (hcap : n < maxBytes)
    (h : Consumes maxBytes (n + (firstLine isNewline bs).length)
      (bs.drop (firstLine isNewline bs).length) chunk rest) :
    Consumes maxBytes n bs (firstLine isNewline bs ++ chunk) rest ∧
      lines isNewline (firstLine isNewline bs ++ chunk) =
        firstLine isNewline bs :: lines isNewline chunk := by
  have hsplit := firstLine_append_drop isNewline bs
  rw [← h.split] at hsplit
  have hlines : lines isNewline (firstLine isNewline bs ++ chunk) =
      firstLine isNewline bs :: lines isNewline chunk := lines_firstLine_append hne hsplit
  refine ⟨⟨by rw [List.append_assoc, hsplit], fun hrest => ?_, fun hrest => ?_, fun _ => ?_⟩, hlines⟩
  · have := h.stops hrest
    rw [List.length_append]
    omega
  · by_cases hchunk : chunk = []
    · rw [hchunk, List.append_nil]
      refine (firstLine_complete isNewline bs).resolve_right fun hall => ?_
      rw [hall, hchunk, List.nil_append, List.append_right_eq_self] at hsplit
      exact hrest hsplit
    · rw [Complete, List.getLast?_append_of_ne_nil _ hchunk]
      exact h.whole hrest
  · rw [hlines]
    by_cases hchunk : chunk = []
    · simpa [hchunk, lines] using hcap
    · have := h.last hchunk
      rw [List.dropLast_cons_of_ne_nil (mt lines_eq_nil.mp hchunk), List.flatten_cons,
        List.length_append]
      omega

theorem readLoop_consumes (maxBytes n : Nat) {fuel : Nat} {bs : Bytes} (h : Plain bs)
    (hfuel : bs.length ≤ fuel) : ∃ chunk rest,
      readLoop maxBytes fuel n bs [] = (fileLines chunk, chunk.length) ∧
        Consumes maxBytes n bs chunk rest := by
  induction fuel generalizing n bs with
  | zero =>
    obtain rfl : bs = [] := List.length_eq_zero_iff.mp (by omega)
    exact ⟨[], [], rfl, rfl, fun hne => absurd rfl hne, fun hne => absurd rfl hne,
      fun hne => absurd rfl hne⟩
  | succ fuel ih =>
    rw [readLoop]
    split_ifs with hcap
    · simp only [takeLine_plain h, List.headD_nil, rest_of_appended, List.tail_nil, ite_self]
      by_cases hnil : bs = []
      · subst hnil
        exact ⟨[], [], rfl, rfl, fun hne => absurd rfl hne, fun hne => absurd rfl hne,
          fun hne => absurd rfl hne⟩
      · have hsplit := firstLine_append_drop isNewline bs
        set raw := firstLine isNewline bs with hraw
        have hrawne : raw ≠ [] := firstLine_ne_nil hnil
        rw [← hsplit] at h
        have hpos : 0 < raw.length := List.length_pos_iff.mpr hrawne
        have hopen : ∀ b ∈ raw.dropLast, isNewline b = false :=
          line_open (s := bs) (by rw [lines_firstLine isNewline hnil, ← hraw]; simp)
        have hcount : encodedLength (textLine raw) = raw.length := by
          rw [textLine_line h.left hopen, encodedLength_decode fun b hb => (h.left b hb).1]
        obtain ⟨chunk, rest, hread, hrest⟩ :=
          ih (n + raw.length) h.right (by rw [List.length_drop]; omega)
        obtain ⟨hconsumes, hlines⟩ := hrest.line hnil hcap
        refine ⟨raw ++ chunk, rest, ?_, hconsumes⟩
        have hline : (textLine raw).isEmpty = false := by
          simpa using textLine_ne_nil h.left hrawne
        rw [hline, hcount, hread, fileLines, fileLines, hlines, List.length_append]
        rfl
    · exact ⟨[], bs, rfl, rfl, fun _ => by simpa using hcap, fun _ => complete_nil,
        fun hne => absurd rfl hne⟩

theorem readFrom_consumes (maxBytes offset : Nat) {content : Bytes} (h : Plain content) :
    ∃ chunk rest, readFrom maxBytes offset content [] = (fileLines chunk, offset + chunk.length) ∧
      Consumes maxBytes 0 (content.drop offset) chunk rest := by
  have hdrop : Plain (content.drop offset) := fun b hb => h b (List.drop_subset offset content hb)
  have hfuel : (content.drop offset).length ≤
      (content.drop offset).length + ([] : List Bytes).flatten.length := Nat.le_add_right ..
  obtain ⟨chunk, rest, hread, hconsumes⟩ := readLoop_consumes maxBytes 0 hdrop hfuel
  refine ⟨chunk, rest, ?_, hconsumes⟩
  rw [readFrom, hread]

theorem readAppendedLines_consumes (maxBytes : Nat) {offset : Nat} {content : Bytes}
    {attempts : List ReadAttempt} (h : Plain content) (hoffset : offset ≤ content.length)
    (hfirst : attempts.head? = some ⟨some content.length, some content, []⟩) :
    ∃ chunk rest, readAppendedLines maxBytes true attempts offset =
        (fileLines chunk, offset + chunk.length, content.length) ∧
      Consumes maxBytes 0 (content.drop offset) chunk rest := by
  obtain ⟨chunk, rest, hread, hconsumes⟩ := readFrom_consumes maxBytes offset h
  refine ⟨chunk, rest, ?_, hconsumes⟩
  obtain ⟨tail, rfl⟩ := List.head?_eq_some_iff.mp hfirst
  have hlt : ¬ content.length < offset := by omega
  simp only [readAppendedLines, if_true, List.take_succ_cons, readAttempts, hlt, if_false, hread]

theorem chunk_cut {content chunk rest : Bytes} {offset len : Nat}
    (h : (content.take len).drop offset = chunk ++ rest) :
    content.take (offset + chunk.length) = content.take offset ++ chunk ∧
      content.drop offset = chunk ++ content.drop (offset + chunk.length) := by
  have hchunk : chunk <+: content.drop offset := by
    have hread : chunk <+: (content.take len).drop offset := ⟨rest, h.symm⟩
    rw [List.drop_take] at hread
    exact hread.trans (List.take_prefix _ _)
  constructor
  · rw [List.take_add, ← List.prefix_iff_eq_take.mp hchunk]
  · obtain ⟨after, hafter⟩ := hchunk
    rw [← List.drop_drop, ← hafter, List.drop_left]

/-- The file is cut at the end of a line or just before it. -/
def AtLineEnd (before after : Bytes) : Prop :=
  Complete isNewline before ∨ ∀ b ∈ after.head?, isNewline b = true

instance (before after : Bytes) : Decidable (AtLineEnd before after) :=
  inferInstanceAs
    (Decidable (Complete isNewline before ∨ ∀ b ∈ after.head?, isNewline b = true))

/-- What follows the line end at the cut. -/
def afterLineEnd (before after : Bytes) : Bytes :=
  if Complete isNewline before then after else after.tail

theorem rstripNewline_textLine_end {raw : Bytes} (h : raw.any isLineEnd = false) {e : UInt8}
    (he : isNewline e = true) :
    rstripNewline (textLine (raw ++ [e])) = rstripNewline (textLine raw) := by
  have hend : isLineEnd e = true := by
    rw [isNewline, beq_iff_eq] at he
    rw [he]
    rfl
  have hcut : (raw ++ [e]).takeWhile (fun b => !isLineEnd b) = raw := by
    rw [List.takeWhile_append_of_pos]
    · simp [hend]
    · simpa using h
  have hany : (raw ++ [e]).any isLineEnd = true := by simp [hend]
  rw [textLine, if_pos hany, hcut, textLine, if_neg (by simp [h]), rstripNewline,
    List.rdropWhile_concat_pos _ _ _ (by simp)]
  rfl

theorem strippedLines_append {before after : Bytes} (h : Plain before)
    (hcut : AtLineEnd before after) :
    strippedLines (before ++ after) =
      strippedLines before ++ strippedLines (afterLineEnd before after) := by
  unfold afterLineEnd strippedLines fileLines
  split_ifs with hc
  · rw [lines_append hc, List.map_append, List.map_append]
  · cases after with
    | nil => simp [lines]
    | cons e rest =>
      have he : isNewline e = true := (hcut.resolve_left hc) e rfl
      obtain ⟨ls, l, hl, hall, hopen⟩ := lines_append_end hc he rest
      have hraw : l.any isLineEnd = false := by
        have hmem : ∀ b ∈ l, b ∈ before := by
          intro b hb
          rw [← lines_flatten isNewline before, hl]
          simp [hb]
        exact no_lineEnd (fun b hb => h b (hmem b hb)) hopen
      rw [hl, hall]
      simp only [List.map_append, List.map_cons, List.map_nil, List.tail_cons,
        rstripNewline_textLine_end hraw he, List.append_assoc, List.singleton_append]

theorem strippedLines_afterLineEnd {before after : Bytes} (hcut : AtLineEnd before after) :
    strippedLines after = strippedLines (afterLineEnd before after) ∨
      strippedLines after = [] :: strippedLines (afterLineEnd before after) := by
  rw [afterLineEnd]
  split_ifs with hc
  · exact Or.inl rfl
  · cases after with
    | nil => exact Or.inl rfl
    | cons e rest =>
      have he : isNewline e = true := (hcut.resolve_left hc) e rfl
      right
      have hempty : rstripNewline (textLine [e]) = [] := by
        rw [isNewline, beq_iff_eq] at he
        rw [he]
        rfl
      rw [strippedLines, fileLines, lines_end he, List.map_cons, List.map_cons, hempty]
      rfl

/-- The lines of a chunk between two such cuts are those that the file has there, after at most one
empty line. -/
theorem chunk_lines {before chunk after : Bytes} (hplain : Plain (before ++ chunk))
    (hcut : AtLineEnd before (chunk ++ after)) (hcut' : AtLineEnd (before ++ chunk) after) :
    ∃ ls, strippedLines (before ++ chunk) = strippedLines before ++ ls ∧
      (strippedLines chunk = ls ∨ strippedLines chunk = [] :: ls) ∧
      strippedLines (afterLineEnd before (chunk ++ after)) =
        ls ++ strippedLines (afterLineEnd (before ++ chunk) after) := by
  have hchunk : AtLineEnd before chunk := by
    obtain h | h := hcut
    · exact Or.inl h
    · refine Or.inr fun b hb => h b ?_
      rw [Option.mem_def] at hb ⊢
      rw [List.head?_append, hb, Option.some_or]
  have hsplit := strippedLines_append hplain.left hchunk
  refine ⟨_, hsplit, strippedLines_afterLineEnd hchunk, ?_⟩
  have hall := strippedLines_append hplain hcut'
  rw [hsplit, List.append_assoc, List.append_assoc, strippedLines_append hplain.left hcut] at hall
  exact List.append_cancel_left hall

end AtmMonitor.AppendedLines
