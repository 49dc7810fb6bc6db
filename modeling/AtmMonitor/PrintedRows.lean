import AtmMonitor.Decimal
import AtmMonitor.HeaderReading
import AtmMonitor.PrintedLines

namespace AtmMonitor.PrintedRows

open Library.Regex PyText ParserModels EventPatterns CassetteParser SupervisorParser EjParser Decimal
  TrimmedLines HeaderLines HeaderSearch SnapshotRouting PrintedLines

/-- `f"{n:0{width}d}"` -/
def numeral (width n : Nat) : Str := List.replicate (width - (decimal n).length) '0' ++ decimal n

theorem numeral_digits (width n : Nat) : AsciiDigits (numeral width n) := by
  intro c hc
  obtain hc | hc := List.mem_append.mp hc
  · rw [List.eq_of_mem_replicate hc]
    rfl
  · exact decimal_digits n c hc

theorem numeral_ne_nil (width n : Nat) : numeral width n ≠ [] :=
  List.append_ne_nil_of_right_ne_nil _ (decimal_ne_nil n)

theorem int_zeros (k : Nat) (s : Str) : int (List.replicate k '0' ++ s) = int s := by
  induction k with
  | zero => rfl
  | succ k ih => exact ih

theorem int_numeral (width n : Nat) : int (numeral width n) = n := by
  rw [numeral, int_zeros, int_decimal]

structure Cell where
  blanks : Str
  digits : Str
  blanks_ne_nil : blanks ≠ []
  of_blanks : ∀ c ∈ blanks, c = ' '
  digits_ne_nil : digits ≠ []
  of_digits : AsciiDigits digits

def Cell.text (c : Cell) : Str := c.blanks ++ c.digits

def Cell.value (c : Cell) : Nat := int c.digits

/-- A count is filled with zeros. -/
def countCell (n : Nat) : Cell where
  blanks := [' ']
  digits := numeral 5 n
  blanks_ne_nil := List.cons_ne_nil _ _
  of_blanks := fun _ => List.mem_singleton.mp
  digits_ne_nil := numeral_ne_nil 5 n
  of_digits := numeral_digits 5 n

/-- A denomination is filled with blanks. -/
def denominationCell (n : Nat) : Cell where
  blanks := List.replicate (5 - (decimal n).length + 1) ' '
  digits := decimal n
  blanks_ne_nil := List.cons_ne_nil _ _
  of_blanks := fun _ => List.eq_of_mem_replicate
  digits_ne_nil := decimal_ne_nil n
  of_digits := decimal_digits n

theorem countCell_value (n : Nat) : (countCell n).value = n := int_numeral 5 n

theorem denominationCell_value (n : Nat) : (denominationCell n).value = n := int_decimal n

def rowText (caption : String) (cells : List Cell) : Str := caption.toList ++ cells.flatMap Cell.text

theorem isSpace_digit {c : Char} (h : c.isDigit = true) : isSpace c = false := by
  have hrange := toNat_range h
  rw [isSpace]
  simp only [Bool.or_eq_false_iff, Bool.and_eq_false_iff, decide_eq_false_iff_not, beq_eq_false_iff_ne]
  omega

theorem headerChar_digit {c : Char} (h : c.isDigit = true) : HeaderChar c := .inl (isDigit_of_ascii h)

theorem headerChar_blank : HeaderChar ' ' := .inr (.inl (by decide))

theorem Cell.chars (cell : Cell) : ∀ c ∈ cell.text, HeaderChar c := by
  intro c hc
  obtain hc | hc := List.mem_append.mp hc
  · rw [cell.of_blanks c hc]
    exact headerChar_blank
  · exact headerChar_digit (cell.of_digits c hc)

theorem rowText_spelt (caption : String) (cells : List Cell) :
    Spelt caption.toList (rowText caption cells) := by
  refine Spelt.append (fun c => .inl) (spelt_headerChars _ fun c hc => ?_)
  obtain ⟨cell, -, hc⟩ := List.mem_flatMap.mp hc
  exact cell.chars c hc

theorem splitGo_word {w : Str} (hw : ∀ c ∈ w, isSpace c = false) (t acc : Str) :
    splitGo (w ++ t) acc = splitGo t (w.reverse ++ acc) := by
  induction w generalizing acc with
  | nil => rfl
  | cons c w ih =>
    rw [List.cons_append, splitGo, if_neg (by simp [hw c (by simp)]),
      ih fun d hd => hw d (List.mem_cons_of_mem c hd)]
    simp

theorem splitGo_end {t acc : Str} (hacc : acc ≠ []) (ht : ∀ c ∈ t.head?, isSpace c = true) :
    splitGo t acc = acc.reverse :: splitGo t [] := by
  have hempty : acc.isEmpty = false := List.isEmpty_eq_false_iff.mpr hacc
  cases t with
  | nil => simp [splitGo, hempty]
  | cons c cs => simp [splitGo, hempty, ht c rfl]

theorem splitGo_blanks {w : Str} (hw : ∀ c ∈ w, isSpace c = true) (t : Str) :
    splitGo (w ++ t) [] = splitGo t [] := by
  induction w with
  | nil => rfl
  | cons c w ih =>
    rw [List.cons_append, splitGo, if_pos (hw c (by simp))]
    exact ih fun d hd => hw d (List.mem_cons_of_mem c hd)

theorem Cell.blanks_space (cell : Cell) : ∀ c ∈ cell.blanks, isSpace c = true := by
  intro c hc
  rw [cell.of_blanks c hc]
  rfl

theorem Cell.digits_space (cell : Cell) : ∀ c ∈ cell.digits, isSpace c = false :=
  fun c hc => isSpace_digit (cell.of_digits c hc)

theorem cells_head (cells : List Cell) : ∀ c ∈ (cells.flatMap Cell.text).head?, c = ' ' := by
  cases cells with
  | nil => simp
  | cons cell cells =>
    obtain ⟨b, bs, hb⟩ := List.exists_cons_of_ne_nil cell.blanks_ne_nil
    intro c hc
    rw [List.flatMap_cons, Cell.text, hb, List.cons_append, List.cons_append, List.head?_cons,
      Option.mem_some_iff] at hc
    exact cell.of_blanks c (by rw [hb, hc]; exact List.mem_cons_self ..)

theorem split_cells (cells : List Cell) :
    splitGo (cells.flatMap Cell.text) [] = cells.map Cell.digits := by
  induction cells with
  | nil => rfl
  | cons cell cells ih =>
    have hhead : ∀ c ∈ (cells.flatMap Cell.text).head?, isSpace c = true := by
      intro c hc
      rw [cells_head cells c hc]
      rfl
    rw [List.flatMap_cons, Cell.text, List.append_assoc, splitGo_blanks cell.blanks_space,
      splitGo_word cell.digits_space, List.append_nil,
      splitGo_end (List.reverse_ne_nil_iff.mpr cell.digits_ne_nil) hhead, ih, List.reverse_reverse,
      List.map_cons]

theorem prefers_values (caption : String) (cell : Cell) (cells : List Cell) :
    Prefers (valuesAfter caption) (rowText caption (cell :: cells)) []
      [("values", cell.digits ++ cells.flatMap Cell.text)] := by
  have hvalues : ∀ c ∈ cell.digits ++ cells.flatMap Cell.text, (isDigit c || isSpace c) = true := by
    intro c hc
    rw [Bool.or_eq_true]
    obtain hc | hc := List.mem_append.mp hc
    · exact .inl (isDigit_of_ascii (cell.of_digits c hc))
    · obtain ⟨cell', -, hc⟩ := List.mem_flatMap.mp hc
      obtain hc | hc := List.mem_append.mp hc
      · exact .inr (cell'.blanks_space c hc)
      · exact .inl (isDigit_of_ascii (cell'.of_digits c hc))
  have hdigit : ∀ c ∈ (cell.digits ++ cells.flatMap Cell.text ++ []).head?, isSpace c = false := by
    intro c hc
    obtain ⟨d, ds, hd⟩ := List.exists_cons_of_ne_nil cell.digits_ne_nil
    rw [hd, List.cons_append, List.cons_append, List.head?_cons, Option.mem_some_iff] at hc
    exact cell.digits_space c (by rw [hd, hc]; exact List.mem_cons_self ..)
  have hgroup : Prefers (.group "values" (many1 fun c => isDigit c || isSpace c))
      (cell.digits ++ cells.flatMap Cell.text) []
      [("values", cell.digits ++ cells.flatMap Cell.text)] :=
    prefers_group (prefers_many1 (List.append_ne_nil_of_left_ne_nil cell.digits_ne_nil _) hvalues (by simp))
  have hblanks := prefers_seqs_skip (prefers_many1 cell.blanks_ne_nil cell.blanks_space hdigit)
    (prefers_seqs_last hgroup)
  rw [rowText, List.flatMap_cons, Cell.text, List.append_assoc]
  exact prefers_seqs_skip (prefers_lit (sameCase_refl caption.toList)) hblanks

theorem strip_eq_self {s : Str} (hfirst : ∀ c ∈ s.head?, isSpace c = false)
    (hlast : ∀ c ∈ s.getLast?, isSpace c = false) : strip s = s := by
  have hdrop : s.dropWhile isSpace = s := by
    cases s with
    | nil => rfl
    | cons c cs => exact List.dropWhile_cons_of_neg (by simp [hfirst c rfl])
  rw [strip, hdrop, List.rdropWhile_eq_self_iff]
  intro hne
  rw [hlast _ (List.getLast?_eq_some_getLast hne)]
  exact Bool.false_ne_true

theorem rowText_last (caption : String) (cells : List Cell) (cell : Cell) :
    ∀ c ∈ (rowText caption (cells ++ [cell])).getLast?, isSpace c = false := by
  intro c hc
  have hlast : (rowText caption (cells ++ [cell])).getLast? = cell.digits.getLast? := by
    rw [rowText, List.flatMap_append, List.flatMap_singleton, Cell.text, ← List.append_assoc,
      ← List.append_assoc, List.getLast?_append_of_ne_nil _ cell.digits_ne_nil]
  rw [hlast] at hc
  exact cell.digits_space c (List.mem_of_getLast? hc)

def Trim (caption : String) : Prop := ∃ c ∈ caption.toList.head?, isSpace c = false

instance (caption : String) : Decidable (Trim caption) :=
  decidable_of_iff ((caption.toList.head?.any fun c => !isSpace c) = true) (by simp [Trim, Option.any_eq_true])

theorem strip_row {caption : String} (h : Trim caption) {cells : List Cell} (hne : cells ≠ []) :
    strip (rowText caption cells) = rowText caption cells := by
  obtain ⟨c, hc, hspace⟩ := h
  refine strip_eq_self (fun d hd => ?_) ?_
  · obtain ⟨t, ht⟩ := List.head?_eq_some_iff.mp hc
    rw [rowText, ht, List.cons_append, List.head?_cons, Option.mem_some_iff] at hd
    rwa [← hd]
  · rw [← List.dropLast_append_getLast hne]
    exact rowText_last caption _ _

theorem search_row {caption : String} (h : Trim caption) {cells : List Cell} (hne : cells ≠ []) :
    ∃ m, search (valuesAfter caption) (strip (rowText caption cells)) = some m ∧
      rowValues m = cells.map Cell.value := by
  rw [strip_row h hne]
  obtain ⟨cell, cells, rfl⟩ := List.exists_cons_of_ne_nil hne
  have hsearch := search_of_prefers (prefers_values caption cell cells)
  rw [List.append_nil] at hsearch
  refine ⟨_, hsearch, ?_⟩
  have hgroup : groupText ⟨(rowText caption (cell :: cells)).reverse, [],
      [("values", cell.digits ++ cells.flatMap Cell.text)]⟩ "values" =
        cell.digits ++ cells.flatMap Cell.text := rfl
  have hsplit : split (cell.digits ++ cells.flatMap Cell.text) = (cell :: cells).map Cell.digits := by
    have hcells := split_cells (cell :: cells)
    rwa [List.flatMap_cons, Cell.text, List.append_assoc, splitGo_blanks cell.blanks_space] at hcells
  rw [rowValues, hgroup, hsplit, List.map_map]
  rfl

def rowCaptions : List String := ["DENOMINATION", "DISPENSED", "REJECTED", "REMAINING"]

theorem spelt_strip {alphabet s : Str} (h : Spelt alphabet s) : Spelt alphabet (strip s) := by
  obtain ⟨before, after, hs, -, -⟩ := strip_split s
  intro c hc
  apply h c
  rw [hs]
  exact List.mem_append_right _ (List.mem_append_left _ hc)

theorem search_lacking {alphabet s : Str} (hs : Spelt alphabet s) {caption : String}
    (h : Lacks alphabet caption) : search (valuesAfter caption) (strip s) = none :=
  search_unsaid (unsaid_of_lacks h (spelt_strip hs)) (by simp)

section Rows

variable (t : CashTotals) {cells : List Cell} (hne : cells ≠ [])

include hne

theorem totalsLine_denomination :
    totalsLine t (rowText "DENOMINATION" cells) = { t with denoms := cells.map Cell.value } := by
  obtain ⟨m, hm, hvalues⟩ := @search_row "DENOMINATION" (by decide) cells hne
  rw [totalsLine, DENOMINATION_ROW_PATTERN, hm]
  simp only [hvalues]

theorem totalsLine_dispensed :
    totalsLine t (rowText "DISPENSED" cells) = { t with dispensed := cells.map Cell.value } := by
  obtain ⟨m, hm, hvalues⟩ := @search_row "DISPENSED" (by decide) cells hne
  have hspelt := rowText_spelt "DISPENSED" cells
  have hdenomination : search DENOMINATION_ROW_PATTERN (strip (rowText "DISPENSED" cells)) = none :=
    search_lacking hspelt (by decide)
  rw [totalsLine, hdenomination, DISPENSED_ROW_PATTERN, hm]
  simp only [hvalues]

theorem totalsLine_rejected :
    totalsLine t (rowText "REJECTED" cells) = { t with rejected := cells.map Cell.value } := by
  obtain ⟨m, hm, hvalues⟩ := @search_row "REJECTED" (by decide) cells hne
  have hspelt := rowText_spelt "REJECTED" cells
  have hdenomination : search DENOMINATION_ROW_PATTERN (strip (rowText "REJECTED" cells)) = none :=
    search_lacking hspelt (by decide)
  have hdispensed : search DISPENSED_ROW_PATTERN (strip (rowText "REJECTED" cells)) = none :=
    search_lacking hspelt (by decide)
  rw [totalsLine, hdenomination, hdispensed, REJECTED_ROW_PATTERN, hm]
  simp only [hvalues]

theorem totalsLine_remaining :
    totalsLine t (rowText "REMAINING" cells) = { t with remaining := cells.map Cell.value } := by
  obtain ⟨m, hm, hvalues⟩ := @search_row "REMAINING" (by decide) cells hne
  have hspelt := rowText_spelt "REMAINING" cells
  have hdenomination : search DENOMINATION_ROW_PATTERN (strip (rowText "REMAINING" cells)) = none :=
    search_lacking hspelt (by decide)
  have hdispensed : search DISPENSED_ROW_PATTERN (strip (rowText "REMAINING" cells)) = none :=
    search_lacking hspelt (by decide)
  have hrejected : search REJECTED_ROW_PATTERN (strip (rowText "REMAINING" cells)) = none :=
    search_lacking hspelt (by decide)
  rw [totalsLine, hdenomination, hdispensed, hrejected, REMAINING_ROW_PATTERN, hm]
  simp only [hvalues]

end Rows

/-- Values for two cassettes, or for four. -/
inductive PerType (β : Type) where
  | two (a b : β)
  | four (a b c d : β)
  deriving DecidableEq

def PerType.toList {β : Type} : PerType β → List β
  | .two a b => [a, b]
  | .four a b c d => [a, b, c, d]

def PerType.map {β γ : Type} (f : β → γ) : PerType β → PerType γ
  | .two a b => .two (f a) (f b)
  | .four a b c d => .four (f a) (f b) (f c) (f d)

def countText (digit : Char) (n : Nat) : Str := "TYPE".toList ++ ' ' :: digit :: ' ' :: '≈' :: ' ' :: numeral 5 n

def gap : Str := [' ', ' ']

def countRowText : PerType Nat → Str
  | .two a b => countText '1' a ++ (gap ++ countText '2' b)
  | .four a b c d =>
    countText '1' a ++ (gap ++ (countText '2' b ++ (gap ++ (countText '3' c ++ (gap ++ countText '4' d)))))

theorem isDigit_numeral (n : Nat) : ∀ c ∈ numeral 5 n, isDigit c = true :=
  fun c hc => isDigit_of_ascii (numeral_digits 5 n c hc)

theorem prefers_chr (c : Char) (rest : Str) : Prefers (chr c) [c] rest [] := prefers_cls (beq_self_eq_true c)

theorem prefers_count {digit : Char} (hdigit : isSpace digit = false) (name : String) (n : Nat) {rest : Str}
    (hrest : ∀ c ∈ rest.head?, isDigit c = false) :
    Prefers (typeCount digit name) (countText digit n) rest [(name, numeral 5 n)] := by
  have hnumber : ∀ c ∈ (numeral 5 n ++ rest).head?, isSpace c = false := by
    intro c hc
    obtain ⟨d, ds, hd⟩ := List.exists_cons_of_ne_nil (numeral_ne_nil 5 n)
    rw [hd, List.cons_append, List.head?_cons, Option.mem_some_iff] at hc
    exact isSpace_digit (numeral_digits 5 n c (by rw [hd, hc]; exact List.mem_cons_self ..))
  have hgroup : Prefers (.group name (many1 isDigit)) (numeral 5 n) rest [(name, numeral 5 n)] :=
    prefers_group (prefers_many1 (numeral_ne_nil 5 n) (isDigit_numeral n) hrest)
  have hblank : ∀ {w : Str}, (∀ c ∈ w.head?, isSpace c = false) → Prefers (.many isSpace) [' '] w [] :=
    fun hw => prefers_many (by decide) hw
  have hafter := prefers_seqs_skip (hblank hnumber) (prefers_seqs_last hgroup)
  have hmark := prefers_seqs_skip (prefers_chr '≈' _) hafter
  have hbefore := prefers_seqs_skip (hblank (by simp [isSpace])) hmark
  have htype := prefers_seqs_skip (prefers_chr digit _) hbefore
  have hspace := prefers_seqs_skip (prefers_many1 (w := [' ']) (p := isSpace) (by simp) (by simp [isSpace])
    (by simpa using hdigit)) htype
  exact prefers_seqs_skip (prefers_lit (sameCase_refl "TYPE".toList)) hspace

theorem prefers_gap {w : Str} (hw : w.head? = some 'T') (rest : Str) :
    Prefers (many1 isSpace) gap (w ++ rest) [] := by
  refine prefers_many1 (List.cons_ne_nil _ _) (by decide) fun c hc => ?_
  rw [List.head?_append, hw] at hc
  rw [← Option.some.inj hc]
  rfl

theorem gap_head (w rest : Str) : ∀ c ∈ (gap ++ w ++ rest).head?, isDigit c = false := by
  intro c hc
  rw [← Option.some.inj hc]
  rfl

theorem prefers_next {digit : Char} (hdigit : isSpace digit = false) (name : String) (n : Nat)
    {rs : List Regex} {w : Str} {gs : List (String × Str)} (hw : w.head? = some 'T')
    (h : Prefers (seqs rs) w [] gs) :
    Prefers (seqs (typeCount digit name :: many1 isSpace :: rs)) (countText digit n ++ (gap ++ w)) []
      (gs ++ [(name, numeral 5 n)]) :=
  prefers_seqs_cons (prefers_count hdigit name n (gap_head w [])) (prefers_seqs_skip (prefers_gap hw []) h)

def countGroups : PerType Nat → List (String × Str)
  | .two a b => [("t2", numeral 5 b), ("t1", numeral 5 a)]
  | .four a b c d =>
    [("t4", numeral 5 d), ("t3", numeral 5 c), ("t2", numeral 5 b), ("t1", numeral 5 a)]

theorem prefers_countRow (counts : PerType Nat) :
    Prefers CASH_ROW_TYPE_PATTERN (countRowText counts) [] (countGroups counts) := by
  have hend : ∀ c ∈ ([] : Str).head?, isDigit c = false := by simp
  cases counts with
  | two a b =>
    have hnone : ∀ left groups, run (seqs [many1 isSpace, typeCount '3' "t3", many1 isSpace,
        typeCount '4' "t4"]) ⟨left, ([] : Str), groups⟩ = [] := fun left groups =>
      run_of_rejects (rejects_seqs_cons (show Rejects none (many1 isSpace) from rfl) _)
    have htwo := prefers_seqs_end (@prefers_count '2' rfl "t2" b [] hend) (prefers_opt_none hnone)
    exact prefers_next rfl "t1" a rfl htwo
  | four a b c d =>
    have hfour := prefers_seqs_last (@prefers_count '4' rfl "t4" d [] hend)
    have hthree := @prefers_next '3' rfl "t3" c _ _ _ rfl hfour
    have hrest := prefers_seqs_last (prefers_opt (prefers_seqs_skip (prefers_gap rfl []) hthree))
    have htwo := prefers_seqs_cons (@prefers_count '2' rfl "t2" b _ (gap_head _ _)) hrest
    exact prefers_next rfl "t1" a rfl htwo

theorem numeral_getLast (n : Nat) : ∀ c ∈ (numeral 5 n).getLast?, isSpace c = false :=
  fun c hc => isSpace_digit (numeral_digits 5 n c (List.mem_of_getLast? hc))

theorem countText_getLast (digit : Char) (n : Nat) :
    (countText digit n).getLast? = (numeral 5 n).getLast? := by
  have hsplit : countText digit n = ("TYPE".toList ++ [' ', digit, ' ', '≈', ' ']) ++ numeral 5 n := by
    simp [countText]
  rw [hsplit, List.getLast?_append_of_ne_nil _ (numeral_ne_nil 5 n)]

theorem strip_countRow (counts : PerType Nat) : strip (countRowText counts) = countRowText counts := by
  have hne : ∀ digit n, countText digit n ≠ [] := fun digit n => List.cons_ne_nil _ _
  have hlast : ∀ (w : Str) digit n, ∀ c ∈ (w ++ countText digit n).getLast?, isSpace c = false := by
    intro w digit n c hc
    rw [List.getLast?_append_of_ne_nil _ (hne digit n), countText_getLast] at hc
    exact numeral_getLast n c hc
  cases counts with
  | two a b =>
    refine strip_eq_self (fun c hc => by rw [← Option.some.inj hc]; rfl) ?_
    rw [countRowText, ← List.append_assoc]
    exact hlast _ '2' b
  | four a b c d =>
    refine strip_eq_self (fun c hc => by rw [← Option.some.inj hc]; rfl) ?_
    have hsplit : countRowText (.four a b c d) = (countText '1' a ++ (gap ++ (countText '2' b ++
        (gap ++ (countText '3' c ++ gap))))) ++ countText '4' d := by
      simp only [countRowText, List.append_assoc]
    rw [hsplit]
    exact hlast _ '4' d

theorem search_countRow (counts : PerType Nat) :
    ∃ m, search CASH_ROW_TYPE_PATTERN (strip (countRowText counts)) = some m ∧
      rowCounts m = counts.toList := by
  have hsearch := search_of_prefers (prefers_countRow counts)
  rw [List.append_nil] at hsearch
  rw [strip_countRow]
  refine ⟨_, hsearch, ?_⟩
  cases counts with
  | two a b =>
    have hrow : rowCounts ⟨(countRowText (.two a b)).reverse, [], countGroups (.two a b)⟩ =
        [int (numeral 5 a), int (numeral 5 b)] := rfl
    rw [hrow, int_numeral, int_numeral]
    rfl
  | four a b c d =>
    have hrow : rowCounts ⟨(countRowText (.four a b c d)).reverse, [], countGroups (.four a b c d)⟩ =
        [int (numeral 5 a), int (numeral 5 b), int (numeral 5 c), int (numeral 5 d)] := rfl
    rw [hrow, int_numeral, int_numeral, int_numeral, int_numeral]
    rfl

def countAlphabet : Str := ['T', 'Y', 'P', 'E', '≈']

theorem countText_spelt {digit : Char} (h : digit.isDigit = true) (n : Nat) :
    Spelt countAlphabet (countText digit n) := by
  have hnumber : ∀ c ∈ numeral 5 n, HeaderChar c := fun c hc => headerChar_digit (numeral_digits 5 n c hc)
  have hsplit : countText digit n = "TYPE".toList ++ ([' ', digit, ' '] ++ (['≈'] ++ ([' '] ++ numeral 5 n))) := by
    simp [countText]
  rw [hsplit]
  refine Spelt.append (fun c hc => .inl ?_) (Spelt.append (spelt_headerChars _ ?_)
    (Spelt.append (fun c hc => .inl ?_) (Spelt.append (spelt_headerChars _ ?_) (spelt_headerChars _ hnumber))))
  · exact (by decide : ∀ c ∈ "TYPE".toList, c ∈ countAlphabet) c hc
  · simp only [List.forall_mem_cons, List.not_mem_nil, false_imp_iff, implies_true, and_true]
    exact ⟨headerChar_blank, headerChar_digit h, headerChar_blank⟩
  · rw [List.mem_singleton.mp hc]
    decide
  · simp only [List.mem_singleton, forall_eq]
    exact headerChar_blank

theorem gap_spelt : Spelt countAlphabet gap := by
  refine spelt_headerChars _ fun c hc => ?_
  have hblank : c = ' ' := List.eq_of_mem_replicate (show c ∈ List.replicate 2 ' ' from hc)
  rw [hblank]
  exact headerChar_blank

theorem countRow_spelt (counts : PerType Nat) : Spelt countAlphabet (countRowText counts) := by
  cases counts with
  | two a b => exact (countText_spelt rfl a).append (gap_spelt.append (countText_spelt rfl b))
  | four a b c d =>
    exact (countText_spelt rfl a).append (gap_spelt.append ((countText_spelt rfl b).append
      (gap_spelt.append ((countText_spelt rfl c).append (gap_spelt.append (countText_spelt rfl d))))))

theorem countLine_row (mode : CountMode) (st : Option Section × List CassetteSnapshot)
    (counts : PerType Nat) : countLine mode st (countRowText counts) =
      (st.1, countRow mode st.1 counts.toList st.2) := by
  have hspelt : Spelt countAlphabet (strip (countRowText counts)) := spelt_strip (countRow_spelt counts)
  have hdispensed : found CASH_COUNTS_CLEARED_CASH_DISPENSED (strip (countRowText counts)) = false :=
    unsaid_of_lacks (w := "CASH DISPENSED") (by decide) hspelt
  have hremaining : found CASH_COUNTS_CLEARED_CASH_REMAINING (strip (countRowText counts)) = false :=
    unsaid_of_lacks (w := "CASH REMAINING") (by decide) hspelt
  have hrejected : found CASH_COUNTS_CLEARED_CASH_REJECTED (strip (countRowText counts)) = false :=
    unsaid_of_lacks (w := "CASH REJECTED") (by decide) hspelt
  obtain ⟨m, hm, hcounts⟩ := search_countRow counts
  unfold countLine
  simp only [hdispensed, hremaining, hrejected, hm, hcounts, Bool.false_eq_true, if_false]

end AtmMonitor.PrintedRows
