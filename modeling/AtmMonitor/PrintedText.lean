import AtmMonitor.PrintedMessages

namespace AtmMonitor.PrintedText

open Library.Regex PyText ParserModels EventPatterns SupervisorParser EjParser Decimal TrimmedLines
  HeaderLines HeaderSearch PrintedLines PrintedRows PrintedHeader PrintedMessages NvrCheck

/-- The captions that would have the block ignored or a field read. -/
def textCaptions : List String := ignoreCaptions ++ fieldCaptions ++ ["CARDS CAPTURED"]

structure Clean (l : Str) : Prop where
  newline : '\n' ∉ l
  trimmed : strip l = l
  unsaid : ∀ w ∈ textCaptions, Unsaid w l

/-- The line tells nothing about the event. -/
structure Silent (l : Str) : Prop extends Clean l where
  mute : Mute l
  supervisor : supervisorAction [l] = none

instance : DecidablePred Clean := fun l =>
  decidable_of_iff ('\n' ∉ l ∧ strip l = l ∧ ∀ w ∈ textCaptions, Unsaid w l)
    ⟨fun ⟨hn, ht, hu⟩ => ⟨hn, ht, hu⟩, fun ⟨hn, ht, hu⟩ => ⟨hn, ht, hu⟩⟩

instance : DecidablePred Silent := fun l =>
  decidable_of_iff (Clean l ∧ Mute l ∧ supervisorAction [l] = none)
    ⟨fun ⟨hc, hm, hs⟩ => ⟨hc, hm, hs⟩, fun ⟨hc, hm, hs⟩ => ⟨hc, hm, hs⟩⟩

def supervisorCaptions : List String :=
  ["SUPERVISOR MODE ENTRY", "SUPERVISOR TASK ENTERED", "SUPERVISOR TASK EXITED"]

/-- In every caption stands a letter that is not in the alphabet. -/
structure Harmless (alphabet : Str) : Prop where
  captions : ∀ w ∈ entryCaptions ++ textCaptions ++ supervisorCaptions, Lacks alphabet w
  upper : ∀ c ∈ alphabet, upperChar c = [c]

instance : DecidablePred Harmless := fun alphabet =>
  decidable_of_iff ((∀ w ∈ entryCaptions ++ textCaptions ++ supervisorCaptions, Lacks alphabet w) ∧
    ∀ c ∈ alphabet, upperChar c = [c]) ⟨fun ⟨hc, hu⟩ => ⟨hc, hu⟩, fun ⟨hc, hu⟩ => ⟨hc, hu⟩⟩

theorem upper_spelt {alphabet l : Str} (h : ∀ c ∈ alphabet, upperChar c = [c]) (hl : Spelt alphabet l) :
    upper l = l := by
  induction l with
  | nil => rfl
  | cons c l ih =>
    have hc : upperChar c = [c] := (hl c (by simp)).elim (h c) headerChar_upper
    have hrest : upper l = l := ih fun d hd => hl d (List.mem_cons_of_mem c hd)
    rw [upper, List.flatMap_cons, hc]
    exact congrArg (c :: ·) hrest

theorem silent_spelt {alphabet l : Str} (h : Harmless alphabet) (hl : Spelt alphabet l) (hn : '\n' ∉ l)
    (ht : strip l = l) : Silent l := by
  have hunsaid : ∀ w ∈ entryCaptions ++ textCaptions ++ supervisorCaptions, Unsaid w l :=
    fun w hw => unsaid_of_lacks (h.captions w hw) hl
  refine ⟨⟨hn, ht, fun w hw => hunsaid w (by simp [hw])⟩, fun w hw => hunsaid w (by simp [hw]), ?_⟩
  have hnone : ∀ w ∈ supervisorCaptions, contains (upper l) w.toList = false := by
    intro w hw
    rw [upper_spelt h.upper hl]
    exact contains_of_unsaid (hunsaid w (by simp [hw]))
  have hentry := hnone "SUPERVISOR MODE ENTRY" (by decide)
  have hentered := hnone "SUPERVISOR TASK ENTERED" (by decide)
  have hexited := hnone "SUPERVISOR TASK EXITED" (by decide)
  simp only [supervisorAction, entersSupervisor, exitsSupervisor, hentry, hentered, hexited, Bool.or_self,
    Bool.false_eq_true, if_false]

theorem silent_headerLine (seqNum : Nat) (d : Datetime) : Silent (headerLine seqNum d) :=
  @silent_spelt [] _ (by decide +kernel) (spelt_headerChars [] (headerLine_chars seqNum d))
    (headerLine_newline seqNum d) (strip_headerLine seqNum d)

theorem digit_ne_newline {c : Char} (h : c.isDigit = true) : c ≠ '\n' := by
  rintro rfl
  exact absurd h (by decide)

theorem cell_newline (cell : Cell) : '\n' ∉ cell.text := by
  intro h
  obtain h | h := List.mem_append.mp h
  · exact absurd (cell.of_blanks _ h) (by decide)
  · exact digit_ne_newline (cell.of_digits _ h) rfl

theorem silent_row {caption : String} (h : Harmless caption.toList) (hn : '\n' ∉ caption.toList)
    (ht : Trim caption) {cells : List Cell} (hne : cells ≠ []) : Silent (rowText caption cells) := by
  refine silent_spelt h (rowText_spelt caption cells) (fun hc => ?_) (strip_row ht hne)
  obtain hc | hc := List.mem_append.mp hc
  · exact hn hc
  · obtain ⟨cell, -, hc⟩ := List.mem_flatMap.mp hc
    exact cell_newline cell hc

theorem numeral_newline (width n : Nat) : '\n' ∉ numeral width n :=
  fun h => digit_ne_newline (numeral_digits width n _ h) rfl

theorem countText_newline {digit : Char} (h : digit.isDigit = true) (n : Nat) : '\n' ∉ countText digit n := by
  have hnumber := numeral_newline 5 n
  have hdigit : '\n' ≠ digit := (digit_ne_newline h).symm
  simp [countText, hnumber, hdigit]

theorem silent_countRow (counts : PerType Nat) : Silent (countRowText counts) := by
  refine silent_spelt (by decide +kernel) (countRow_spelt counts) ?_ (strip_countRow counts)
  have hgap : '\n' ∉ gap := by decide
  cases counts with
  | two a b =>
    simp only [countRowText, List.mem_append, not_or]
    exact ⟨countText_newline rfl a, hgap, countText_newline rfl b⟩
  | four a b c d =>
    simp only [countRowText, List.mem_append, not_or]
    exact ⟨countText_newline rfl a, hgap, countText_newline rfl b, hgap, countText_newline rfl c, hgap,
      countText_newline rfl d⟩

theorem silent_numbered {alphabet caption number : Str} (h : Harmless alphabet) (hc : Spelt alphabet caption)
    (hn : '\n' ∉ caption) (ht : ∃ c ∈ caption.head?, isSpace c = false) (hne : number ≠ [])
    (hnumber : AsciiDigits number) : Silent (caption ++ number) := by
  obtain ⟨c, hfirst, hspace⟩ := ht
  have hdigits : Spelt alphabet number := spelt_headerChars _ fun c hc => headerChar_digit (hnumber c hc)
  refine silent_spelt h (hc.append hdigits) (fun hmem => ?_) (strip_eq_self (fun d hd => ?_) fun d hd => ?_)
  · obtain hmem | hmem := List.mem_append.mp hmem
    · exact hn hmem
    · exact digit_ne_newline (hnumber _ hmem) rfl
  · obtain ⟨t, ht⟩ := List.head?_eq_some_iff.mp hfirst
    rw [ht, List.cons_append, List.head?_cons, Option.mem_some_iff] at hd
    rwa [← hd]
  · rw [List.getLast?_append_of_ne_nil _ hne] at hd
    exact isSpace_digit (hnumber d (List.mem_of_getLast? hd))

theorem silent_amountLine (n : Nat) : Silent (amountLine n) :=
  silent_numbered (by decide +kernel) (fun _ => .inl) (by decide) ⟨'R', rfl, rfl⟩ (numeral_ne_nil 12 n)
    (numeral_digits 12 n)

def headingAlphabet : Str := "CASH TOTAL TYPE".toList

theorem heading_words : ∀ w ∈ ["CASH TOTAL", " TYPE"], '\n' ∉ w.toList ∧
    ∀ c ∈ w.toList, c ∈ headingAlphabet := by decide

theorem heading_spelt (n : Nat) :
    Spelt headingAlphabet ((List.range' 1 n).flatMap fun i => " TYPE".toList ++ decimal i) := by
  intro c hc
  obtain ⟨i, -, hc⟩ := List.mem_flatMap.mp hc
  obtain hc | hc := List.mem_append.mp hc
  · exact .inl ((heading_words " TYPE" (by simp)).2 c hc)
  · exact .inr (headerChar_digit (decimal_digits i c hc))

theorem totalsHeading_spelt (n : Nat) : Spelt headingAlphabet (totalsHeading n) :=
  Spelt.append (fun c hc => .inl ((heading_words "CASH TOTAL" (by simp)).2 c hc)) (heading_spelt n)

theorem silent_totalsHeading (n : Nat) : Silent (totalsHeading (n + 1)) := by
  have hsplit : totalsHeading (n + 1) = ("CASH TOTAL".toList ++
      (((List.range' 1 n).flatMap fun i => " TYPE".toList ++ decimal i) ++ " TYPE".toList)) ++ decimal (n + 1) := by
    unfold totalsHeading
    generalize "CASH TOTAL".toList = u, " TYPE".toList = w
    rw [List.range'_1_concat, List.flatMap_append, List.flatMap_singleton, Nat.add_comm 1 n]
    simp only [List.append_assoc]
  obtain ⟨hcash, hcashSpelt⟩ := heading_words "CASH TOTAL" (by simp)
  obtain ⟨htype, htypeSpelt⟩ := heading_words " TYPE" (by simp)
  rw [hsplit]
  refine @silent_numbered headingAlphabet _ _ (by decide +kernel) ?_ ?_ ⟨'C', rfl, rfl⟩
    (decimal_ne_nil _) (decimal_digits _)
  · exact Spelt.append (fun c hc => .inl (hcashSpelt c hc)) (Spelt.append (heading_spelt n)
      fun c hc => .inl (htypeSpelt c hc))
  · simp only [List.mem_append, List.mem_flatMap, not_or, not_exists, not_and]
    exact ⟨hcash, fun i _ => ⟨htype, fun hc => digit_ne_newline (decimal_digits i _ hc) rfl⟩, htype⟩

def supervised (v : Verdict) : Option Bool → Verdict
  | some entered =>
    tells (if entered then .supervisorModeEntered else .supervisorModeExited) .supervisor .information none
      100 (some entered)
  | none => v

structure Title (t : Str) (v : Verdict) : Prop extends Clean t where
  counted : ∀ w ∈ countedCaptions, Unsaid w t
  verdict : supervised (textVerdict t) (supervisorAction [t]) = v
  eventType : (textVerdict t).eventType = v.eventType
  starts : contains t "*TRANSACTION START*".toList = (v.eventType == .transactionStart)
  ends : contains t "TRANSACTION END".toList = (v.eventType == .transactionEnd)

instance (t : Str) (v : Verdict) : Decidable (Title t v) :=
  decidable_of_iff (Clean t ∧ (∀ w ∈ countedCaptions, Unsaid w t) ∧
      supervised (textVerdict t) (supervisorAction [t]) = v ∧ (textVerdict t).eventType = v.eventType ∧
      contains t "*TRANSACTION START*".toList = (v.eventType == .transactionStart) ∧
      contains t "TRANSACTION END".toList = (v.eventType == .transactionEnd))
    ⟨fun ⟨hc, hn, hv, ht, hs, he⟩ => ⟨hc, hn, hv, ht, hs, he⟩,
      fun ⟨hc, hn, hv, ht, hs, he⟩ => ⟨hc, hn, hv, ht, hs, he⟩⟩

/-- At most the first line tells anything. -/
inductive Reads : List Str → Verdict → Prop where
  | silent {ls : List Str} : (∀ l ∈ ls, Silent l) → Reads ls {}
  | titled {t : Str} {v : Verdict} {ls : List Str} : Title t v → (∀ l ∈ ls, Silent l) → Reads (t :: ls) v

def wording : Message → Verdict
  | .phrase p => p.verdict
  | .added _ => tells .cashAdded .cash .information none 100 none
  | .cleared _ => tells .cashCountsCleared .cash .information none 100 none
  | .cassette _ | .totals _ _ => {}

theorem title_vocabulary : ∀ row ∈ vocabulary, Title row.1.toList row.2 := by decide +kernel

theorem title_added : Title "CASH ADDED".toList (tells .cashAdded .cash .information none 100 none) := by
  decide +kernel

theorem title_cleared :
    Title "CASH COUNTS CLEARED".toList (tells .cashCountsCleared .cash .information none 100 none) := by
  decide +kernel

theorem silent_cassette : ∀ pos ∈ CASSETTE_POSITION_MAP, ∀ w ∈ [" CASSETTE INSERTED", " CASSETTE REMOVED"],
    Silent (pos.1 ++ w.toList) := by decide +kernel

theorem silent_line (c : Cassette) : Silent c.line := by
  rw [Cassette.line]
  split_ifs
  · exact silent_cassette _ c.listed _ (by simp)
  · exact silent_cassette _ c.listed _ (by simp)

theorem silent_sections : ∀ w ∈ ["CASH DISPENSED", "CASH REMAINING", "CASH REJECTED"],
    Silent w.toList := by decide +kernel

theorem reads_message (m : Message) : Reads m.lines (wording m) := by
  cases m with
  | phrase p =>
    refine .titled (title_vocabulary _ p.listed) fun l hl => ?_
    obtain ⟨n, -, rfl⟩ := Option.map_eq_some_iff.mp (Option.mem_toList.mp hl)
    exact silent_amountLine n.val
  | cassette c => exact .silent fun l hl => List.mem_singleton.mp hl ▸ silent_line c
  | totals first others =>
    refine .silent ?_
    simp only [Message.lines, totalsLines, List.forall_mem_cons, List.not_mem_nil, false_imp_iff,
      implies_true, and_true]
    have hrow : ∀ (caption : String) (cell : Column → Cell), Harmless caption.toList →
        '\n' ∉ caption.toList → Trim caption →
        Silent (rowText caption ((first :: others).map cell)) := fun caption cell h hn ht =>
      silent_row h hn ht (List.cons_ne_nil _ _)
    exact ⟨silent_totalsHeading others.length,
      hrow "DENOMINATION" _ (by decide +kernel) (by decide) (by decide),
      hrow "DISPENSED" _ (by decide +kernel) (by decide) (by decide),
      hrow "REJECTED" _ (by decide +kernel) (by decide) (by decide),
      hrow "REMAINING" _ (by decide +kernel) (by decide) (by decide)⟩
  | added counts =>
    exact .titled title_added fun l hl => List.mem_singleton.mp hl ▸ silent_countRow counts
  | cleared counts =>
    refine .titled title_cleared ?_
    simp only [List.forall_mem_cons, List.not_mem_nil, false_imp_iff, implies_true, and_true]
    exact ⟨silent_sections _ (by simp), silent_countRow _, silent_sections _ (by simp), silent_countRow _,
      silent_sections _ (by simp), silent_countRow _⟩

theorem supervisorVerdict_parse (v : Verdict) (lines : List Str) (seqNum : Nat) (time : Timestamp)
    (fileName : Str) (startLine : Nat) :
    supervisorVerdict v (SupervisorParser.parseBlock lines seqNum time fileName startLine) =
      supervised v (supervisorAction lines) := by
  rw [SupervisorParser.parseBlock]
  cases supervisorAction lines <;> rfl

theorem supervisorAction_silent {l : Str} (h : supervisorAction [l] = none) (ls : List Str) :
    supervisorAction (l :: ls) = supervisorAction ls := by
  simp only [supervisorAction] at h ⊢
  split_ifs at h ⊢ with henters hexits
  rfl

theorem supervisorAction_none {ls : List Str} (h : ∀ l ∈ ls, Silent l) : supervisorAction ls = none := by
  induction ls with
  | nil => rfl
  | cons l ls ih =>
    rw [supervisorAction_silent (h l (by simp)).supervisor]
    exact ih fun l' hl' => h l' (List.mem_cons_of_mem l hl')

theorem supervisorAction_first (t : Str) {ls : List Str} (h : ∀ l ∈ ls, Silent l) :
    supervisorAction (t :: ls) = supervisorAction [t] := by
  simp only [supervisorAction, supervisorAction_none h]

theorem contains_join {w : Str} (hne : w ≠ []) (hw : '\n' ∉ w) (ls : List Str) :
    contains (joinLines ls) w = ls.any (contains · w) := by
  induction ls with
  | nil =>
    have hnone : joinLines [] = [] := List.intercalate_nil
    rw [hnone, List.any_nil, ← Bool.not_eq_true, contains_iff, List.infix_nil]
    exact hne
  | cons l ls ih =>
    rw [List.any_cons, Bool.eq_iff_iff, Bool.or_eq_true, ← ih, contains_iff, contains_iff, contains_iff]
    exact infix_join hne hw l ls

theorem Silent.absent {l : Str} (h : Silent l) {w : String} (hw : w ∈ entryCaptions) :
    contains l w.toList = false := contains_of_unsaid (h.mute w hw)

theorem contains_silent {w : String} (hw : w ∈ entryCaptions) (hne : w.toList ≠ []) (hn : '\n' ∉ w.toList)
    {ls : List Str} (h : ∀ l ∈ ls, Silent l) : contains (joinLines ls) w.toList = false := by
  rw [contains_join hne hn, List.any_eq_false]
  intro l hl
  rw [(h l hl).absent hw]
  exact Bool.false_ne_true

structure TextFacts (text : Str) (action : Option Bool) (v : Verdict) : Prop where
  ignored : isIgnored text = false
  verdict : supervised (textVerdict text) action = v
  eventType : (textVerdict text).eventType = v.eventType
  captured : contains text "CARDS CAPTURED".toList = false
  starts : contains text "*TRANSACTION START*".toList = (v.eventType == .transactionStart)
  ends : contains text "TRANSACTION END".toList = (v.eventType == .transactionEnd)
  unsaid : ∀ w ∈ fieldCaptions, Unsaid w text

theorem unsaid_clean {ls : List Str} (h : ∀ l ∈ ls, Clean l) {w : String} (hw : w ∈ textCaptions) :
    Unsaid w (joinLines ls) := by
  have hone : ∀ w ∈ textCaptions, w.toList ≠ [] ∧ OneLine w.toList := by decide
  exact unsaid_join (hone w hw).1 (hone w hw).2 fun l hl => (h l hl).unsaid w hw

theorem clean_reads {ls : List Str} {v : Verdict} (h : Reads ls v) : ∀ l ∈ ls, Clean l := by
  cases h with
  | silent hall => exact fun l hl => (hall l hl).toClean
  | titled ht hrest => exact List.forall_mem_cons.mpr ⟨ht.toClean, fun l hl => (hrest l hl).toClean⟩

/-- Silent lines in front of the message change nothing. -/
theorem textFacts {front ls : List Str} {v : Verdict} (h : Reads ls v) (hfront : ∀ l ∈ front, Silent l) :
    TextFacts (joinLines (front ++ ls)) (supervisorAction ls) v := by
  have hclean : ∀ l ∈ front ++ ls, Clean l :=
    List.forall_mem_append.mpr ⟨fun l hl => (hfront l hl).toClean, clean_reads h⟩
  have hunsaid : ∀ w ∈ textCaptions, Unsaid w (joinLines (front ++ ls)) := fun w hw => unsaid_clean hclean hw
  have hignored : isIgnored (joinLines (front ++ ls)) = false :=
    isIgnored_unsaid fun w hw => hunsaid w (by simp [textCaptions, hw])
  have hcaptured := contains_of_unsaid (hunsaid "CARDS CAPTURED" (by decide))
  have hfields : ∀ w ∈ fieldCaptions, Unsaid w (joinLines (front ++ ls)) :=
    fun w hw => hunsaid w (by simp [textCaptions, hw])
  cases h with
  | silent hall =>
    have hsilent : ∀ l ∈ front ++ ls, Silent l :=
      fun l hl => (List.mem_append.mp hl).elim (hfront l) (hall l)
    have hnone : textVerdict (joinLines (front ++ ls)) = {} := by
      rw [textVerdict, operationalMatch_mute fun l hl => (hsilent l hl).mute]
    exact ⟨hignored, by rw [hnone, supervisorAction_none hall]; rfl, by rw [hnone], hcaptured,
      contains_silent (by decide) (by decide) (by decide) hsilent,
      contains_silent (by decide) (by decide) (by decide) hsilent, hfields⟩
  | @titled t v rest ht hrest =>
    have hmem : t ∈ front ++ t :: rest := by simp
    have hothers : ∀ l ∈ front ++ t :: rest, l = t ∨ Silent l := by
      intro l hl
      obtain hl | hl := List.mem_append.mp hl
      · exact .inr (hfront l hl)
      · exact (List.mem_cons.mp hl).imp_right (hrest l)
    have hsame : textVerdict (joinLines (front ++ t :: rest)) = textVerdict t := by
      rw [textVerdict, operationalMatch_line hmem (fun l hl => (hclean l hl).newline)
        (fun l hl => (hothers l hl).imp_right Silent.mute) ht.counted]
      rfl
    have hcontains : ∀ w ∈ entryCaptions, w.toList ≠ [] → '\n' ∉ w.toList →
        contains (joinLines (front ++ t :: rest)) w.toList = contains t w.toList := by
      intro w hw hne hn
      rw [contains_join hne hn, Bool.eq_iff_iff, List.any_eq_true]
      refine ⟨fun ⟨l, hl, hcontains⟩ => ?_, fun hcontains => ⟨t, hmem, hcontains⟩⟩
      obtain rfl | hsilent := hothers l hl
      · exact hcontains
      · rw [hsilent.absent hw] at hcontains
        cases hcontains
    exact ⟨hignored, by rw [hsame, supervisorAction_first t hrest, ht.verdict], by rw [hsame, ht.eventType],
      hcaptured, (hcontains _ (by decide) (by decide) (by decide)).trans ht.starts,
      (hcontains _ (by decide) (by decide) (by decide)).trans ht.ends, hfields⟩

theorem float_digits {s : Str} (hs : AsciiDigits s) (hne : s ≠ []) : float s = some (int s : Rat) := by
  have hdot : ∀ c ∈ s, (c != '.') = true := by
    intro c hc
    rw [bne_iff_ne]
    rintro rfl
    exact absurd (hs _ hc) (by decide)
  have hwhole : s.takeWhile (· != '.') = s := List.takeWhile_eq_self_iff.mpr hdot
  have hfrac : s.dropWhile (· != '.') = [] := List.dropWhile_eq_nil_iff.mpr hdot
  rw [float, hwhole, hfrac]
  simp [hne]

theorem noBehind_amount : NoBehind AMOUNT_PATTERN :=
  noBehind_seqs (by simp [NoBehind, many1, phrase, noBehind_lit])

theorem amount_join {ls : List Str} (h : ∀ l ∈ ls, Unsaid "AMOUNT≈" l) (x : Str) :
    (search AMOUNT_PATTERN (joinLines (ls ++ [x]))).map Cursor.groups =
      (search AMOUNT_PATTERN x).map Cursor.groups := by
  have hone : OneLine "AMOUNT≈".toList := by decide
  induction ls with
  | nil => rw [List.nil_append, joinLines_singleton]
  | cons l ls ih =>
    obtain ⟨m, ms, hm⟩ := List.exists_cons_of_ne_nil (List.append_ne_nil_of_right_ne_nil ls (List.cons_ne_nil x []))
    rw [List.cons_append, hm, joinLines_cons, ← hm, ← ih fun l' hl' => h l' (List.mem_cons_of_mem l hl')]
    exact search_line (fun u hu => SameCase.no_newline hu hone) noBehind_amount (h l (by simp)) _

theorem amount_line (n : Nat) :
    (search AMOUNT_PATTERN (amountLine n)).map Cursor.groups = some [("amt", numeral 12 n)] := by
  have hsplit : amountLine n = "REQUEST SENT ".toList ++ ("AMOUNT≈".toList ++ numeral 12 n) := by
    rw [← List.append_assoc]
    rfl
  have hgroup : Prefers (.group "amt" (many1 isDigit)) (numeral 12 n) [] [("amt", numeral 12 n)] :=
    prefers_group (prefers_many1 (numeral_ne_nil 12 n)
      (fun c hc => isDigit_of_ascii (numeral_digits 12 n c hc)) (by simp))
  have hamount : Prefers AMOUNT_PATTERN ("AMOUNT≈".toList ++ numeral 12 n) [] [("amt", numeral 12 n)] :=
    prefers_seqs_skip (prefers_lit (sameCase_refl "AMOUNT≈".toList)) (prefers_seqs_last hgroup)
  have hsearch := search_of_prefers hamount
  rw [List.append_nil] at hsearch
  rw [hsplit, search_skip noBehind_amount, hsearch]
  · rfl
  · have hfirst : ∀ c ∈ "REQUEST SENT ".toList, sameFold 'A' c = false := by decide
    intro c hc
    exact @rejects_phrase "AMOUNT≈" 'A' "MOUNT≈".toList rfl (some c) (by simp [hfirst c hc]) _

theorem unpriced_vocabulary : ∀ row ∈ vocabulary, Unsaid "AMOUNT≈" row.1.toList := by decide +kernel

theorem unpriced_message (m : Message) :
    ∀ l ∈ m.lines, Unsaid "AMOUNT≈" l ∨ ∃ p n, m = .phrase p ∧ p.amount = some n ∧ l = amountLine n.val := by
  have hrow : ∀ (caption : String) (cells : List Cell), Lacks caption.toList "AMOUNT≈" →
      Unsaid "AMOUNT≈" (rowText caption cells) := fun caption cells h => unsaid_of_lacks h (rowText_spelt caption cells)
  have hcount : ∀ counts, Unsaid "AMOUNT≈" (countRowText counts) :=
    fun counts => unsaid_of_lacks (by decide) (countRow_spelt counts)
  cases m with
  | phrase p =>
    intro l hl
    obtain rfl | hl := List.mem_cons.mp hl
    · exact .inl (unpriced_vocabulary _ p.listed)
    · obtain ⟨n, hn, rfl⟩ := Option.map_eq_some_iff.mp (Option.mem_toList.mp hl)
      exact .inr ⟨p, n, rfl, hn, rfl⟩
  | cassette c =>
    have hcassette : ∀ pos ∈ CASSETTE_POSITION_MAP, ∀ w ∈ [" CASSETTE INSERTED", " CASSETTE REMOVED"],
        Unsaid "AMOUNT≈" (pos.1 ++ w.toList) := by decide +kernel
    intro l hl
    rw [List.mem_singleton.mp hl, Cassette.line]
    split_ifs
    · exact .inl (hcassette _ c.listed _ (by simp))
    · exact .inl (hcassette _ c.listed _ (by simp))
  | totals first others =>
    refine fun l hl => .inl ?_
    revert l
    simp only [Message.lines, totalsLines, List.forall_mem_cons, List.not_mem_nil, false_imp_iff,
      implies_true, and_true]
    exact ⟨unsaid_of_lacks (by decide) (totalsHeading_spelt _), hrow _ _ (by decide), hrow _ _ (by decide),
      hrow _ _ (by decide), hrow _ _ (by decide)⟩
  | added counts =>
    refine fun l hl => .inl ?_
    revert l
    simp only [Message.lines, List.forall_mem_cons, List.not_mem_nil, false_imp_iff, implies_true, and_true]
    exact ⟨by decide +kernel, hcount counts⟩
  | cleared counts =>
    refine fun l hl => .inl ?_
    revert l
    simp only [Message.lines, List.forall_mem_cons, List.not_mem_nil, false_imp_iff, implies_true, and_true]
    exact ⟨by decide +kernel, by decide +kernel, hcount _, by decide +kernel, hcount _, by decide +kernel,
      hcount _⟩

/-- The lines in front of the message: the text behind the header, which is empty, and the header. -/
def front (seqNum : Nat) (d : Datetime) : List Str := [[], headerLine seqNum d]

theorem silent_front (seqNum : Nat) (d : Datetime) : ∀ l ∈ front seqNum d, Silent l := by
  simp only [front, List.forall_mem_cons, List.not_mem_nil, false_imp_iff, implies_true, and_true]
  exact ⟨by decide +kernel, silent_headerLine seqNum d⟩

theorem unpriced_front (seqNum : Nat) (d : Datetime) : ∀ l ∈ front seqNum d, Unsaid "AMOUNT≈" l := by
  have hlacks : Lacks [] "AMOUNT≈" := by decide
  simp only [front, List.forall_mem_cons, List.not_mem_nil, false_imp_iff, implies_true, and_true]
  exact ⟨by decide, unsaid_of_lacks hlacks (spelt_headerChars [] (headerLine_chars seqNum d))⟩

theorem search_unpriced {ls : List Str} (h : ∀ l ∈ ls, Unsaid "AMOUNT≈" l) :
    search AMOUNT_PATTERN (joinLines ls) = none :=
  search_unsaid (unsaid_join (by decide) (by decide) h) (by simp)

def asked : Message → Option Rat
  | .phrase p => p.amount.map fun n : Fin _ => (n.val : Rat)
  | _ => none

/-- The amount is read back, wherever it is asked for. -/
theorem amount_message (m : Message) (seqNum : Nat) (d : Datetime) :
    ((search AMOUNT_PATTERN (joinLines (front seqNum d ++ m.lines))).bind (·.group "amt")).bind float =
      asked m := by
  have hfront := unpriced_front seqNum d
  by_cases hpriced : ∃ p n, m = .phrase p ∧ p.amount = some n
  · obtain ⟨p, n, rfl, hn⟩ := hpriced
    have htext : Unsaid "AMOUNT≈" p.text.toList := unpriced_vocabulary _ p.listed
    have hlines : front seqNum d ++ (Message.phrase p).lines =
        (front seqNum d ++ [p.text.toList]) ++ [amountLine n.val] := by
      rw [Message.lines, hn]
      rfl
    have hgroups := amount_join (List.forall_mem_append.mpr ⟨hfront, List.forall_mem_singleton.mpr htext⟩)
      (amountLine n.val)
    rw [amount_line, ← hlines] at hgroups
    obtain ⟨c, hc, hamt⟩ := Option.map_eq_some_iff.mp hgroups
    have hlookup : c.group "amt" = some (numeral 12 n.val) := by
      rw [Cursor.group, hamt]
      rfl
    rw [hc, Option.bind_some, hlookup, Option.bind_some,
      float_digits (numeral_digits 12 n.val) (numeral_ne_nil 12 n.val), int_numeral, asked, hn]
    rfl
  · have hnone : ∀ l ∈ front seqNum d ++ m.lines, Unsaid "AMOUNT≈" l := by
      intro l hl
      obtain hl | hl := List.mem_append.mp hl
      · exact hfront l hl
      · obtain h | ⟨p, n, hp, hn, -⟩ := unpriced_message m l hl
        · exact h
        · exact absurd ⟨p, n, hp, hn⟩ hpriced
    rw [search_unpriced hnone]
    cases m with
    | phrase p =>
      cases hn : p.amount with
      | none => rw [asked, hn]; rfl
      | some n => exact absurd ⟨p, n, rfl, hn⟩ hpriced
    | _ => rfl

theorem fields_message [Alnum] (m : Message) (seqNum : Nat) (d : Datetime) :
    let text := joinLines (front seqNum d ++ m.lines)
    transactionFields (textVerdict text).eventType text = { amount := m.amount } := by
  intro text
  have hfacts := textFacts (reads_message m) (silent_front seqNum d)
  have htype : (textVerdict text).eventType = (wording m).eventType := hfacts.eventType
  by_cases hstart : (wording m).eventType = .transactionStart
  · obtain ⟨p, rfl⟩ : ∃ p, m = .phrase p := by
      cases m with
      | phrase p => exact ⟨p, rfl⟩
      | _ => cases hstart
    have htold : p.verdict.eventType = .transactionStart := hstart
    rw [htype, hstart, Message.amount, if_pos htold]
    rfl
  · have hamount := amount_message m seqNum d
    rw [transactionFields_unsaid hfacts.unsaid _ (htype ▸ hstart), hamount]
    cases m with
    | phrase p =>
      have htold : p.verdict.eventType ≠ .transactionStart := hstart
      rw [Message.amount, if_neg htold]
      rfl
    | _ => rfl

end AtmMonitor.PrintedText
