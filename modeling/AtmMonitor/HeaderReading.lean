import AtmMonitor.BlockPlaces
import AtmMonitor.HeaderLines
import AtmMonitor.SnapshotRouting

namespace AtmMonitor.HeaderReading

open Library.Regex PyText ParserModels EventPatterns CassetteParser SupervisorParser EjParser
  TrimmedLines HeaderLines BlockPlaces

structure Prefixed (line x : Str) : Prop where
  raw : ∃ v, (∀ c ∈ v, HeaderChar c) ∧ line = v ++ x
  stripped : ∃ v, (∀ c ∈ v, HeaderChar c) ∧ strip line = v ++ strip x

theorem prefixed_line (p : HeaderParts) (x : Str) : Prefixed (p.line x) x :=
  ⟨⟨p.line [], p.chars, (p.line_append x).symm⟩, strip_line_split p x⟩

theorem match_groups {β : Type} {o o' : Option (Cursor Char)} {f : Cursor Char → β} {other other' : β} :
    o.map Cursor.groups = o'.map Cursor.groups → (∀ m m', m.groups = m'.groups → f m = f m') →
      other = other' → (match o with | some m => f m | none => other) =
        match o' with | some m => f m | none => other' := by
  intro h hf hother
  cases o with
  | none =>
    rw [Option.map_none, eq_comm, Option.map_eq_none_iff] at h
    rw [h]
    exact hother
  | some m =>
    obtain ⟨m', rfl, hm⟩ := Option.map_eq_some_iff.mp h.symm
    exact hf m m' hm.symm

theorem rowValues_groups {m m' : Cursor Char} (h : m.groups = m'.groups) : rowValues m = rowValues m' := by
  rw [rowValues, rowValues, groupText, groupText, Cursor.group, Cursor.group, h]

theorem rowCounts_groups {m m' : Cursor Char} (h : m.groups = m'.groups) : rowCounts m = rowCounts m' := by
  have hgroup : m.group = m'.group := by
    funext name
    rw [Cursor.group, Cursor.group, h]
  rw [rowCounts, rowCounts, hgroup]

section Line

variable {line x : Str} (h : Prefixed line x)

include h

theorem contains_prefixed {w : Str} (hw : Lettered w) : contains line w = contains x w := by
  obtain ⟨v, hv, rfl⟩ := h.raw
  exact contains_headed hv x hw

theorem contains_upper_prefixed {w : Str} (hw : Lettered w) :
    contains (upper line) w = contains (upper x) w := by
  obtain ⟨v, hv, rfl⟩ := h.raw
  rw [upper_append, upper_headerChars hv]
  exact contains_headed hv _ hw

theorem search_prefixed {w : String} (hw : Lettered w.toList) (rs : List Regex)
    (hrs : ∀ r ∈ rs, NoBehind r) :
    (search (seqs (phrase w :: rs)) (strip line)).map Cursor.groups =
      (search (seqs (phrase w :: rs)) (strip x)).map Cursor.groups := by
  obtain ⟨v, hv, hsplit⟩ := h.stripped
  have hbehind : NoBehind (seqs (phrase w :: rs)) :=
    noBehind_seqs (List.forall_mem_cons.mpr ⟨noBehind_lit _, hrs⟩)
  rw [hsplit]
  exact search_skip hbehind (fun c hc => rejects_lettered hw rs (hv c hc)) _

theorem found_prefixed {w : String} (hw : Lettered w.toList) :
    found (phrase w) (strip line) = found (phrase w) (strip x) := by
  have hsearch := congrArg Option.isSome (search_prefixed h hw [] (by simp))
  rwa [Option.isSome_map, Option.isSome_map] at hsearch

theorem totalsLine_prefixed (totals : CashTotals) : totalsLine totals line = totalsLine totals x := by
  have hrs : ∀ r ∈ ([many1 isSpace, .group "values" (many1 (fun c => isDigit c || isSpace c))] :
      List Regex), NoBehind r := by
    simp [NoBehind, many1]
  apply match_groups (search_prefixed h (w := "DENOMINATION") (by decide) _ hrs)
  · exact fun m m' hm => by rw [rowValues_groups hm]
  apply match_groups (search_prefixed h (w := "DISPENSED") (by decide) _ hrs)
  · exact fun m m' hm => by rw [rowValues_groups hm]
  apply match_groups (search_prefixed h (w := "REJECTED") (by decide) _ hrs)
  · exact fun m m' hm => by rw [rowValues_groups hm]
  apply match_groups (search_prefixed h (w := "REMAINING") (by decide) _ hrs)
  · exact fun m m' hm => by rw [rowValues_groups hm]
  rfl

theorem searchCounts_prefixed : (search CASH_ROW_TYPE_PATTERN (strip line)).map Cursor.groups =
    (search CASH_ROW_TYPE_PATTERN (strip x)).map Cursor.groups := by
  have hword : Lettered "TYPE".toList := by decide
  have hbehind : NoBehind CASH_ROW_TYPE_PATTERN := by
    simp [NoBehind, CASH_ROW_TYPE_PATTERN, typeCount, seqs, many1, chr, phrase, noBehind_lit]
  obtain ⟨v, hv, hsplit⟩ := h.stripped
  rw [hsplit]
  exact search_skip hbehind (fun c hc => rejects_lettered hword _ (hv c hc)) _

theorem countLine_prefixed (mode : CountMode) (st : Option Section × List CassetteSnapshot) :
    countLine mode st line = countLine mode st x := by
  have hdispensed : found CASH_COUNTS_CLEARED_CASH_DISPENSED (strip line) =
      found CASH_COUNTS_CLEARED_CASH_DISPENSED (strip x) := found_prefixed h (by decide)
  have hremaining : found CASH_COUNTS_CLEARED_CASH_REMAINING (strip line) =
      found CASH_COUNTS_CLEARED_CASH_REMAINING (strip x) := found_prefixed h (by decide)
  have hrejected : found CASH_COUNTS_CLEARED_CASH_REJECTED (strip line) =
      found CASH_COUNTS_CLEARED_CASH_REJECTED (strip x) := found_prefixed h (by decide)
  simp only [countLine]
  rw [hdispensed, hremaining, hrejected]
  split_ifs
  · rfl
  · rfl
  · rfl
  · apply match_groups (searchCounts_prefixed h)
    · exact fun m m' hm => by rw [rowCounts_groups hm]
    · rfl

end Line

structure SameReading (lines lines' : List Str) : Prop where
  supervisor : supervisorAction lines = supervisorAction lines'
  table : hasCassetteInfo lines = hasCassetteInfo lines'
  totals : cashTotals lines = cashTotals lines'
  cleared : isCleared lines = isCleared lines'
  added : isAdded lines = isAdded lines'
  counts : ∀ mode snaps, countSnapshots mode lines snaps = countSnapshots mode lines' snaps

theorem SameReading.trans {ls ls' ls'' : List Str} (h : SameReading ls ls') (h' : SameReading ls' ls'') :
    SameReading ls ls'' where
  supervisor := h.supervisor.trans h'.supervisor
  table := h.table.trans h'.table
  totals := h.totals.trans h'.totals
  cleared := h.cleared.trans h'.cleared
  added := h.added.trans h'.added
  counts mode snaps := (h.counts mode snaps).trans (h'.counts mode snaps)

theorem sameReading_prefixed {line x : Str} (h : Prefixed line x) (body : List Str) :
    SameReading (line :: body) (x :: body) where
  supervisor := by
    have henters : entersSupervisor line = entersSupervisor x := by
      rw [entersSupervisor, contains_upper_prefixed h (by decide), contains_upper_prefixed h (by decide)]
      rfl
    have hexits : exitsSupervisor line = exitsSupervisor x := contains_upper_prefixed h (by decide)
    rw [supervisorAction, supervisorAction, henters, hexits]
  table := by
    rw [hasCassetteInfo, hasCassetteInfo, List.any_cons, List.any_cons,
      contains_prefixed h (by decide)]
  totals := by
    rw [cashTotals, cashTotals, List.foldl_cons, List.foldl_cons, totalsLine_prefixed h]
  cleared := by
    rw [isCleared, isCleared, List.any_cons, List.any_cons, contains_prefixed h (by decide)]
  added := by
    rw [isAdded, isAdded, List.any_cons, List.any_cons, contains_prefixed h (by decide)]
  counts mode snaps := by
    rw [countSnapshots, countSnapshots, List.foldl_cons, List.foldl_cons, countLine_prefixed h]

theorem sameReading_blank (lines : List Str) : SameReading ([] :: lines) lines where
  supervisor := rfl
  table := rfl
  totals := rfl
  cleared := rfl
  added := rfl
  counts _ _ := rfl

theorem sameReading_header (p : HeaderParts) (lines : List Str) : SameReading (p.line [] :: lines) lines :=
  (sameReading_prefixed (prefixed_line p []) lines).trans (sameReading_blank lines)

theorem laterStages_reading {lines lines' : List Str} (h : SameReading lines lines') (mode : CountMode)
    (known : List CassetteSnapshot) : laterStages lines mode known = laterStages lines' mode known := by
  rw [laterStages, laterStages, h.table, h.totals, h.cleared, h.added, h.counts]

theorem countMode_reading {lines lines' : List Str} (h : SameReading lines lines') (fileName : Str)
    (startLine : Nat) : unplacedMode (countMode fileName startLine lines) =
      unplacedMode (countMode fileName startLine lines') := by
  simp only [unplacedMode, countMode, h.added, h.cleared]

end AtmMonitor.HeaderReading
