import AtmMonitor.CountRows
import AtmMonitor.LetterCase

namespace AtmMonitor.CaseTwins

open Library.Regex PyText ParserModels EventPatterns CassetteParser SupervisorParser EjParser
  BlockPlaces SnapshotRouting BlockTwins LetterCase

abbrev SameLines : List Str → List Str → Prop := List.Forall₂ SameText

/-- The snapshots agree up to the case of the currency code. -/
structure SameSnapshot (s s' : CassetteSnapshot) : Prop where
  fields : { s' with currencyCode := none } = { s with currencyCode := none }
  currency : Option.Rel SameText s.currencyCode s'.currencyCode

theorem sameSnapshot_refl (s : CassetteSnapshot) : SameSnapshot s s := by
  refine ⟨rfl, ?_⟩
  cases s.currencyCode with
  | none => exact .none
  | some text => exact .some (sameText_refl text)

abbrev SameSnapshots : List CassetteSnapshot → List CassetteSnapshot → Prop :=
  List.Forall₂ SameSnapshot

theorem sameSnapshots_refl (snaps : List CassetteSnapshot) : SameSnapshots snaps snaps :=
  List.forall₂_same.mpr fun s _ => sameSnapshot_refl s

theorem SameSnapshot.field {β : Type} {s s' : CassetteSnapshot} (h : SameSnapshot s s')
    (π : CassetteSnapshot → β) (hπ : ∀ s, π { s with currencyCode := none } = π s) : π s' = π s := by
  rw [← hπ s', h.fields, hπ]

theorem map_same {β : Type} {snaps snaps' : List CassetteSnapshot} (h : SameSnapshots snaps snaps')
    (π : CassetteSnapshot → β) (hπ : ∀ s, π { s with currencyCode := none } = π s) :
    snaps'.map π = snaps.map π := by
  induction h with
  | nil => rfl
  | cons hs _ ih => rw [List.map_cons, List.map_cons, hs.field π hπ, ih]

section Lines

variable {lines lines' : List Str} (h : SameLines lines lines')

include h

theorem perLine_same {T : CassetteSnapshot → CassetteSnapshot → Prop}
    {stage : Str → Nat → List CassetteSnapshot}
    (hstage : ∀ s t n, SameText s t → List.Forall₂ T (stage s n) (stage t n)) (n : Nat) :
    List.Forall₂ T ((lines.zipIdx n).flatMap fun p => stage p.1 p.2)
      ((lines'.zipIdx n).flatMap fun p => stage p.1 p.2) := by
  induction h generalizing n with
  | nil => exact .nil
  | cons hst _ ih =>
    rw [List.zipIdx_cons, List.zipIdx_cons, List.flatMap_cons, List.flatMap_cons]
    exact List.rel_append (hstage _ _ n hst) (ih (n + 1))

theorem foldl_same {β : Type} {f : β → Str → β} (hf : ∀ b s t, SameText s t → f b s = f b t) (b : β) :
    lines.foldl f b = lines'.foldl f b := by
  induction h generalizing b with
  | nil => rfl
  | cons hst _ ih => rw [List.foldl_cons, List.foldl_cons, hf b _ _ hst, ih]

end Lines

section Texts

variable {s t : Str}

theorem groupText_same {m m' : Cursor Char} (h : SameMatch SameLetter m m') (name : String) :
    SameText (groupText m name) (groupText m' name) := by
  have hgroup := h.group name
  rw [groupText, groupText]
  generalize m.group name = o at hgroup ⊢
  generalize m'.group name = o' at hgroup ⊢
  cases hgroup with
  | none => exact .nil
  | some hw => exact hw

theorem positionNumber_same {m m' : Cursor Char} (h : SameMatch SameLetter m m') (name : String) :
    positionNumber (groupText m name) = positionNumber (groupText m' name) := by
  rw [positionNumber, positionNumber, upper_same (groupText_same h name)]

theorem actionSnapshot_same {m m' : Cursor Char} (h : SameMatch SameLetter m m')
    (op : OperationType) (status : CassetteStatus) (fileName : Str) (n : Nat) :
    actionSnapshot op status fileName n m = actionSnapshot op status fileName n m' := by
  rw [actionSnapshot, actionSnapshot, positionNumber_same h]

theorem rowValues_same {m m' : Cursor Char} (h : SameMatch SameLetter m m') :
    rowValues m = rowValues m' := by
  have hsplit := split_same (groupText_same h "values")
  rw [rowValues, rowValues]
  generalize split (groupText m "values") = ws at hsplit ⊢
  generalize split (groupText m' "values") = ws' at hsplit ⊢
  induction hsplit with
  | nil => rfl
  | cons hw _ ih => rw [List.map_cons, List.map_cons, int_same hw, ih]

theorem match_same {β : Type} {o o' : Option (Cursor Char)} {found found' : Cursor Char → β}
    {other other' : β} : Option.Rel (SameMatch SameLetter) o o' →
      (∀ m m', SameMatch SameLetter m m' → found m = found' m') → other = other' →
        (match o with | some m => found m | none => other) =
          match o' with | some m => found' m | none => other' := by
  rintro (hm | _) hfound hother
  · exact hfound _ _ hm
  · exact hother

theorem actionLine_same (h : SameText s t) (fileName : Str) (n : Nat) :
    actionLine fileName s n = actionLine fileName t n := by
  have hstrip := strip_same h
  apply match_same (matchStart_same (respects_action "REMOVED") hstrip)
  · exact fun m m' hm => actionSnapshot_same hm ..
  apply match_same (matchStart_same (respects_action "INSERTED") hstrip)
  · exact fun m m' hm => actionSnapshot_same hm ..
  rfl

theorem totalsLine_same (h : SameText s t) (totals : CashTotals) :
    totalsLine totals s = totalsLine totals t := by
  have hstrip := strip_same h
  apply match_same (search_same (respects_values "DENOMINATION") hstrip)
  · exact fun m m' hm => by rw [rowValues_same hm]
  apply match_same (search_same (respects_values "DISPENSED") hstrip)
  · exact fun m m' hm => by rw [rowValues_same hm]
  apply match_same (search_same (respects_values "REJECTED") hstrip)
  · exact fun m m' hm => by rw [rowValues_same hm]
  apply match_same (search_same (respects_values "REMAINING") hstrip)
  · exact fun m m' hm => by rw [rowValues_same hm]
  rfl

theorem rowCounts_same {m m' : Cursor Char} (h : SameMatch SameLetter m m') :
    rowCounts m = rowCounts m' := by
  rw [rowCounts, rowCounts]
  generalize ["t1", "t2", "t3", "t4"] = names
  induction names with
  | nil => rfl
  | cons name rest ih =>
    have hgroup := h.group name
    rw [List.filterMap_cons, List.filterMap_cons]
    generalize m.group name = o at hgroup ⊢
    generalize m'.group name = o' at hgroup ⊢
    cases hgroup with
    | none => exact ih
    | some hw =>
      simp only [List.map_cons]
      rw [int_same hw, ih]

theorem countLine_same (h : SameText s t) (mode : CountMode)
    (st : Option Section × List CassetteSnapshot) : countLine mode st s = countLine mode st t := by
  have hstrip := strip_same h
  have hdispensed : found CASH_COUNTS_CLEARED_CASH_DISPENSED (strip s) =
      found CASH_COUNTS_CLEARED_CASH_DISPENSED (strip t) := found_same (respects_phrase _) hstrip
  have hremaining : found CASH_COUNTS_CLEARED_CASH_REMAINING (strip s) =
      found CASH_COUNTS_CLEARED_CASH_REMAINING (strip t) := found_same (respects_phrase _) hstrip
  have hrejected : found CASH_COUNTS_CLEARED_CASH_REJECTED (strip s) =
      found CASH_COUNTS_CLEARED_CASH_REJECTED (strip t) := found_same (respects_phrase _) hstrip
  simp only [countLine]
  rw [hdispensed, hremaining, hrejected]
  split_ifs
  · rfl
  · rfl
  · rfl
  · apply match_same (search_same respects_rowType hstrip)
    · exact fun m m' hm => by rw [rowCounts_same hm]
    · rfl

end Texts

section Blocks

variable {lines lines' : List Str} (h : SameLines lines lines')

include h

theorem actionSnapshots_same (fileName : Str) (n : Nat) :
    actionSnapshots fileName n lines = actionSnapshots fileName n lines' := by
  rw [← List.forall₂_eq_eq_eq]
  refine perLine_same h (fun s t k hst => ?_) n
  rw [List.forall₂_eq_eq_eq]
  exact actionLine_same hst fileName k

theorem cashTotals_same : cashTotals lines = cashTotals lines' :=
  foldl_same h (fun totals _ _ hst => totalsLine_same hst totals) {}

theorem countSnapshots_same (mode : CountMode) (snaps : List CassetteSnapshot) :
    countSnapshots mode lines snaps = countSnapshots mode lines' snaps := by
  rw [countSnapshots, countSnapshots, foldl_same h fun st _ _ hst => countLine_same hst mode st]

theorem supervisorAction_same : supervisorAction lines = supervisorAction lines' := by
  induction h with
  | nil => rfl
  | cons hst _ ih =>
    rw [supervisorAction, supervisorAction, entersSupervisor, entersSupervisor, exitsSupervisor,
      exitsSupervisor, upper_same hst, ih]

end Blocks

section Words

variable [Alnum]

theorem infoLine_same {s t : Str} (h : SameText s t) (fileName : Str) (n : Nat) :
    SameSnapshots (infoLine fileName s n) (infoLine fileName t n) := by
  have hrow := matchStart_same respects_infoRow (strip_same h)
  rw [infoLine, infoLine]
  generalize matchStart CASSETTE_INFO_ROW (strip s) = o at hrow ⊢
  generalize matchStart CASSETTE_INFO_ROW (strip t) = o' at hrow ⊢
  cases hrow with
  | none => exact .nil
  | some hm =>
    simp only [positionNumber_same hm, upper_same (groupText_same hm _),
      int_same (groupText_same hm _)]
    split_ifs
    · exact .cons ⟨rfl, hm.group "cur"⟩ .nil
    · exact .nil

theorem infoSnapshots_same {lines lines' : List Str} (h : SameLines lines lines') (fileName : Str)
    (n : Nat) : SameSnapshots (infoSnapshots fileName n lines) (infoSnapshots fileName n lines') :=
  perLine_same h (fun _ _ k hst => infoLine_same hst fileName k) n

end Words

section Phrases

variable {b b' : Block} (h : Twins SameLetter b b')

include h

theorem searchText_same : SameText b.searchText b'.searchText := by
  rw [Block.searchText, Block.searchText, h.extra]
  refine List.rel_append (sameText_refl _) (.cons (Or.inl rfl) (joinLines_same ?_))
  exact List.forall₂_map_left_iff.mpr (List.forall₂_map_right_iff.mpr
    (h.lines.imp fun _ _ => strip_same))

theorem isIgnored_same : isIgnored b.searchText = isIgnored b'.searchText := by
  have hpatterns : ∀ r ∈ IGNORE_PATTERNS, found r b.searchText = found r b'.searchText :=
    fun r hr => found_same (respects_ignore r hr) (searchText_same h)
  rw [isIgnored, isIgnored, Bool.eq_iff_iff, List.any_eq_true, List.any_eq_true]
  exact exists_congr fun r => and_congr_right fun hr => by rw [hpatterns r hr]

theorem operationalMatch_same : operationalMatch b.searchText = operationalMatch b'.searchText := by
  have hpatterns : ∀ o ∈ OPERATIONAL_PATTERNS,
      found o.pattern b.searchText = found o.pattern b'.searchText :=
    fun o ho => found_same (respects_operational o ho) (searchText_same h)
  rw [operationalMatch, operationalMatch]
  generalize OPERATIONAL_PATTERNS = table at hpatterns
  induction table with
  | nil => rfl
  | cons o rest ih =>
    rw [List.find?_cons, List.find?_cons, hpatterns o (by simp),
      ih fun o' ho' => hpatterns o' (List.mem_cons_of_mem o ho')]

end Phrases

end AtmMonitor.CaseTwins
