import AtmMonitor.HeaderSearch
import Mathlib.Data.List.Find

namespace AtmMonitor.HeaderEntries

open Library.Regex PyText EventPatterns EjParser TrimmedLines HeaderLines HeaderSearch

/-- The phrases of the table whose lines no header line completes. -/
def LinePhrase (o : Operational) : Prop :=
  ∃ w : String, o.pattern = linePhrase w ∧ w.toList ≠ [] ∧ OneLine w.toList ∧
    Unlike w.toList

theorem linePhrase_or_counted : ∀ o ∈ OPERATIONAL_PATTERNS,
    LinePhrase o ∨ o.evType = .cardsCleared ∨ o.evType = .notesPresented := by
  have hphrase : ∀ (w : String) {o : Operational}, w.toList ≠ [] ∧ OneLine w.toList ∧ Unlike w.toList →
      o.pattern = linePhrase w → LinePhrase o ∨ o.evType = .cardsCleared ∨ o.evType = .notesPresented :=
    fun w _ hw ho => .inl ⟨w, ho, hw⟩
  simp only [OPERATIONAL_PATTERNS, List.forall_mem_cons, List.not_mem_nil, false_imp_iff, implies_true,
    and_true]
  and_intros
  all_goals first
    | exact hphrase _ (by decide) rfl
    | simp

theorem linePhrase_early : ∀ o ∈ OPERATIONAL_PATTERNS.take 13, LinePhrase o := by
  intro o ho
  have htype : ∀ o ∈ OPERATIONAL_PATTERNS.take 13, o.evType ≠ .cardsCleared ∧ o.evType ≠ .notesPresented := by
    simp [OPERATIONAL_PATTERNS]
  obtain h | h | h := linePhrase_or_counted o (List.mem_of_mem_take ho)
  · exact h
  · exact absurd h (htype o ho).1
  · exact absurd h (htype o ho).2

theorem termStat_late : ∀ o ∈ OPERATIONAL_PATTERNS.drop 13, o.termStat = none := by
  simp [OPERATIONAL_PATTERNS]

theorem counted_pattern : ∀ o ∈ OPERATIONAL_PATTERNS,
    (o.evType = .cardsCleared → o.pattern = seqs [lineStart isNewline, phrase "CARDS CLEARED",
        .many isSpace, chr '≈', .many isSpace, many1 isDigit]) ∧
      (o.evType = .notesPresented → o.pattern = seqs [lineStart isNewline, phrase "NOTES PRESENTED",
        many1 isSpace, many1 (fun c => isDigit c || c == ',')]) := by
  simp [OPERATIONAL_PATTERNS]

theorem pattern_counted {o o' : Operational} (ho : o ∈ OPERATIONAL_PATTERNS)
    (ho' : o' ∈ OPERATIONAL_PATTERNS) (htype : o'.evType = o.evType)
    (hcounted : o.evType = .cardsCleared ∨ o.evType = .notesPresented) : o'.pattern = o.pattern := by
  obtain ⟨hcleared, hpresented⟩ := counted_pattern o ho
  obtain ⟨hcleared', hpresented'⟩ := counted_pattern o' ho'
  obtain h | h := hcounted
  · rw [hcleared h, hcleared' (htype.trans h)]
  · rw [hpresented h, hpresented' (htype.trans h)]

theorem ofLine_operational : ∀ o ∈ OPERATIONAL_PATTERNS, ∃ r,
    o.pattern = .seq (lineStart isNewline) r ∧ OfLine r := by
  have hspace : Within (· ≠ '*') (.many isSpace : Regex) := by
    rintro c hc rfl
    cases hc
  have hequals : Within (· ≠ '*') (chr '≈') := within_chr (by decide)
  intro o ho
  obtain ⟨w, hw, hne, hline, hunlike⟩ | htype | htype := linePhrase_or_counted o ho
  · exact ⟨_, hw, ofLine_phrase hne hline hunlike⟩
  · refine ⟨_, (counted_pattern o ho).1 htype, ofLine_phrase_table [.many isSpace, chr '≈', .many isSpace] rfl
      (by decide) (by decide) (by decide) ?_⟩
    simp only [List.forall_mem_cons, List.not_mem_nil, false_imp_iff, implies_true, and_true]
    exact ⟨⟨trivial, trivial, hspace⟩, ⟨trivial, trivial, hequals⟩, trivial, trivial, hspace⟩
  · refine ⟨_, (counted_pattern o ho).2 htype, ofLine_phrase_table [many1 isSpace] rfl (by decide) (by decide)
      (by decide) ?_⟩
    simp only [List.forall_mem_cons, List.not_mem_nil, false_imp_iff, implies_true, and_true]
    exact ⟨⟨trivial, trivial⟩, ⟨trivial, trivial⟩, hspace, hspace⟩

theorem operationalMatch_mem {s : Str} {o : Operational} (h : operationalMatch s = some o) :
    o ∈ OPERATIONAL_PATTERNS ∧ found o.pattern s = true := by
  have hfound := List.find?_some h
  exact ⟨List.mem_of_find?_eq_some h, hfound⟩

def EntryWithin (x : Str) (body : List Str) : Prop :=
  ∀ o ∈ operationalMatch (bodyText x body),
    found o.pattern (strip x) = true ∨ found o.pattern (joinLines (body.map strip)) = true

section Entries

variable {p : HeaderParts} {x : Str} (hx : '\n' ∉ p.line x) (body : List Str)

include hx

theorem operationalMatch_below :
    operationalMatch (belowText p x body) = operationalMatch (bodyText x body) := by
  refine List.find?_congr fun o ho => ?_
  obtain ⟨r, hr, hline⟩ := ofLine_operational o ho
  rw [hr]
  exact found_below hx body hline.toNotHeader

theorem entry_beside {o : Operational} (ho : o ∈ OPERATIONAL_PATTERNS) :
    found o.pattern (besideText p x body) =
      (found o.pattern (strip x) || found o.pattern (joinLines (body.map strip))) := by
  obtain ⟨r, hr, hline⟩ := ofLine_operational o ho
  rw [hr]
  exact found_beside hx body hline

theorem entry_body {r : Regex} (h : NotHeader r) : found (.seq (lineStart isNewline) r) (bodyText x body) =
    ((matchStart r (bodyText x body)).isSome ||
      found (.seq (lineStart isNewline) r) (joinLines (body.map strip))) := by
  have hstripped := strip_no_newline (no_newline hx).2
  rw [bodyText, List.map_cons]
  exact found_join h.noBehind h.nil hstripped _

theorem entry_grows {o : Operational} (ho : o ∈ OPERATIONAL_PATTERNS)
    (h : found o.pattern (besideText p x body) = true) : found o.pattern (bodyText x body) = true := by
  rw [entry_beside hx body ho] at h
  obtain ⟨r, hr, hline⟩ := ofLine_operational o ho
  have hstripped := strip_no_newline (no_newline hx).2
  rw [hr, entry_body hx body hline.toNotHeader]
  rw [hr, found_last_line hline.noBehind (isNewline_of_not_mem hstripped)] at h
  rw [Bool.or_eq_true] at h ⊢
  refine h.imp_left fun hfirst => ?_
  cases body with
  | nil => rwa [bodyText, List.map_singleton, joinLines_singleton]
  | cons line rest =>
    rw [bodyText, List.map_cons, List.map_cons, joinLines_cons]
    exact hline.grows _ _ hfirst hstripped

theorem entry_phrase {o : Operational} (ho : o ∈ OPERATIONAL_PATTERNS) (hphrase : LinePhrase o) :
    found o.pattern (besideText p x body) = found o.pattern (bodyText x body) := by
  rw [entry_beside hx body ho]
  obtain ⟨w, hw, hne, hnl, hunlike⟩ := hphrase
  have hline := ofLine_phrase hne hnl hunlike
  have hstripped := strip_no_newline (no_newline hx).2
  have hseq : linePhrase w = .seq (lineStart isNewline) (.seq (lit sameFold w.toList) (lineEnd isNewline)) :=
    rfl
  rw [hw, hseq, entry_body hx body hline.toNotHeader,
    found_last_line hline.noBehind (isNewline_of_not_mem hstripped)]
  congr 1
  cases body with
  | nil => rw [bodyText, List.map_singleton, joinLines_singleton]
  | cons line rest =>
    obtain ⟨hbefore, halone⟩ := matchStart_linePhrase_line (t := joinLines ((line :: rest).map strip)) hnl
      hstripped
    rw [bodyText, List.map_cons, List.map_cons, joinLines_cons, Bool.eq_iff_iff, halone]
    exact hbefore.symm

theorem operationalMatch_beside (h : EntryWithin x body) :
    operationalMatch (besideText p x body) = operationalMatch (bodyText x body) := by
  have hnot : ∀ o ∈ OPERATIONAL_PATTERNS, (!found o.pattern (bodyText x body)) = true →
      (!found o.pattern (besideText p x body)) = true := by
    intro o ho hbody
    rw [Bool.not_eq_true'] at hbody ⊢
    rw [← Bool.not_eq_true] at hbody ⊢
    exact fun hbeside => hbody (entry_grows hx body ho hbeside)
  cases hmatch : operationalMatch (bodyText x body) with
  | none =>
    rw [operationalMatch, List.find?_eq_none] at hmatch ⊢
    exact fun o ho hbeside => hmatch o ho (entry_grows hx body ho hbeside)
  | some o =>
    have hwithin := h o hmatch
    have ho := List.mem_of_find?_eq_some hmatch
    rw [operationalMatch, List.find?_eq_some_iff_append] at hmatch ⊢
    obtain ⟨-, before, after, htable, hbefore⟩ := hmatch
    refine ⟨?_, before, after, htable, fun o' ho' => ?_⟩
    · rw [entry_beside hx body ho, Bool.or_eq_true]
      exact hwithin
    · exact hnot o' (htable ▸ List.mem_append_left _ ho') (hbefore o' ho')

theorem operationalMatch_lost (h : ¬ EntryWithin x body) :
    ∃ o, operationalMatch (bodyText x body) = some o ∧ o.termStat = none ∧
      ∀ o' ∈ operationalMatch (besideText p x body), o'.evType ≠ o.evType ∧ o'.termStat = none := by
  rw [EntryWithin] at h
  push Not at h
  obtain ⟨o, hmem, htext, hbelow⟩ := h
  have hmatch : operationalMatch (bodyText x body) = some o := hmem
  obtain ⟨ho, hfound⟩ := operationalMatch_mem hmatch
  have hlost : found o.pattern (besideText p x body) = false := by
    rw [entry_beside hx body ho, Bool.or_eq_false_iff]
    exact ⟨Bool.eq_false_iff.mpr htext, Bool.eq_false_iff.mpr hbelow⟩
  have hphrase : ¬ LinePhrase o := by
    intro hphrase
    rw [entry_phrase hx body ho hphrase, hfound] at hlost
    cases hlost
  have hsplit : OPERATIONAL_PATTERNS = OPERATIONAL_PATTERNS.take 13 ++ OPERATIONAL_PATTERNS.drop 13 :=
    (List.take_append_drop 13 _).symm
  have hlate : ∀ o' ∈ OPERATIONAL_PATTERNS, found o'.pattern (bodyText x body) = true →
      o' ∈ OPERATIONAL_PATTERNS.drop 13 := by
    intro o' ho' hfound'
    rw [hsplit, List.mem_append] at ho'
    refine ho'.resolve_left fun hearly => ?_
    cases hfirst : (OPERATIONAL_PATTERNS.take 13).find? fun o => found o.pattern (bodyText x body) with
    | none => exact List.find?_eq_none.mp hfirst o' hearly hfound'
    | some o'' =>
      have hsame : operationalMatch (bodyText x body) = some o'' := by
        rw [operationalMatch, hsplit, List.find?_append, hfirst]
        rfl
      obtain rfl := Option.some.inj (hsame.symm.trans hmatch)
      exact hphrase (linePhrase_early o'' (List.mem_of_find?_eq_some hfirst))
  refine ⟨o, hmatch, termStat_late o (hlate o ho hfound), fun o' hmem' => ?_⟩
  obtain ⟨ho', hfound'⟩ := operationalMatch_mem hmem'
  refine ⟨fun htype => ?_, termStat_late o' (hlate o' ho' (entry_grows hx body ho' hfound'))⟩
  have hcounted := (linePhrase_or_counted o ho).resolve_left hphrase
  rw [pattern_counted ho ho' htype hcounted, hlost] at hfound'
  cases hfound'

end Entries

end AtmMonitor.HeaderEntries
