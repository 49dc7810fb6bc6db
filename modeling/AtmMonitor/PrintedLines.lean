import AtmMonitor.HeaderEntries
import AtmMonitor.Library.Preferred

namespace AtmMonitor.PrintedLines

open Library.Regex PyText ParserModels EventPatterns EjParser SupervisorParser TrimmedLines HeaderLines
  HeaderSearch

section Decide

variable {p : Char → Prop} [DecidablePred p]

scoped instance (priority := high) decidableEachChar (s : Str) : Decidable (∀ c ∈ s, p c) :=
  List.decidableBAll p s

scoped instance (priority := high) decidableSomeChar (s : Str) : Decidable (∃ c ∈ s, p c) :=
  List.decidableBEx p s

scoped instance (priority := high) decidableCharAt (o : Option Char) : Decidable (∀ c ∈ o, p c) :=
  Option.decidableForallMem o

end Decide

/-- The caption does not stand in the text, in whatever case of its letters. -/
def Unsaid (w : String) (s : Str) : Prop := found (phrase w) s = false

instance (w : String) (s : Str) : Decidable (Unsaid w s) := inferInstanceAs (Decidable (_ = _))

/-- The line is written in these characters, and in those of header lines. -/
def Spelt (alphabet s : Str) : Prop := ∀ c ∈ s, c ∈ alphabet ∨ HeaderChar c

/-- Some letter of the caption is not in the alphabet. -/
def Lacks (alphabet : Str) (w : String) : Prop :=
  ∃ a ∈ w.toList, a.isAlpha = true ∧ ∀ x ∈ alphabet, sameFold a x = false

instance (alphabet : Str) (w : String) : Decidable (Lacks alphabet w) :=
  inferInstanceAs (Decidable (∃ a ∈ w.toList, _))

theorem Spelt.append {alphabet s t : Str} (hs : Spelt alphabet s) (ht : Spelt alphabet t) :
    Spelt alphabet (s ++ t) := fun c hc => (List.mem_append.mp hc).elim (hs c) (ht c)

theorem spelt_headerChars {s : Str} (alphabet : Str) (h : ∀ c ∈ s, HeaderChar c) : Spelt alphabet s :=
  fun c hc => .inr (h c hc)

theorem unsaid_of_lacks {alphabet s : Str} {w : String} (hw : Lacks alphabet w) (hs : Spelt alphabet s) :
    Unsaid w s := by
  obtain ⟨a, ha, halpha, hnone⟩ := hw
  rw [Unsaid, ← Bool.not_eq_true, phrase, found_lit]
  rintro ⟨u, hu, hinfix⟩
  obtain ⟨i, hi, rfl⟩ := List.mem_iff_getElem.mp ha
  have hi' : i < u.length := hu.length_eq ▸ hi
  have hsame : sameFold w.toList[i] u[i] = true := hu.get hi hi'
  obtain hc | hc := hs _ (List.IsInfix.subset hinfix (List.getElem_mem hi'))
  · rw [hnone _ hc] at hsame
    cases hsame
  · rw [sameFold_headerChar halpha hc] at hsame
    cases hsame

theorem sameCase_refl (w : Str) : SameCase w w := List.forall₂_same.mpr fun _ _ => beq_self_eq_true _

theorem not_infix_of_unsaid {w : String} {s : Str} (h : Unsaid w s) : ¬ w.toList <:+: s := by
  intro hinfix
  have hfound : found (phrase w) s = true := found_lit.mpr ⟨_, sameCase_refl _, hinfix⟩
  rw [h] at hfound
  cases hfound

theorem contains_of_unsaid {w : String} {s : Str} (h : Unsaid w s) : contains s w.toList = false := by
  rw [← Bool.not_eq_true, contains_iff]
  exact not_infix_of_unsaid h

theorem not_sameCase_of_unsaid {w : String} {s : Str} (h : Unsaid w s) : ¬ SameCase w.toList s := by
  intro hsame
  have hfound : found (phrase w) s = true := found_lit.mpr ⟨s, hsame, List.infix_rfl⟩
  rw [h] at hfound
  cases hfound

theorem unsaid_join {w : String} (hne : w.toList ≠ []) (hw : OneLine w.toList) {ls : List Str}
    (h : ∀ l ∈ ls, Unsaid w l) : Unsaid w (joinLines ls) := by
  rw [Unsaid, ← Bool.not_eq_true, phrase, found_lit]
  rintro ⟨u, hu, hinfix⟩
  have hnu := SameCase.no_newline hu hw
  have hnil : u ≠ [] := by
    rintro rfl
    exact hne (List.forall₂_nil_right_iff.mp hu)
  induction ls with
  | nil =>
    have hnone : joinLines [] = [] := List.intercalate_nil
    rw [hnone, List.infix_nil] at hinfix
    exact hnil hinfix
  | cons l ls ih =>
    rw [infix_join hnil hnu] at hinfix
    obtain hinfix | hinfix := hinfix
    · have hfound : found (phrase w) l = true := found_lit.mpr ⟨u, hu, hinfix⟩
      rw [h l (by simp)] at hfound
      cases hfound
    · exact ih (fun l' hl' => h l' (List.mem_cons_of_mem l hl')) hinfix

def entryCaptions : List String :=
  ["*TRANSACTION START*", "TRANSACTION END", "*PRIMARY CARD READER ACTIVATED*", "SST IN SERVICE",
   "SST OUT OF SERVICE", "SST ON-LINE", "SST OFF-LINE", "POWER-UP/RESET", "SUPERVISOR MODE ENTRY",
   "SUPERVISOR TASK ENTERED.", "SUPERVISOR TASK EXITED.", "REJECT BIN REMOVED", "REJECT BIN INSERTED",
   "CARDS CLEARED", "CARD INSERTED", "CARD TAKEN", "CUSTOMER CANCELLED", "NOTES STACKED",
   "NOTES PRESENTED", "NOTES TAKEN", "CASH COUNTS CLEARED", "CASH ADDED", "CASSETTE INFORMATION"]

def countedCaptions : List String := ["CARDS CLEARED", "NOTES PRESENTED"]

def ignoreCaptions : List String :=
  ["ENTER KEY WAS PRESSED", "KEY PRESSED", "SCREEN DISPLAY", "DISPLAY DATA", "KEYBOARD INPUT", "TERMINALID:"]

/-- The captions of the fields of a transaction, without `AMOUNT≈`. -/
def fieldCaptions : List String :=
  ["CARD:", "CARD NO:", "RESPONSE CODE:", "FUNCTION ID≈", "OPCODE ≈", "WITHDRAWAL"]

def flagCaptions : List String := ["CARDS CAPTURED", "*TRANSACTION START*", "TRANSACTION END"]

def captions : List String := entryCaptions ++ ignoreCaptions ++ fieldCaptions ++ flagCaptions

theorem captions_oneLine : ∀ w ∈ captions, w.toList ≠ [] ∧ OneLine w.toList := by decide +kernel

theorem needs_phrase (w : String) {rs : List Regex} (h : phrase w ∈ rs) :
    Needs sameFold w.toList (seqs rs) := needs_seqs h needs_lit

def Captioned (o : Operational) : Prop :=
  ∃ w ∈ entryCaptions, Needs sameFold w.toList o.pattern ∧ (o.pattern = linePhrase w ∨ w ∈ countedCaptions)

theorem entry_caption : ∀ o ∈ OPERATIONAL_PATTERNS, Captioned o := by
  have hphrase : ∀ (w : String) {o : Operational}, w ∈ entryCaptions → o.pattern = linePhrase w →
      Captioned o :=
    fun w _ hw ho => ⟨w, hw, ho ▸ needs_phrase w (by simp), .inl ho⟩
  have hcounted : ∀ (w : String) (rs : List Regex) {o : Operational}, w ∈ entryCaptions →
      w ∈ countedCaptions → o.pattern = seqs (lineStart isNewline :: phrase w :: rs) → Captioned o :=
    fun w rs _ hw hc ho => ⟨w, hw, ho ▸ needs_phrase w (by simp), .inr hc⟩
  simp only [OPERATIONAL_PATTERNS, List.forall_mem_cons, List.not_mem_nil, false_imp_iff, implies_true,
    and_true]
  and_intros
  all_goals first
    | exact hphrase _ (by decide) rfl
    | exact hcounted _ _ (by decide) (by decide) rfl

/-- None of the captions of the table stands in the line. -/
def Mute (l : Str) : Prop := ∀ w ∈ entryCaptions, Unsaid w l

instance : DecidablePred Mute := fun _ => inferInstanceAs (Decidable (∀ w ∈ entryCaptions, _))

theorem found_linePhrase_join {w : String} (hne : w.toList ≠ []) (hw : OneLine w.toList) {ls : List Str}
    (hls : ∀ l ∈ ls, '\n' ∉ l) :
    found (linePhrase w) (joinLines ls) = true ↔ ∃ l ∈ ls, SameCase w.toList l := by
  have hbehind : NoBehind (.seq (lit sameFold w.toList) (lineEnd isNewline)) := ⟨noBehind_lit _, trivial⟩
  have hnil : matchStart (.seq (lit sameFold w.toList) (lineEnd isNewline)) [] = none := by
    rw [← Option.not_isSome_iff_eq_none, (matchStart_linePhrase_line (t := []) hw (by simp)).2]
    exact fun h => hne (List.forall₂_nil_right_iff.mp h)
  have hseq : linePhrase w =
      .seq (lineStart isNewline) (.seq (lit sameFold w.toList) (lineEnd isNewline)) := rfl
  rw [hseq]
  induction ls with
  | nil =>
    have hnone : joinLines [] = [] := List.intercalate_nil
    rw [hnone, found_last_line hbehind (by simp), hnil]
    simp
  | cons l ls ih =>
    have hl : '\n' ∉ l := hls l (by simp)
    have hfirst : (matchStart (.seq (lit sameFold w.toList) (lineEnd isNewline))
        (joinLines (l :: ls))).isSome = true ↔ SameCase w.toList l := by
      cases ls with
      | nil =>
        rw [joinLines_singleton]
        exact (matchStart_linePhrase_line (t := []) hw hl).2
      | cons m ls =>
        rw [joinLines_cons]
        exact (matchStart_linePhrase_line hw hl).1
    have hrest := ih fun l' hl' => hls l' (List.mem_cons_of_mem l hl')
    rw [found_join hbehind hnil hl, Bool.or_eq_true, List.exists_mem_cons_iff]
    exact or_congr hfirst hrest

theorem operationalMatch_mute {ls : List Str} (h : ∀ l ∈ ls, Mute l) :
    operationalMatch (joinLines ls) = none := by
  rw [operationalMatch, List.find?_eq_none]
  intro o ho hfound
  obtain ⟨w, hw, hneeds, -⟩ := entry_caption o ho
  obtain ⟨hne, hone⟩ := captions_oneLine w (by simp [captions, hw])
  have hunsaid : Unsaid w (joinLines ls) := unsaid_join hne hone fun l hl => h l hl w hw
  rw [Unsaid, phrase, found_of_needs hneeds hfound] at hunsaid
  cases hunsaid

theorem operationalMatch_line {ls : List Str} {l : Str} (hl : l ∈ ls) (hls : ∀ m ∈ ls, '\n' ∉ m)
    (hmute : ∀ m ∈ ls, m = l ∨ Mute m) (hcounted : ∀ w ∈ countedCaptions, Unsaid w l) :
    operationalMatch (joinLines ls) = operationalMatch l := by
  refine List.find?_congr fun o ho => ?_
  obtain ⟨w, hw, hneeds, hpattern⟩ := entry_caption o ho
  obtain ⟨hne, hone⟩ := captions_oneLine w (by simp [captions, hw])
  obtain hphrase | hnumber := hpattern
  · have hself : found (linePhrase w) (joinLines [l]) = true ↔ _ :=
      found_linePhrase_join hne hone (by simpa using hls l hl)
    rw [joinLines_singleton] at hself
    rw [hphrase, Bool.eq_iff_iff, found_linePhrase_join hne hone hls, hself]
    constructor
    · rintro ⟨m, hm, hsame⟩
      obtain rfl | hm := hmute m hm
      · exact ⟨m, by simp, hsame⟩
      · exact absurd hsame (not_sameCase_of_unsaid (hm w hw))
    · rintro ⟨m, hm, hsame⟩
      exact ⟨m, by rwa [List.mem_singleton.mp hm], hsame⟩
  · have hnone : ∀ {s : Str}, Unsaid w s → found o.pattern s = false := by
      intro s hs
      rw [← Bool.not_eq_true]
      intro hfound
      rw [Unsaid, phrase, found_of_needs hneeds hfound] at hs
      cases hs
    rw [hnone (hcounted w hnumber), hnone]
    refine unsaid_join hne hone fun m hm => ?_
    obtain rfl | hm := hmute m hm
    · exact hcounted w hnumber
    · exact hm w hw

theorem isIgnored_unsaid {s : Str} (h : ∀ w ∈ ignoreCaptions, Unsaid w s) : isIgnored s = false := by
  have hcaption : ∀ r ∈ IGNORE_PATTERNS, ∃ w ∈ ignoreCaptions, Needs sameFold w.toList r := by
    simp only [IGNORE_PATTERNS, List.forall_mem_cons, List.not_mem_nil, false_imp_iff, implies_true,
      and_true]
    exact ⟨⟨_, by simp [ignoreCaptions], needs_lit⟩, ⟨_, by simp [ignoreCaptions], needs_lit⟩,
      ⟨_, by simp [ignoreCaptions], needs_lit⟩, ⟨_, by simp [ignoreCaptions], needs_lit⟩,
      ⟨_, by simp [ignoreCaptions], needs_lit⟩,
      ⟨_, by simp [ignoreCaptions], needs_phrase "TERMINALID:" (by simp)⟩⟩
  rw [isIgnored, List.any_eq_false]
  intro r hr hfound
  obtain ⟨w, hw, hneeds⟩ := hcaption r hr
  have hunsaid := h w hw
  rw [Unsaid, phrase, found_of_needs hneeds hfound] at hunsaid
  cases hunsaid

theorem search_unsaid {w : String} {s : Str} (h : Unsaid w s) {rs : List Regex} (hrs : phrase w ∈ rs) :
    search (seqs rs) s = none := search_of_needs (needs_phrase w hrs) h

theorem transactionFields_unsaid [Alnum] {s : Str} (h : ∀ w ∈ fieldCaptions, Unsaid w s)
    (t : EventType) (ht : t ≠ .transactionStart) : transactionFields t s =
      { amount := ((search AMOUNT_PATTERN s).bind (·.group "amt")).bind float } := by
  have hcard : search CARD_PATTERN s = none := search_unsaid (h "CARD:" (by decide)) (by simp)
  have hcardNo : search CARD_NO_PATTERN s = none :=
    search_unsaid (h "CARD NO:" (by decide)) (by simp)
  have hresp : search RESPONSE_CODE_PATTERN s = none :=
    search_unsaid (h "RESPONSE CODE:" (by decide)) (by simp)
  have hfunc : search FUNCTION_ID_PATTERN s = none :=
    search_unsaid (h "FUNCTION ID≈" (by decide)) (by simp)
  have hopcode : search OPCODE_PATTERN s = none :=
    search_unsaid (h "OPCODE ≈" (by decide)) (by simp)
  have hwithdrawal : search WITHDRAWAL_PATTERN s = none :=
    search_unsaid (h "WITHDRAWAL" (by decide)) (by simp)
  rw [transactionFields, if_neg ht, hcard, hcardNo, hresp, hfunc, hopcode, hwithdrawal]
  cases search AMOUNT_PATTERN s <;> rfl

end AtmMonitor.PrintedLines
