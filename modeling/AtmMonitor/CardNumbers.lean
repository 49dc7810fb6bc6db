import AtmMonitor.BlockTwins
import AtmMonitor.ParseClock

namespace AtmMonitor.CardNumbers

open Library.Regex PyText ParserModels EventPatterns DatabaseModels EjParser ParsedBlocks BlockPlaces
  BlockTwins ParseClock

/-- Two card numbers that a mask of the digits between the first six and the last four does not
tell apart. -/
structure SameMask (p q : Str) : Prop where
  digits : ∀ c ∈ p ++ q, isDigit c = true
  length : p.length = q.length
  long : 13 ≤ p.length
  first : p.take 6 = q.take 6
  last : p.drop (p.length - 4) = q.drop (q.length - 4)

instance (p q : Str) : Decidable (SameMask p q) :=
  decidable_of_iff ((p ++ q).all isDigit = true ∧ p.length = q.length ∧ 13 ≤ p.length ∧
      p.take 6 = q.take 6 ∧ p.drop (p.length - 4) = q.drop (q.length - 4))
    ⟨fun ⟨h1, h2, h3, h4, h5⟩ => ⟨List.all_eq_true.mp h1, h2, h3, h4, h5⟩,
      fun ⟨h1, h2, h3, h4, h5⟩ => ⟨List.all_eq_true.mpr h1, h2, h3, h4, h5⟩⟩

def isCaption (w : Str) : Prop :=
  ∃ caption ∈ ["CARD:".toList, "CARD NO:".toList], List.Forall₂ (fun c d => sameFold c d = true) caption w

/-- One number for the other at places where it is printed after a caption. -/
inductive Reprint (p q : Str) : Str → Str → Prop
  | nil : Reprint p q [] []
  | keep (c : Char) {s t : Str} (h : Reprint p q s t) : Reprint p q (c :: s) (c :: t)
  | number {caption spaces s t : Str} (hcaption : isCaption caption)
      (hspaces : ∀ c ∈ spaces, isSpace c = true) (h : Reprint p q s t) :
      Reprint p q (caption ++ spaces ++ p ++ s) (caption ++ spaces ++ q ++ t)

/-- The line is the same, or a body line with one number for the other. -/
def Reprinted (p q : Str) (line line' : Str) : Prop :=
  line' = line ∨ isHeader line = false ∧ Reprint p q line line'

def SameKind (c d : Char) : Prop := c = d ∨ isDigit c = true ∧ isDigit d = true

abbrev Alike : Str → Str → Prop := List.Forall₂ SameKind

theorem alike_refl (s : Str) : Alike s s := List.forall₂_same.mpr fun _ _ => Or.inl rfl

theorem SameMask.alike {p q : Str} (h : SameMask p q) : Alike p q := by
  refine List.forall₂_iff_zip.mpr ⟨h.length, fun {c d} hcd => Or.inr ?_⟩
  obtain ⟨hc, hd⟩ := List.of_mem_zip hcd
  exact ⟨h.digits c (List.mem_append_left q hc), h.digits d (List.mem_append_right p hd)⟩

theorem Reprint.alike {p q s t : Str} (hpq : SameMask p q) (h : Reprint p q s t) : Alike s t := by
  induction h with
  | nil => exact .nil
  | keep c _ ih => exact .cons (Or.inl rfl) ih
  | number _ _ _ ih => exact List.rel_append (List.rel_append (alike_refl _) hpq.alike) ih

theorem sameKind_class {f : Char → Bool} (b : Bool) (hf : ∀ c, isDigit c = true → f c = b) (c d : Char)
    (h : SameKind c d) : f c = f d := by
  obtain rfl | ⟨hc, hd⟩ := h
  · rfl
  · rw [hf c hc, hf d hd]

theorem digit_ne {x : Char} (hx : isDigit x = false) (c : Char) (hc : isDigit c = true) :
    (c == x) = false := by
  rw [beq_eq_false_iff_ne]
  rintro rfl
  rw [hx] at hc
  cases hc

theorem digit_not_space (c : Char) (hc : isDigit c = true) : isSpace c = false := by
  have hzeros : ∀ z ∈ zeros, 0x660 ≤ z ∧ (z + 9 < 0x1680 ∨ 0x1680 < z) ∧ (z + 9 < 0x2000 ∨ 0x3000 < z) := by
    decide
  rw [isDigit, digit?] at hc
  split_ifs at hc with hascii hrange
  · simp only [Bool.and_eq_true, decide_eq_true_eq] at hrange
    simp [isSpace]
    omega
  · cases hc
  · rw [Option.isSome_map] at hc
    obtain ⟨z, hfind⟩ := Option.isSome_iff_exists.mp hc
    have hz := hzeros z (List.mem_of_find?_eq_some hfind)
    have hin := List.find?_some hfind
    simp only [Bool.and_eq_true, decide_eq_true_eq] at hin
    simp [isSpace]
    omega

theorem keepsHeaders : KeepsHeaders SameKind where
  refl := fun _ => Or.inl rfl
  space := sameKind_class false digit_not_space
  digit := sameKind_class true fun _ hc => hc
  star := sameKind_class false (digit_ne (by decide))
  slash := sameKind_class false (digit_ne (by decide))
  colon := sameKind_class false (digit_ne (by decide))
  newline := sameKind_class false (digit_ne (by decide))
  carriageReturn := sameKind_class false (digit_ne (by decide))

/-- Two blocks that differ in the digits of their lines at most. -/
structure Twin (b b' : Block) : Prop where
  seq : b'.seq = b.seq
  dt : b'.dt = b.dt
  extra : b'.extra = b.extra
  startIdx : b'.startIdx = b.startIdx
  lines : List.Forall₂ Alike b.lines b'.lines

theorem Twin.of_twins {b b' : Block} (h : Twins SameKind b b') : Twin b b' :=
  ⟨h.seq, h.dt, h.extra, h.startIdx, h.lines⟩

theorem Twin.eq {b b' : Block} (h : Twin b b') (hlines : b.lines = b'.lines) : b = b' := by
  obtain ⟨hseq, hdt, hextra, hidx, -⟩ := h
  cases b
  cases b'
  simp only at hseq hdt hextra hidx hlines
  subst hseq hdt hextra hidx hlines
  rfl

section Journals

variable {p q : Str}

theorem keptBlocks_twin (hpq : SameMask p q) (now : Nat → Timestamp) {lines lines' : List Str}
    (h : List.Forall₂ (Reprinted p q) lines lines') :
    List.Forall₂ Twin (keptBlocks (groupBlocks now lines)) (keptBlocks (groupBlocks now lines')) := by
  have hchanged : List.Forall₂ (Changed SameKind) lines lines' :=
    h.imp fun _ _ hline => hline.imp_right (And.imp_right fun hre => hre.alike hpq)
  exact (keptBlocks_twins keepsHeaders now hchanged).imp fun _ _ => Twin.of_twins

theorem joinLines_injective {ls ls' : List Str} (h : List.Forall₂ Alike ls ls')
    (heq : joinLines ls = joinLines ls') : ls = ls' := by
  induction h with
  | nil => rfl
  | @cons s t ls ls' hst hrest ih =>
    cases hrest with
    | nil => simpa [joinLines] using heq
    | cons h1 h2 =>
      simp only [joinLines, List.intercalate_cons_cons, List.append_assoc] at heq ih
      obtain ⟨rfl, htail⟩ := List.append_inj heq hst.length_eq
      rw [ih (List.append_cancel_left htail)]

variable [Alnum]

/-- The rows that `process_result` makes of the events of a parse, less what the database adds. -/
def persisted (atmId : Nat) (r : ParserResult) : List ATMEvent :=
  r.events.map (ATMEvent.ofParsed 0 atmId)

/-- Of two blocks at one place neither makes an event unless the lines are the same. -/
def Unprinted (fileName : Str) (bs bs' : List Block) : Prop :=
  ∀ b ∈ bs, ∀ b' ∈ bs', b.startIdx = b'.startIdx →
    emits fileName b = true ∨ emits fileName b' = true → b.lines = b'.lines

variable {fileName : Str}

theorem rows_of_unprinted {bs bs' : List Block} (h : List.Forall₂ Twin bs bs')
    (hun : Unprinted fileName bs bs') : bs.filter (emits fileName) = bs'.filter (emits fileName) := by
  induction h with
  | nil => rfl
  | @cons b b' bs bs' htwin _ ih =>
    have hrest := ih fun c hc c' hc' => hun c (List.mem_cons_of_mem b hc) c' (List.mem_cons_of_mem b' hc')
    have hhead := hun b (by simp) b' (by simp) htwin.startIdx.symm
    cases he : emits fileName b with
    | true =>
      obtain rfl := htwin.eq (hhead (Or.inl he))
      rw [List.filter_cons, List.filter_cons, hrest]
    | false =>
      cases he' : emits fileName b' with
      | true =>
        rw [htwin.eq (hhead (Or.inr he')), he'] at he
        cases he
      | false => simpa [List.filter_cons, he, he'] using hrest

def row (fileName : Str) (atmId : Nat) (b : Block) : ATMEvent :=
  ATMEvent.ofParsed 0 atmId (blockEvent fileName b)

theorem row_eq {atmId : Nat} {b b' : Block} (h : row fileName atmId b = row fileName atmId b') :
    b.startIdx = b'.startIdx ∧ joinLines b.lines = joinLines b'.lines :=
  ⟨Nat.succ.inj (congrArg ATMEvent.sourceLineNumber h), congrArg ATMEvent.rawEvent h⟩

theorem persisted_parse (now : Nat → Timestamp) (lines : List Str) (fileName : Str) (atmId : Nat) :
    persisted atmId (parseLines now lines fileName) =
      ((keptBlocks (groupBlocks now lines)).filter (emits fileName)).map (row fileName atmId) := by
  rw [persisted, (parseLines_tracks now lines fileName).1, blockEvents, List.map_map]
  rfl

theorem lines_of_mem_rows {now : Nat → Timestamp} {lines : List Str} {atmId : Nat} {b c : Block}
    (hb : b ∈ keptBlocks (groupBlocks now lines)) (hidx : c.startIdx = b.startIdx)
    (h : row fileName atmId c ∈ persisted atmId (parseLines now lines fileName)) :
    joinLines c.lines = joinLines b.lines := by
  rw [persisted_parse, List.mem_map] at h
  obtain ⟨d, hd, hrow⟩ := h
  have hmem := keptBlocks_subset _ d (List.mem_filter.mp hd).1
  obtain ⟨hidx', hlines⟩ := row_eq hrow
  rw [← hlines, startIdx_injective now hmem (keptBlocks_subset _ b hb) (hidx'.trans hidx)]

theorem mem_rows {now : Nat → Timestamp} {lines : List Str} (atmId : Nat) {b : Block}
    (hb : b ∈ keptBlocks (groupBlocks now lines)) (hemits : emits fileName b = true) :
    row fileName atmId b ∈ persisted atmId (parseLines now lines fileName) := by
  rw [persisted_parse]
  exact List.mem_map_of_mem (List.mem_filter.mpr ⟨hb, hemits⟩)

/-- The rows are the same exactly when the number is printed in no block that makes an event. -/
theorem persisted_iff (hpq : SameMask p q) (now : Nat → Timestamp) {lines lines' : List Str}
    (h : List.Forall₂ (Reprinted p q) lines lines') (fileName : Str) (atmId : Nat) :
    persisted atmId (parseLines now lines fileName) = persisted atmId (parseLines now lines' fileName) ↔
      Unprinted fileName (keptBlocks (groupBlocks now lines)) (keptBlocks (groupBlocks now lines')) := by
  have htwins := keptBlocks_twin hpq now h
  constructor
  · intro hrows b hb b' hb' hidx hemits
    obtain ⟨c, hc, htwin⟩ := exists_twin htwins hb
    obtain rfl : c = b' := startIdx_injective now (keptBlocks_subset _ c hc)
      (keptBlocks_subset _ b' hb') (htwin.startIdx.trans hidx)
    apply joinLines_injective htwin.lines
    obtain he | he := hemits
    · have hmem := mem_rows atmId hb he
      rw [hrows] at hmem
      exact lines_of_mem_rows hb' hidx hmem
    · have hmem := mem_rows atmId hb' he
      rw [← hrows] at hmem
      exact (lines_of_mem_rows hb hidx.symm hmem).symm
  · intro hun
    rw [persisted_parse, persisted_parse, rows_of_unprinted htwins hun]

end Journals

def oneBlock (action : String) (number : Str) : List Str :=
  ["*5*01/05/2026*08:52*".toList, action.toList, "CARD: ".toList ++ number]

def first : Str := "4111111111111111".toList
def second : Str := "4111112222221111".toList

theorem oneBlock_reprinted (action : String) :
    List.Forall₂ (Reprinted first second) (oneBlock action first) (oneBlock action second) := by
  have hcard : Reprint first second ("CARD:".toList ++ " ".toList ++ first ++ [])
      ("CARD:".toList ++ " ".toList ++ second ++ []) :=
    .number ⟨"CARD:".toList, by simp, List.forall₂_same.mpr fun c _ => by simp [sameFold]⟩
      (List.all_eq_true.mp (by decide)) .nil
  exact .cons (Or.inl rfl) (.cons (Or.inl rfl) (.cons (Or.inr ⟨by decide +kernel, hcard⟩) .nil))

theorem persisted_iff_unknown :
    persisted 1 (@parseLines asciiAlnum (fun _ => 0) (oneBlock "PIN ENTERED" first) []) =
      persisted 1 (@parseLines asciiAlnum (fun _ => 0) (oneBlock "PIN ENTERED" second) []) := by
  refine (@persisted_iff _ _ asciiAlnum (by decide) _ _ _ (oneBlock_reprinted "PIN ENTERED") [] 1).mpr ?_
  have hsilent : ∀ number ∈ [first, second], ∀ b ∈ keptBlocks (groupBlocks (fun _ => 0)
      (oneBlock "PIN ENTERED" number)), @emits asciiAlnum [] b = false := by decide +kernel
  intro b hb b' hb' _ hemits
  rw [hsilent first (by simp) b hb, hsilent second (by simp) b' hb'] at hemits
  simp at hemits

theorem card_number_stored :
    SameMask first second ∧
      List.Forall₂ (Reprinted first second) (oneBlock "CARD INSERTED" first)
        (oneBlock "CARD INSERTED" second) ∧
      persisted 1 (@parseLines asciiAlnum (fun _ => 0) (oneBlock "CARD INSERTED" first) []) ≠
        persisted 1 (@parseLines asciiAlnum (fun _ => 0) (oneBlock "CARD INSERTED" second) []) := by
  refine ⟨by decide, oneBlock_reprinted _, fun h => ?_⟩
  have hstored : (persisted 1 (@parseLines asciiAlnum (fun _ => 0)
      (oneBlock "CARD INSERTED" first) [])).map (·.cardNumberMasked) = [some first] := by
    decide +kernel
  rw [h] at hstored
  exact absurd hstored (by decide +kernel)

end AtmMonitor.CardNumbers
