import AtmMonitor.EjParser
import Mathlib.Data.List.Induction
import Mathlib.Data.List.Infix

namespace AtmMonitor.TrimmedLines

open Library.Regex PyText ParserModels EventPatterns EjParser

def headerStart : List Regex :=
  [atStart, .many isSpace, chr '*', .group "seq" (many1 isDigit), chr '*',
    .group "date" (seqs [digits 2, chr '/', digits 2, chr '/', digits 4]), chr '*',
    .group "time" (seqs [digits 2, chr ':', digits 2])]

def headerExtra : Regex := .group "extra" (.many (fun c => !isNewline c))

theorem run_header (c : Cursor Char) : run EVENT_HEADER_PATTERN c =
    (run (seqs (headerStart ++ [chr '*'])) c).flatMap (run headerExtra) :=
  run_seqs_append (headerStart ++ [chr '*']) [headerExtra] c

theorem headerStart_noAhead : NoAhead (seqs (headerStart ++ [chr '*'])) := by
  have hdigits : ∀ n, NoAhead (digits n) := fun n => noAhead_seqs fun r hr => by
    rw [(List.mem_replicate.mp hr).2]
    trivial
  refine noAhead_seqs ?_
  simp only [headerStart, List.cons_append, List.nil_append, List.forall_mem_cons, List.not_mem_nil,
    false_imp_iff, implies_true, and_true]
  exact ⟨trivial, trivial, trivial, ⟨trivial, trivial⟩, trivial,
    ⟨hdigits 2, trivial, hdigits 2, trivial, hdigits 4⟩, trivial, ⟨hdigits 2, trivial, hdigits 2⟩,
    trivial⟩

theorem headerStart_concat (line : Str) {x : Char} (hx : x ≠ '*') :
    run (seqs (headerStart ++ [chr '*'])) (start (line ++ [x])) =
      (run (seqs (headerStart ++ [chr '*'])) (start line)).map (Cursor.extend [x]) := by
  rw [← run_extend headerStart_noAhead [x] (start line)]
  refine (List.filter_eq_self.mpr fun d hd => ?_).symm
  rw [run_seqs_append] at hd
  obtain ⟨e, he, hd⟩ := List.mem_flatMap.mp hd
  obtain ⟨y, hy, hright⟩ := mem_run_cls (p := fun c => c == '*') hd
  have hsuffix : e.right <:+ line ++ [x] := run_suffix he
  rw [before, decide_eq_true_eq, List.length_singleton]
  refine List.length_pos_iff.mpr fun hnil => hx ?_
  rw [hright, hnil] at hsuffix
  obtain ⟨w, hw⟩ := hsuffix
  have hlast := (List.append_inj' hw rfl).2
  rw [← List.singleton_inj.mp hlast]
  exact beq_iff_eq.mp hy

theorem run_headerExtra {d : Cursor Char} (h : ∀ c ∈ d.right, isNewline c = false) :
    (run headerExtra d).head? =
      some ⟨d.right.reverse ++ d.left, [], ("extra", d.right) :: d.groups⟩ := by
  have hall : ∀ c ∈ d.right, (!isNewline c) = true := by simpa using h
  rw [headerExtra, run, List.head?_map, run, manyRun_all hall]
  simp [captured]

theorem header?_concat {line : Str} (hline : ∀ c ∈ line, isNewline c = false) {x : Char}
    (hx : isNewline x = false) (hstar : x ≠ '*') :
    header? (line ++ [x]) = (header? line).map fun h => { h with extra := h.extra ++ [x] } := by
  rw [header?, header?, matchStart, matchStart, run_header, run_header,
    headerStart_concat line hstar]
  cases hruns : run (seqs (headerStart ++ [chr '*'])) (start line) with
  | nil => rfl
  | cons d ds =>
    have hsuffix : d.right <:+ line := run_suffix (c := start line) (by rw [hruns]; simp)
    have hd : ∀ c ∈ d.right, isNewline c = false := fun c hc => hline c (hsuffix.subset hc)
    have hd' : ∀ c ∈ (d.extend [x]).right, isNewline c = false := by
      intro c hc
      obtain hc | hc := List.mem_append.mp hc
      · exact hd c hc
      · rwa [List.mem_singleton.mp hc]
    rw [List.map_cons, List.flatMap_cons, List.flatMap_cons, List.head?_append,
      List.head?_append, run_headerExtra hd, run_headerExtra hd']
    rfl

theorem strip_concat (s : Str) {x : Char} (hx : isSpace x = true) : strip (s ++ [x]) = strip s := by
  rw [strip, strip, List.dropWhile_append]
  split_ifs with h
  · rw [List.isEmpty_iff.mp h]
    simp [hx]
  · exact List.rdropWhile_concat_pos _ _ _ hx

theorem strip_split (s : Str) : ∃ before after, s = before ++ (strip s ++ after) ∧
    (∀ c ∈ before, isSpace c = true) ∧ ∀ c ∈ after, isSpace c = true := by
  refine ⟨s.takeWhile isSpace, (s.dropWhile isSpace).rtakeWhile isSpace, ?_, ?_, ?_⟩
  · rw [strip, List.rdropWhile_append_rtakeWhile, List.takeWhile_append_dropWhile]
  · exact fun c => List.mem_takeWhile_imp
  · exact fun c => List.mem_rtakeWhile_imp

theorem strip_idem (s : Str) : strip (strip s) = strip s := by
  have hhead : (strip s).dropWhile isSpace = strip s := by
    cases hs : strip s with
    | nil => rfl
    | cons c cs =>
      have hprefix : c :: cs <+: s.dropWhile isSpace := hs ▸ List.rdropWhile_prefix _ _
      obtain ⟨t, ht⟩ := hprefix
      have hc := List.head?_dropWhile_not isSpace s
      rw [← ht, List.cons_append, List.head?_cons] at hc
      rw [List.dropWhile_cons_of_neg (by simp [hc])]
  rw [strip, hhead]
  exact List.rdropWhile_idempotent isSpace _

theorem contains_iff {s w : Str} : contains s w = true ↔ w <:+: s := by
  rw [contains, List.any_eq_true, List.infix_iff_prefix_suffix]
  simp only [List.mem_tails, List.isPrefixOf_iff_prefix]
  exact ⟨fun ⟨t, hs, hw⟩ => ⟨t, hw, hs⟩, fun ⟨t, hw, hs⟩ => ⟨t, hs, hw⟩⟩

def Solid (w : Str) : Prop :=
  (∀ c ∈ w.head?, isSpace c = false) ∧ ∀ c ∈ w.getLast?, isSpace c = false

instance (w : Str) : Decidable (Solid w) :=
  decidable_of_iff ((w.head?.all fun c => !isSpace c) = true ∧
      (w.getLast?.all fun c => !isSpace c) = true) (by
    rw [Solid, Option.all_eq_true, Option.all_eq_true]
    simp only [Bool.not_eq_true', Option.mem_def])

theorem infix_spaces {w s before after : Str} (hw : Solid w)
    (hbefore : ∀ c ∈ before, isSpace c = true) (hafter : ∀ c ∈ after, isSpace c = true) :
    w <:+: before ++ (s ++ after) ↔ w <:+: s := by
  constructor
  · intro h
    have hright : w <:+: s ++ after := by
      induction before with
      | nil => exact h
      | cons c before ih =>
        have hrest := ih fun d hd => hbefore d (List.mem_cons_of_mem c hd)
        rw [List.cons_append, List.infix_cons_iff, List.prefix_cons_iff] at h
        rcases h with (rfl | ⟨t, rfl, -⟩) | h
        · exact List.nil_infix
        · have hc := hw.1 c rfl
          rw [hbefore c (by simp)] at hc
          cases hc
        · exact hrest h
    clear h
    induction after using List.reverseRecOn with
    | nil => simpa using hright
    | append_singleton after c ih =>
      rw [← List.append_assoc, List.infix_concat_iff, List.suffix_concat_iff] at hright
      rcases hright with (rfl | ⟨t, rfl, -⟩) | hright
      · exact List.nil_infix
      · have hc := hw.2 c (by simp)
        rw [hafter c (by simp)] at hc
        cases hc
      · exact ih (fun d hd => hafter d (List.mem_append_left _ hd)) hright
  · intro h
    exact h.trans ((List.infix_append' [] s after).trans (List.suffix_append _ _).isInfix)

theorem contains_strip (s : Str) {w : Str} (hw : Solid w) : contains (strip s) w = contains s w := by
  obtain ⟨before, after, hs, hbefore, hafter⟩ := strip_split s
  rw [Bool.eq_iff_iff, contains_iff, contains_iff]
  conv_rhs => rw [hs]
  exact (infix_spaces hw hbefore hafter).symm

theorem upperChar_ascii_space : ∀ n < 128, isSpace (Char.ofNat n) = true →
    (Char.ofNat n).toUpper = Char.ofNat n := by decide

theorem upperChar_space {c : Char} (h : isSpace c = true) : upperChar c = [c] := by
  have hof : Char.ofNat c.toNat = c := Char.ofNat_toNat c
  by_cases hascii : c.toNat < 128
  · have hupper := upperChar_ascii_space c.toNat hascii
    rw [hof] at hupper
    rw [upperChar, if_pos hascii, hupper h]
  · simp only [isSpace, Bool.or_eq_true, Bool.and_eq_true, decide_eq_true_eq, beq_iff_eq] at h
    simp only [upperChar, hascii, if_false, beq_iff_eq, Bool.or_eq_true]
    repeat rw [if_neg (by omega)]

theorem upper_append (s t : Str) : upper (s ++ t) = upper s ++ upper t := List.flatMap_append

theorem upper_spaces {s : Str} (h : ∀ c ∈ s, isSpace c = true) : upper s = s := by
  induction s with
  | nil => rfl
  | cons c cs ih =>
    rw [upper, List.flatMap_cons, upperChar_space (h c (by simp))]
    exact congrArg (c :: ·) (ih fun d hd => h d (List.mem_cons_of_mem c hd))

theorem contains_upper_strip (s : Str) {w : Str} (hw : Solid w) :
    contains (upper (strip s)) w = contains (upper s) w := by
  obtain ⟨before, after, hs, hbefore, hafter⟩ := strip_split s
  rw [Bool.eq_iff_iff, contains_iff, contains_iff]
  conv_rhs => rw [hs, upper_append, upper_append, upper_spaces hbefore, upper_spaces hafter]
  exact (infix_spaces hw hbefore hafter).symm

theorem any_strip {f : Str → Bool} (hf : ∀ line, f (strip line) = f line) (lines : List Str) :
    (lines.map strip).any f = lines.any f := by
  rw [List.any_map]
  congr 1
  funext line
  exact hf line

theorem numbered_strip {β : Type} {f : Str → Nat → List β} (hf : ∀ line n, f (strip line) n = f line n)
    (startLine : Nat) (lines : List Str) :
    ((lines.map strip).zipIdx startLine).flatMap (fun p => f p.1 p.2) =
      (lines.zipIdx startLine).flatMap fun p => f p.1 p.2 := by
  rw [List.zipIdx_map, List.flatMap_map]
  congr 1
  funext p
  exact hf p.1 p.2

theorem foldl_strip {σ : Type} {f : σ → Str → σ} (hf : ∀ st line, f st (strip line) = f st line)
    (st : σ) (lines : List Str) : (lines.map strip).foldl f st = lines.foldl f st := by
  rw [List.foldl_map]
  congr 1
  funext st line
  exact hf st line

section Words

variable [Alnum]

theorem parseBlock_strip (lines : List Str) (fileName : Str) (startLine : Nat) :
    CassetteParser.parseBlock (lines.map strip) fileName startLine =
      CassetteParser.parseBlock lines fileName startLine := by
  have hinfo : CassetteParser.hasCassetteInfo (lines.map strip) = CassetteParser.hasCassetteInfo lines :=
    any_strip (fun line => contains_strip line (by decide)) lines
  have hcleared : CassetteParser.isCleared (lines.map strip) = CassetteParser.isCleared lines :=
    any_strip (fun line => contains_strip line (by decide)) lines
  have hadded : CassetteParser.isAdded (lines.map strip) = CassetteParser.isAdded lines :=
    any_strip (fun line => contains_strip line (by decide)) lines
  have hactions : CassetteParser.actionSnapshots fileName startLine (lines.map strip) =
      CassetteParser.actionSnapshots fileName startLine lines :=
    numbered_strip (fun line n => by simp only [CassetteParser.actionLine, strip_idem]) startLine lines
  have hrows : CassetteParser.infoSnapshots fileName startLine (lines.map strip) =
      CassetteParser.infoSnapshots fileName startLine lines :=
    numbered_strip (fun line n => by simp only [CassetteParser.infoLine, strip_idem]) startLine lines
  have htotals : CassetteParser.cashTotals (lines.map strip) = CassetteParser.cashTotals lines :=
    foldl_strip (f := CassetteParser.totalsLine)
      (fun t line => by simp only [CassetteParser.totalsLine, strip_idem]) {} lines
  have hcounts : ∀ mode snaps, CassetteParser.countSnapshots mode (lines.map strip) snaps =
      CassetteParser.countSnapshots mode lines snaps := fun mode snaps =>
    congrArg Prod.snd
      (foldl_strip (fun st line => by simp only [CassetteParser.countLine, strip_idem]) (none, snaps)
        lines)
  simp only [CassetteParser.parseBlock, CassetteParser.countMode, hinfo, hcleared, hadded, hactions,
    hrows, htotals, hcounts, List.length_map]

end Words

theorem supervisorAction_strip (lines : List Str) :
    SupervisorParser.supervisorAction (lines.map strip) = SupervisorParser.supervisorAction lines := by
  induction lines with
  | nil => rfl
  | cons line rest ih =>
    have henters : SupervisorParser.entersSupervisor (strip line) =
        SupervisorParser.entersSupervisor line := by
      rw [SupervisorParser.entersSupervisor, contains_upper_strip line (by decide),
        contains_upper_strip line (by decide)]
      rfl
    have hexits : SupervisorParser.exitsSupervisor (strip line) =
        SupervisorParser.exitsSupervisor line := contains_upper_strip line (by decide)
    rw [List.map_cons, SupervisorParser.supervisorAction, henters, hexits, ih]
    rfl

structure Trimmed (b b' : Block) : Prop where
  seq : b'.seq = b.seq
  dt : b'.dt = b.dt
  startIdx : b'.startIdx = b.startIdx
  extra : strip b'.extra = strip b.extra
  lines : b'.lines.map strip = b.lines.map strip

section Blocks

variable [Alnum] {fileName : Str} {b b' : Block}

omit [Alnum] in
theorem Trimmed.searchText (h : Trimmed b b') : b'.searchText = b.searchText := by
  rw [Block.searchText, Block.searchText, h.extra, h.lines]

theorem Trimmed.blockSnapshots (h : Trimmed b b') :
    blockSnapshots fileName b' = blockSnapshots fileName b := by
  rw [EjParser.blockSnapshots, EjParser.blockSnapshots, ← parseBlock_strip, h.lines, parseBlock_strip,
    Block.startLine, h.startIdx]
  rfl

omit [Alnum] in
theorem Trimmed.length_lines (h : Trimmed b b') : b'.lines.length = b.lines.length := by
  simpa using congrArg List.length h.lines

omit [Alnum] in
theorem Trimmed.startLine (h : Trimmed b b') : b'.startLine = b.startLine := by
  rw [Block.startLine, Block.startLine, h.startIdx]

omit [Alnum] in
theorem Trimmed.supervisor (h : Trimmed b b') :
    SupervisorParser.parseBlock b'.lines b'.seq b'.dt fileName b'.startLine =
      SupervisorParser.parseBlock b.lines b.seq b.dt fileName b.startLine := by
  rw [SupervisorParser.parseBlock, ← supervisorAction_strip, h.lines, supervisorAction_strip, h.seq,
    h.dt, h.startLine, h.length_lines]
  rfl

theorem Trimmed.blockVerdict (h : Trimmed b b') :
    blockVerdict fileName b' = blockVerdict fileName b := by
  rw [EjParser.blockVerdict, EjParser.blockVerdict, h.blockSnapshots, h.searchText, h.supervisor]

theorem Trimmed.recognised (h : Trimmed b b') : b'.recognised fileName = b.recognised fileName := by
  rw [Block.recognised, Block.recognised, h.blockVerdict]

end Blocks

end AtmMonitor.TrimmedLines
