import AtmMonitor.AppendedLines
import AtmMonitor.EventPatterns

namespace AtmMonitor.CappedReading

open Library.Lines PyText FileUtils AppendedLines

def reading (content : Bytes) : ReadAttempt := ⟨some content.length, some content, []⟩

structure Call where
  offset : Nat
  lines : List Str
  newOffset : Nat
  deriving DecidableEq

/-- The calls from an offset on, when they are at most `fuel`. -/
def readCalls (maxBytes : Nat) (content : Bytes) : Nat → Nat → Option (List Call)
  | 0, _ => none
  | fuel + 1, offset =>
    let r := readAppendedLines maxBytes true [reading content] offset
    let call : Call := ⟨offset, r.1, r.2.1⟩
    if r.2.1 < r.2.2 then (readCalls maxBytes content fuel r.2.1).map (call :: ·) else some [call]

/-- What a call returns are the bytes from its offset to the new one, and it does not go on after
the cap. -/
structure Covers (maxBytes : Nat) (content : Bytes) (c : Call) : Prop where
  text : c.lines.flatten = decode ((content.take c.newOffset).drop c.offset)
  overshoot : ∀ last ∈ c.lines.getLast?, c.newOffset < c.offset + maxBytes + last.length

theorem newline_ascii : ∀ n : Fin 128, EventPatterns.isNewline (Char.ofNat n.val) =
    AppendedLines.isNewline (UInt8.ofNat n.val) := by decide

theorem fileLines_text {bs : Bytes} (h : Plain bs) :
    fileLines bs = lines EventPatterns.isNewline (decode bs) := by
  have hmap : lines EventPatterns.isNewline (bs.map fun b => Char.ofNat b.toNat) =
      (lines AppendedLines.isNewline bs).map (List.map fun b => Char.ofNat b.toNat) := by
    refine lines_map fun b hb => ?_
    have hascii := newline_ascii ⟨b.toNat, (h b hb).1⟩
    rwa [UInt8.ofNat_toNat] at hascii
  rw [decode_plain fun b hb => (h b hb).1, hmap, fileLines]
  refine List.map_congr_left fun l hl => ?_
  rw [textLine_line (h.line hl) (line_open hl), decode_plain fun b hb => (h.line hl b hb).1]

theorem fileLines_flatten {bs : Bytes} (h : Plain bs) : (fileLines bs).flatten = decode bs := by
  rw [fileLines_text h, lines_flatten]

theorem covers_call {maxBytes : Nat} {before chunk rest : Bytes}
    (h : Plain (before ++ (chunk ++ rest))) (hchunk : Consumes maxBytes 0 (chunk ++ rest) chunk rest) :
    Covers maxBytes (before ++ (chunk ++ rest))
      ⟨before.length, fileLines chunk, before.length + chunk.length⟩ where
  text := by
    have hslice : ((before ++ (chunk ++ rest)).take (before.length + chunk.length)).drop
        before.length = chunk := by
      rw [← List.append_assoc, ← List.length_append, List.take_left, List.drop_left]
    rw [hslice, fileLines_flatten h.right.left]
  overshoot := by
    intro last hlast
    rw [fileLines, List.getLast?_map, Option.mem_def, Option.map_eq_some_iff] at hlast
    obtain ⟨l, hl, rfl⟩ := hlast
    have hplain : Plain chunk := h.right.left
    have hmem : l ∈ lines AppendedLines.isNewline chunk := List.mem_of_getLast? hl
    have hlength : (textLine l).length = l.length := by
      rw [textLine_line (hplain.line hmem) (line_open hmem),
        decode_plain fun b hb => (hplain.line hmem b hb).1, List.length_map]
    have hne : chunk ≠ [] := fun hnil => List.ne_nil_of_mem hmem (lines_eq_nil.mpr hnil)
    have hchunk' := congrArg List.length (lines_flatten AppendedLines.isNewline chunk)
    rw [← List.dropLast_append_getLast? l hl, List.flatten_append, List.flatten_singleton,
      List.length_append] at hchunk'
    have hlast := hchunk.last hne
    simp only [hlength]
    omega

theorem readCalls_succ (maxBytes fuel : Nat) {before chunk rest : Bytes}
    (hread : readAppendedLines maxBytes true [reading (before ++ (chunk ++ rest))] before.length =
      (fileLines chunk, before.length + chunk.length, (before ++ (chunk ++ rest)).length)) :
    readCalls maxBytes (before ++ (chunk ++ rest)) (fuel + 1) before.length =
      if rest = [] then some [⟨before.length, fileLines chunk, before.length + chunk.length⟩]
      else (readCalls maxBytes (before ++ (chunk ++ rest)) fuel (before.length + chunk.length)).map
        (⟨before.length, fileLines chunk, before.length + chunk.length⟩ :: ·) := by
  have hmore : before.length + chunk.length < (before ++ (chunk ++ rest)).length ↔ rest ≠ [] := by
    rw [List.length_append, List.length_append, ← List.length_pos_iff]
    omega
  simp only [readCalls, hread, hmore, ite_not]

/-- From the beginning of a line the calls read the rest of the file, whatever is left of the cap. -/
theorem readCalls_covers {maxBytes : Nat} (hmax : 0 < maxBytes) {content : Bytes}
    (hplain : Plain content) {before after : Bytes} (hsplit : before ++ after = content)
    (hcut : Complete AppendedLines.isNewline before) :
    ∃ calls, (∀ fuel, after.length < fuel →
        readCalls maxBytes content fuel before.length = some calls) ∧
      (∀ c ∈ calls, Covers maxBytes content c) ∧ calls.flatMap (·.lines) = fileLines after := by
  induction hn : after.length using Nat.strong_induction_on generalizing before after with
  | _ n ih =>
    have hwithin : before.length ≤ content.length := by
      rw [← hsplit, List.length_append]
      exact Nat.le_add_right ..
    have hattempt : [reading content].head? = some (reading content) := rfl
    obtain ⟨chunk, rest, hread, hchunk⟩ :=
      readAppendedLines_consumes maxBytes hplain hwithin hattempt
    have hdrop : content.drop before.length = after := by rw [← hsplit, List.drop_left]
    rw [hdrop] at hchunk
    obtain rfl := hchunk.split
    subst hsplit
    have hcall := covers_call hplain hchunk
    have hstep := fun fuel => readCalls_succ maxBytes fuel hread
    set call : Call := ⟨before.length, fileLines chunk, before.length + chunk.length⟩
    by_cases hrest : rest = []
    · refine ⟨[call], fun fuel hfuel => ?_, by simpa using hcall, ?_⟩
      · obtain ⟨fuel, rfl⟩ := Nat.exists_eq_add_of_lt hfuel
        rw [hstep, if_pos hrest]
      · rw [hrest, List.append_nil, List.flatMap_singleton]
    · have hne := hchunk.ne_nil hmax hrest
      have hlt : rest.length < n := by
        rw [← hn, List.length_append]
        exact Nat.lt_add_of_pos_left (List.length_pos_iff.mpr hne)
      have hcut' : Complete AppendedLines.isNewline (before ++ chunk) := by
        rw [Complete, List.getLast?_append_of_ne_nil _ hne]
        exact hchunk.whole hrest
      obtain ⟨calls, hcalls, hcovers, hlines⟩ :=
        ih rest.length hlt (List.append_assoc before chunk rest) hcut' rfl
      refine ⟨call :: calls, fun fuel hfuel => ?_, List.forall_mem_cons.mpr ⟨hcall, hcovers⟩, ?_⟩
      · obtain ⟨fuel, rfl⟩ := Nat.exists_eq_add_of_lt hfuel
        rw [List.length_append] at hcalls
        rw [hstep, if_neg hrest, hcalls _ (by omega)]
        rfl
      · rw [List.flatMap_cons, hlines]
        simp only [fileLines, lines_append (hchunk.whole hrest), List.map_append, call]

/-- Reading from the beginning ends, and gives every line of the file once, each whole and in its
place. -/
theorem capped_reading {maxBytes : Nat} (hmax : 0 < maxBytes) {content : Bytes}
    (hplain : Plain content) :
    ∃ calls, (∀ fuel, content.length < fuel → readCalls maxBytes content fuel 0 = some calls) ∧
      (∀ c ∈ calls, Covers maxBytes content c) ∧
      calls.flatMap (·.lines) = lines EventPatterns.isNewline (decode content) ∧
      ∀ line ∈ (calls.flatMap (·.lines)).dropLast, line.getLast? = some '\n' := by
  obtain ⟨calls, hcalls, hcovers, hlines⟩ :=
    readCalls_covers hmax hplain (List.nil_append content) complete_nil
  rw [fileLines_text hplain] at hlines
  refine ⟨calls, hcalls, hcovers, hlines, fun line hline => ?_⟩
  rw [hlines] at hline
  obtain ⟨c, hc, hend⟩ := line_closed hline
  rw [EventPatterns.isNewline, beq_iff_eq] at hend
  rw [← hend]
  exact hc

def threeLines : Bytes := [65, 66, 67, 10, 68, 10, 69]

theorem capped_reading_three_lines :
    ∃ calls, (∀ fuel, threeLines.length < fuel → readCalls 3 threeLines fuel 0 = some calls) ∧
      (∀ c ∈ calls, Covers 3 threeLines c) ∧
      calls.flatMap (·.lines) = lines EventPatterns.isNewline (decode threeLines) ∧
      ∀ line ∈ (calls.flatMap (·.lines)).dropLast, line.getLast? = some '\n' :=
  @capped_reading 3 (by decide) threeLines (by simp [Plain, threeLines])

example : readCalls 3 threeLines 8 0 =
    some [⟨0, ["ABC\n".toList], 4⟩, ⟨4, ["D\n".toList, "E".toList], 7⟩] := by decide

end AtmMonitor.CappedReading
