import Mathlib.Data.List.Chain
import Mathlib.Data.List.TakeWhile

namespace AtmMonitor.Library.Sections

variable {α : Type} (isHead : α → Bool)

def before (xs : List α) : List α := xs.takeWhile fun x => !isHead x

def rest (xs : List α) : List α := xs.dropWhile fun x => !isHead x

/-- The sections of a list, each with the index of its head, when the list begins at index `n`. -/
def sections : Nat → List α → List (Nat × List α)
  | _, [] => []
  | n, x :: xs =>
    if isHead x then (n, x :: before isHead xs) :: sections (n + 1) xs else sections (n + 1) xs

variable {isHead}

theorem drop_before (xs : List α) : xs.drop (before isHead xs).length = rest isHead xs := by
  have hdrop : (before isHead xs ++ rest isHead xs).drop (before isHead xs).length =
      rest isHead xs := List.drop_left
  rwa [before, rest, List.takeWhile_append_dropWhile] at hdrop

theorem flatMap_sections (n : Nat) (xs : List α) :
    (sections isHead n xs).flatMap Prod.snd = rest isHead xs := by
  induction xs generalizing n with
  | nil => rfl
  | cons x xs ih =>
    rw [sections, rest]
    cases hx : isHead x with
    | true =>
      rw [if_pos rfl, List.flatMap_cons, ih (n + 1), List.cons_append, before, rest,
        List.takeWhile_append_dropWhile, List.dropWhile_cons_of_neg (by simp [hx])]
    | false =>
      rw [if_neg Bool.false_ne_true, ih (n + 1), List.dropWhile_cons_of_pos (by simp [hx]), rest]

/-- A section begins with a head and has no other. -/
theorem mem_sections {n : Nat} {xs : List α} {p : Nat × List α} (h : p ∈ sections isHead n xs) :
    ∃ x body, p.2 = x :: body ∧ isHead x = true ∧ ∀ y ∈ body, isHead y = false := by
  induction xs generalizing n with
  | nil => cases h
  | cons x xs ih =>
    rw [sections] at h
    split_ifs at h with hx
    · obtain rfl | h := List.mem_cons.mp h
      · refine ⟨x, before isHead xs, rfl, hx, fun y hy => ?_⟩
        simpa using List.mem_takeWhile_imp hy
      · exact ih h
    · exact ih h

theorem head?_sections {n : Nat} {xs : List α} {p : Nat × List α}
    (h : (sections isHead n xs).head? = some p) : p.1 = n + (before isHead xs).length := by
  induction xs generalizing n with
  | nil => cases h
  | cons x xs ih =>
    rw [sections] at h
    rw [before]
    cases hx : isHead x with
    | true =>
      rw [if_pos hx, List.head?_cons, Option.some.injEq] at h
      rw [← h, List.takeWhile_cons_of_neg (by simp [hx])]
      rfl
    | false =>
      rw [if_neg (by simp [hx])] at h
      rw [ih h, List.takeWhile_cons_of_pos (by simp [hx]), before, List.length_cons]
      omega

theorem sections_chain (n : Nat) (xs : List α) :
    (sections isHead n xs).IsChain fun p q => q.1 = p.1 + p.2.length := by
  induction xs generalizing n with
  | nil => exact List.isChain_nil
  | cons x xs ih =>
    rw [sections]
    split_ifs
    · refine List.isChain_cons.mpr ⟨fun q hq => ?_, ih (n + 1)⟩
      rw [head?_sections hq, List.length_cons]
      omega
    · exact ih (n + 1)

def EndsBefore (p q : Nat × List α) : Prop := p.1 + p.2.length ≤ q.1

instance : IsTrans (Nat × List α) EndsBefore where
  trans _ _ _ hpq hqr := (hpq.trans (Nat.le_add_right _ _)).trans hqr

theorem sections_sorted (n : Nat) (xs : List α) : (sections isHead n xs).Pairwise EndsBefore :=
  ((sections_chain n xs).imp fun _ _ h => h.ge).pairwise

theorem slice_of_mem {n : Nat} {xs : List α} {p : Nat × List α} (h : p ∈ sections isHead n xs) :
    ∃ i, p.1 = n + i ∧ p.2 <+: xs.drop i := by
  induction xs generalizing n with
  | nil => cases h
  | cons x xs ih =>
    rw [sections] at h
    split_ifs at h with hx
    · obtain rfl | h := List.mem_cons.mp h
      · exact ⟨0, rfl, (List.prefix_cons_inj x).mpr (List.takeWhile_prefix _)⟩
      · obtain ⟨i, hi, hprefix⟩ := ih h
        exact ⟨i + 1, by omega, hprefix⟩
    · obtain ⟨i, hi, hprefix⟩ := ih h
      exact ⟨i + 1, by omega, hprefix⟩

end AtmMonitor.Library.Sections
