import Mathlib.Data.List.Induction
import Mathlib.Data.List.Nodup

namespace AtmMonitor.Library.Upsert

variable {α β κ : Type} [DecidableEq κ] (key : β → κ)

/-- Update the first entry with the key of `fresh` in place, appending one if there is none. -/
def upsert (fresh : β) (f : β → β) : List β → List β
  | [] => [f fresh]
  | b :: rest => if key b = key fresh then f b :: rest else b :: upsert fresh f rest

def entryOf (table : List β) (k : κ) : Option β := table.find? fun b => key b = k

variable {key}

theorem entry_upsert {f : β → β} (hf : ∀ b, key (f b) = key b) (fresh : β) (table : List β) (k : κ) :
    entryOf key (upsert key fresh f table) k =
      if key fresh = k then some (f ((entryOf key table k).getD fresh)) else entryOf key table k := by
  induction table with
  | nil =>
    rw [upsert, entryOf, List.find?_singleton, hf]
    simp [entryOf]
  | cons b rest ih =>
    rw [upsert]
    by_cases hb : key b = key fresh
    · rw [if_pos hb, entryOf, entryOf, List.find?_cons, List.find?_cons, hf, hb]
      by_cases hk : key fresh = k <;> simp [hk]
    · rw [if_neg hb]
      simp only [entryOf, List.find?_cons] at ih ⊢
      by_cases hk : key b = k
      · have hne : key fresh ≠ k := fun h => hb (hk.trans h.symm)
        simp [hk, hne]
      · simp [hk, ih]

theorem upsert_known {γ : Type} {π : β → γ} {f : β → β} (hf : ∀ b, π (f b) = π b) {fresh : β}
    {table : List β} (h : key fresh ∈ table.map key) :
    (upsert key fresh f table).map π = table.map π := by
  induction table with
  | nil => simp at h
  | cons b rest ih =>
    rw [upsert]
    split_ifs with hb
    · rw [List.map_cons, List.map_cons, hf]
    · rw [List.map_cons, List.mem_cons] at h
      rw [List.map_cons, List.map_cons, ih (h.resolve_left (Ne.symm hb))]

theorem upsert_new {fresh : β} {table : List β} (h : key fresh ∉ table.map key) (f : β → β) :
    upsert key fresh f table = table ++ [f fresh] := by
  induction table with
  | nil => rfl
  | cons b rest ih =>
    rw [List.map_cons, List.mem_cons, not_or] at h
    rw [upsert, if_neg (Ne.symm h.1), ih h.2]
    rfl

theorem upsert_nodup {f : β → β} (hf : ∀ b, key (f b) = key b) (fresh : β) {table : List β}
    (h : (table.map key).Nodup) : ((upsert key fresh f table).map key).Nodup := by
  by_cases hk : key fresh ∈ table.map key
  · rwa [upsert_known hf hk]
  · rw [upsert_new hk, List.map_append, List.map_singleton, hf, ← List.concat_eq_append]
    exact h.concat hk

theorem upsert_append (fresh : β) (f : β → β) (first second : List β) :
    upsert key fresh f (first ++ second) =
      if key fresh ∈ first.map key then upsert key fresh f first ++ second
      else first ++ upsert key fresh f second := by
  induction first with
  | nil => simp
  | cons b rest ih =>
    rw [List.cons_append, upsert, upsert, ih]
    by_cases hb : key b = key fresh
    · have hmem : key fresh ∈ (b :: rest).map key := by simp [hb]
      rw [if_pos hb, if_pos hb, if_pos hmem]
      rfl
    · have hmem : key fresh ∈ (b :: rest).map key ↔ key fresh ∈ rest.map key := by
        rw [List.map_cons, List.mem_cons]
        exact or_iff_right (Ne.symm hb)
      rw [if_neg hb, if_neg hb]
      simp only [hmem]
      split_ifs <;> rfl

theorem mem_iff_entry {table : List β} (h : (table.map key).Nodup) {b : β} :
    b ∈ table ↔ entryOf key table (key b) = some b := by
  constructor
  · intro hb
    obtain ⟨before, after, rfl⟩ := List.append_of_mem hb
    rw [List.map_append, List.nodup_append] at h
    have hbefore : before.find? (fun c => key c = key b) = none := by
      rw [List.find?_eq_none]
      intro c hc
      simpa using h.2.2 (key c) (List.mem_map_of_mem hc) (key b) (by simp)
    rw [entryOf, List.find?_append, hbefore]
    simp
  · exact List.mem_of_find?_eq_some

variable {fresh : α → β} {f : α → β → β}

variable (key fresh f) in
def upserts (table : List β) (xs : List α) : List β :=
  xs.foldl (fun t x => upsert key (fresh x) (f x) t) table

theorem upserts_snoc (table : List β) (xs : List α) (x : α) :
    upserts key fresh f table (xs ++ [x]) =
      upsert key (fresh x) (f x) (upserts key fresh f table xs) := by
  rw [upserts, List.foldl_append]
  rfl

theorem entry_upserts (hf : ∀ x b, key (f x b) = key b) (table : List β) (xs : List α) (k : κ) :
    entryOf key (upserts key fresh f table xs) k =
      (xs.filter fun x => key (fresh x) = k).foldl (fun e x => some (f x (e.getD (fresh x))))
        (entryOf key table k) := by
  induction xs using List.reverseRecOn with
  | nil => rfl
  | append_singleton xs x ih =>
    rw [upserts_snoc, entry_upsert (hf x), ih, List.filter_append, List.foldl_append,
      List.filter_singleton]
    by_cases hk : key (fresh x) = k <;> simp [hk]

theorem upserts_nodup (hf : ∀ x b, key (f x b) = key b) {table : List β} (xs : List α)
    (h : (table.map key).Nodup) : ((upserts key fresh f table xs).map key).Nodup := by
  induction xs using List.reverseRecOn with
  | nil => exact h
  | append_singleton xs x ih =>
    rw [upserts_snoc]
    exact upsert_nodup (hf x) (fresh x) ih

theorem upserts_map {γ : Type} {π : β → γ} (hkey : ∀ x b, key (f x b) = key b) {table : List β}
    {xs : List α} (hf : ∀ x ∈ xs, ∀ b, π (f x b) = π b)
    (h : ∀ x ∈ xs, key (fresh x) ∈ table.map key) :
    (upserts key fresh f table xs).map π = table.map π := by
  have hboth : (upserts key fresh f table xs).map (fun b => (key b, π b)) =
      table.map fun b => (key b, π b) := by
    induction xs using List.reverseRecOn with
    | nil => rfl
    | append_singleton xs x ih =>
      have hxs := ih (fun y hy => hf y (List.mem_append_left _ hy))
        fun y hy => h y (List.mem_append_left _ hy)
      have hkeys : (upserts key fresh f table xs).map key = table.map key := by
        have := congrArg (List.map Prod.fst) hxs
        rwa [List.map_map, List.map_map] at this
      rw [upserts_snoc, upsert_known (fun b => by rw [hkey, hf x (by simp)]), hxs]
      rw [hkeys]
      exact h x (by simp)
  have := congrArg (List.map Prod.snd) hboth
  rwa [List.map_map, List.map_map] at this

theorem upserts_known {fresh' : α → β} (hf : ∀ x b, key (f x b) = key b)
    (hfresh : ∀ x, key (fresh' x) = key (fresh x)) {table : List β} {xs : List α}
    (h : ∀ x ∈ xs, key (fresh x) ∈ table.map key) :
    upserts key fresh f table xs = upserts key fresh' f table xs := by
  have hsame : ∀ (x : α) (t : List β), key (fresh x) ∈ t.map key →
      upsert key (fresh x) (f x) t = upsert key (fresh' x) (f x) t := by
    intro x t ht
    induction t with
    | nil => simp at ht
    | cons b rest ih =>
      rw [upsert, upsert, hfresh]
      split_ifs with hb
      · rfl
      · rw [List.map_cons, List.mem_cons] at ht
        rw [ih (ht.resolve_left (Ne.symm hb))]
  induction xs using List.reverseRecOn with
  | nil => rfl
  | append_singleton xs x ih =>
    have hxs : ∀ y ∈ xs, key (fresh y) ∈ table.map key := fun y hy =>
      h y (List.mem_append_left _ hy)
    rw [upserts_snoc, upserts_snoc, ← ih hxs, hsame x]
    rw [upserts_map hf (fun y _ => hf y) hxs]
    exact h x (by simp)

variable (fresh) in
/-- The updates of the entries that were there and those of the others do not touch each other. -/
theorem upserts_append (hf : ∀ x b, key (f x b) = key b) (first second : List β) (xs : List α) :
    upserts key fresh f (first ++ second) xs =
      upserts key fresh f first (xs.filter fun x => decide (key (fresh x) ∈ first.map key)) ++
        upserts key fresh f second (xs.filter fun x => !decide (key (fresh x) ∈ first.map key)) := by
  induction xs using List.reverseRecOn with
  | nil => rfl
  | append_singleton xs x ih =>
    have hkeys : (upserts key fresh f first
        (xs.filter fun x => decide (key (fresh x) ∈ first.map key))).map key = first.map key :=
      upserts_map hf (fun y _ => hf y) fun y hy => by simpa using (List.mem_filter.mp hy).2
    rw [upserts_snoc, ih, upsert_append, hkeys, List.filter_append, List.filter_append,
      List.filter_singleton, List.filter_singleton]
    by_cases hx : key (fresh x) ∈ first.map key
    · simp only [hx, if_true, decide_true, Bool.not_true, cond_true, cond_false, List.append_nil]
      rw [upserts_snoc]
    · simp only [hx, if_false, decide_false, Bool.not_false, cond_true, cond_false, List.append_nil]
      rw [upserts_snoc]

theorem last_concat {γ : Type} (write : α → Option γ) (xs : List α) (x : α) :
    ((xs ++ [x]).filterMap write).getLast? = (write x).or (xs.filterMap write).getLast? := by
  rw [List.filterMap_append, List.getLast?_append]
  cases hw : write x <;> simp [hw]

theorem foldl_last {γ : Type} {π : β → γ} {write : α → Option γ}
    (h : ∀ x b, π (f x b) = (write x).getD (π b)) (xs : List α) (b : β) :
    π (xs.foldl (fun b x => f x b) b) = (xs.filterMap write).getLast?.getD (π b) := by
  induction xs using List.reverseRecOn with
  | nil => rfl
  | append_singleton xs x ih =>
    rw [List.foldl_append, List.foldl_cons, List.foldl_nil, h, ih, last_concat]
    cases write x <;> rfl

theorem entry_upserts_last {γ : Type} {π : β → Option γ} {write : α → Option γ}
    (hf : ∀ x b, key (f x b) = key b) (hfresh : ∀ x, π (fresh x) = none)
    (h : ∀ x b, π (f x b) = (write x).or (π b)) (table : List β) (xs : List α) (k : κ) :
    (entryOf key (upserts key fresh f table xs) k).bind π =
      ((xs.filter fun x => key (fresh x) = k).filterMap write).getLast?.or
        ((entryOf key table k).bind π) := by
  induction xs using List.reverseRecOn with
  | nil => rfl
  | append_singleton xs x ih =>
    rw [upserts_snoc, entry_upsert (hf x), List.filter_append, List.filter_singleton]
    by_cases hk : key (fresh x) = k
    · have hbefore : π ((entryOf key (upserts key fresh f table xs) k).getD (fresh x)) =
          (entryOf key (upserts key fresh f table xs) k).bind π := by
        cases entryOf key (upserts key fresh f table xs) k with
        | none => exact hfresh x
        | some b => rfl
      rw [if_pos hk, Option.bind_some, h, hbefore, ih, decide_eq_true hk, cond_true, last_concat,
        Option.or_assoc]
    · rw [if_neg hk, ih, decide_eq_false hk, cond_false, List.append_nil]

theorem entry_upserts_nil (hf : ∀ x b, key (f x b) = key b) (mk : κ → β)
    (hfresh : ∀ x, fresh x = mk (key (fresh x))) (xs : List α) (k : κ) {b : β} :
    entryOf key (upserts key fresh f [] xs) k = some b ↔
      (∃ x ∈ xs, key (fresh x) = k) ∧
        (xs.filter fun x => key (fresh x) = k).foldl (fun b x => f x b) (mk k) = b := by
  have hown : ∀ own : List α, (∀ x ∈ own, key (fresh x) = k) → own ≠ [] →
      own.foldl (fun e x => some (f x (e.getD (fresh x)))) none =
        some (own.foldl (fun b x => f x b) (mk k)) := by
    intro own hkeys hne
    have hsome : ∀ (rest : List α) (b : β),
        rest.foldl (fun e x => some (f x (e.getD (fresh x)))) (some b) =
          some (rest.foldl (fun b x => f x b) b) := by
      intro rest b
      induction rest generalizing b with
      | nil => rfl
      | cons x rest ih => exact ih (f x b)
    cases own with
    | nil => exact absurd rfl hne
    | cons x rest =>
      rw [List.foldl_cons, hsome, List.foldl_cons, Option.getD_none, hfresh x,
        hkeys x (by simp)]
  rw [entry_upserts hf]
  have hempty : entryOf key [] k = none := rfl
  rw [hempty]
  by_cases hx : ∃ x ∈ xs, key (fresh x) = k
  · have hne : (xs.filter fun x => decide (key (fresh x) = k)) ≠ [] := by
      obtain ⟨x, hx, hk⟩ := hx
      exact List.ne_nil_of_mem (List.mem_filter.mpr ⟨hx, by simpa using hk⟩)
    rw [hown _ (fun x hx => by simpa using (List.mem_filter.mp hx).2) hne, Option.some_inj]
    exact (and_iff_right hx).symm
  · have hnil : (xs.filter fun x => decide (key (fresh x) = k)) = [] := by
      rw [List.filter_eq_nil_iff]
      intro x hxs hk
      exact hx ⟨x, hxs, by simpa using hk⟩
    rw [hnil]
    simp [hx]

abbrev Dict (κ ν : Type) := List (κ × ν)

variable {ν : Type}

def Dict.get (d : Dict κ ν) (k : κ) : Option ν := (entryOf Prod.fst d k).map Prod.snd

/-- Change the value of a key, which first is put in as new where it is missing. -/
def Dict.modify (d : Dict κ ν) (k : κ) (new : ν) (f : ν → ν) : Dict κ ν :=
  upsert Prod.fst (k, new) (fun e => (e.1, f e.2)) d

def Dict.set (d : Dict κ ν) (k : κ) (v : ν) : Dict κ ν := d.modify k v fun _ => v

theorem Dict.get_modify (d : Dict κ ν) (k k' : κ) (new : ν) (f : ν → ν) :
    (d.modify k new f).get k' = if k = k' then some (f ((d.get k).getD new)) else d.get k' := by
  have hkey : ∀ e : κ × ν, Prod.fst (e.1, f e.2) = e.1 := fun _ => rfl
  rw [Dict.get, Dict.modify, entry_upsert hkey]
  split_ifs with hk
  · subst hk
    rw [Dict.get]
    cases entryOf Prod.fst d k <;> rfl
  · rfl

theorem Dict.get_set (d : Dict κ ν) (k k' : κ) (v : ν) :
    (d.set k v).get k' = if k = k' then some v else d.get k' := d.get_modify k k' v fun _ => v

end AtmMonitor.Library.Upsert
