import Mathlib.Data.Fintype.Pi
import Mathlib.Data.Option.Basic
import Mathlib.Logic.Function.Basic

namespace AtmMonitor.Library.UnitOfWork

variable {ι κ α : Type} {β : κ → Type}

abbrev Row (β : κ → Type) := (c : κ) → β c

abbrev Table (ι : Type) (β : κ → Type) := ι → Option (Row β)

abbrev Changes (β : κ → Type) := (c : κ) → Option (β c)

def Changes.apply (changes : Changes β) (row : Row β) : Row β := fun c => (changes c).getD (row c)

inductive Statement (ι : Type) (β : κ → Type) where
  | insert (id : ι) (row : Row β)
  | update (id : ι) (changes : Changes β)
  | delete (id : ι)

section Run

variable [DecidableEq ι]

/-- An UPDATE of a row that is not there raises, and so does an INSERT of one that is. -/
def Statement.perform (t : Table ι β) : Statement ι β → Option (Table ι β)
  | .insert id row => if (t id).isSome then none else some (Function.update t id (some row))
  | .update id changes => (t id).map fun row => Function.update t id (some (changes.apply row))
  | .delete id => some (Function.update t id none)

def commit (t : Table ι β) (statements : List (Statement ι β)) : Option (Table ι β) :=
  statements.foldlM Statement.perform t

def replay (t : Table ι β) (log : List (List (Statement ι β))) : Option (Table ι β) := log.foldlM commit t

theorem replay_concat {t t' t'' : Table ι β} {log : List (List (Statement ι β))} {statements : List (Statement ι β)}
    (h : replay t log = some t') (hc : commit t' statements = some t'') :
    replay t (log ++ [statements]) = some t'' := by
  rw [replay, List.foldlM_append, ← replay, h]
  show (commit t' statements).bind some = some t''
  rw [hc]
  rfl

end Run

/-- An object of a session, with the row as it was loaded. -/
structure Object (ι : Type) (β : κ → Type) where
  id : ι
  loaded : Row β
  assigned : Row β

section Flush

variable [∀ c, DecidableEq (β c)]

/-- An attribute that was set to the value that it had is left out. -/
def Object.changes (o : Object ι β) : Changes β := fun c => if o.assigned c = o.loaded c then none else some (o.assigned c)

theorem Object.changes_none {o : Object ι β} {c : κ} : o.changes c = none ↔ o.assigned c = o.loaded c := by
  rw [Object.changes]
  by_cases h : o.assigned c = o.loaded c
  · rw [if_pos h]
    exact iff_of_true rfl h
  · rw [if_neg h]
    exact iff_of_false (Option.some_ne_none _) h

def Object.flush [Fintype κ] (o : Object ι β) : Option (Statement ι β) :=
  if o.assigned = o.loaded then none else some (.update o.id o.changes)

end Flush

variable (p : κ → Prop)

def AgreeOn (t t' : Table ι β) : Prop :=
  ∀ id, Option.Rel (fun row row' => ∀ c, p c → row c = row' c) (t id) (t' id)

variable {p}

theorem AgreeOn.refl (t : Table ι β) : AgreeOn p t t := by
  intro id
  cases t id with
  | none => exact .none
  | some row => exact .some fun _ _ => rfl

theorem AgreeOn.symm {t t' : Table ι β} (h : AgreeOn p t t') : AgreeOn p t' t := by
  intro id
  have hid := h id
  generalize t id = row, t' id = row' at hid ⊢
  cases hid with
  | none => exact .none
  | some hsame => exact .some fun c hc => (hsame c hc).symm

theorem AgreeOn.trans {t t' t'' : Table ι β} (h : AgreeOn p t t') (h' : AgreeOn p t' t'') : AgreeOn p t t'' := by
  intro id
  have hid := h id
  have hid' := h' id
  generalize t id = row, t' id = row', t'' id = row'' at hid hid' ⊢
  cases hid with
  | none => exact hid'
  | some hfirst =>
    cases hid' with
    | some hsecond => exact .some fun c hc => (hfirst c hc).trans (hsecond c hc)

theorem AgreeOn.isSome {t t' : Table ι β} (h : AgreeOn p t t') (id : ι) : (t id).isSome = (t' id).isSome := by
  have hid := h id
  generalize t id = row, t' id = row' at hid ⊢
  cases hid <;> rfl

theorem foldlM_rel {σ γ : Type} {R : σ → σ → Prop} {f : σ → γ → Option σ}
    (hf : ∀ s s' x, R s s' → Option.Rel R (f s x) (f s' x)) (xs : List γ) {s s' : σ} (h : R s s') :
    Option.Rel R (xs.foldlM f s) (xs.foldlM f s') := by
  induction xs generalizing s s' with
  | nil => exact .some h
  | cons x xs ih =>
    have hstep := hf s s' x h
    rw [List.foldlM_cons, List.foldlM_cons]
    generalize f s x = next, f s' x = next' at hstep ⊢
    cases hstep with
    | none => exact .none
    | some hrel => exact ih hrel

section Run

variable [DecidableEq ι]

theorem AgreeOn.update {t t' : Table ι β} (h : AgreeOn p t t') (id : ι) {row row' : Option (Row β)}
    (hrow : Option.Rel (fun r r' => ∀ c, p c → r c = r' c) row row') :
    AgreeOn p (Function.update t id row) (Function.update t' id row') := by
  intro id'
  by_cases hid : id' = id
  · subst hid
    rwa [Function.update_self, Function.update_self]
  · rw [Function.update_of_ne hid, Function.update_of_ne hid]
    exact h id'

theorem perform_agree {t t' : Table ι β} (s : Statement ι β) (h : AgreeOn p t t') :
    Option.Rel (AgreeOn p) (s.perform t) (s.perform t') := by
  cases s with
  | insert id row =>
    rw [Statement.perform, Statement.perform, h.isSome id]
    split_ifs
    · exact .none
    · exact .some (h.update id (.some fun _ _ => rfl))
  | update id changes =>
    have hid := h id
    rw [Statement.perform, Statement.perform]
    generalize t id = row, t' id = row' at hid ⊢
    cases hid with
    | none => exact .none
    | some hsame =>
      refine .some (h.update id (.some fun c hc => ?_))
      rw [Changes.apply, Changes.apply, hsame c hc]
  | delete id => exact .some (h.update id .none)

theorem commit_agree {t t' : Table ι β} (statements : List (Statement ι β)) (h : AgreeOn p t t') :
    Option.Rel (AgreeOn p) (commit t statements) (commit t' statements) :=
  foldlM_rel (fun _ _ s hs => perform_agree s hs) statements h

variable (p) in
/-- The statement sets none of the columns, and neither makes nor removes a row. -/
def Statement.Outside : Statement ι β → Prop
  | .update _ changes => ∀ c, p c → changes c = none
  | .insert _ _ | .delete _ => False

theorem perform_outside {t t' : Table ι β} {s : Statement ι β} (hs : s.Outside p) (h : s.perform t = some t') :
    AgreeOn p t t' := by
  cases s with
  | insert id row => exact hs.elim
  | delete id => exact hs.elim
  | update id changes =>
    obtain ⟨row, hrow, rfl⟩ := Option.map_eq_some_iff.mp h
    intro id'
    by_cases hid : id' = id
    · subst hid
      rw [Function.update_self, hrow]
      refine .some fun c hc => ?_
      rw [Changes.apply, hs c hc]
      rfl
    · rw [Function.update_of_ne hid]
      exact AgreeOn.refl _ id'

theorem commit_outside {t t' : Table ι β} {statements : List (Statement ι β)}
    (hs : ∀ s ∈ statements, s.Outside p) (h : commit t statements = some t') : AgreeOn p t t' := by
  induction statements generalizing t with
  | nil =>
    cases h
    exact AgreeOn.refl _
  | cons s statements ih =>
    rw [commit, List.foldlM_cons] at h
    obtain ⟨t₁, hfirst, hrest⟩ := Option.bind_eq_some_iff.mp h
    exact (perform_outside (hs s (by simp)) hfirst).trans
      (ih (fun s' hs' => hs s' (List.mem_cons_of_mem s hs')) hrest)

def RowsAre (good : Row β → Prop) (t : Table ι β) : Prop := ∀ id row, t id = some row → good row

def Statement.Keeps (good : Row β → Prop) : Statement ι β → Prop
  | .insert _ row => good row
  | .update _ changes => ∀ row, good row → good (changes.apply row)
  | .delete _ => True

theorem RowsAre.update {good : Row β → Prop} {t : Table ι β} (h : RowsAre good t) (id : ι) {row : Option (Row β)}
    (hrow : ∀ r ∈ row, good r) : RowsAre good (Function.update t id row) := by
  intro id' r hr
  by_cases hid : id' = id
  · subst hid
    rw [Function.update_self] at hr
    exact hrow r hr
  · rw [Function.update_of_ne hid] at hr
    exact h id' r hr

theorem perform_rows {good : Row β → Prop} {t t' : Table ι β} {s : Statement ι β} (hs : s.Keeps good)
    (h : RowsAre good t) (hrun : s.perform t = some t') : RowsAre good t' := by
  cases s with
  | insert id row =>
    have hnew : (if (t id).isSome then none else some (Function.update t id (some row))) = some t' := hrun
    split_ifs at hnew
    rw [← Option.some.inj hnew]
    exact h.update id fun r hr => Option.some.inj hr ▸ hs
  | update id changes =>
    obtain ⟨row, hrow, rfl⟩ := Option.map_eq_some_iff.mp hrun
    exact h.update id fun r hr => Option.some.inj hr ▸ hs row (h id row hrow)
  | delete id =>
    rw [← Option.some.inj hrun]
    exact h.update id fun r hr => by cases hr

theorem replay_rows {good : Row β → Prop} {log : List (List (Statement ι β))} {t t' : Table ι β}
    (hlog : ∀ statements ∈ log, ∀ s ∈ statements, s.Keeps good) (h : RowsAre good t)
    (hrun : replay t log = some t') : RowsAre good t' := by
  have hcommit : ∀ (statements : List (Statement ι β)) (t t' : Table ι β), (∀ s ∈ statements, s.Keeps good) →
      RowsAre good t → commit t statements = some t' → RowsAre good t' := by
    intro statements
    induction statements with
    | nil =>
      intro t t' _ ht hc
      cases hc
      exact ht
    | cons s statements ih =>
      intro t t' hs ht hc
      rw [commit, List.foldlM_cons] at hc
      obtain ⟨t₁, hfirst, hrest⟩ := Option.bind_eq_some_iff.mp hc
      obtain ⟨hhead, htail⟩ := List.forall_mem_cons.mp hs
      exact ih t₁ t' htail (perform_rows hhead ht hfirst) hrest
  induction log generalizing t with
  | nil =>
    cases hrun
    exact h
  | cons statements log ih =>
    rw [replay, List.foldlM_cons] at hrun
    obtain ⟨t₁, hfirst, hrest⟩ := Option.bind_eq_some_iff.mp hrun
    obtain ⟨hhead, htail⟩ := List.forall_mem_cons.mp hlog
    exact ih htail (hcommit statements t t₁ hhead h hfirst) hrest

/-- The columns are what the transactions that may set one of them, or make or remove a row, have
made of them: all others can be left out of the replay. -/
theorem replay_filter {statements : α → List (Statement ι β)} {keep : α → Bool} {log : List α}
    (hlog : ∀ e ∈ log, keep e = false → ∀ s ∈ statements e, s.Outside p) {t t' t₁ : Table ι β}
    (hagree : AgreeOn p t t') (h : replay t (log.map statements) = some t₁) :
    ∃ t₂, replay t' ((log.filter keep).map statements) = some t₂ ∧ AgreeOn p t₁ t₂ := by
  induction log generalizing t t' with
  | nil =>
    cases h
    exact ⟨t', rfl, hagree⟩
  | cons e log ih =>
    rw [List.map_cons, replay, List.foldlM_cons] at h
    obtain ⟨t₀, hfirst, hrest⟩ := Option.bind_eq_some_iff.mp h
    have hlog' : ∀ e' ∈ log, keep e' = false → ∀ s ∈ statements e', s.Outside p :=
      fun e' he' => hlog e' (List.mem_cons_of_mem e he')
    cases hkeep : keep e with
    | true =>
      have hstep := commit_agree (statements e) hagree
      rw [hfirst] at hstep
      cases hcommit : commit t' (statements e) with
      | none =>
        rw [hcommit] at hstep
        cases hstep
      | some t₀' =>
        rw [hcommit] at hstep
        obtain ⟨hnext⟩ := hstep
        obtain ⟨t₂, hreplay, hsame⟩ := ih hlog' hnext hrest
        refine ⟨t₂, ?_, hsame⟩
        rw [List.filter_cons_of_pos hkeep, List.map_cons, replay, List.foldlM_cons, hcommit]
        exact hreplay
    | false =>
      have hskip := commit_outside (hlog e (by simp) hkeep) hfirst
      rw [List.filter_cons_of_neg (by simp [hkeep])]
      exact ih hlog' (hskip.symm.trans hagree) hrest

end Run

end AtmMonitor.Library.UnitOfWork
