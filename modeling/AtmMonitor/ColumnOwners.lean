import AtmMonitor.DeviceRegistry
import AtmMonitor.Library.Runs

namespace AtmMonitor.ColumnOwners

open Library.UnitOfWork PyText DeviceTable DeviceRegistry
open NvrCheck (Datetime Answer strftime)

def pingColumns : List Column :=
  [.isOnline, .lastPingTime, .lastLatency, .lastPacketLoss, .consecutiveFailures, .downSince, .updatedAt]

def nvrColumns : List Column :=
  [.nvrRecording, .nvrLastRecordingDate, .nvrHddStatus, .nvrHddCapacity, .nvrHddUsed]

/-- The columns of the rows that are there which the job may set. -/
def columns : Job → List Column
  | .create _ | .delete _ => []
  | .edit _ _ => editable ++ [.updatedAt]
  | .ping _ => pingColumns
  | .nvrCheck _ => nvrColumns ++ [.ip, .updatedAt]

def makesRow : Job → Bool
  | .create _ | .delete _ => true
  | .edit _ _ | .ping _ | .nvrCheck _ => false

def touches (p : Column → Bool) (j : Job) : Bool := makesRow j || (columns j).any p

/-- The values that a job puts into a column. -/
inductive Sets : Job → (c : Column) → c.Value → Prop
  | created (payload : Payload) (now : Datetime) (c : Column) :
      Sets (.create payload) c (newDevice payload (strftime now) c)
  | edited (id : Int) {payload : Payload} {c : Column} {value : c.Value} (hc : c ∈ editable)
      (hvalue : payload c = some value) : Sets (.edit id payload) c value
  | editTime (id : Int) (payload : Payload) (now : Datetime) :
      Sets (.edit id payload) .updatedAt (some (strftime now))
  | pinged (id : Int) {r : PingCheck.Reading} {p : PingCheck.Probe} {now : Datetime} {d d' : PingCheck.Device}
      (hd : PingCheck.assign r p now d = some d') (row : Row) {c : Column} (hc : c ∈ pingColumns) :
      Sets (.ping id) c (setPing d' row c)
  | checked (id : Int) (now : Datetime) (old : Option Str) (a : Answer) (d : NvrCheck.Device) (row : Row)
      {c : Column} (hc : c ∈ nvrColumns) : Sets (.nvrCheck id) c (setNvr (a.assign now old d) row c)
  | addressed (id : Int) (ip : Str) : Sets (.nvrCheck id) .ip (some ip)
  | addressTime (id : Int) (now : Datetime) : Sets (.nvrCheck id) .updatedAt (some (strftime now))

theorem Sets.owned {j : Job} {c : Column} {value : c.Value} (h : Sets j c value) :
    makesRow j = true ∨ c ∈ columns j := by
  cases h with
  | created => exact .inl rfl
  | edited id hc => exact .inr (List.mem_append_left _ hc)
  | editTime => exact .inr (List.mem_append_right _ (by decide))
  | pinged id hd row hc => exact .inr hc
  | checked id now old a d row hc => exact .inr (List.mem_append_left _ hc)
  | addressed => exact .inr (List.mem_append_right _ (by decide))
  | addressTime => exact .inr (List.mem_append_right _ (by decide))

/-- What the session has changed of the object is the doing of the job. -/
def ObjectSound (j : Job) (o : Object) : Prop := ∀ c, o.assigned c = o.loaded c ∨ Sets j c (o.assigned c)

def StatementSound (j : Job) : Statement Int Column.Value → Prop
  | .insert _ row => makesRow j = true ∧ ∀ c, Sets j c (row c)
  | .update _ changes => ∀ c value, changes c = some value → Sets j c value
  | .delete _ => makesRow j = true

theorem ObjectSound.flush {j : Job} {o : Object} (h : ObjectSound j o) {s : Statement Int Column.Value}
    (hs : o.flush = some s) : StatementSound j s := by
  unfold Object.flush at hs
  split_ifs at hs
  obtain rfl := Option.some.inj hs
  intro c value hvalue
  obtain hsame | hsets := h c
  · rw [Object.changes_none.mpr hsame] at hvalue
    cases hvalue
  · unfold Object.changes at hvalue
    split_ifs at hvalue
    rwa [← Option.some.inj hvalue]

theorem edit_sound (id id' : Int) (payload : Payload) (now : Datetime) (row : Row) :
    ObjectSound (.edit id payload) ⟨id', row, updateDevice payload (strftime now) row⟩ := by
  have hkeys : ∀ c, editable.foldl (assignKey payload) row c = row c ∨
      c ∈ editable ∧ payload c = some (editable.foldl (assignKey payload) row c) := by
    apply Library.Runs.foldl_invariant (P := fun r : Row => ∀ c, r c = row c ∨ c ∈ editable ∧ payload c = some (r c))
    · exact fun c => .inl rfl
    · intro r key hkey hr c
      cases hvalue : payload key with
      | none =>
        have hsame : assignKey payload r key = r := by rw [assignKey, hvalue]
        rw [hsame]
        exact hr c
      | some value =>
        have hset : assignKey payload r key = Function.update r key value := by rw [assignKey, hvalue]
        rw [hset]
        by_cases hc : c = key
        · subst hc
          exact .inr ⟨hkey, by rw [hvalue, Function.update_self]⟩
        · rw [Function.update_of_ne hc]
          exact hr c
  intro c
  show updateDevice payload (strftime now) row c = row c ∨
    Sets (.edit id payload) c (updateDevice payload (strftime now) row c)
  by_cases hc : c = .updatedAt
  · subst hc
    have htime : updateDevice payload (strftime now) row .updatedAt = some (strftime now) :=
      Function.update_self ..
    rw [htime]
    exact .inr (.editTime id payload now)
  · have hother : updateDevice payload (strftime now) row c = editable.foldl (assignKey payload) row c :=
      Function.update_of_ne hc ..
    rw [hother]
    exact (hkeys c).imp_right fun h => .edited id h.1 h.2

theorem ping_sound (id id' : Int) {r : PingCheck.Reading} {p : PingCheck.Probe} {now : Datetime}
    {d d' : PingCheck.Device} (hd : PingCheck.assign r p now d = some d') (row : Row) :
    ObjectSound (.ping id) ⟨id', row, setPing d' row⟩ := by
  intro c
  by_cases hc : c ∈ pingColumns
  · exact .inr (.pinged id hd row hc)
  · refine .inl ?_
    cases c <;> first | rfl | exact absurd (by decide) hc

theorem nvr_sound {id : Int} {o : Object} (h : ObjectSound (.nvrCheck id) o) (now : Datetime) (old : Option Str)
    (a : Answer) : ObjectSound (.nvrCheck id) (assignNvr now old a o) := by
  intro c
  by_cases hc : c ∈ nvrColumns
  · exact .inr (.checked id now old a _ _ hc)
  · have hother : (assignNvr now old a o).assigned c = o.assigned c := by
      cases c <;> first | rfl | exact absurd (by decide) hc
    rw [hother]
    exact h c

theorem camera_sound {id : Int} {camera : Object} (h : ObjectSound (.nvrCheck id) camera) (now : Datetime)
    (ip : Str) : ObjectSound (.nvrCheck id) (assignIp (strftime now) ip camera) := by
  unfold assignIp
  split_ifs
  · intro c
    by_cases htime : c = .updatedAt
    · subst htime
      refine .inr ?_
      simp only [Function.update_self]
      exact .addressTime id now
    · simp only [Function.update_of_ne htime]
      by_cases hip : c = .ip
      · subst hip
        refine .inr ?_
        rw [Function.update_self]
        exact .addressed id ip
      · rw [Function.update_of_ne hip]
        exact h c
  · exact h

theorem assignAddress_sound {id : Int} (now : Datetime) (address : Str × Str) {cameras cameras' : List Object}
    (h : ∀ o ∈ cameras, ObjectSound (.nvrCheck id) o)
    (hassign : assignAddress (strftime now) address cameras = some cameras') :
    ∀ o ∈ cameras', ObjectSound (.nvrCheck id) o := by
  induction cameras generalizing cameras' with
  | nil =>
    cases hassign
    exact h
  | cons camera cameras ih =>
    obtain ⟨hcamera, hcameras⟩ := List.forall_mem_cons.mp h
    unfold assignAddress at hassign
    cases hname : camera.assigned .name with
    | none =>
      rw [hname] at hassign
      cases hassign
    | some name =>
      rw [hname] at hassign
      dsimp only at hassign
      split_ifs at hassign
      · rw [← Option.some.inj hassign]
        exact List.forall_mem_cons.mpr ⟨camera_sound hcamera now address.2, hcameras⟩
      · obtain ⟨rest, hrest, rfl⟩ := Option.map_eq_some_iff.mp hassign
        exact List.forall_mem_cons.mpr ⟨hcamera, ih hcameras hrest⟩

theorem assignAddresses_sound {id : Int} (now : Datetime) {addresses : List (Str × Str)}
    {cameras cameras' : List Object} (h : ∀ o ∈ cameras, ObjectSound (.nvrCheck id) o)
    (hassign : assignAddresses (strftime now) addresses cameras = some cameras') :
    ∀ o ∈ cameras', ObjectSound (.nvrCheck id) o := by
  unfold assignAddresses at hassign
  induction addresses generalizing cameras with
  | nil =>
    cases hassign
    exact h
  | cons address addresses ih =>
    rw [List.foldlM_cons] at hassign
    obtain ⟨next, hnext, hrest⟩ := Option.bind_eq_some_iff.mp hassign
    exact ih (assignAddress_sound now address h hnext) hrest

theorem getNvr_sound {id : Int} {t : Table} (now : Datetime) (old : Option Str) (a : Answer)
    {cameras objects : List Object} (h : ∀ o ∈ cameras, ObjectSound (.nvrCheck id) o)
    (hobjects : getNvr t id (assignNvr now old a) cameras = some objects) :
    ∀ o ∈ objects, ObjectSound (.nvrCheck id) o := by
  unfold getNvr at hobjects
  split_ifs at hobjects
  · rw [← Option.some.inj hobjects]
    intro o ho
    obtain ⟨o', ho', rfl⟩ := List.mem_map.mp ho
    split_ifs
    · exact nvr_sound (h o' ho') now old a
    · exact h o' ho'
  · obtain ⟨row, -, rfl⟩ := Option.map_eq_some_iff.mp hobjects
    exact List.forall_mem_cons.mpr ⟨nvr_sound (fun _ => .inl rfl) now old a, h⟩

def PhaseSound (j : Job) : Phase → Prop
  | .adding row => makesRow j = true ∧ ∀ c, Sets j c (row c)
  | .deleting _ => makesRow j = true
  | .addressed _ _ objects | .flushing objects _ => ∀ o ∈ objects, ObjectSound j o
  | _ => True

section System

variable {T : Type} [DecidableEq T]

structure Inv (job : T → Job) (table : Table) (s : State T) : Prop where
  replayed : replay table (s.log.map Prod.snd) = some s.table
  phases : ∀ t, PhaseSound (job t) (s.phase t)
  logged : ∀ e ∈ s.log, ∀ statement ∈ e.2, StatementSound (job e.1) statement

variable {job : T → Job} {table : Table} {s : State T}

theorem goto_inv (h : Inv job table s) {t : T} {p : Phase} (hp : PhaseSound (job t) p) :
    Inv job table (s.goto t p) := by
  refine ⟨h.replayed, fun t' => ?_, h.logged⟩
  show PhaseSound (job t') (Function.update s.phase t p t')
  by_cases ht : t' = t
  · subst ht
    rw [Function.update_self]
    exact hp
  · rw [Function.update_of_ne ht]
    exact h.phases t'

theorem commit_inv (h : Inv job table s) {t : T} {p : Phase} (hp : PhaseSound (job t) p)
    {statements : List (Statement Int Column.Value)} {next : Table}
    (hs : ∀ statement ∈ statements, StatementSound (job t) statement)
    (hc : commit s.table statements = some next) : Inv job table (s.commit t statements next p) := by
  refine ⟨?_, (goto_inv h hp).phases, fun e he => ?_⟩
  · rw [State.commit, List.map_append]
    exact replay_concat h.replayed hc
  · obtain he | he := List.mem_append.mp he
    · exact h.logged e he
    · rw [List.mem_singleton.mp he]
      exact hs

theorem next_sound (j : Job) (next : Next) : PhaseSound j next.phase := by
  cases next <;> exact trivial

theorem step_inv {s' : State T} (h : Inv job table s) (hstep : Step job s s') : Inv job table s' := by
  have hphase : ∀ {t : T} {p : Phase}, s.phase t = p → PhaseSound (job t) p := fun {t} _ hp => hp ▸ h.phases t
  cases hstep with
  | tick now => exact ⟨h.replayed, h.phases, h.logged⟩
  | build t payload hj hp =>
    refine goto_inv h ?_
    rw [hj]
    exact ⟨rfl, .created payload s.now⟩
  | insert t row id next hp hc =>
    have hsound : StatementSound (job t) (.insert id row) := hphase hp
    exact @commit_inv T _ job table s h t (.refreshing id _) trivial _ _ (by simpa using hsound) hc
  | edit t id payload row hj hp hrow =>
    refine goto_inv h ?_
    rw [hj]
    simpa [PhaseSound] using edit_sound id id payload s.now row
  | delete t id next hp hc =>
    have hsound : StatementSound (job t) (.delete id) := hphase hp
    exact @commit_inv T _ job table s h t (.ended _) trivial _ _ (by simpa using hsound) hc
  | mark t id hj hp hrow =>
    refine goto_inv h ?_
    rw [hj]
    exact rfl
  | pingAssign t id r p now row d hj hp hrow hd =>
    refine goto_inv h ?_
    rw [hj]
    simpa [PhaseSound] using ping_sound id id hd row
  | address t id old xml hdd addresses selected cameras hj hp hselect hcameras =>
    refine goto_inv h ?_
    rw [hj]
    exact assignAddresses_sound s.now (fun o ho c => .inl (congrFun ((hselect.mem o).mp ho).2.1 c)) hcameras
  | skipAddresses t old a addresses ha hp => exact goto_inv h fun o ho => absurd ho List.not_mem_nil
  | checkAssign t id old a cameras objects hj hp hobjects =>
    have hcameras := hphase hp
    rw [hj] at hcameras
    refine goto_inv h ?_
    rw [hj]
    exact getNvr_sound s.now old a hcameras hobjects
  | flush t objects next nextTable hp hc =>
    refine commit_inv h (next_sound _ next) (fun statement hs => ?_) hc
    obtain ⟨o, ho, hflush⟩ := List.mem_filterMap.mp hs
    exact ObjectSound.flush (hphase hp o ho) hflush
  | _ => exact goto_inv h trivial

theorem reachable_inv (hs : Reachable job table s) : Inv job table s := by
  induction hs with
  | init now => exact ⟨rfl, fun _ => trivial, fun _ he => absurd he List.not_mem_nil⟩
  | step hs hstep ih => exact step_inv ih hstep

/-- A job that cannot touch the columns leaves them. -/
theorem outside_of_sound {j : Job} {p : Column → Bool} (hj : touches p j = false)
    {statement : Statement Int Column.Value} (hs : StatementSound j statement) :
    statement.Outside (fun c => p c = true) := by
  obtain ⟨hmakes, hcolumns⟩ := Bool.or_eq_false_iff.mp hj
  cases statement with
  | insert id row =>
    rw [hs.1] at hmakes
    cases hmakes
  | delete id =>
    rw [show makesRow j = true from hs] at hmakes
    cases hmakes
  | update id changes =>
    intro c hc
    cases hvalue : changes c with
    | none => rfl
    | some value =>
      obtain howned | howned := (hs c value hvalue).owned
      · rw [howned] at hmakes
        cases hmakes
      · rw [List.any_eq_false] at hcolumns
        exact absurd hc (hcolumns c howned)

/-- Requests and monitors do not disturb each other. However they interleave, any columns of the
devices are what the jobs that may set one of them, or make or remove devices, have made of them in
the order of their commits; all others could as well not have run. -/
theorem columns_undisturbed (hs : Reachable job table s) (p : Column → Bool) :
    ∃ t, replay table ((s.log.filter fun e => touches p (job e.1)).map Prod.snd) = some t ∧
      AgreeOn (fun c => p c = true) s.table t := by
  have h := reachable_inv hs
  refine replay_filter (fun e he htouch statement hstatement => ?_) (AgreeOn.refl table) h.replayed
  exact outside_of_sound htouch (h.logged e he statement hstatement)

end System

def afterEight : Datetime := ⟨2028, 8, 16, 8, 21, 41, by omega, by omega, by omega, by omega, by omega, by omega⟩

def machine : Payload
  | .name => some (some "ATM-1".toList)
  | .ip => some (some "10.0.0.7".toList)
  | .type => some (some "ATM".toList)
  | _ => none

def registration : Bool → Job
  | true => .create machine
  | false => .ping 1

def machineRow : Row := newDevice machine (strftime afterEight)

def noDevices : Table := fun _ => none

def oneDevice : Table := Function.update noDevices 1 (some machineRow)

def tooEarly : State Bool := (initial afterEight noDevices).goto false (.ended .nothing)

def adding : State Bool := tooEarly.goto true (.adding machineRow)

def registered : State Bool :=
  adding.commit true [.insert 1 machineRow] oneDevice (.refreshing 1 "Device added successfully".toList)

theorem registered_reachable : Reachable registration noDevices registered := by
  have hping : Step registration (initial afterEight noDevices) tooEarly :=
    .pingSkip false 1 rfl rfl fun row hrow => by cases hrow
  have hbuild : Step registration tooEarly adding := .build true machine rfl rfl
  have hinsert : Step registration adding registered := .insert true machineRow 1 oneDevice rfl rfl
  exact (((Reachable.init afterEight).step hping).step hbuild).step hinsert

theorem columns_undisturbed_registered :
    Reachable registration noDevices registered ∧
      ∃ t, replay noDevices ((registered.log.filter fun e => touches (· == .isOnline) (registration e.1)).map Prod.snd)
        = some t ∧ AgreeOn (fun c => (c == Column.isOnline) = true) registered.table t :=
  ⟨registered_reachable, columns_undisturbed registered_reachable (· == .isOnline)⟩

end AtmMonitor.ColumnOwners
