import AtmMonitor.ColumnOwners

namespace AtmMonitor.ServedDevices

open Library.UnitOfWork PyText DeviceTable DeviceRegistry ColumnOwners

/-- A value that the schema takes, and that says whether the device is online. -/
def Good : (c : Column) → c.Value → Prop
  | .isOnline, value => value = some (0 : Int) ∨ value = some (1 : Int)
  | c, value => c ∈ required → value.isSome = true

/-- The request does not set a name, an address or a type to `null`. -/
def NoNulls : Job → Prop
  | .edit _ payload => ∀ c ∈ [Column.name, .ip, .type], payload c ≠ some none
  | .create _ | .delete _ | .ping _ | .nvrCheck _ => True

theorem good_given {payload : Payload} (h : ∀ c ∈ [Column.name, .ip, .type], payload c ≠ some none) {c : Column}
    (hc : c ∈ editable) {value : c.Value} (hvalue : payload c = some value) : Good c value := by
  have hsome : c ∈ [Column.name, .ip, .type] → value.isSome = true := by
    intro hmem
    cases value with
    | none => exact absurd hvalue (h c hmem)
    | some v => rfl
  cases c <;> first
    | exact fun _ => hsome (by decide)
    | exact fun hrequired => absurd hrequired (by decide)
    | exact absurd hc (by decide)

theorem good_created (payload : Payload) (now : Str) (c : Column) : Good c (newDevice payload now c) := by
  have hdefault : ∀ value : Option Str, (value.or (some [])).isSome = true := by
    intro value
    cases value <;> rfl
  cases c <;> first
    | exact fun _ => hdefault _
    | exact fun _ => rfl
    | exact .inr rfl
    | exact fun hrequired => absurd hrequired (by decide)

theorem good_pinged {r : PingCheck.Reading} {p : PingCheck.Probe} {now : NvrCheck.Datetime} {d d' : PingCheck.Device}
    (hd : PingCheck.assign r p now d = some d') (row : Row) {c : Column} (hc : c ∈ pingColumns) :
    Good c (setPing d' row c) := by
  have hwritten : (d'.isOnline = some 0 ∨ d'.isOnline = some 1) ∧ d'.consecutiveFailures.isSome = true := by
    unfold PingCheck.assign at hd
    by_cases honline : p.isOnline = true
    · rw [if_pos honline] at hd
      rw [← Option.some.inj hd]
      exact ⟨.inr rfl, rfl⟩
    · rw [if_neg honline] at hd
      obtain ⟨failures, -, rfl⟩ := Option.map_eq_some_iff.mp hd
      exact ⟨.inl rfl, rfl⟩
  cases c <;> first
    | exact hwritten.1
    | exact fun _ => hwritten.2
    | exact fun hrequired => absurd hrequired (by decide)
    | exact absurd hc (by decide)

theorem good_checked (now : NvrCheck.Datetime) (old : Option Str) (a : NvrCheck.Answer) (d : NvrCheck.Device)
    (row : Row) {c : Column} (hc : c ∈ nvrColumns) : Good c (setNvr (a.assign now old d) row c) := by
  have hwritten : (a.assign now old d).nvrRecording.isSome = true := by cases a <;> rfl
  cases c <;> first
    | exact fun _ => hwritten
    | exact fun hrequired => absurd hrequired (by decide)
    | exact absurd hc (by decide)

theorem sets_good {j : Job} (hj : NoNulls j) {c : Column} {value : c.Value} (h : Sets j c value) : Good c value := by
  cases h with
  | created payload now => exact good_created payload _ c
  | edited id hc hvalue => exact good_given hj hc hvalue
  | editTime => exact fun hrequired => absurd hrequired (by decide)
  | pinged id hd row hc => exact good_pinged hd row hc
  | checked id now old a d row hc => exact good_checked now old a d row hc
  | addressed id ip => exact fun _ => rfl
  | addressTime => exact fun hrequired => absurd hrequired (by decide)

def GoodRow (row : Row) : Prop := ∀ c, Good c (row c)

theorem keeps_good {j : Job} (hj : NoNulls j) {statement : Statement Int Column.Value}
    (h : StatementSound j statement) : statement.Keeps GoodRow := by
  cases statement with
  | insert id row => exact fun c => sets_good hj (h.2 c)
  | delete id => exact trivial
  | update id changes =>
    intro row hrow c
    rw [Changes.apply]
    cases hvalue : changes c with
    | none => exact hrow c
    | some value => exact sets_good hj (h c value hvalue)

theorem goodRow_validates {row : Row} (h : GoodRow row) : validates row = true := by
  rw [validates, List.all_eq_true]
  intro c hc
  have hgood := h c
  cases c <;> first
    | exact hgood (by decide)
    | exact absurd hc (by decide)
    | exact hgood.elim (fun h0 => by rw [h0]; rfl) fun h1 => by rw [h1]; rfl

theorem all_validate {devices chosen : List Device} (h : ∀ x ∈ devices, GoodRow x.row) (hsub : chosen ⊆ devices) :
    (chosen.all fun d => validates d.row) = true :=
  List.all_eq_true.mpr fun x hx => goodRow_validates (h x (hsub hx))

theorem getDevices_served {devices : List Device} (h : ∀ x ∈ devices, GoodRow x.row) (type : Option Str) :
    (getDevices type devices).isSome = true := by
  unfold getDevices
  split
  · rw [if_pos (all_validate h (List.Subset.refl _))]
    rfl
  · rw [if_pos (all_validate h (List.Subset.refl _))]
    rfl
  · rw [if_pos (all_validate h fun _ hx => List.mem_of_mem_filter hx)]
    rfl

def dashboard (devices : List Device) : Dashboard where
  total := devices.length
  online := devices.countP fun d => d.row .isOnline == some (1 : Int)
  offline := devices.countP fun d => d.row .isOnline == some (0 : Int)
  nvrCount := countType devices "NVR"
  camCount := countType devices "CAM"
  atmCount := countType devices "ATM"
  crmCount := countType devices "CRM"
  routerCount := countType devices "Router"
  serverCount := countType devices "Server"
  criticalAlerts := devices.filter fun d => isCritical d.row

theorem getDashboard_served {devices : List Device} (h : ∀ x ∈ devices, GoodRow x.row) :
    getDashboard devices = some (dashboard devices) := by
  unfold getDashboard
  rw [if_pos (all_validate h fun _ hx => List.mem_of_mem_filter hx)]
  rfl

theorem counted {devices : List Device} (h : ∀ x ∈ devices, GoodRow x.row) :
    (dashboard devices).online + (dashboard devices).offline = (dashboard devices).total := by
  have hoffline : (dashboard devices).offline
      = devices.countP fun d => !(d.row .isOnline == some (1 : Int)) := by
    refine List.countP_congr fun x hx => ?_
    have hone : x.row .isOnline = some (0 : Int) ∨ x.row .isOnline = some (1 : Int) := h x hx .isOnline
    obtain h0 | h1 := hone
    · rw [h0]
      exact iff_of_true rfl rfl
    · rw [h1]
      exact iff_of_false (by decide) (by decide)
  have hlength := List.length_eq_countP_add_countP (fun d : Device => d.row .isOnline == some (1 : Int)) (l := devices)
  rw [hoffline]
  show devices.countP (fun d => d.row .isOnline == some (1 : Int))
    + devices.countP (fun d => !(d.row .isOnline == some (1 : Int))) = devices.length
  rw [hlength]
  simp only [Bool.not_eq_true, Bool.decide_eq_false]

theorem low_iff (balance : Option Int) :
    balance.any (fun balance => decide (balance < 500000)) = true ↔ ∃ b, balance = some b ∧ b < 500000 := by
  cases balance with
  | none => simp
  | some b => simp

theorem isCritical_iff {row : Row} (h : GoodRow row) :
    isCritical row = true ↔
      row .isOnline = some (0 : Int) ∨
        row .type = some "ATM".toList ∧
          ((∃ balance : Int, row .atmBalance = some balance ∧ balance < 500000) ∨
            row .atmStatus ≠ some "Normal".toList) ∨
        row .type = some "NVR".toList ∧ row .nvrRecording = some (0 : Nat) := by
  have hone : row .isOnline = some (0 : Int) ∨ row .isOnline = some (1 : Int) := h .isOnline
  unfold isCritical
  simp only [Bool.and_eq_true, Bool.or_eq_true, beq_iff_eq, bne_iff_ne, low_iff]
  by_cases hoffline : row .isOnline = some (0 : Int)
  · rw [if_pos hoffline]
    exact iff_of_true rfl (.inl hoffline)
  · have honline : row .isOnline = some (1 : Int) := hone.resolve_left hoffline
    rw [if_neg hoffline, or_iff_right hoffline]
    split_ifs with hatm
    · exact iff_of_true rfl (.inl hatm)
    · rw [or_iff_right hatm]
      simp only [Bool.and_eq_true, beq_iff_eq, honline, and_true]

section System

variable {T : Type} [DecidableEq T] {job : T → Job} {table : Table} {s : State T}

theorem reachable_good (hs : Reachable job table s) (htable : RowsAre GoodRow table) (hjobs : ∀ t, NoNulls (job t)) :
    RowsAre GoodRow s.table := by
  have h := reachable_inv hs
  refine replay_rows (fun statements hstatements statement hstatement => ?_) htable h.replayed
  obtain ⟨e, he, rfl⟩ := List.mem_map.mp hstatements
  exact keeps_good (hjobs e.1) (h.logged e he statement hstatement)

/-- While no edit sets to `null` what a device must have, the lists of the devices and the
dashboard are served at any moment, every device is counted as online or as offline, and the
critical ones are the offline ones, the cash machines that are low or not normal, and the recorders
that do not record. -/
theorem devices_served (hs : Reachable job table s) (htable : RowsAre GoodRow table) (hjobs : ∀ t, NoNulls (job t))
    {devices : List Device} (hselect : Selects s.table devices) :
    (∀ type, (getDevices type devices).isSome = true) ∧
      ∃ d, getDashboard devices = some d ∧ d.online + d.offline = d.total ∧
        ∀ x, x ∈ d.criticalAlerts ↔ x ∈ devices ∧
          (x.row .isOnline = some (0 : Int) ∨
            x.row .type = some "ATM".toList ∧
              ((∃ balance : Int, x.row .atmBalance = some balance ∧ balance < 500000) ∨
                x.row .atmStatus ≠ some "Normal".toList) ∨
            x.row .type = some "NVR".toList ∧ x.row .nvrRecording = some (0 : Nat)) := by
  have hgood : ∀ x ∈ devices, GoodRow x.row := fun x hx =>
    reachable_good hs htable hjobs x.id x.row ((hselect.mem x).mp hx)
  refine ⟨fun type => getDevices_served hgood type, _, getDashboard_served hgood, counted hgood, fun x => ?_⟩
  show x ∈ devices.filter (fun d => isCritical d.row) ↔ _
  rw [List.mem_filter]
  exact and_congr_right fun hx => isCritical_iff (hgood x hx)

end System

theorem machine_selected : Selects registered.table [⟨1, machineRow⟩] := by
  refine ⟨by decide, fun d => ?_⟩
  show d ∈ [⟨1, machineRow⟩] ↔ Function.update noDevices 1 (some machineRow) d.id = some d.row
  rw [List.mem_singleton]
  by_cases hid : d.id = 1
  · rw [hid, Function.update_self]
    refine ⟨fun h => by rw [h], fun h => ?_⟩
    obtain ⟨id, row⟩ := d
    obtain rfl : id = 1 := hid
    obtain rfl : machineRow = row := Option.some.inj h
    rfl
  · rw [Function.update_of_ne hid]
    exact ⟨fun h => absurd (by rw [h]) hid, fun h => by cases h⟩

theorem devices_served_registered :
    (∀ t, NoNulls (registration t)) ∧
      (∀ type, (getDevices type [⟨1, machineRow⟩]).isSome = true) ∧
      ∃ d, getDashboard [⟨1, machineRow⟩] = some d ∧ d.online + d.offline = d.total ∧
        ∀ x, x ∈ d.criticalAlerts ↔ x ∈ [(⟨1, machineRow⟩ : Device)] ∧
          (x.row .isOnline = some (0 : Int) ∨
            x.row .type = some "ATM".toList ∧
              ((∃ balance : Int, x.row .atmBalance = some balance ∧ balance < 500000) ∨
                x.row .atmStatus ≠ some "Normal".toList) ∨
            x.row .type = some "NVR".toList ∧ x.row .nvrRecording = some (0 : Nat)) := by
  have hjobs : ∀ t, NoNulls (registration t) := by
    intro t
    cases t with
    | false => exact trivial
    | true => exact trivial
  exact ⟨hjobs, devices_served registered_reachable (fun _ _ h => by cases h) hjobs machine_selected⟩

end AtmMonitor.ServedDevices
