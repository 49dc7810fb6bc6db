import AtmMonitor.Library.Upsert
import AtmMonitor.StreamSettings

namespace AtmMonitor.MockResolutions

open Library.Upsert PyText StreamSettings

inductive Value where
  | number (n : Int)
  | text (s : Str)
  deriving DecidableEq

inductive Key where
  | width | height | framerate | bitrate | protocol
  deriving DecidableEq

def Key.name : Key → Str
  | .width => "width".toList
  | .height => "height".toList
  | .framerate => "framerate".toList
  | .bitrate => "bitrate".toList
  | .protocol => "protocol".toList

def keys : List Key := [.width, .height, .framerate, .bitrate, .protocol]

def streamName : Stream → Str
  | .main => "main".toList
  | .sub => "sub".toList

def defaults : Dict Str (Dict Str Value) :=
  [("main".toList,
    [("width".toList, .number 1920), ("height".toList, .number 1080), ("framerate".toList, .number 25),
     ("bitrate".toList, .number 2048), ("protocol".toList, .text "RTSP".toList)]),
   ("sub".toList,
    [("width".toList, .number 704), ("height".toList, .number 576), ("framerate".toList, .number 15),
     ("bitrate".toList, .number 512), ("protocol".toList, .text "RTSP".toList)])]

def setAll (values : Key → Option Value) (settings : Dict Str Value) : Dict Str Value :=
  keys.foldl (fun d k =>
    match values k with
    | some v => d.set k.name v
    | none => d) settings

abbrev Data := Dict Str (Dict Str (Dict Str Value))

/-- The arguments of a call of `save_mock_resolution` that may be `None`. -/
structure Options where
  width : Option Int := none
  height : Option Int := none
  framerate : Option Int := none
  bitrate : Option Int := none
  protocol : Option Str := none

def Options.value (o : Options) : Key → Option Value
  | .width => o.width.map .number
  | .height => o.height.map .number
  | .framerate => o.framerate.map .number
  | .bitrate => o.bitrate.map .number
  | .protocol => o.protocol.map .text

structure Save where
  camId : Int
  streamType : Str
  options : Options
  readable : Bool := true
  writable : Bool := true

/-- Errors are swallowed. -/
def loadMockResolutions (readable : Bool) (file : Option Data) : Data :=
  if readable then file.getD [] else []

def merged (data : Data) (c : Save) : Data :=
  data.modify (str c.camId) defaults fun streams =>
    streams.modify c.streamType [] (setAll c.options.value)

def saveMockResolution (file : Option Data) (c : Save) : Option Data :=
  let data := merged (loadMockResolutions c.readable file) c
  if c.writable then some data else file

def getMockResolution (readable : Bool) (file : Option Data) (camId : Int) : Dict Str (Dict Str Value) :=
  let raw := ((loadMockResolutions readable file).get (str camId)).getD []
  [Stream.main, Stream.sub].foldl (fun res stream =>
    match raw.get (streamName stream) with
    | some settings => res.modify (streamName stream) [] (setAll fun k => settings.get k.name)
    | none => res) defaults

def setting (res : Dict Str (Dict Str Value)) (stream : Stream) (key : Key) : Option Value :=
  (res.get (streamName stream)).bind fun settings => settings.get key.name

/-- What `get_mock_resolution` returns when it can read the file. -/
def current (file : Option Data) (camId : Int) (stream : Stream) (key : Key) : Option Value :=
  setting (getMockResolution true file camId) stream key

def stored (file : Option Data) (camId : Int) (stream : Stream) (key : Key) : Option Value :=
  (file.bind fun data => data.get (str camId)).bind fun raw => setting raw stream key

def Save.value (c : Save) (camId : Int) (stream : Stream) (key : Key) : Option Value :=
  if c.camId = camId ∧ c.streamType = streamName stream then c.options.value key else none

def Save.written (c : Save) (camId : Int) (stream : Stream) (key : Key) : Option Value :=
  if c.writable then c.value camId stream key else none

def lastWritten (calls : List Save) (camId : Int) (stream : Stream) (key : Key) : Option Value :=
  (calls.filterMap fun c => c.written camId stream key).getLast?

/-- The last value that was written, also by those who wrote the file before the calls, or the
default. -/
def expected (start : Option Data) (calls : List Save) (camId : Int) (stream : Stream) (key : Key) :
    Option Value :=
  ((lastWritten calls camId stream key).or (stored start camId stream key)).or
    (setting defaults stream key)

def run (start : Option Data) (calls : List Save) : Option Data := calls.foldl saveMockResolution start

/-- At every point of a run, what was saved is returned, and a save leaves what is returned for
another camera or stream. -/
structure Survives (start : Option Data) (calls : List Save) : Prop where
  last_written : ∀ pre, pre <+: calls → ∀ camId stream key,
    current (run start pre) camId stream key = expected start pre camId stream key
  others_kept : ∀ pre c, pre ++ [c] <+: calls → ∀ camId stream key,
    camId ≠ c.camId ∨ streamName stream ≠ c.streamType →
      current (run start (pre ++ [c])) camId stream key = current (run start pre) camId stream key

/-- A save writes the file without having read it only where all settings but its own are to have
their defaults. -/
def NothingToLose (start : Option Data) (calls : List Save) : Prop :=
  ∀ pre c, pre ++ [c] <+: calls → c.readable = false → c.writable = true → ∀ camId stream key,
    c.value camId stream key = none →
      expected start pre camId stream key = setting defaults stream key

theorem Key.name_injective : Function.Injective Key.name := by
  intro a b h
  cases a <;> cases b <;> first | rfl | exact absurd h (by decide)

theorem get_setAll (values : Key → Option Value) (settings : Dict Str Value) (key : Key) :
    (setAll values settings).get key.name = (values key).or (settings.get key.name) := by
  have hfold : ∀ ks : List Key, ks.Nodup → ∀ d : Dict Str Value,
      (ks.foldl (fun d k =>
        match values k with
        | some v => d.set k.name v
        | none => d) d).get key.name =
      if key ∈ ks then (values key).or (d.get key.name) else d.get key.name := by
    intro ks hks
    induction ks with
    | nil => intro d; rfl
    | cons k ks ih =>
      intro d
      obtain ⟨hk, hks⟩ := List.nodup_cons.mp hks
      have hstep : (match values k with
          | some v => d.set k.name v
          | none => d).get key.name =
            if k = key then (values k).or (d.get key.name) else d.get key.name := by
        cases hv : values k with
        | none => simp
        | some v =>
          simp only [Dict.get_set, Key.name_injective.eq_iff]
          rfl
      rw [List.foldl_cons, ih hks, hstep]
      by_cases heq : k = key
      · subst heq
        simp [hk]
      · simp [heq, Ne.symm heq]
  rw [setAll, hfold keys (by decide), if_pos (by cases key <;> decide)]

theorem setting_modify (res : Dict Str (Dict Str Value)) (streamType : Str)
    (values : Key → Option Value) (stream : Stream) (key : Key) :
    setting (res.modify streamType [] (setAll values)) stream key =
      if streamType = streamName stream then (values key).or (setting res stream key)
      else setting res stream key := by
  rw [setting, Dict.get_modify, setting]
  split_ifs with hstream
  · subst hstream
    rw [Option.bind_some, get_setAll]
    cases res.get (streamName stream) <;> rfl
  · rfl

theorem current_eq (file : Option Data) (camId : Int) (stream : Stream) (key : Key) :
    current file camId stream key =
      (stored file camId stream key).or (setting defaults stream key) := by
  have hstored : stored file camId stream key =
      setting (((loadMockResolutions true file).get (str camId)).getD []) stream key := by
    rw [stored, loadMockResolutions]
    cases file with
    | none => rfl
    | some data =>
      simp only [Option.bind_some, if_true, Option.getD_some]
      cases data.get (str camId) <;> rfl
  rw [hstored, current, getMockResolution]
  generalize ((loadMockResolutions true file).get (str camId)).getD [] = raw
  have hstep : ∀ (s : Stream) (res : Dict Str (Dict Str Value)),
      setting (match raw.get (streamName s) with
        | some settings => res.modify (streamName s) [] (setAll fun k => settings.get k.name)
        | none => res) stream key =
      if streamName s = streamName stream then (setting raw stream key).or (setting res stream key)
      else setting res stream key := by
    intro s res
    cases hraw : raw.get (streamName s) with
    | none =>
      by_cases hs : streamName s = streamName stream
      · rw [hs] at hraw
        simp [hs, setting, hraw]
      · rw [if_neg hs]
    | some settings =>
      simp only [setting_modify]
      split_ifs with hs
      · rw [hs] at hraw
        simp [setting, hraw]
      · rfl
  have hne : streamName .main ≠ streamName .sub := by decide
  simp only [List.foldl_cons, List.foldl_nil, hstep]
  cases stream <;> simp [hne, hne.symm]

theorem current_merged (data : Data) (c : Save) (camId : Int) (stream : Stream) (key : Key) :
    current (some (merged data c)) camId stream key =
      (c.value camId stream key).or (current (some data) camId stream key) := by
  simp only [current_eq, stored, Option.bind_some, merged, Dict.get_modify, str_injective.eq_iff,
    Save.value]
  by_cases hcam : c.camId = camId
  · subst hcam
    have hraw : (setting ((data.get (str c.camId)).getD defaults) stream key).or
          (setting defaults stream key) =
        ((data.get (str c.camId)).bind fun raw => setting raw stream key).or
          (setting defaults stream key) := by
      cases data.get (str c.camId) <;> simp
    rw [if_pos rfl, Option.bind_some, setting_modify]
    by_cases hstream : c.streamType = streamName stream
    · rw [if_pos hstream, if_pos ⟨rfl, hstream⟩, Option.or_assoc, hraw]
    · rw [if_neg hstream, if_neg fun h => hstream h.2, Option.none_or, hraw]
  · rw [if_neg hcam, if_neg fun h => hcam h.1, Option.none_or]

theorem current_empty (camId : Int) (stream : Stream) (key : Key) :
    current (some []) camId stream key = setting defaults stream key := by
  rw [current_eq]
  rfl

theorem current_save (file : Option Data) (c : Save) (camId : Int) (stream : Stream) (key : Key) :
    current (saveMockResolution file c) camId stream key =
      if c.writable then
        (c.value camId stream key).or
          (if c.readable then current file camId stream key else setting defaults stream key)
      else current file camId stream key := by
  rw [saveMockResolution]
  split_ifs with hwrite hread
  · rw [current_merged, loadMockResolutions, if_pos hread]
    cases file <;> rfl
  · rw [current_merged, loadMockResolutions, if_neg hread, current_empty]
  · rfl

theorem run_concat (start : Option Data) (pre : List Save) (c : Save) :
    run start (pre ++ [c]) = saveMockResolution (run start pre) c := by
  rw [run, List.foldl_append]
  rfl

theorem expected_concat (start : Option Data) (pre : List Save) (c : Save) (camId : Int)
    (stream : Stream) (key : Key) :
    expected start (pre ++ [c]) camId stream key =
      (c.written camId stream key).or (expected start pre camId stream key) := by
  have hlast : lastWritten (pre ++ [c]) camId stream key =
      (c.written camId stream key).or (lastWritten pre camId stream key) := by
    rw [lastWritten, last_concat, lastWritten]
  simp only [expected, hlast, Option.or_assoc]

theorem current_concat (start : Option Data) (pre : List Save) (c : Save) (camId : Int)
    (stream : Stream) (key : Key)
    (hpre : current (run start pre) camId stream key = expected start pre camId stream key)
    (hlost : c.readable = false → c.writable = true → c.value camId stream key = none →
      expected start pre camId stream key = setting defaults stream key) :
    current (run start (pre ++ [c])) camId stream key =
      expected start (pre ++ [c]) camId stream key := by
  rw [run_concat, current_save, expected_concat, Save.written, hpre]
  cases hwrite : c.writable with
  | false => rfl
  | true =>
    cases hread : c.readable with
    | true => rfl
    | false =>
      cases hvalue : c.value camId stream key with
      | none => exact (hlost hread hwrite hvalue).symm
      | some v => rfl

theorem current_run {start : Option Data} {calls : List Save} (h : NothingToLose start calls)
    (pre : List Save) (hpre : pre <+: calls) (camId : Int) (stream : Stream) (key : Key) :
    current (run start pre) camId stream key = expected start pre camId stream key := by
  induction pre using List.reverseRecOn with
  | nil => exact current_eq start camId stream key
  | append_singleton pre c ih =>
    exact current_concat start pre c camId stream key (ih ((List.prefix_append pre [c]).trans hpre))
      fun hread hwrite hvalue => h pre c hpre hread hwrite camId stream key hvalue

theorem saved_settings_survive_iff (start : Option Data) (calls : List Save) :
    Survives start calls ↔ NothingToLose start calls := by
  constructor
  · intro h pre c hpre hread hwrite camId stream key hvalue
    have hlast := h.last_written (pre ++ [c]) hpre camId stream key
    rw [run_concat, current_save, expected_concat, Save.written, hread, hwrite, hvalue] at hlast
    exact hlast.symm
  · intro h
    refine ⟨current_run h, ?_⟩
    intro pre c hpre camId stream key hother
    have hmiss : ¬(c.camId = camId ∧ c.streamType = streamName stream) := fun hc =>
      hother.elim (fun hcam => hcam hc.1.symm) fun hstream => hstream hc.2.symm
    have hnone : c.written camId stream key = none := by
      rw [Save.written, Save.value, if_neg hmiss, ite_self]
    rw [current_run h _ hpre, expected_concat, hnone, Option.none_or,
      current_run h pre ((List.prefix_append pre [c]).trans hpre)]

/-- Camera 2 is saved when the file cannot be read, and the width of camera 1 is lost. -/
theorem other_camera_lost :
    ¬ Survives none [
      { camId := 1, streamType := "main".toList, options := { width := some 1280 } },
      { camId := 2, streamType := "main".toList, options := { height := some 720 },
        readable := false }] := fun h =>
  absurd (h.last_written _ (List.prefix_refl _) 1 .main .width) (by decide)

end AtmMonitor.MockResolutions
