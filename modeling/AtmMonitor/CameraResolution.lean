import AtmMonitor.ChannelNames
import AtmMonitor.MockResolutions
import AtmMonitor.NvrCheck
import AtmMonitor.StreamDocuments

namespace AtmMonitor.CameraResolution

open Library.Upsert Library.Regex PyText Decimal XmlElements StreamSettings StreamDocuments
  MockResolutions ChannelNames

open NvrCheck (orDefault)

/-- The columns of a device that the resolution endpoints read. -/
structure Device where
  id : Int
  name : Str
  type : Str
  parentNvrId : Option Int
  isOnline : Option Int
  ip : Option Str
  hikUsername : Option Str
  hikPassword : Option Str
  deriving DecidableEq

/-- The NVR is not asked. -/
def Device.simulated (nvr : Device) : Bool :=
  nvr.isOnline.getD 0 == 0 || orDefault nvr.ip "" == [] || orDefault nvr.hikUsername "" == [] ||
    orDefault nvr.hikPassword "" == []

inductive Reply where
  | response (status : Nat) (text : Str)
  | failure (error : Str)

def Reply.accepted : Reply → Bool
  | .response status _ => status == 200 || status == 201
  | .failure _ => false

def label : Stream → Str
  | .main => "Main".toList
  | .sub => "Sub".toList

/-- One of the two `try` blocks of `get_camera_resolution_async`: the settings, and the message that
the block leaves. An answer without a width or a height leaves none. -/
def queryStream (stream : Stream) : Reply → Option Settings × Option Str
  | .response status xml =>
    if status = 200 then
      match scale (((read Tag.maxFrameRate.element xml).map int).getD stream.framerate) with
      | none => (none, some (label stream ++
          " stream GET failed: integer division result too large for a float".toList))
      | some _ => (readSettings stream xml, none)
    else (none, some (label stream ++ " stream GET failed with HTTP ".toList ++ decimal status))
  | .failure error => (none, some (label stream ++ " stream GET failed: ".toList ++ error))

def Settings.value (s : Settings) : Key → Value
  | .width => .number s.width
  | .height => .number s.height
  | .framerate => .number s.framerate
  | .bitrate => .number s.bitrate
  | .protocol => .text s.protocol

def Settings.toDict (s : Settings) : Dict Str Value := keys.map fun k => (k.name, Settings.value s k)

structure Resolution where
  success : Bool
  main : Option (Dict Str Value)
  sub : Option (Dict Str Value)
  message : Option Str
  isMock : Bool

/-- `get_camera_resolution_async`, with the file that it falls back to and the answers of the NVR. -/
def getCameraResolution (readable : Bool) (file : Option Data) (nvr : Device) (camId : Int)
    (main sub : Reply) : Resolution :=
  let mock := getMockResolution readable file camId
  if nvr.simulated then
    ⟨true, mock.get "main".toList, mock.get "sub".toList,
      some "NVR offline. Displaying simulated settings.".toList, true⟩
  else
    let mainInfo := (queryStream .main main).1.map Settings.toDict
    let subInfo := (queryStream .sub sub).1.map Settings.toDict
    let message := (queryStream .main main).2 <|> (queryStream .sub sub).2
    if mainInfo.isSome && subInfo.isSome then ⟨true, mainInfo, subInfo, message, false⟩
    else
      ⟨true, mainInfo <|> mock.get "main".toList, subInfo <|> mock.get "sub".toList,
        some ("NVR connection issue (".toList ++ message.getD "unknown".toList ++
          "). Displaying simulated settings.".toList), true⟩

structure Outcome where
  success : Bool
  message : Str
  isMock : Bool

def errorDescription : Element where
  name := "errorDescription".toList
  content := (· != '<')
  letters := List.all_eq_true.mp (by decide)
  name_ne_nil := by decide
  content_lt := by decide

def statusString : Element where
  name := "statusString".toList
  content := (· != '<')
  letters := List.all_eq_true.mp (by decide)
  name_ne_nil := by decide
  content_lt := by decide

def errorMessage (status : Nat) (text : Str) : Str :=
  ((search (.alt errorDescription.pattern statusString.pattern) text).bind fun m => m.group "1").getD
    ("HTTP ".toList ++ decimal status)

def streamId (channelId : Nat) (streamType : Str) : Nat :=
  if streamType = "main".toList then channelId * 100 + 1 else channelId * 100 + 2

def simulatedMode (reason : Str) : Outcome :=
  ⟨true, "Stream settings saved (Simulated Mode - ".toList ++ reason ++ ")".toList, true⟩

def updated (document : Str) : Outcome :=
  ⟨true, "Stream settings updated successfully via ISAPI (".toList ++ document ++ ")".toList, false⟩

/-- What the caller is told, and the documents that the NVR has been sent with its answers. -/
structure Exchange where
  outcome : Outcome
  puts : List (Str × Reply) := []

/-- `set_camera_resolution_async` after the settings have been saved. -/
def setOnNvr (nvr : Device) (streamId : Nat) (r : Request) (get put putFull : Reply) : Exchange :=
  if nvr.simulated then { outcome := simulatedMode "NVR Offline".toList }
  else
    match get with
    | .failure error => { outcome := simulatedMode ("Request failed: ".toList ++ error) }
    | .response status xml =>
      if status ≠ 200 then
        { outcome := simulatedMode ("GET returned HTTP ".toList ++ decimal status) }
      else
        let minimal := minimalXml r streamId xml
        match put with
        | .failure error =>
          ⟨simulatedMode ("Request failed: ".toList ++ error), [(minimal, put)]⟩
        | .response _ _ =>
          if put.accepted then ⟨updated "minimal XML".toList, [(minimal, put)]⟩
          else
            let full := fullXml r xml
            match putFull with
            | .failure error =>
              ⟨simulatedMode ("Request failed: ".toList ++ error), [(minimal, put), (full, putFull)]⟩
            | .response status text =>
              if putFull.accepted then
                ⟨updated "full XML".toList, [(minimal, put), (full, putFull)]⟩
              else
                ⟨⟨false, "NVR responded with error: ".toList ++ errorMessage status text ++
                  ". (Mock value cached)".toList, false⟩, [(minimal, put), (full, putFull)]⟩

/-- The NVR has answered, and has not taken the document. -/
def Reply.Rejected (a : Reply) : Prop := ∃ status text, a = .response status text ∧ a.accepted = false

inductive Course (r : Request) (streamId : Nat) (xml : Str) : Exchange → Prop
  | minimal {put : Reply} (h : put.accepted = true) :
      Course r streamId xml ⟨updated "minimal XML".toList, [(minimalXml r streamId xml, put)]⟩
  | minimalFailed (error : Str) :
      Course r streamId xml ⟨simulatedMode ("Request failed: ".toList ++ error),
        [(minimalXml r streamId xml, .failure error)]⟩
  | full {put putFull : Reply} (h : put.Rejected) (hfull : putFull.accepted = true) :
      Course r streamId xml ⟨updated "full XML".toList,
        [(minimalXml r streamId xml, put), (fullXml r xml, putFull)]⟩
  | fullFailed {put : Reply} (h : put.Rejected) (error : Str) :
      Course r streamId xml ⟨simulatedMode ("Request failed: ".toList ++ error),
        [(minimalXml r streamId xml, put), (fullXml r xml, .failure error)]⟩
  | rejected {put putFull : Reply} (h : put.Rejected) (hfull : putFull.Rejected) (message : Str) :
      Course r streamId xml ⟨⟨false, message, false⟩,
        [(minimalXml r streamId xml, put), (fullXml r xml, putFull)]⟩

/-- Nothing is sent, or the update takes one of its courses with the document of the NVR. -/
theorem setOnNvr_course (nvr : Device) (streamId : Nat) (r : Request) (get put putFull : Reply) :
    (∃ reason, setOnNvr nvr streamId r get put putFull = { outcome := simulatedMode reason }) ∨
      ∃ xml, nvr.simulated = false ∧ get = .response 200 xml ∧
        Course r streamId xml (setOnNvr nvr streamId r get put putFull) := by
  unfold setOnNvr
  cases hnvr : nvr.simulated with
  | true => exact .inl ⟨_, rfl⟩
  | false =>
    rw [if_neg Bool.false_ne_true]
    cases get with
    | failure error => exact .inl ⟨_, rfl⟩
    | response status xml =>
      by_cases hstatus : status = 200
      · subst hstatus
        refine .inr ⟨xml, rfl, rfl, ?_⟩
        simp only [ne_eq, not_true_eq_false, if_false]
        cases put with
        | failure error => exact .minimalFailed error
        | response status text =>
          cases hput : (Reply.response status text).accepted with
          | true => exact .minimal hput
          | false =>
            have hrejected : (Reply.response status text).Rejected := ⟨status, text, rfl, hput⟩
            cases putFull with
            | failure error => exact .fullFailed hrejected error
            | response status' text' =>
              cases hfull : (Reply.response status' text').accepted with
              | true => exact .full hrejected hfull
              | false => exact .rejected hrejected ⟨status', text', rfl, hfull⟩ _
      · simp only [ne_eq, hstatus, not_false_eq_true, if_true]
        exact .inl ⟨_, rfl⟩

/-- The document states just the settings of the request, or it is that of the NVR with them in the
elements that it has. -/
def Faithful (r : Request) (xml document : Str) : Prop :=
  (∀ t, read t.element document = stated r t) ∨
    ∀ t, read t.element document = (read t.element xml).map fun old => (replaced r t).getD old

theorem failure_not_accepted (error : Str) : (Reply.failure error).accepted = false := rfl

theorem Reply.Rejected.not_accepted {a : Reply} (h : a.Rejected) : a.accepted ≠ true := by
  obtain ⟨_, _, -, h⟩ := h
  rw [h]
  exact Bool.false_ne_true

theorem Course.puts_eq {r : Request} {streamId : Nat} {xml : Str} {e : Exchange}
    (h : Course r streamId xml e) :
    (∃ put, e.puts = [(minimalXml r streamId xml, put)]) ∨
      ∃ put putFull, put.Rejected ∧
        e.puts = [(minimalXml r streamId xml, put), (fullXml r xml, putFull)] := by
  cases h with
  | minimal h => exact .inl ⟨_, rfl⟩
  | minimalFailed error => exact .inl ⟨_, rfl⟩
  | full h hfull => exact .inr ⟨_, _, h, rfl⟩
  | fullFailed h error => exact .inr ⟨_, _, h, rfl⟩
  | rejected h hfull message => exact .inr ⟨_, _, h, rfl⟩

theorem Course.in_turn {r : Request} {streamId : Nat} {xml : Str} {e : Exchange}
    (h : Course r streamId xml e) {sent : List (Str × Reply)} {p : Str × Reply}
    (hsent : sent ++ [p] <+: e.puts) : ∀ q ∈ sent, q.2.Rejected := by
  have hlength := hsent.length_le
  rw [List.length_append, List.length_singleton] at hlength
  obtain ⟨put, hputs⟩ | ⟨put, putFull, hput, hputs⟩ := h.puts_eq
  · rw [hputs, List.length_singleton] at hlength
    rw [List.length_eq_zero_iff.mp (by omega : sent.length = 0)]
    exact fun q hq => absurd hq List.not_mem_nil
  · rw [hputs] at hlength hsent
    intro q hq
    match sent, hq with
    | [s], hq =>
      rw [List.mem_singleton.mp hq, (List.cons_prefix_cons.mp hsent).1]
      exact hput
    | _ :: _ :: sent, _ =>
      simp at hlength

theorem Course.faithful {r : Request} (hr : Writable r) {streamId : Nat} {xml : Str} {e : Exchange}
    (h : Course r streamId xml e) : ∀ p ∈ e.puts, Faithful r xml p.1 := by
  have hminimal : Faithful r xml (minimalXml r streamId xml) := .inl (read_minimalXml hr streamId xml)
  have hfull : Faithful r xml (fullXml r xml) := .inr fun t => sets_fullXml hr t xml
  intro p hp
  obtain ⟨put, hputs⟩ | ⟨put, putFull, -, hputs⟩ := h.puts_eq
  · rw [hputs, List.mem_singleton] at hp
    rw [hp]
    exact hminimal
  · rw [hputs, List.mem_pair] at hp
    obtain rfl | rfl := hp
    · exact hminimal
    · exact hfull

theorem Course.done_iff {r : Request} {streamId : Nat} {xml : Str} {e : Exchange}
    (h : Course r streamId xml e) :
    e.outcome.success = true ∧ e.outcome.isMock = false ↔ ∃ p ∈ e.puts, p.2.accepted = true := by
  cases h with
  | minimal h => simp [updated, h]
  | minimalFailed error => simp [simulatedMode, failure_not_accepted]
  | full h hfull => simp [updated, hfull]
  | fullFailed h error => simp [simulatedMode, failure_not_accepted, h.not_accepted]
  | rejected h hfull message => simp [h.not_accepted, hfull.not_accepted]

theorem Course.refused_iff {r : Request} {streamId : Nat} {xml : Str} {e : Exchange}
    (h : Course r streamId xml e) :
    e.outcome.success = false ↔ e.puts.length = 2 ∧ ∀ p ∈ e.puts, p.2.Rejected := by
  have hfailed : ∀ error, ¬ (Reply.failure error).Rejected := by
    rintro error ⟨_, _, heq, -⟩
    cases heq
  have htaken : ∀ {a : Reply}, a.accepted = true → ¬ a.Rejected :=
    fun haccepted hrejected => hrejected.not_accepted haccepted
  cases h with
  | minimal h => simp [updated]
  | minimalFailed error => simp [simulatedMode]
  | full h hfull => simp [updated, h, htaken hfull]
  | fullFailed h error => simp [simulatedMode, h, hfailed]
  | rejected h hfull message => simp [h, hfull]

/-- An update is reported as done just when the NVR has taken a document, and as an error just when
it has refused both. No document follows one that has not been refused, and each asks for what was
requested, if the values fit the elements. -/
theorem update_reported (nvr : Device) (streamId : Nat) (r : Request) (get put putFull : Reply) :
    let e := setOnNvr nvr streamId r get put putFull
    (e.outcome.success = true ∧ e.outcome.isMock = false ↔ ∃ p ∈ e.puts, p.2.accepted = true) ∧
      (e.outcome.success = false ↔ e.puts.length = 2 ∧ ∀ p ∈ e.puts, p.2.Rejected) ∧
      (∀ sent p, sent ++ [p] <+: e.puts → ∀ q ∈ sent, q.2.Rejected) ∧
      ∀ p ∈ e.puts, ∃ xml, nvr.simulated = false ∧ get = .response 200 xml ∧
        (Writable r → Faithful r xml p.1) := by
  intro e
  obtain ⟨reason, hnone⟩ | ⟨xml, hnvr, hget, hcourse⟩ :=
    setOnNvr_course nvr streamId r get put putFull
  · have he : e = { outcome := simulatedMode reason } := hnone
    rw [he]
    simp [simulatedMode]
  · exact ⟨hcourse.done_iff, hcourse.refused_iff, fun _ _ hsent => hcourse.in_turn hsent,
      fun p hp => ⟨xml, hnvr, hget, fun hr => hcourse.faithful hr p hp⟩⟩

theorem writable_request {s : Settings} (hne : s.protocol ≠ []) (hlt : '<' ∉ s.protocol)
    (hescape : '\\' ∉ s.protocol) : Writable (request s hescape) := by
  intro t value hvalue
  have hnumber : ∀ {t : Tag} (n : Nat), t ≠ .streamingTransport → Fits t.element (str n) := by
    intro t n ht
    rw [str_natCast]
    exact fits_decimal ht n
  cases t <;> obtain rfl := Option.some.inj hvalue
  · exact hnumber s.width (by decide)
  · exact hnumber s.height (by decide)
  · change Fits _ (str (s.framerate * 100))
    rw [str_hundredfold]
    exact fits_decimal (by decide) _
  · exact hnumber s.bitrate (by decide)
  · exact hnumber s.bitrate (by decide)
  · exact fits_transport hne hlt

def onlineNvr : Device :=
  { id := 1, name := "NVR".toList, type := "NVR".toList, parentNvrId := none, isOnline := some 1
    ip := some "10.0.0.1".toList, hikUsername := some "admin".toList, hikPassword := some "pw".toList }

theorem update_reported_refused : let r := request (atFramerate 25) (by decide)
    let e := setOnNvr onlineNvr 101 r (.response 200 streamingChannel) (.response 400 [])
      (.response 500 [])
    e.outcome.success = false ∧ ∀ p ∈ e.puts, Faithful r streamingChannel p.1 := by
  intro r e
  have hwritable : Writable r := writable_request (by decide) (by decide) (by decide)
  obtain ⟨-, hrefused, -, hfaithful⟩ := update_reported onlineNvr 101 r
    (.response 200 streamingChannel) (.response 400 []) (.response 500 [])
  constructor
  · refine hrefused.mpr ⟨rfl, fun p hp => ?_⟩
    rcases List.mem_pair.mp hp with rfl | rfl
    · exact ⟨400, [], rfl, rfl⟩
    · exact ⟨500, [], rfl, rfl⟩
  · intro p hp
    obtain ⟨xml, -, hget, hdocument⟩ := hfaithful p hp
    rw [(Reply.response.inj hget).2]
    exact hdocument hwritable

/-- A call of `set_camera_resolution_async`: the camera's settings are saved in all cases. -/
structure Call where
  nvr : Device
  channelId : Nat
  camId : Int
  streamType : Str
  request : Request
  readable : Bool := true
  writable : Bool := true
  get : Reply
  put : Reply
  putFull : Reply

def Call.save (c : Call) : Save where
  camId := c.camId
  streamType := c.streamType
  options := ⟨c.request.width, c.request.height, c.request.framerate, c.request.bitrate,
    c.request.protocol.map (·.text)⟩
  readable := c.readable
  writable := c.writable

/-- `set_camera_resolution_async`: the file that it leaves, and what it does with the NVR. -/
def setCameraResolution (file : Option Data) (c : Call) : Option Data × Exchange :=
  (saveMockResolution file c.save,
    setOnNvr c.nvr (streamId c.channelId c.streamType) c.request c.get c.put c.putFull)

def saved (start : Option Data) (calls : List Call) : Option Data :=
  calls.foldl (fun file c => (setCameraResolution file c).1) start

def Resolution.stream (res : Resolution) : Stream → Option (Dict Str Value)
  | .main => res.main
  | .sub => res.sub

def Resolution.shown (res : Resolution) (stream : Stream) (key : Key) : Option Value :=
  (res.stream stream).bind fun settings => settings.get key.name

/-- The settings that the NVR has given for the stream. -/
def fromNvr (nvr : Device) (stream : Stream) (a : Reply) : Option Settings :=
  if nvr.simulated then none else (queryStream stream a).1

theorem get_toDict (s : Settings) (key : Key) :
    (Settings.toDict s).get key.name = some (Settings.value s key) := by
  cases key <;> rfl

theorem saved_run (start : Option Data) (calls : List Call) :
    saved start calls = MockResolutions.run start (calls.map Call.save) := by
  rw [saved, MockResolutions.run, List.foldl_map]
  rfl

def pick (main sub : Reply) : Stream → Reply
  | .main => main
  | .sub => sub

theorem setting_defaults (stream : Stream) (key : Key) : (setting defaults stream key).isSome := by
  cases stream <;> cases key <;> rfl

theorem queryStream_message {stream : Stream} {a : Reply} (h : (queryStream stream a).1.isSome) :
    (queryStream stream a).2 = none := by
  cases a with
  | failure error => cases h
  | response status xml =>
    rw [queryStream] at h ⊢
    split_ifs at h ⊢ with hstatus
    · cases hscale : scale (((read Tag.maxFrameRate.element xml).map int).getD stream.framerate) with
      | none => rw [hscale] at h; cases h
      | some framerate => rfl
    · cases h

/-- What is shown is what the NVR has given, stream by stream, or else what has been saved. -/
theorem shown_eq (readable : Bool) (file : Option Data) (nvr : Device) (camId : Int) (main sub : Reply)
    (stream : Stream) (key : Key) :
    (getCameraResolution readable file nvr camId main sub).shown stream key =
      ((fromNvr nvr stream (pick main sub stream)).map (Settings.value · key)).or
        (setting (getMockResolution readable file camId) stream key) := by
  have hstream : (getCameraResolution readable file nvr camId main sub).stream stream =
      ((fromNvr nvr stream (pick main sub stream)).map Settings.toDict).or
        ((getMockResolution readable file camId).get (streamName stream)) := by
    unfold getCameraResolution fromNvr
    cases nvr.simulated with
    | true => cases stream <;> rfl
    | false =>
      cases hmain : (queryStream .main main).1 <;> cases hsub : (queryStream .sub sub).1 <;>
        cases stream <;> simp [hmain, hsub, pick, Resolution.stream, streamName]
  rw [Resolution.shown, hstream]
  cases fromNvr nvr stream (pick main sub stream) with
  | none => rfl
  | some s => exact get_toDict s key

theorem isMock_iff (readable : Bool) (file : Option Data) (nvr : Device) (camId : Int)
    (main sub : Reply) : let res := getCameraResolution readable file nvr camId main sub
    res.success = true ∧
      (res.isMock = false ↔ ∀ stream, (fromNvr nvr stream (pick main sub stream)).isSome) ∧
      (res.message = none ↔ res.isMock = false) := by
  intro res
  have hboth : (∀ stream, (fromNvr nvr stream (pick main sub stream)).isSome) ↔
      (fromNvr nvr .main main).isSome ∧ (fromNvr nvr .sub sub).isSome :=
    ⟨fun h => ⟨h .main, h .sub⟩, fun h stream => by cases stream <;> simp [pick, h]⟩
  rw [hboth]
  unfold res getCameraResolution fromNvr
  cases nvr.simulated with
  | true => simp
  | false =>
    cases hmain : (queryStream .main main).1 with
    | none => simp
    | some m =>
      cases hsub : (queryStream .sub sub).1 with
      | none => simp
      | some s =>
        have hnone : (queryStream .main main).2 = none := queryStream_message (by rw [hmain]; rfl)
        have hnone' : (queryStream .sub sub).2 = none := queryStream_message (by rw [hsub]; rfl)
        simp [hnone, hnone']

/-- After any calls, whatever the NVR has answered to them, the settings of a camera are shown in
full: those of a stream that the NVR gives as it gives them, the others as they were last asked for.
They are marked as simulated, and explained by a message, unless the NVR gives both streams. -/
theorem resolution_after_calls (start : Option Data) (calls : List Call)
    (h : NothingToLose start (calls.map Call.save)) (nvr : Device) (camId : Int) (main sub : Reply) :
    let res := getCameraResolution true (saved start calls) nvr camId main sub
    (∀ stream key, (res.shown stream key).isSome ∧ res.shown stream key =
        ((fromNvr nvr stream (pick main sub stream)).map (Settings.value · key)).or
          (expected start (calls.map Call.save) camId stream key)) ∧
      res.success = true ∧
      (res.isMock = false ↔ ∀ stream, (fromNvr nvr stream (pick main sub stream)).isSome) ∧
      (res.message = none ↔ res.isMock = false) := by
  intro res
  refine ⟨fun stream key => ?_, isMock_iff true (saved start calls) nvr camId main sub⟩
  have hshown : res.shown stream key = ((fromNvr nvr stream (pick main sub stream)).map
      (Settings.value · key)).or (expected start (calls.map Call.save) camId stream key) := by
    have hcurrent := current_run h _ List.prefix_rfl camId stream key
    rw [show res.shown stream key = _ from shown_eq .., ← hcurrent, ← saved_run]
    rfl
  refine ⟨?_, hshown⟩
  rw [hshown, expected, Option.isSome_or, Option.isSome_or, setting_defaults, Bool.or_true,
    Bool.or_true]

def offlineCall : Call :=
  { nvr := { onlineNvr with isOnline := some 0 }, channelId := 1, camId := 7
    streamType := "sub".toList, request := ⟨none, none, some 12, none, none⟩
    get := .failure [], put := .failure [], putFull := .failure [] }

theorem resolution_after_offlineCall :
    (getCameraResolution true (saved none [offlineCall]) onlineNvr 7 (.failure []) (.failure [])).shown
      .sub .framerate = some (.number 12) := by
  have hkept : NothingToLose none ([offlineCall].map Call.save) := by
    intro pre c hinit hread
    have hc : c ∈ [offlineCall].map Call.save := hinit.subset (by simp)
    rw [List.mem_singleton.mp hc] at hread
    cases hread
  have h := ((resolution_after_calls none [offlineCall] hkept onlineNvr 7 (.failure [])
    (.failure [])).1 .sub .framerate).2
  exact h

structure BatchResult where
  success : Bool
  overallSuccess : Option Bool := none
  message : Str
  results : List (Int × Str × Bool × Str) := []

def isCamera (nvrId : Int) (d : Device) : Bool := d.type == "CAM".toList && d.parentNvrId == some nvrId

def batchCall (nvr : Device) (streamType : Str) (width height : Int)
    (answers : Device → Reply × Reply × Reply) (cam : Device) : Call where
  nvr := nvr
  channelId := extractChannelId cam.name
  camId := cam.id
  streamType := streamType
  request := ⟨some width, some height, none, none, none⟩
  get := (answers cam).1
  put := (answers cam).2.1
  putFull := (answers cam).2.2

/-- `set_nvr_batch_resolution` in a table of devices. The tasks run at the same time; `order` is the
order in which they save, each without a pause between reading the file and writing it. -/
def setNvrBatchResolution (devices : List Device) (nvrId : Int) (streamType : Str)
    (width height : Option Int) (answers : Device → Reply × Reply × Reply)
    (order : List Device → List Device) (file : Option Data) : Option Data × BatchResult :=
  match devices.find? (fun d => d.id == nvrId) with
  | none => (file, { success := false, message := "NVR device not found".toList })
  | some nvr =>
    if nvr.type ≠ "NVR".toList then
      (file, { success := false, message := "NVR device not found".toList })
    else
      match width.filter (· ≠ 0), height.filter (· ≠ 0) with
      | some width, some height =>
        let cameras := devices.filter (isCamera nvrId)
        if cameras = [] then
          (file, { success := true, message := "No cameras connected to this NVR".toList })
        else
          let call := batchCall nvr streamType width height answers
          let results := cameras.map fun cam =>
            let outcome := (setCameraResolution file (call cam)).2.outcome
            (cam.id, cam.name, outcome.success, outcome.message)
          (saved file ((order cameras).map call),
            ⟨true, some (results.all (·.2.2.1)), "Batch resolution configuration complete".toList,
              results⟩)
      | _, _ => (file, { success := false, message := "Width and height parameters are required".toList })

theorem nothingToLose_of_readable (start : Option Data) {calls : List Save}
    (h : ∀ c ∈ calls, c.readable = true) : NothingToLose start calls := by
  intro pre c hinit hread
  have hc : c ∈ calls := hinit.subset (by simp)
  rw [h c hc] at hread
  cases hread

theorem getLast?_filterMap_of_const {α β : Type} {f : α → Option β} {p : α → Prop} {v : Option β}
    {xs : List α} [DecidablePred p] (h : ∀ x ∈ xs, f x = if p x then v else none) :
    (xs.filterMap f).getLast? = if ∃ x ∈ xs, p x then v else none := by
  induction xs using List.reverseRecOn with
  | nil => simp
  | append_singleton xs x ih =>
    have ih := ih fun y hy => h y (List.mem_append_left _ hy)
    have hx := h x (by simp)
    rw [List.filterMap_append, List.getLast?_append, ih]
    by_cases hpx : p x
    · rw [if_pos hpx] at hx
      have hany : ∃ y ∈ xs ++ [x], p y := ⟨x, by simp, hpx⟩
      rw [if_pos hany]
      cases v with
      | none => simp [hx]
      | some v => simp [hx]
    · rw [if_neg hpx] at hx
      have hany : (∃ y ∈ xs ++ [x], p y) ↔ ∃ y ∈ xs, p y := by
        simp [hpx]
      simp only [hany]
      simp [hx]

section Batch

variable {devices : List Device} {nvrId : Int} {nvr : Device} {width height : Int}

theorem setNvrBatchResolution_eq (hnvr : devices.find? (fun d => d.id == nvrId) = some nvr)
    (htype : nvr.type = "NVR".toList) (hwidth : width ≠ 0) (hheight : height ≠ 0)
    (hcams : devices.filter (isCamera nvrId) ≠ []) (streamType : Str)
    (answers : Device → Reply × Reply × Reply) (order : List Device → List Device)
    (file : Option Data) :
    let cameras := devices.filter (isCamera nvrId)
    let call := batchCall nvr streamType width height answers
    let results := cameras.map fun cam =>
      let outcome := (setCameraResolution file (call cam)).2.outcome
      (cam.id, cam.name, outcome.success, outcome.message)
    setNvrBatchResolution devices nvrId streamType (some width) (some height) answers order file =
      (saved file ((order cameras).map call), ⟨true, some (results.all (·.2.2.1)),
        "Batch resolution configuration complete".toList, results⟩) := by
  intro cameras call results
  have hfilter : ∀ {n : Int}, n ≠ 0 → (some n).filter (· ≠ 0) = some n := fun hn => by simp [hn]
  unfold setNvrBatchResolution
  rw [hnvr, hfilter hwidth, hfilter hheight]
  simp only [htype, ne_eq, not_true_eq_false, if_false, hcams]
  rfl

/-- Whatever the order in which the cameras are saved, the batch leaves the width and the height for
the stream of every camera of the NVR, and nothing else. Every camera has its result, and the whole
is a success just when each is. -/
theorem batch_resolution (hnvr : devices.find? (fun d => d.id == nvrId) = some nvr)
    (htype : nvr.type = "NVR".toList) (hwidth : width ≠ 0) (hheight : height ≠ 0)
    (hcams : devices.filter (isCamera nvrId) ≠ []) (streamType : Str)
    (answers : Device → Reply × Reply × Reply) {order : List Device → List Device}
    (horder : ∀ cams, (order cams).Perm cams) (file : Option Data) :
    let cameras := devices.filter (isCamera nvrId)
    let out := setNvrBatchResolution devices nvrId streamType (some width) (some height) answers
      order file
    (∀ camId stream key, current out.1 camId stream key =
        if (∃ cam ∈ cameras, cam.id = camId) ∧ streamType = streamName stream then
          (Options.value { width := some width, height := some height } key).or
            (current file camId stream key)
        else current file camId stream key) ∧
      out.2.results.map (·.1) = cameras.map (·.id) ∧
      (out.2.overallSuccess = some true ↔ ∀ p ∈ out.2.results, p.2.2.1 = true) := by
  intro cameras out
  have hout : out = _ := setNvrBatchResolution_eq hnvr htype hwidth hheight hcams streamType answers
    order file
  rw [hout]
  refine ⟨fun camId stream key => ?_, ?_, ?_⟩
  · have hreadable : ∀ c ∈ ((order cameras).map
        (batchCall nvr streamType width height answers)).map Call.save, c.readable = true := by
      intro c hc
      obtain ⟨call, hcall, rfl⟩ := List.mem_map.mp hc
      obtain ⟨cam, -, rfl⟩ := List.mem_map.mp hcall
      rfl
    have hlast : ∀ cams : List Device, lastWritten
        ((cams.map (batchCall nvr streamType width height answers)).map Call.save) camId stream key =
          if ∃ cam ∈ cams, cam.id = camId then
            (if streamType = streamName stream then
              Options.value { width := some width, height := some height } key else none)
          else none := by
      intro cams
      rw [lastWritten, List.map_map, List.filterMap_map]
      apply getLast?_filterMap_of_const
      intro cam _
      have hvalue : ∀ cond : Prop, [Decidable cond] → ((if cam.id = camId ∧ cond then
          Options.value { width := some width, height := some height } key else none) : Option Value) =
            if cam.id = camId then (if cond then
              Options.value { width := some width, height := some height } key else none)
            else none := by
        intro cond _
        split_ifs <;> simp_all
      exact hvalue _
    have hmem : (∃ cam ∈ order cameras, cam.id = camId) ↔ ∃ cam ∈ cameras, cam.id = camId :=
      exists_congr fun cam => and_congr_left' (horder cameras).mem_iff
    rw [saved_run, current_run (nothingToLose_of_readable file hreadable) _ List.prefix_rfl,
      expected, hlast, Option.or_assoc, ← current_eq]
    simp only [hmem]
    by_cases hcam : ∃ cam ∈ cameras, cam.id = camId
    · by_cases hstream : streamType = streamName stream
      · rw [if_pos hcam, if_pos hstream, if_pos ⟨hcam, hstream⟩]
      · rw [if_pos hcam, if_neg hstream, if_neg fun h => hstream h.2, Option.none_or]
    · rw [if_neg hcam, if_neg fun h => hcam h.1, Option.none_or]
  · rw [List.map_map]
    rfl
  · rw [Option.some_inj, List.all_eq_true]

end Batch

def camera (id : Int) (name : String) : Device :=
  { onlineNvr with id := id, name := name.toList, type := "CAM".toList, parentNvrId := some 1 }

theorem batch_resolution_two_cameras :
    current (setNvrBatchResolution [onlineNvr, camera 2 "B1-CAM-01", camera 3 "B1-CAM-02"] 1
      "main".toList (some 1280) (some 720) (fun _ => (.failure [], .failure [], .failure []))
      List.reverse none).1 3 .main .height = some (.number 720) := by
  have h := (@batch_resolution [onlineNvr, camera 2 "B1-CAM-01", camera 3 "B1-CAM-02"] 1 onlineNvr
    1280 720 rfl rfl (by decide) (by decide) (by decide) "main".toList
    (fun _ => (.failure [], .failure [], .failure [])) _ List.reverse_perm none).1 3 .main .height
  exact h.trans (by decide)

end AtmMonitor.CameraResolution
