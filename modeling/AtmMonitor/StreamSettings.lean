import AtmMonitor.Decimal
import AtmMonitor.XmlElements
import AtmMonitor.Library.Binary64
import AtmMonitor.Library.LineSearch

namespace AtmMonitor.StreamSettings

open PyText Decimal XmlElements Library.Regex Library.Binary64

inductive Tag where
  | videoResolutionWidth | videoResolutionHeight | maxFrameRate
  | vbrUpperCap | constantBitRate | streamingTransport
deriving DecidableEq

def Tag.name : Tag → Str
  | .videoResolutionWidth => "videoResolutionWidth".toList
  | .videoResolutionHeight => "videoResolutionHeight".toList
  | .maxFrameRate => "maxFrameRate".toList
  | .vbrUpperCap => "vbrUpperCap".toList
  | .constantBitRate => "constantBitRate".toList
  | .streamingTransport => "streamingTransport".toList

/-- `\d` for the numbers, `[^<]` for the transport. -/
def Tag.content : Tag → Char → Bool
  | .streamingTransport => (· != '<')
  | _ => isDigit

def Tag.element (t : Tag) : Element where
  name := t.name
  content := t.content
  letters := List.all_eq_true.mp (by cases t <;> decide)
  name_ne_nil := by cases t <;> decide
  content_lt := by cases t <;> decide

/-- A replacement text in which `re.sub` finds no escape. -/
structure Plain where
  text : Str
  no_escape : '\\' ∉ text

structure Request where
  width : Option Int
  height : Option Int
  framerate : Option Int
  bitrate : Option Int
  protocol : Option Plain

/-- `str(n)`. -/
def str (n : Int) : Str := if n < 0 then '-' :: decimal n.natAbs else decimal n.natAbs

def setResolution (width height : Option Int) (xml : Str) : Str :=
  match width, height with
  | some width, some height =>
    replace Tag.videoResolutionHeight.element (str height)
      (replace Tag.videoResolutionWidth.element (str width) xml)
  | _, _ => xml

def setFramerate (framerate : Option Int) (xml : Str) : Str :=
  match framerate with
  | some framerate => replace Tag.maxFrameRate.element (str (framerate * 100)) xml
  | none => xml

/-- A bit rate is replaced in the elements that are there. -/
def setBitrate (bitrate : Option Int) (xml : Str) : Str :=
  match bitrate with
  | some bitrate => [Tag.vbrUpperCap, Tag.constantBitRate].foldl (fun xml t =>
      if found t.element.pattern xml then replace t.element (str bitrate) xml else xml) xml
  | none => xml

def setProtocol (protocol : Option Plain) (xml : Str) : Str :=
  match protocol with
  | some protocol => replace Tag.streamingTransport.element protocol.text xml
  | none => xml

/-- The full XML of `set_camera_resolution_async`, sent when the minimal one is rejected. -/
def fullXml (r : Request) (xml : Str) : Str :=
  setProtocol r.protocol (setBitrate r.bitrate (setFramerate r.framerate
    (setResolution r.width r.height xml)))

inductive Stream where
  | main | sub

def Stream.framerate : Stream → Nat
  | .main => 25
  | .sub => 15

def Stream.bitrate : Stream → Nat
  | .main => 2048
  | .sub => 512

structure Settings where
  width : Nat
  height : Nat
  framerate : Nat
  bitrate : Nat
  protocol : Str
deriving DecidableEq

/-- A frame rate in hundredths, unless it is at most 100. A quotient that no float can hold raises. -/
def scale (framerate : Nat) : Option Nat :=
  if framerate > 100 then (divide framerate 100).map Double.round else some framerate

/-- `get_camera_resolution_async` on the answer for one stream. -/
def readSettings (stream : Stream) (xml : Str) : Option Settings := do
  let width := read Tag.videoResolutionWidth.element xml
  let height := read Tag.videoResolutionHeight.element xml
  let framerate ← scale (((read Tag.maxFrameRate.element xml).map int).getD stream.framerate)
  let bitrate := (read Tag.vbrUpperCap.element xml <|> read Tag.constantBitRate.element xml).map int
  let protocol := read Tag.streamingTransport.element xml
  match width, height with
  | some width, some height =>
    some ⟨int width, int height, framerate, bitrate.getD stream.bitrate,
      protocol.getD "RTSP".toList⟩
  | _, _ => none

theorem apart {t t' : Tag} (h : t ≠ t') : Apart t.element t'.element := by
  revert h
  cases t <;> cases t' <;> first | exact fun h => absurd rfl h | exact fun _ => by unfold Apart; decide

theorem str_natCast (n : Nat) : str n = decimal n := by
  rw [str, if_neg (by omega), Int.natAbs_natCast]

theorem str_injective : Function.Injective str := by
  have hsign : ∀ n s, decimal n ≠ '-' :: s := fun n s h =>
    absurd (decimal_digits n '-' (by rw [h]; simp)) (by decide)
  intro m n h
  rw [str, str] at h
  split_ifs at h with hm hn hn
  · have := decimal_injective (List.cons.inj h).2
    omega
  · exact absurd h.symm (hsign _ _)
  · exact absurd h (hsign _ _)
  · have := decimal_injective h
    omega

theorem str_hundredfold (n : Nat) : str ((n : Int) * 100) = decimal (n * 100) := str_natCast (n * 100)

theorem fits_decimal {t : Tag} (h : t ≠ .streamingTransport) (n : Nat) : Fits t.element (decimal n) := by
  refine ⟨decimal_ne_nil n, fun c hc => ?_⟩
  have hdigit := isDigit_of_ascii (decimal_digits n c hc)
  cases t with
  | streamingTransport => exact absurd rfl h
  | _ => exact hdigit

theorem fits_transport {text : Str} (hne : text ≠ []) (hlt : '<' ∉ text) :
    Fits Tag.streamingTransport.element text :=
  ⟨hne, fun _ hc => bne_iff_ne.mpr fun h => hlt (h ▸ hc)⟩

theorem read_set {t : Tag} {new xml : Str} (hnew : Fits t.element new)
    (h : found t.element.pattern xml = true) : read t.element (replace t.element new xml) = some new :=
  read_replace hnew (found_iff.mp h)

theorem read_set_ne {t t' : Tag} (h : t ≠ t') {new : Str} (hnew : Fits t.element new) (xml : Str) :
    read t'.element (replace t.element new xml) = read t'.element xml :=
  read_replace_apart (apart h) hnew xml

theorem found_set {t : Tag} {new xml : Str} (hnew : Fits t.element new) (t' : Tag)
    (h : found t'.element.pattern xml = true) :
    found t'.element.pattern (replace t.element new xml) = true := by
  rw [found_iff]
  obtain rfl | hne := eq_or_ne t t'
  · rw [read_set hnew h]
    exact Option.some_ne_none _
  · rw [read_set_ne hne hnew]
    exact found_iff.mp h

theorem read_set_found_ne {t : Tag} (t' : Tag) (h : t ≠ t') {new : Str} (hnew : Fits t.element new) (xml : Str) :
    read t'.element (if found t.element.pattern xml then replace t.element new xml else xml) =
      read t'.element xml := by
  split_ifs
  · exact read_set_ne h hnew xml
  · rfl

theorem read_setBitrate_ne {t : Tag} (hvbr : .vbrUpperCap ≠ t) (hconstant : .constantBitRate ≠ t)
    (bitrate : Nat) (xml : Str) :
    read t.element (setBitrate (some bitrate) xml) = read t.element xml := by
  simp only [setBitrate, List.foldl_cons, List.foldl_nil, str_natCast]
  rw [read_set_found_ne _ hconstant (fits_decimal (by decide) _),
    read_set_found_ne _ hvbr (fits_decimal (by decide) _)]

theorem read_setBitrate {xml : Str} (h : found Tag.vbrUpperCap.element.pattern xml = true ∨
      found Tag.constantBitRate.element.pattern xml = true) (bitrate : Nat) :
    (read Tag.vbrUpperCap.element (setBitrate (some bitrate) xml) <|>
      read Tag.constantBitRate.element (setBitrate (some bitrate) xml)) = some (decimal bitrate) := by
  have hvbr : Fits Tag.vbrUpperCap.element (decimal bitrate) := fits_decimal (by decide) _
  have hconstant : Fits Tag.constantBitRate.element (decimal bitrate) := fits_decimal (by decide) _
  simp only [setBitrate, List.foldl_cons, List.foldl_nil, str_natCast]
  rw [read_set_found_ne .vbrUpperCap (by decide) hconstant]
  by_cases hfound : found Tag.vbrUpperCap.element.pattern xml = true
  · rw [if_pos hfound, read_set hvbr hfound]
    rfl
  · have hnone : read Tag.vbrUpperCap.element xml = none := by
      by_contra hread
      exact hfound (found_iff.mpr hread)
    have hthere := h.resolve_left hfound
    rw [if_neg hfound, if_pos hthere, hnone, read_set hconstant hthere]
    rfl

/-- The elements that the settings are written to, in the form of the patterns. -/
structure HasSettings (xml : Str) : Prop where
  width : found Tag.videoResolutionWidth.element.pattern xml = true
  height : found Tag.videoResolutionHeight.element.pattern xml = true
  framerate : found Tag.maxFrameRate.element.pattern xml = true
  bitrate : found Tag.vbrUpperCap.element.pattern xml = true ∨
    found Tag.constantBitRate.element.pattern xml = true
  protocol : found Tag.streamingTransport.element.pattern xml = true

theorem HasSettings.set {xml : Str} (h : HasSettings xml) {t : Tag} {new : Str}
    (hnew : Fits t.element new) : HasSettings (replace t.element new xml) where
  width := found_set hnew _ h.width
  height := found_set hnew _ h.height
  framerate := found_set hnew _ h.framerate
  bitrate := h.bitrate.imp (found_set hnew _) (found_set hnew _)
  protocol := found_set hnew _ h.protocol

theorem HasSettings.setBitrate {xml : Str} (h : HasSettings xml) (bitrate : Nat) :
    HasSettings (setBitrate (some bitrate) xml) := by
  have hstep : ∀ {xml t}, HasSettings xml → t ≠ Tag.streamingTransport → HasSettings
      (if found t.element.pattern xml then replace t.element (str bitrate) xml else xml) := by
    intro xml t h ht
    split_ifs
    · rw [str_natCast]
      exact h.set (fits_decimal ht _)
    · exact h
  exact hstep (hstep h (by decide)) (by decide)

def request (s : Settings) (h : '\\' ∉ s.protocol) : Request :=
  ⟨some s.width, some s.height, some s.framerate, some s.bitrate, some ⟨s.protocol, h⟩⟩

theorem readSettings_fullXml (stream : Stream) {xml : Str} (h : HasSettings xml) (s : Settings)
    (hne : s.protocol ≠ []) (hlt : '<' ∉ s.protocol) (hescape : '\\' ∉ s.protocol) :
    readSettings stream (fullXml (request s hescape) xml) =
      (scale (s.framerate * 100)).map fun framerate => { s with framerate } := by
  have hwidth : Fits Tag.videoResolutionWidth.element (decimal s.width) := fits_decimal (by decide) _
  have hheight : Fits Tag.videoResolutionHeight.element (decimal s.height) := fits_decimal (by decide) _
  have hframerate : Fits Tag.maxFrameRate.element (decimal (s.framerate * 100)) :=
    fits_decimal (by decide) _
  have hprotocol := fits_transport hne hlt
  have hxml : fullXml (request s hescape) xml = replace Tag.streamingTransport.element s.protocol
      (setBitrate (some s.bitrate) (replace Tag.maxFrameRate.element (decimal (s.framerate * 100))
        (replace Tag.videoResolutionHeight.element (decimal s.height)
          (replace Tag.videoResolutionWidth.element (decimal s.width) xml)))) := by
    simp only [fullXml, request, setProtocol, setFramerate, setResolution, str_natCast, str_hundredfold]
  have h₁ := h.set hwidth
  have h₂ := h₁.set hheight
  have h₃ := h₂.set hframerate
  have h₄ := h₃.setBitrate s.bitrate
  have hreadWidth : read Tag.videoResolutionWidth.element (fullXml (request s hescape) xml) =
      some (decimal s.width) := by
    rw [hxml, read_set_ne (by decide) hprotocol, read_setBitrate_ne (by decide) (by decide),
      read_set_ne (by decide) hframerate, read_set_ne (by decide) hheight, read_set hwidth h.width]
  have hreadHeight : read Tag.videoResolutionHeight.element (fullXml (request s hescape) xml) =
      some (decimal s.height) := by
    rw [hxml, read_set_ne (by decide) hprotocol, read_setBitrate_ne (by decide) (by decide),
      read_set_ne (by decide) hframerate, read_set hheight h₁.height]
  have hreadFramerate : read Tag.maxFrameRate.element (fullXml (request s hescape) xml) =
      some (decimal (s.framerate * 100)) := by
    rw [hxml, read_set_ne (by decide) hprotocol, read_setBitrate_ne (by decide) (by decide),
      read_set hframerate h₂.framerate]
  have hreadBitrate : (read Tag.vbrUpperCap.element (fullXml (request s hescape) xml) <|>
      read Tag.constantBitRate.element (fullXml (request s hescape) xml)) =
      some (decimal s.bitrate) := by
    rw [hxml, read_set_ne (by decide) hprotocol, read_set_ne (by decide) hprotocol,
      read_setBitrate h₃.bitrate]
  have hreadProtocol : read Tag.streamingTransport.element (fullXml (request s hescape) xml) =
      some s.protocol := by
    rw [hxml, read_set hprotocol h₄.protocol]
  rw [readSettings, hreadWidth, hreadHeight, hreadFramerate, hreadBitrate, hreadProtocol]
  simp only [Option.map_some, Option.getD_some, int_decimal]
  cases scale (s.framerate * 100) <;> rfl

/-- A frame rate of one is written as 100, which is read as a rate that is not scaled. -/
theorem scale_hundredfold_iff (framerate : Nat) :
    scale (framerate * 100) = some framerate ↔ framerate ≠ 1 ∧ Exact framerate := by
  rw [scale]
  split_ifs with h
  · have hne : framerate ≠ 1 := by omega
    rw [round_divide_iff (by decide)]
    exact (and_iff_right hne).symm
  · obtain rfl | rfl : framerate = 0 ∨ framerate = 1 := by omega
    · exact iff_of_true rfl ⟨by decide, exact_of_lt (by decide)⟩
    · simp

/-- What is written is read again just when the frame rate is not one and a float can hold it. -/
theorem settings_read_iff (stream : Stream) {xml : Str} (h : HasSettings xml) (s : Settings)
    (hne : s.protocol ≠ []) (hlt : '<' ∉ s.protocol) (hescape : '\\' ∉ s.protocol) :
    readSettings stream (fullXml (request s hescape) xml) = some s ↔
      s.framerate ≠ 1 ∧ Exact s.framerate := by
  rw [readSettings_fullXml stream h s hne hlt, ← scale_hundredfold_iff]
  constructor
  · intro hread
    obtain ⟨framerate, hscale, heq⟩ := Option.map_eq_some_iff.mp hread
    rw [hscale, ← heq]
  · intro hscale
    rw [hscale]
    rfl

def streamingChannel : Str :=
  Tag.videoResolutionWidth.element.write (decimal 704) ++
    (Tag.videoResolutionHeight.element.write (decimal 576) ++
      (Tag.maxFrameRate.element.write (decimal 1250) ++
        (Tag.constantBitRate.element.write (decimal 512) ++
          (Tag.streamingTransport.element.write "RTP".toList ++ []))))

theorem hasSettings_streamingChannel : HasSettings streamingChannel := by
  have hnumber : ∀ {t : Tag} (n : Nat), t ≠ .streamingTransport → Fits t.element (decimal n) :=
    fun n ht => fits_decimal ht n
  have hlater : ∀ {t : Tag} {before after : Str}, found t.element.pattern after = true →
      found t.element.pattern (before ++ after) = true :=
    fun h => found_append (noBehind_pattern _) h _
  exact ⟨found_write (hnumber 704 (by decide)) _, hlater (found_write (hnumber 576 (by decide)) _),
    hlater (hlater (found_write (hnumber 1250 (by decide)) _)),
    .inr (hlater (hlater (hlater (found_write (hnumber 512 (by decide)) _)))),
    hlater (hlater (hlater (hlater (found_write (fits_transport (by decide) (by decide)) _))))⟩

def atFramerate (framerate : Nat) : Settings := ⟨1920, 1080, framerate, 4096, "RTSP".toList⟩

theorem settings_read_twenty_five :
    readSettings .main (fullXml (request (atFramerate 25) (by decide)) streamingChannel) =
      some (atFramerate 25) :=
  (settings_read_iff .main hasSettings_streamingChannel (atFramerate 25) (by decide) (by decide)
    (by decide)).mpr ⟨by decide, exact_of_lt (by decide)⟩

theorem framerate_one_read_as_hundred : HasSettings streamingChannel ∧
    readSettings .main (fullXml (request (atFramerate 1) (by decide)) streamingChannel) =
      some (atFramerate 100) ∧ atFramerate 100 ≠ atFramerate 1 := by
  refine ⟨hasSettings_streamingChannel, ?_, by decide⟩
  rw [readSettings_fullXml .main hasSettings_streamingChannel _ (by decide) (by decide)]
  rfl

end AtmMonitor.StreamSettings
