import AtmMonitor.EventPatterns
import AtmMonitor.StreamSettings

namespace AtmMonitor.StreamDocuments

open PyText Decimal XmlElements Library.Regex EventPatterns StreamSettings

def rootPattern : Regex :=
  .group "0" (seqs [lit sameFold "<StreamingChannel".toList, .many (· != '>'), chr '>'])

def defaultRoot : Str :=
  "<StreamingChannel version=\"2.0\" xmlns=\"http://www.hikvision.com/ver20/XMLSchema\">".toList

def rootTag (xml : Str) : Str :=
  ((search rootPattern xml).bind fun m => m.group "0").getD defaultRoot

def line (indent : Str) (t : Tag) (value : Str) : Str := indent ++ t.element.write value ++ ['\n']

def resolutionLines (width height : Option Int) : Str :=
  match width, height with
  | some width, some height =>
    line "    ".toList .videoResolutionWidth (str width) ++
      line "    ".toList .videoResolutionHeight (str height)
  | _, _ => []

def framerateLine : Option Int → Str
  | some framerate => line "    ".toList .maxFrameRate (str (framerate * 100))
  | none => []

def bitrateLine : Option Int → Str
  | some bitrate => line "    ".toList .vbrUpperCap (str bitrate)
  | none => []

def videoInner (r : Request) : Str :=
  resolutionLines r.width r.height ++ framerateLine r.framerate ++ bitrateLine r.bitrate

def transportBlock (r : Request) : Str :=
  match r.protocol with
  | some protocol =>
    "  <Transport>\n    <ControlProtocolList>\n      <ControlProtocol>\n".toList ++
      line "        ".toList .streamingTransport protocol.text ++
      "      </ControlProtocol>\n    </ControlProtocolList>\n  </Transport>\n".toList
  | none => []

def videoBlock (r : Request) : Str :=
  if videoInner r = [] then [] else "  <Video>\n".toList ++ videoInner r ++ "  </Video>\n".toList

/-- What is sent first. Of the document that the NVR has returned it takes the root tag. -/
def minimalXml (r : Request) (streamId : Nat) (xml : Str) : Str :=
  "<?xml version=\"1.0\" encoding=\"UTF-8\"?>\n".toList ++ rootTag xml ++
    "\n  <id>".toList ++ decimal streamId ++ "</id>\n".toList ++ transportBlock r ++
    videoBlock r ++ "</StreamingChannel>".toList

/-- The settings that the minimal XML states. -/
def stated (r : Request) : Tag → Option Str
  | .videoResolutionWidth => if r.height.isSome then r.width.map str else none
  | .videoResolutionHeight => if r.width.isSome then r.height.map str else none
  | .maxFrameRate => r.framerate.map fun framerate => str (framerate * 100)
  | .vbrUpperCap => r.bitrate.map str
  | .constantBitRate => none
  | .streamingTransport => r.protocol.map (·.text)

instance decidableQuiet : (w : Str) → Decidable (Quiet w)
  | [] => isTrue trivial
  | c :: w => @instDecidableAnd (c = '<' → w.head? = some '/') (Quiet w) inferInstance (decidableQuiet w)

theorem read_before (e : Element) {s u : Str} (hs : '>' ∉ s) (hu : '<' ∉ u) {c : Char} (hc : c ≠ '/')
    (xs : Str) : read e (s ++ '>' :: (u ++ '<' :: c :: xs)) = read e (u ++ '<' :: c :: xs) := by
  have hgt : IsMark '>' := .inr (.inl rfl)
  have hquiet : read e ('>' :: (u ++ '<' :: c :: xs)) = read e (u ++ '<' :: c :: xs) :=
    read_quiet e (w := ['>']) ⟨fun h => absurd h (by decide), trivial⟩ _
  induction s with
  | nil => exact hquiet
  | cons x s ih =>
    have hs' : '>' ∉ s := fun h => hs (.tail _ h)
    rw [List.cons_append, read_cons, ih hs']
    rintro value rest ⟨hfits, name, name', hname, -, hxml⟩
    obtain ⟨rfl, htail⟩ := List.cons.inj hxml
    obtain ⟨-, hcontent⟩ := append_mark_inj hs' (hname.not_mem hgt) htail
    obtain ⟨-, hslash⟩ := append_mark_inj hu hfits.not_mem hcontent
    exact hc (List.cons.inj hslash).1

theorem rootTag_split (xml : Str) : ∃ attributes, '>' ∉ attributes ∧ rootTag xml = attributes ++ ['>'] := by
  rw [rootTag]
  cases h : search rootPattern xml with
  | none => exact ⟨defaultRoot.dropLast, by decide +kernel, rfl⟩
  | some m =>
    obtain ⟨u, v, -, hm⟩ := mem_search h
    obtain ⟨d, hd, rfl⟩ := mem_run_group.mp hm
    obtain ⟨_, hopen, hd⟩ := mem_run_seqs_cons.mp hd
    obtain ⟨opening, tail, hopening, hv, rfl⟩ := mem_run_lit.mp hopen
    obtain ⟨_, hmany, hd⟩ := mem_run_seqs_cons.mp hd
    obtain ⟨w, tail', hw, htail, rfl⟩ := mem_run_many.mp hmany
    obtain ⟨_, hlast, hd⟩ := mem_run_seqs_cons.mp hd
    obtain ⟨x, rest, hx, htail', rfl⟩ := mem_run_cls_iff.mp hlast
    obtain rfl := mem_run_seqs_nil.mp hd
    obtain rfl : x = '>' := by simpa using hx
    have hmark : '>' ∉ opening := by
      intro hmem
      obtain ⟨i, hi, hget⟩ := List.mem_iff_getElem.mp hmem
      have hi' : i < "<StreamingChannel".toList.length := hopening.length_eq ▸ hi
      have hsame := hopening.get hi' hi
      have hnone : "<StreamingChannel".toList.all (fun a => !sameFold a '>') = true := by decide
      have hother := List.all_eq_true.mp hnone _ (List.getElem_mem hi')
      rw [List.get_eq_getElem, List.get_eq_getElem, hget] at hsame
      rw [hsame] at hother
      cases hother
    refine ⟨opening ++ w, ?_, ?_⟩
    · rw [List.mem_append, not_or]
      exact ⟨hmark, fun hmem => by simpa using hw '>' hmem⟩
    · have hsplit : v = (opening ++ (w ++ ['>'])) ++ rest := by
        rw [show v = _ from hv, show tail = _ from htail, show tail' = _ from htail']
        simp
      rw [Cursor.skip_skip, Cursor.skip_skip, captured_skip hsplit, List.append_assoc]
      rfl

theorem quiet_of_not_mem {w : Str} (h : '<' ∉ w) : Quiet w := by
  have hquiet := quiet_append h (w := []) trivial
  rwa [List.append_nil] at hquiet

theorem read_tag {e : Element} {w : Str} (hname : w.map fold ≠ e.name.map fold) (hlt : '<' ∉ w)
    (hgt : '>' ∉ w) (xs : Str) : read e ('<' :: (w ++ '>' :: xs)) = read e xs := by
  rw [read_cons]
  · have hquiet : Quiet (w ++ ['>']) := quiet_of_not_mem (by simpa using hlt)
    have hread := read_quiet e hquiet xs
    rwa [List.append_assoc] at hread
  · rintro value rest ⟨-, name, _, hnamed, -, hxml⟩
    obtain ⟨rfl, -⟩ := append_mark_inj hgt (hnamed.not_mem (.inr (.inl rfl))) (List.cons.inj hxml).2
    exact hname hnamed.fold_eq

theorem read_line {t : Tag} {value : Str} (hfits : Fits t.element value) {indent : Str}
    (hindent : '<' ∉ indent) (t' : Tag) (xs : Str) :
    read t'.element (line indent t value ++ xs) = if t = t' then some value else read t'.element xs := by
  have hbegins := begins_write hfits ('\n' :: xs)
  rw [line, List.append_assoc, List.append_assoc, read_quiet _ (quiet_of_not_mem hindent)]
  split_ifs with h
  · subst h
    exact read_of_begins hbegins
  · rw [List.singleton_append, hbegins.read_apart (apart h)]
    exact read_quiet _ (w := ['\n']) (quiet_of_not_mem (by decide)) xs

/-- The settings that the full XML replaces. -/
def replaced (r : Request) : Tag → Option Str
  | .constantBitRate => r.bitrate.map str
  | t => stated r t

/-- The values of a request are contents of their elements. -/
def Writable (r : Request) : Prop := ∀ t value, replaced r t = some value → Fits t.element value

theorem Writable.stated {r : Request} (h : Writable r) {t : Tag} {value : Str}
    (hstated : stated r t = some value) : Fits t.element value := by
  apply h
  cases t with
  | constantBitRate => cases hstated
  | _ => exact hstated

theorem read_videoInner {r : Request} (h : Writable r) (t : Tag) (xs : Str) :
    read t.element (videoInner r ++ xs) =
      (if t = .streamingTransport then none else stated r t).or (read t.element xs) := by
  have hline : ∀ {t' : Tag} {value : Str}, stated r t' = some value → ∀ ys,
      read t.element (line "    ".toList t' value ++ ys) =
        if t' = t then some value else read t.element ys :=
    fun hstated => read_line (h.stated hstated) (by decide) t
  obtain ⟨width, height, framerate, bitrate, protocol⟩ := r
  have hbitrate : ∀ ys, read t.element (bitrateLine bitrate ++ ys) =
      (if t = .vbrUpperCap then bitrate.map str else none).or (read t.element ys) := by
    intro ys
    cases bitrate with
    | none => cases t <;> rfl
    | some bitrate =>
      rw [bitrateLine, hline rfl]
      cases t <;> rfl
  have hframerate : ∀ ys, read t.element (framerateLine framerate ++ ys) =
      (if t = .maxFrameRate then framerate.map fun framerate => str (framerate * 100)
        else none).or (read t.element ys) := by
    intro ys
    cases framerate with
    | none => cases t <;> rfl
    | some framerate =>
      rw [framerateLine, hline rfl]
      cases t <;> rfl
  have hresolution : ∀ ys, read t.element (resolutionLines width height ++ ys) =
      (if t = .videoResolutionWidth then (if height.isSome then width.map str else none)
        else if t = .videoResolutionHeight then (if width.isSome then height.map str else none)
        else none).or (read t.element ys) := by
    intro ys
    cases width with
    | none => cases height <;> cases t <;> rfl
    | some width =>
      cases height with
      | none => cases t <;> rfl
      | some height =>
        rw [resolutionLines, List.append_assoc, hline rfl, hline rfl]
        cases t <;> rfl
  rw [videoInner, List.append_assoc, List.append_assoc, hresolution, hframerate, hbitrate]
  cases t <;> simp [stated]

theorem read_around {w : Str} (hw : w.map fold ∉ [Tag.videoResolutionWidth, .videoResolutionHeight,
      .maxFrameRate, .vbrUpperCap, .constantBitRate, .streamingTransport].map
        fun t => t.name.map fold)
    (hlt : '<' ∉ w) (hgt : '>' ∉ w) {indent : Str} (hindent : '<' ∉ indent) (t : Tag) (xs : Str) :
    read t.element (indent ++ '<' :: (w ++ '>' :: '\n' :: xs)) = read t.element xs := by
  have hname : w.map fold ≠ t.element.name.map fold := by
    rintro heq
    apply hw
    rw [heq]
    exact List.mem_map_of_mem (f := fun t : Tag => t.name.map fold) (by cases t <;> decide)
  rw [read_quiet _ (quiet_of_not_mem hindent), read_tag hname hlt hgt]
  exact read_quiet _ (w := ['\n']) (quiet_of_not_mem (by decide)) xs

theorem read_transportBlock {r : Request} (h : Writable r) (t : Tag) (xs : Str) :
    read t.element (transportBlock r ++ xs) =
      (if t = .streamingTransport then stated r t else none).or (read t.element xs) := by
  obtain ⟨width, height, framerate, bitrate, protocol⟩ := r
  cases protocol with
  | none => cases t <;> rfl
  | some protocol =>
    have hfits : Fits Tag.streamingTransport.element protocol.text :=
      h .streamingTransport _ rfl
    have hclosing : Quiet
        "      </ControlProtocol>\n    </ControlProtocolList>\n  </Transport>\n".toList := by
      decide
    have hsplit : transportBlock ⟨width, height, framerate, bitrate, some protocol⟩ ++ xs =
        "  ".toList ++ '<' :: ("Transport".toList ++ '>' :: '\n' :: ("    ".toList ++
          '<' :: ("ControlProtocolList".toList ++ '>' :: '\n' :: ("      ".toList ++
            '<' :: ("ControlProtocol".toList ++ '>' :: '\n' ::
              (line "        ".toList .streamingTransport protocol.text ++
                ("      </ControlProtocol>\n    </ControlProtocolList>\n  </Transport>\n".toList ++
                  xs))))))) := by
      simp [transportBlock]
    rw [hsplit, read_around (by decide) (by decide) (by decide) (by decide),
      read_around (by decide) (by decide) (by decide) (by decide),
      read_around (by decide) (by decide) (by decide) (by decide),
      read_line hfits (by decide), read_quiet _ hclosing]
    cases t <;> rfl

theorem read_videoBlock {r : Request} (h : Writable r) (t : Tag) (xs : Str) :
    read t.element (videoBlock r ++ xs) =
      (if t = .streamingTransport then none else stated r t).or (read t.element xs) := by
  rw [videoBlock]
  by_cases hempty : videoInner r = []
  · have hinner := read_videoInner h t xs
    rw [if_pos hempty]
    rwa [hempty] at hinner
  · have hsplit : "  <Video>\n".toList ++ videoInner r ++ "  </Video>\n".toList ++ xs =
        "  ".toList ++ '<' :: ("Video".toList ++ '>' :: '\n' ::
          (videoInner r ++ ("  </Video>\n".toList ++ xs))) := by
      simp
    rw [if_neg hempty, hsplit, read_around (by decide) (by decide) (by decide) (by decide),
      read_videoInner h, read_quiet _ (by decide)]

def idElement : Element where
  name := "id".toList
  content := isDigit
  letters := List.all_eq_true.mp (by decide)
  name_ne_nil := by decide
  content_lt := by decide

/-- What the minimal XML states is read from it, and no setting besides, whatever document the NVR
has returned. -/
theorem read_minimalXml {r : Request} (h : Writable r) (streamId : Nat) (xml : Str) (t : Tag) :
    read t.element (minimalXml r streamId xml) = stated r t := by
  obtain ⟨attributes, hgt, hroot⟩ := rootTag_split xml
  have hid : Fits idElement (decimal streamId) :=
    ⟨decimal_ne_nil streamId, fun c hc => isDigit_of_ascii (decimal_digits streamId c hc)⟩
  have hapart : Apart idElement t.element := by
    unfold Apart
    cases t <;> decide
  have hlast : read t.element "</StreamingChannel>".toList = none := by
    have hread := read_quiet t.element (w := "</StreamingChannel>".toList) (by decide) []
    rwa [List.append_nil, read_nil] at hread
  have hsplit : minimalXml r streamId xml =
      [] ++ '<' :: ("?xml version=\"1.0\" encoding=\"UTF-8\"?".toList ++ '>' :: '\n' ::
        (attributes ++ '>' :: ("\n  ".toList ++ '<' :: 'i' :: ("d>".toList ++ decimal streamId ++
          "</id>".toList ++ '\n' :: (transportBlock r ++
            (videoBlock r ++ "</StreamingChannel>".toList)))))) := by
    have hheader : "<?xml version=\"1.0\" encoding=\"UTF-8\"?>\n".toList =
        '<' :: ("?xml version=\"1.0\" encoding=\"UTF-8\"?".toList ++ ['>', '\n']) := by decide
    have hopening : "\n  <id>".toList = "\n  ".toList ++ '<' :: 'i' :: "d>".toList := by decide
    have hclosing : "</id>\n".toList = "</id>".toList ++ ['\n'] := by decide
    unfold minimalXml
    rw [hroot]
    simp only [hheader, hopening, hclosing, List.append_assoc, List.cons_append, List.nil_append]
  have hwrite : ∀ ys, "\n  ".toList ++ '<' :: 'i' :: ("d>".toList ++ decimal streamId ++
      "</id>".toList ++ '\n' :: ys) =
        "\n  ".toList ++ (idElement.write (decimal streamId) ++ (['\n'] ++ ys)) := by
    intro ys
    simp [Element.write, Element.opening, Element.closing, idElement]
  rw [hsplit, read_around (by decide +kernel) (by decide) (by decide) (by decide),
    read_before _ hgt (by decide) (by decide), hwrite, read_quiet _ (by decide),
    (begins_write hid _).read_apart hapart, read_quiet _ (by decide), read_transportBlock h,
    read_videoBlock h, hlast]
  cases t <;> simp

theorem replace_of_not_found {e : Element} {xml : Str} (h : read e xml = none) (new : Str) :
    replace e new xml = xml := by
  induction xml using document_induction e with
  | nil => rfl
  | element xml value rest hbegins ih =>
    rw [read_of_begins hbegins] at h
    cases h
  | other x xs hnot ih =>
    rw [read_cons hnot] at h
    rw [replace_cons hnot, ih h]

/-- The change gives each element that is there its value, if it has one. -/
def Sets (change : Str → Str) (values : Tag → Option Str) : Prop :=
  ∀ t xml, read t.element (change xml) = (read t.element xml).map fun old => (values t).getD old

theorem sets_none : Sets (fun xml => xml) fun _ => none := by
  intro t xml
  cases read t.element xml <;> rfl

theorem Sets.comp {f g : Str → Str} {v w : Tag → Option Str} (hf : Sets f v) (hg : Sets g w) :
    Sets (fun xml => f (g xml)) fun t => (v t).or (w t) := by
  intro t xml
  rw [hf, hg, Option.map_map]
  congr 1
  funext old
  cases hv : v t <;> simp [hv]

def only (t : Tag) (new : Str) (t' : Tag) : Option Str := if t = t' then some new else none

theorem sets_replace {t : Tag} {new : Str} (hnew : Fits t.element new) :
    Sets (replace t.element new) (only t new) := by
  intro t' xml
  by_cases h : t = t'
  · subst h
    rw [only, if_pos rfl]
    cases hread : read t.element xml with
    | none => rw [replace_of_not_found hread, hread]; rfl
    | some old =>
      have hthere : read t.element xml ≠ none := by rw [hread]; exact Option.some_ne_none old
      rw [read_replace hnew hthere]
      rfl
  · rw [only, if_neg h, read_set_ne h hnew]
    exact sets_none t' xml

theorem sets_found {t : Tag} {new : Str} (hnew : Fits t.element new) :
    Sets (fun xml => if found t.element.pattern xml then replace t.element new xml else xml)
      (only t new) := by
  intro t' xml
  have hall := sets_replace hnew t' xml
  by_cases hfound : found t.element.pattern xml = true
  · simp only [if_pos hfound]
    exact hall
  · have hnone : read t.element xml = none := by
      by_contra hread
      exact hfound (found_iff.mpr hread)
    simp only [if_neg hfound]
    rwa [replace_of_not_found hnone] at hall

theorem Sets.congr {f : Str → Str} {v w : Tag → Option Str} (hf : Sets f v) (h : ∀ t, v t = w t) :
    Sets f w := by
  intro t xml
  rw [hf, h]

theorem sets_resolution {width height : Option Int}
    (h : Writable ⟨width, height, none, none, none⟩) :
    Sets (setResolution width height) (replaced ⟨width, height, none, none, none⟩) := by
  match width, height with
  | none, _ => exact sets_none.congr fun t => by cases t <;> simp [replaced, stated]
  | some _, none => exact sets_none.congr fun t => by cases t <;> simp [replaced, stated]
  | some w, some l =>
    have hwidth : Fits Tag.videoResolutionWidth.element (str w) := h .videoResolutionWidth _ rfl
    have hheight : Fits Tag.videoResolutionHeight.element (str l) := h .videoResolutionHeight _ rfl
    have hsets := (sets_replace hheight).comp (sets_replace hwidth)
    exact hsets.congr fun t => by cases t <;> rfl

theorem sets_framerate {framerate : Option Int} (h : Writable ⟨none, none, framerate, none, none⟩) :
    Sets (setFramerate framerate) (replaced ⟨none, none, framerate, none, none⟩) := by
  cases framerate with
  | none => exact sets_none.congr fun t => by cases t <;> rfl
  | some n => exact (sets_replace (h .maxFrameRate _ rfl)).congr fun t => by cases t <;> rfl

theorem sets_bitrate {bitrate : Option Int} (h : Writable ⟨none, none, none, bitrate, none⟩) :
    Sets (setBitrate bitrate) (replaced ⟨none, none, none, bitrate, none⟩) := by
  cases bitrate with
  | none => exact sets_none.congr fun t => by cases t <;> rfl
  | some n =>
    have hvbr : Fits Tag.vbrUpperCap.element (str n) := h .vbrUpperCap _ rfl
    have hconstant : Fits Tag.constantBitRate.element (str n) := h .constantBitRate _ rfl
    have hsets := (sets_found hconstant).comp (sets_found hvbr)
    exact hsets.congr fun t => by cases t <;> rfl

theorem sets_protocol {protocol : Option Plain} (h : Writable ⟨none, none, none, none, protocol⟩) :
    Sets (setProtocol protocol) (replaced ⟨none, none, none, none, protocol⟩) := by
  cases protocol with
  | none => exact sets_none.congr fun t => by cases t <;> rfl
  | some p => exact (sets_replace (h .streamingTransport _ rfl)).congr fun t => by cases t <;> rfl

theorem sets_fullXml {r : Request} (h : Writable r) : Sets (fullXml r) (replaced r) := by
  obtain ⟨width, height, framerate, bitrate, protocol⟩ := r
  have hpart : ∀ {part : Request}, (∀ t value, replaced part t = some value →
      replaced ⟨width, height, framerate, bitrate, protocol⟩ t = some value) → Writable part :=
    fun hsub t value hvalue => h t value (hsub t value hvalue)
  have hresolution : Writable ⟨width, height, none, none, none⟩ := hpart fun t value hvalue => by
    cases t <;> first | exact hvalue | cases hvalue
  have hframerate : Writable ⟨none, none, framerate, none, none⟩ := hpart fun t value hvalue => by
    cases t <;> first | exact hvalue | cases hvalue
  have hbitrate : Writable ⟨none, none, none, bitrate, none⟩ := hpart fun t value hvalue => by
    cases t <;> first | exact hvalue | cases hvalue
  have hprotocol : Writable ⟨none, none, none, none, protocol⟩ := hpart fun t value hvalue => by
    cases t <;> first | exact hvalue | cases hvalue
  have hsets := (sets_protocol hprotocol).comp ((sets_bitrate hbitrate).comp
    ((sets_framerate hframerate).comp (sets_resolution hresolution)))
  exact hsets.congr fun t => by cases t <;> simp [replaced, stated]

/-- The two documents say what was asked for. From the minimal XML the requested settings are read
and no others, whatever document the NVR has returned; in the full XML the elements of the NVR's
document have the requested values, or else the values that they had, and there are no others. -/
theorem documents_state_request {r : Request} (h : Writable r) (streamId : Nat) (xml : Str) (t : Tag) :
    read t.element (minimalXml r streamId xml) = stated r t ∧
      read t.element (fullXml r xml) = (read t.element xml).map fun old => (replaced r t).getD old :=
  ⟨read_minimalXml h streamId xml t, sets_fullXml h t xml⟩

theorem documents_state_request_partial : let r : Request := ⟨none, none, some 12, none, none⟩
    read Tag.maxFrameRate.element (minimalXml r 102 streamingChannel) = some (str (12 * 100)) ∧
      read Tag.maxFrameRate.element (fullXml r streamingChannel) = some (str (12 * 100)) ∧
      read Tag.constantBitRate.element (fullXml r streamingChannel) = some (decimal 512) := by
  intro r
  have hwritable : Writable r := by
    intro t value hvalue
    cases t with
    | maxFrameRate =>
      obtain rfl := Option.some.inj hvalue
      exact ⟨by decide, List.all_eq_true.mp (by decide)⟩
    | _ => cases hvalue
  have hdocuments := documents_state_request hwritable 102 streamingChannel
  have hframerate : read Tag.maxFrameRate.element streamingChannel = some (decimal 1250) := by
    decide +kernel
  have hbitrate : read Tag.constantBitRate.element streamingChannel = some (decimal 512) := by
    decide +kernel
  refine ⟨(hdocuments .maxFrameRate).1, ?_, ?_⟩
  · rw [(hdocuments .maxFrameRate).2, hframerate]
    rfl
  · rw [(hdocuments .constantBitRate).2, hbitrate]
    rfl

end AtmMonitor.StreamDocuments
