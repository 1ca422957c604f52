import CameraCore.CameraConstruction
import CameraCore.DelimitedText
import CameraCore.OptionGrammar
import CameraCore.SyntheticCamera

/-!
# Command lines that ask for given options

The names the library prints for formats and modes are names it reads, and the digits of a number
are a numeral of it. So options can be written out as a command line that is read back, with the
items in any order and the defaults left out. Not every value of the options can be asked for: the
seed has no option, and the unknown format no name.

What the tool lists for a device can be asked for in the same words. The constructor then settles
on the mode of the line, and on the code of the first line with that mode and format.
-/

namespace CameraCore

open Assignments DelimitedText DeviceProgram FloatingPoint TextConversion

theorem named_toString_format {x : PixelFormat} (hx : x ≠ .unknown) :
    Named formatNames x.toString x := by
  cases x with
  | unknown => exact absurd rfl hx
  | _ => exact named_format.mpr ⟨by decide, nofun⟩

theorem named_toString_mode (x : CaptureMode) : Named modeNames x.toString x := by
  cases x <;> exact named_mode.mpr rfl

/-- What can be passed to a program: the text of an argument ends before a NUL. -/
def Argument (text : String) : Prop := '\x00' ∉ text.toList

instance (text : String) : Decidable (Argument text) :=
  inferInstanceAs (Decidable ('\x00' ∉ text.toList))

namespace Options

/-- The item that asks for the value of a field; `rate` is the text for the frame rate. -/
def item (options : Options) (rate : String) : OptionKey → Item
  | .synthetic => .synthetic
  | .valued .device => .valued .device options.config.device
  | .valued .format => .valued .format options.config.pixelFormat.toString
  | .valued .mode => .valued .mode options.config.captureMode.toString
  | .valued .width => .valued .width (toString options.config.width.toNat)
  | .valued .height => .valued .height (toString options.config.height.toNat)
  | .valued .fps => .valued .fps rate
  | .valued .buffers => .valued .buffers (toString options.config.bufferCount.toNat)
  | .valued .capture => .valued .capture (toString options.captureCount.toNat)
  | .valued .timeoutMs => .valued .timeoutMs (toString options.timeoutMs.toNat)

/-- Some text asks for the value of the field. -/
def Says (fl : Rounding) (inRange : ℚ → Bool) (options : Options) (rate : String) :
    OptionKey → Prop
  | .synthetic => options.config.backend = .synthetic
  | .valued .format => options.config.pixelFormat ≠ .unknown
  | .valued .fps => ValueOption.fps.Literal fl inRange rate options.config.frameRate
  | _ => True

/-- The fields that are written out: all but defaults that cannot be. -/
def keys (options : Options) : List OptionKey :=
  (if options.config.backend = .synthetic then [.synthetic] else []) ++
    [.valued .device, .valued .format, .valued .mode, .valued .width, .valued .height,
      .valued .buffers, .valued .capture, .valued .timeoutMs] ++
    (if options.config.frameRate = ({} : Options).config.frameRate then [] else [.valued .fps])

/-- What can be asked for. -/
structure Sayable (fl : Rounding) (inRange : ℚ → Bool) (options : Options) : Prop where
  seed : options.config.syntheticSeed = ({} : Options).config.syntheticSeed
  device : Argument options.config.device
  format : options.config.pixelFormat ≠ .unknown
  rate : options.config.frameRate = ({} : Options).config.frameRate ∨
    ∃ rate, Argument rate ∧ ValueOption.fps.Literal fl inRange rate options.config.frameRate

end Options

section Written

variable {fl : Rounding} {inRange : ℚ → Bool} {options r : Options} {rate program : String}
  {key : OptionKey} {keys : List OptionKey} {items before : List Item} {argv args : List String}

theorem Options.Says.setting (h : options.Says fl inRange rate key) :
    (options.item rate key).setting? fl inRange = some ⟨key, options.get key⟩ := by
  cases key with
  | synthetic =>
      have hbackend : options.get .synthetic = BackendKind.synthetic := h
      rw [hbackend]
      rfl
  | valued option =>
      have hliteral : ∀ text, option.Literal fl inRange text (options.get (.valued option)) →
          (Item.valued option text).setting? fl inRange =
            some ⟨.valued option, options.get (.valued option)⟩ := by
        intro text hl
        have hdenotes : (Item.valued option text).Denotes fl inRange
            (options.get (.valued option)) := hl
        exact hdenotes.setting
      cases option with
      | device => exact hliteral _ rfl
      | format => exact hliteral _ (named_toString_format h)
      | mode => exact hliteral _ (named_toString_mode _)
      | fps => exact hliteral _ h
      | _ => exact hliteral _ (denotesInteger_toString _)

theorem filterMap_item (h : ∀ key ∈ keys, options.Says fl inRange rate key) :
    (keys.map (options.item rate)).filterMap (Item.setting? fl inRange) =
      keys.map fun key => ⟨key, options.get key⟩ := by
  induction keys with
  | nil => rfl
  | cons key keys ih =>
      rw [List.map_cons, List.filterMap_cons_some (h key List.mem_cons_self).setting,
        ih fun key' hm => h key' (List.mem_cons_of_mem _ hm), List.map_cons]

/-- Options are read back, whatever the order, if the fields that are left out have defaults. -/
theorem parseOptions_item (hkeys : ∀ key ∈ keys, options.Says fl inRange rate key)
    (hrest : ∀ key, key ∉ keys → ({} : Options).get key = options.get key)
    (hseed : options.config.syntheticSeed = ({} : Options).config.syntheticSeed) :
    parseOptions fl inRange (program :: written (keys.map (options.item rate))) = .ok options := by
  refine (parseOptions_written rfl).mpr ⟨?_, ?_⟩
  · intro item hitem
    obtain ⟨key, hkey, rfl⟩ := List.mem_map.mp hitem
    exact ⟨_, (hkeys key hkey).setting⟩
  · apply Options.ext_get
    · rw [foldl_set_get, filterMap_item hkeys]
      exact assign_values hrest
    · rw [foldl_set_seed, hseed]

theorem converted_of_mem {option : ValueOption} {x : option.Value}
    (h : (⟨.valued option, x⟩ : Setting) ∈ items.filterMap (Item.setting? fl inRange)) :
    ∃ text ∈ written items, option.convert fl inRange text = .ok x := by
  obtain ⟨item, hitem, hsetting⟩ := List.mem_filterMap.mp h
  cases item with
  | synthetic => cases hsetting
  | valued option' text =>
      obtain ⟨x', hx, he⟩ := Item.valued_setting.mp hsetting
      cases he
      have htext : text ∈ (Item.valued option text).arguments :=
        List.mem_cons_of_mem _ List.mem_cons_self
      exact ⟨text, List.mem_flatMap.mpr ⟨_, hitem, htext⟩, hx⟩

/-- A field has its default, or a value some argument was converted to. -/
theorem parseOptions_field (h : parseOptions fl inRange argv = .ok r) (option : ValueOption) :
    r.get (.valued option) = ({} : Options).get (.valued option) ∨
      ∃ text ∈ argv, option.convert fl inRange text = .ok (r.get (.valued option)) := by
  obtain ⟨items, hitems⟩ := written_of_ok h
  obtain ⟨_, rfl⟩ := (parseOptions_written hitems).mp h
  rw [foldl_set_get]
  rcases assign_mem ({} : Options).get (items.filterMap (Item.setting? fl inRange))
    (.valued option) with hkept | hmem
  · exact Or.inl hkept
  · obtain ⟨text, htext, hx⟩ := converted_of_mem hmem
    rw [← hitems] at htext
    exact Or.inr ⟨text, List.mem_of_mem_tail htext, hx⟩

/-- A rate that was converted is the value of a numeral, the part of the text that was read. -/
theorem literal_of_rate {x : Double} (hrate : Argument rate)
    (h : ValueOption.fps.convert fl inRange rate = .ok x) :
    ∃ text, Argument text ∧ ValueOption.fps.Literal fl inRange text x := by
  rcases ValueOption.literal_of_convert h with hliteral | ⟨_, numeral, parsed, value, hlong, hvalue⟩
  · exact ⟨rate, hrate, hliteral⟩
  · have hstod := stod_eq_ok.mpr ⟨numeral, hlong, hvalue⟩
    change ((stod fl inRange rate.toList).mapError _).map _ = _ at h
    rw [hstod] at h
    obtain rfl : value = x := Except.ok.inj h
    refine ⟨String.ofList (rate.toList.take parsed), ?_, numeral, ?_, hvalue⟩
    · rw [Argument, String.toList_ofList]
      exact fun hmem => hrate (List.mem_of_mem_take hmem)
    · rw [String.toList_ofList]
      exact (longestUpTo_le hlong).2

theorem parseOptions_sayable (hargv : ∀ text ∈ argv, Argument text)
    (h : parseOptions fl inRange argv = .ok r) : r.Sayable fl inRange := by
  refine ⟨parseOptions_seed h, ?_, ?_, ?_⟩
  · rcases parseOptions_field h .device with hdefault | ⟨text, htext, hx⟩
    · have hpath : r.config.device = "/dev/video0" := hdefault
      rw [hpath]
      decide
    · have htaken : text = r.config.device := Except.ok.inj hx
      rw [← htaken]
      exact hargv text htext
  · rcases parseOptions_field h .format with hdefault | ⟨text, _, hx⟩
    · have hmjpeg : r.config.pixelFormat = .mjpeg := hdefault
      rw [hmjpeg]
      exact nofun
    · rcases ValueOption.literal_of_convert hx with hliteral | hmisread
      · exact (named_format.mp hliteral).2
      · exact hmisread.elim
  · rcases parseOptions_field h .fps with hdefault | ⟨text, htext, hx⟩
    · exact Or.inl hdefault
    · exact Or.inr (literal_of_rate (hargv text htext) hx)

theorem argument_toString (n : ℕ) : Argument (toString n) :=
  notMem_toString_nat (by decide)

theorem argument_item (hdevice : Argument options.config.device) (hrate : Argument rate)
    (key : OptionKey) : ∀ text ∈ (options.item rate key).arguments, Argument text := by
  have hpair : ∀ option text, Argument text →
      ∀ argument ∈ (Item.valued option text).arguments, Argument argument := by
    intro option text htext argument hmem
    rcases List.mem_cons.mp hmem with rfl | hmem
    · cases option <;> decide
    · rwa [List.mem_singleton.mp hmem]
  cases key with
  | synthetic =>
      intro text hmem
      rw [List.mem_singleton.mp hmem]
      decide
  | valued option =>
      cases option with
      | device => exact hpair _ _ hdevice
      | format => exact hpair _ _ (by cases options.config.pixelFormat <;> decide)
      | mode => exact hpair _ _ (by cases options.config.captureMode <;> decide)
      | fps => exact hpair _ _ hrate
      | _ => exact hpair _ _ (argument_toString _)

theorem Options.notMem_keys (h : key ∉ options.keys) :
    ({} : Options).get key = options.get key := by
  simp only [Options.keys, List.mem_append, List.mem_cons, List.not_mem_nil, or_false,
    not_or] at h
  obtain ⟨⟨hsynthetic, hvalued⟩, hfps⟩ := h
  cases key with
  | synthetic =>
      change BackendKind.v4l2 = options.config.backend
      cases hb : options.config.backend with
      | v4l2 => rfl
      | synthetic =>
          rw [if_pos hb] at hsynthetic
          exact absurd List.mem_cons_self hsynthetic
  | valued option =>
      cases option with
      | fps =>
          change ({} : Options).config.frameRate = options.config.frameRate
          by_cases hr : options.config.frameRate = ({} : Options).config.frameRate
          · exact hr.symm
          · rw [if_neg hr] at hfps
            exact absurd List.mem_cons_self hfps
      | _ => simp at hvalued

theorem Options.Sayable.says (h : options.Sayable fl inRange) :
    ∃ rate, Argument rate ∧ ∀ key ∈ options.keys, options.Says fl inRange rate key := by
  have hothers : ∀ rate key, key ∈ options.keys → key ≠ .valued .fps →
      options.Says fl inRange rate key := by
    intro rate key hkey hne
    cases key with
    | synthetic =>
        change options.config.backend = .synthetic
        by_contra hb
        simp [Options.keys, hb] at hkey
    | valued option =>
        cases option with
        | format => exact h.format
        | fps => exact absurd rfl hne
        | _ => trivial
  rcases h.rate with hdefault | ⟨rate, hrate, hliteral⟩
  · refine ⟨"", by decide, fun key hkey => hothers "" key hkey ?_⟩
    rintro rfl
    simp [Options.keys, hdefault] at hkey
  · refine ⟨rate, hrate, fun key hkey => ?_⟩
    by_cases hfps : key = .valued .fps
    · subst hfps
      exact hliteral
    · exact hothers rate key hkey hfps

end Written

/-- Some command line asks for just those options whose seed is the default, whose device can be
an argument, whose format is known and whose rate is the default or the value of a numeral; and
the fields of such options may be written out in any order, any number of times and without those
that have their defaults. -/
theorem commandLine_expresses (fl : Rounding) (inRange : ℚ → Bool) (options : Options) :
    ((∃ argv, (∀ text ∈ argv, Argument text) ∧ parseOptions fl inRange argv = .ok options) ↔
        options.Sayable fl inRange) ∧
      ∀ (program rate : String) (keys : List OptionKey),
        options.config.syntheticSeed = ({} : Options).config.syntheticSeed →
        (∀ key ∈ keys, options.Says fl inRange rate key) →
        (∀ key, key ∉ keys → ({} : Options).get key = options.get key) →
        parseOptions fl inRange (program :: written (keys.map (options.item rate))) =
          .ok options := by
  refine ⟨⟨?_, ?_⟩, ?_⟩
  · rintro ⟨argv, hargv, h⟩
    exact parseOptions_sayable hargv h
  · intro h
    obtain ⟨rate, hrate, hkeys⟩ := h.says
    refine ⟨"" :: written (options.keys.map (options.item rate)), ?_,
      parseOptions_item hkeys (fun _ hk => Options.notMem_keys hk) h.seed⟩
    intro text htext
    rcases List.mem_cons.mp htext with rfl | htext
    · decide
    · obtain ⟨item, hitem, htext⟩ := List.mem_flatMap.mp htext
      obtain ⟨key, _, rfl⟩ := List.mem_map.mp hitem
      exact argument_item h.device hrate key text htext
  · intro program rate keys hseed hkeys hrest
    exact parseOptions_item hkeys hrest hseed

def FormatCapability.request (entry : FormatCapability) : List Item :=
  [.valued .format entry.pixelFormat.toString, .valued .mode entry.captureMode.toString]

section Request

variable {fl : Rounding} {inRange : ℚ → Bool} {options r : Options} {program : String}
  {before items : List Item} {args : List String} {entry : FormatCapability}

theorem parseArguments_append (h : parseArguments fl inRange options (written items) = .ok r) :
    parseArguments fl inRange options (written items ++ args) =
      parseArguments fl inRange r args := by
  induction items generalizing options with
  | nil =>
      obtain rfl := Except.ok.inj h
      rfl
  | cons item items ih =>
      obtain ⟨hread, hr⟩ := parseArguments_written.mp h
      obtain ⟨s, hs⟩ := hread item List.mem_cons_self
      rw [written_cons, List.append_assoc, parseArguments_item hs]
      rw [written_cons, parseArguments_item hs] at h
      exact ih h

def Options.asking (options : Options) (entry : FormatCapability) : Options :=
  { options with
    config := { options.config with
      pixelFormat := entry.pixelFormat
      captureMode := entry.captureMode } }

theorem parseOptions_asking (hr : parseOptions fl inRange (program :: written before) = .ok r) :
    parseOptions fl inRange (program :: written (before ++ entry.request)) =
      parseArguments fl inRange r (ValueOption.format.text :: entry.pixelFormat.toString ::
        ValueOption.mode.text :: entry.captureMode.toString :: []) := by
  have happend : written (before ++ entry.request) = written before ++ written entry.request :=
    List.flatMap_append
  change parseArguments fl inRange {} (written (before ++ entry.request)) = _
  rw [happend, parseArguments_append hr]
  rfl

theorem parseOptions_request (hr : parseOptions fl inRange (program :: written before) = .ok r)
    (hf : entry.pixelFormat ≠ .unknown) :
    parseOptions fl inRange (program :: written (before ++ entry.request)) =
      .ok (r.asking entry) := by
  have hformat : ValueOption.format.convert fl inRange entry.pixelFormat.toString =
      .ok entry.pixelFormat := ValueOption.convert_of_literal (named_toString_format hf)
  have hmode : ValueOption.mode.convert fl inRange entry.captureMode.toString =
      .ok entry.captureMode := ValueOption.convert_of_literal (named_toString_mode _)
  rw [parseOptions_asking hr, parseArguments_valued, hformat]
  dsimp only
  rw [parseArguments_valued, hmode]
  rfl

theorem parseOptions_request_unknown
    (hr : parseOptions fl inRange (program :: written before) = .ok r)
    (hf : entry.pixelFormat = .unknown) :
    parseOptions fl inRange (program :: written (before ++ entry.request)) =
      .error (.threw (invalidArgument "unknown pixel format: unknown")) := by
  have hformat : ValueOption.format.convert fl inRange entry.pixelFormat.toString =
      .error (invalidArgument "unknown pixel format: unknown") := by
    have hname : pixelFormatFromString PixelFormat.unknown.toString = .unknown := by decide
    rw [hf, ValueOption.convert, if_pos hname]
    rfl
  rw [parseOptions_asking hr, parseArguments_valued, hformat]

end Request

/-- For a line of a device the constructor settles on its mode, and on the code of the first line
like it. -/
theorem resolve_listed {caps : Capabilities} {config : CaptureConfig} {entry : FormatCapability}
    (hs : caps.Sound) (hst : caps.streaming = true) (hm : entry ∈ caps.formats)
    (hf : entry.pixelFormat ≠ .unknown) (hformat : config.pixelFormat = entry.pixelFormat)
    (hmode : config.captureMode = entry.captureMode) :
    ∃ first, caps.formats.find? (FormatCapability.fits entry.captureMode entry.pixelFormat) =
        some first ∧ first.fourcc ≠ 0 ∧
      resolve config caps = .ok (entry.captureMode, first.fourcc) := by
  have hknown : config.pixelFormat ≠ .unknown := by
    rw [hformat]
    exact hf
  have hauto : config.captureMode ≠ .auto := by
    obtain ⟨type, _, had⟩ := hs entry hm
    rw [hmode, had.mode]
    cases type <;> exact nofun
  have hrequested : requestedMode config caps = entry.captureMode := by
    unfold requestedMode
    rw [if_neg hauto, hmode]
  obtain ⟨first, hfirst, hselect, hne⟩ := select_of_advertises hs hf ⟨entry, hm, rfl, rfl⟩
  refine ⟨first, hfirst, hne, ?_⟩
  rw [resolve_ok hst hs hknown ⟨entry, hm, hformat.symm, Or.inr hmode.symm⟩, hrequested, hformat,
    hselect]

theorem make_iff_advertises {config : CaptureConfig} (hf : config.pixelFormat ≠ .unknown) :
    (∃ camera, SyntheticCamera.make config = .ok camera) ↔
      makeCapabilities.Advertises config.captureMode.orSingle config.pixelFormat := by
  rw [SyntheticCamera.make_iff]
  generalize config.captureMode = mode at hf ⊢
  generalize config.pixelFormat = format at hf ⊢
  unfold Capabilities.Advertises
  cases mode <;> cases format <;> first | exact absurd rfl hf | decide

/-- After any options that are read, the names in a line ask for the format and the mode of the
line and for nothing else, unless the format is unknown. A device that listed the line then
settles on its mode and on the code of the first line like it; and the synthetic camera takes the
options just when it lists such a line. -/
theorem listed_formats_requestable {fl : Rounding} {inRange : ℚ → Bool} {program : String}
    {before : List Item} {r : Options}
    (hr : parseOptions fl inRange (program :: written before) = .ok r)
    (entry : FormatCapability) :
    parseOptions fl inRange (program :: written (before ++ entry.request)) =
        (if entry.pixelFormat = .unknown then
          .error (.threw (invalidArgument "unknown pixel format: unknown"))
        else .ok (r.asking entry)) ∧
      (entry.pixelFormat ≠ .unknown →
        (∀ (σ : Type) (D : Device linux σ) d fuel log caps d',
          Exec D (enumerateFd fuel).run d log (.ok caps) d' → caps.streaming = true →
          entry ∈ caps.formats →
          ∃ first, caps.formats.find?
              (FormatCapability.fits entry.captureMode entry.pixelFormat) = some first ∧
            first.fourcc ≠ 0 ∧
            resolve (r.asking entry).config caps = .ok (entry.captureMode, first.fourcc)) ∧
        ((∃ camera, SyntheticCamera.make (r.asking entry).config = .ok camera) ↔
          makeCapabilities.Advertises entry.captureMode.orSingle entry.pixelFormat)) := by
  constructor
  · by_cases hf : entry.pixelFormat = .unknown
    · rw [if_pos hf]
      exact parseOptions_request_unknown hr hf
    · rw [if_neg hf]
      exact parseOptions_request hr hf
  · intro hf
    constructor
    · intro σ D d fuel log caps d' henum hst hm
      exact resolve_listed (enumerateFd_sound henum) hst hm hf rfl rfl
    · exact make_iff_advertises hf

theorem listed_formats_requestable_sample : ∃ log caps entry code,
    Exec (fixed sampleAnswer) (enumerateFd 2).run () log (.ok caps) () ∧
    entry ∈ caps.formats ∧ entry.pixelFormat.toString = "grey" ∧
    resolve (({} : Options).asking entry).config caps = .ok (.singlePlane, code) := by
  have hrun : Exec (fixed sampleAnswer) (enumerateFd 2).run () _ _ () := exec_fixed rfl
  have hread : parseOptions .exact (fun _ => true) ("xgc2-camera-inspect" :: written []) =
      .ok {} := rfl
  obtain ⟨_, hall⟩ := listed_formats_requestable hread
    { pixelFormat := .grey
      fourcc := pixFmtGrey
      captureMode := .singlePlane
      description := "Grey"
      frameSizes := _ }
  obtain ⟨hlisted, _⟩ := hall nofun
  obtain ⟨first, _, _, hresolve⟩ := hlisted Unit _ _ _ _ _ _ hrun rfl List.mem_cons_self
  exact ⟨_, _, _, _, hrun, List.mem_cons_self, rfl, hresolve⟩

end CameraCore
