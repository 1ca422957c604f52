import CameraCore.Assignments
import CameraCore.ParseUint

/-!
# The values of the options

Every option of the command line sets one field of the options, `--synthetic` to a value of its
own and the others to what their values say. The fields are numbered by the options, so setting
them is an assignment in a row.

Which values are literals of an option's type is said without regard to the converters. The
converters accept all of them, and two kinds more: a rate with text behind the number, and a
number that wraps around.
-/

namespace CameraCore

open Assignments FloatingPoint TextConversion

inductive ValueOption
  | device
  | format
  | mode
  | width
  | height
  | fps
  | buffers
  | capture
  | timeoutMs
deriving DecidableEq

namespace ValueOption

def text : ValueOption → String
  | .device => "--device"
  | .format => "--format"
  | .mode => "--mode"
  | .width => "--width"
  | .height => "--height"
  | .fps => "--fps"
  | .buffers => "--buffers"
  | .capture => "--capture"
  | .timeoutMs => "--timeout-ms"

abbrev Value : ValueOption → Type
  | .device => String
  | .format => PixelFormat
  | .mode => CaptureMode
  | .width => UInt32
  | .height => UInt32
  | .fps => Double
  | .buffers => UInt32
  | .capture => UInt32
  | .timeoutMs => UInt32

end ValueOption

inductive OptionKey
  | synthetic
  | valued (option : ValueOption)
deriving DecidableEq

abbrev OptionKey.Value : OptionKey → Type
  | .synthetic => BackendKind
  | .valued option => option.Value

abbrev Setting := Sigma OptionKey.Value

namespace Options

def get (options : Options) : (key : OptionKey) → key.Value
  | .synthetic => options.config.backend
  | .valued .device => options.config.device
  | .valued .format => options.config.pixelFormat
  | .valued .mode => options.config.captureMode
  | .valued .width => options.config.width
  | .valued .height => options.config.height
  | .valued .fps => options.config.frameRate
  | .valued .buffers => options.config.bufferCount
  | .valued .capture => options.captureCount
  | .valued .timeoutMs => options.timeoutMs

def set (options : Options) : Setting → Options
  | ⟨.synthetic, backend⟩ => { options with config.backend := backend }
  | ⟨.valued .device, device⟩ => { options with config.device := device }
  | ⟨.valued .format, format⟩ => { options with config.pixelFormat := format }
  | ⟨.valued .mode, mode⟩ => { options with config.captureMode := mode }
  | ⟨.valued .width, width⟩ => { options with config.width := width }
  | ⟨.valued .height, height⟩ => { options with config.height := height }
  | ⟨.valued .fps, rate⟩ => { options with config.frameRate := rate }
  | ⟨.valued .buffers, count⟩ => { options with config.bufferCount := count }
  | ⟨.valued .capture, count⟩ => { options with captureCount := count }
  | ⟨.valued .timeoutMs, timeout⟩ => { options with timeoutMs := timeout }

theorem get_set (options : Options) (s : Setting) :
    (options.set s).get = Function.update options.get s.1 s.2 := by
  obtain ⟨key, value⟩ := s
  funext key'
  rcases key with _ | option
  · rcases key' with _ | option'
    · rfl
    · cases option' <;> rfl
  · rcases key' with _ | option'
    · cases option <;> rfl
    · cases option <;> cases option' <;> rfl

def fields : Fields Options OptionKey.Value where
  get := get
  set := set
  get_set := get_set

theorem set_seed (options : Options) (s : Setting) :
    (options.set s).config.syntheticSeed = options.config.syntheticSeed := by
  obtain ⟨_ | option, value⟩ := s
  · rfl
  · cases option <;> rfl

theorem ext_get {options options' : Options} (hget : options.get = options'.get)
    (hseed : options.config.syntheticSeed = options'.config.syntheticSeed) :
    options = options' := by
  have hbackend := congrFun hget .synthetic
  have hfield := fun option => congrFun hget (.valued option)
  have hdevice := hfield .device
  have hformat := hfield .format
  have hmode := hfield .mode
  have hwidth := hfield .width
  have hheight := hfield .height
  have hfps := hfield .fps
  have hbuffers := hfield .buffers
  have hcapture := hfield .capture
  have htimeout := hfield .timeoutMs
  obtain ⟨⟨_, _, _, _, _, _, _, _, _⟩, _, _⟩ := options
  obtain ⟨⟨_, _, _, _, _, _, _, _, _⟩, _, _⟩ := options'
  simp_all [get]

end Options

/-- A name of a table, in upper or lower case. -/
def Named {α : Type} (table : List (String × α)) (value : String) (x : α) : Prop :=
  ∃ name, (name, x) ∈ table ∧ normalize value = name.toList

def formatNames : List (String × PixelFormat) :=
  [("mjpeg", .mjpeg), ("mjpg", .mjpeg), ("h264", .h264), ("yuyv", .yuyv), ("yuy2", .yuyv),
    ("uyvy", .uyvy), ("rgb24", .rgb24), ("rgb", .rgb24), ("bgr24", .bgr24), ("bgr", .bgr24),
    ("nv12", .nv12), ("grey", .grey), ("gray", .grey), ("mono8", .grey)]

def modeNames : List (String × CaptureMode) :=
  [("auto", .auto), ("single", .singlePlane), ("single-plane", .singlePlane),
    ("single_plane", .singlePlane), ("multi", .multiPlane), ("multi-plane", .multiPlane),
    ("multi_plane", .multiPlane)]

namespace ValueOption

/-- The whole text is a literal of the option's type, with this value. -/
def Literal (fl : Rounding) (inRange : ℚ → Bool) :
    (option : ValueOption) → String → option.Value → Prop
  | .device, text, path => path = text
  | .format, text, x => Named formatNames text x
  | .mode, text, x => Named modeNames text x
  | .width, text, n => DenotesInteger text.toList n.toNat
  | .height, text, n => DenotesInteger text.toList n.toNat
  | .fps, text, rate =>
      ∃ numeral, number? text.toList = some numeral ∧ numeral.toDouble? fl inRange = some rate
  | .buffers, text, n => DenotesInteger text.toList n.toNat
  | .capture, text, n => DenotesInteger text.toList n.toNat
  | .timeoutMs, text, n => DenotesInteger text.toList n.toNat

/-- The text is no literal, and the converter does not see it: behind the longest number there
is more, or the number wraps around. -/
def Misread (fl : Rounding) (inRange : ℚ → Bool) : ValueOption → String → Prop
  | .device, _ => False
  | .format, _ => False
  | .mode, _ => False
  | .width, text => WrapsAround text.toList
  | .height, text => WrapsAround text.toList
  | .fps, text => number? text.toList = none ∧ ∃ numeral parsed rate,
      longestPrefix number? text.toList = some (numeral, parsed) ∧
        numeral.toDouble? fl inRange = some rate
  | .buffers, text => WrapsAround text.toList
  | .capture, text => WrapsAround text.toList
  | .timeoutMs, text => WrapsAround text.toList

/-- What the branch of an option makes of its value. -/
def convert (fl : Rounding) (inRange : ℚ → Bool) :
    (option : ValueOption) → String → Except ToolException option.Value
  | .device, text => .ok text
  | .format, text =>
      if pixelFormatFromString text = .unknown then
        .error (invalidArgument ("unknown pixel format: " ++ text))
      else .ok (pixelFormatFromString text)
  | .mode, text => (captureModeFromString text).mapError .library
  | .width, text => parseUint text "--width"
  | .height, text => parseUint text "--height"
  | .fps, text => ((stod fl inRange text.toList).mapError .standard).map Prod.fst
  | .buffers, text => parseUint text "--buffers"
  | .capture, text => parseUint text "--capture"
  | .timeoutMs, text => parseUint text "--timeout-ms"

end ValueOption

theorem bind_pure_map {ε α β : Type} (x : Except ε α) (f : α → β) :
    (x >>= fun a => pure (f a)) = x.map f := by
  cases x <;> rfl

section Values

variable {fl : Rounding} {inRange : ℚ → Bool} {option : ValueOption} {text : String}

theorem setOption_eq_convert (options : Options) (option : ValueOption) (text : String) :
    setOption fl inRange options option.text text =
      (option.convert fl inRange text).map fun x => options.set ⟨.valued option, x⟩ := by
  cases option with
  | device => simp only [setOption, ValueOption.text, if_true]; rfl
  | format =>
      simp only [setOption, ValueOption.text, ValueOption.convert, String.reduceEq, if_false,
        if_true]
      by_cases h : pixelFormatFromString text = .unknown
      · rw [if_pos h, if_pos h]
        rfl
      · rw [if_neg h, if_neg h]
        rfl
  | fps =>
      simp only [setOption, ValueOption.text, ValueOption.convert, String.reduceEq, if_false,
        if_true]
      cases stod fl inRange text.toList <;> rfl
  | _ =>
      simp only [setOption, ValueOption.text, ValueOption.convert, String.reduceEq, if_false,
        if_true]
      exact bind_pure_map _ _

theorem named_format {x : PixelFormat} :
    Named formatNames text x ↔ pixelFormatFromString text = x ∧ x ≠ .unknown := by
  constructor
  · rintro ⟨name, hmem, hname⟩
    simp only [pixelFormatFromString, hname]
    simp only [formatNames, List.mem_cons, Prod.mk.injEq, List.not_mem_nil, or_false] at hmem
    rcases hmem with ⟨rfl, rfl⟩ | ⟨rfl, rfl⟩ | ⟨rfl, rfl⟩ | ⟨rfl, rfl⟩ | ⟨rfl, rfl⟩ | ⟨rfl, rfl⟩ |
      ⟨rfl, rfl⟩ | ⟨rfl, rfl⟩ | ⟨rfl, rfl⟩ | ⟨rfl, rfl⟩ | ⟨rfl, rfl⟩ | ⟨rfl, rfl⟩ | ⟨rfl, rfl⟩ |
      ⟨rfl, rfl⟩ <;> decide
  · rintro ⟨rfl, hx⟩
    revert hx
    simp only [pixelFormatFromString]
    split_ifs <;> intro hx
    case neg => exact absurd rfl hx
    all_goals
      rename_i h
      simpa [Named, formatNames, or_and_right, exists_or] using h

theorem named_mode {x : CaptureMode} :
    Named modeNames text x ↔ captureModeFromString text = .ok x := by
  constructor
  · rintro ⟨name, hmem, hname⟩
    simp only [captureModeFromString, hname]
    simp only [modeNames, List.mem_cons, Prod.mk.injEq, List.not_mem_nil, or_false] at hmem
    rcases hmem with ⟨rfl, rfl⟩ | ⟨rfl, rfl⟩ | ⟨rfl, rfl⟩ | ⟨rfl, rfl⟩ | ⟨rfl, rfl⟩ | ⟨rfl, rfl⟩ |
      ⟨rfl, rfl⟩ <;> rfl
  · simp only [captureModeFromString]
    split_ifs <;> intro hx
    case neg => cases hx
    all_goals
      cases hx
      rename_i h
      simpa [Named, modeNames, or_and_right, exists_or] using h

namespace ValueOption

theorem convert_of_literal {x : option.Value} (h : option.Literal fl inRange text x) :
    option.convert fl inRange text = .ok x := by
  cases option with
  | device => exact congrArg Except.ok h.symm
  | format =>
      obtain ⟨rfl, hx⟩ := named_format.mp h
      exact if_neg hx
  | mode => exact mapError_eq_ok.mpr (named_mode.mp h)
  | fps =>
      obtain ⟨numeral, hread, hrate⟩ := h
      have hstod := stod_eq_ok.mpr ⟨numeral, longestPrefix_of_read hread, hrate⟩
      change ((stod fl inRange text.toList).mapError _).map _ = _
      rw [hstod]
      rfl
  | _ => exact parseUint_of_denotes h

theorem literal_of_convert {x : option.Value} (h : option.convert fl inRange text = .ok x) :
    option.Literal fl inRange text x ∨ option.Misread fl inRange text := by
  cases option with
  | device => exact Or.inl (Except.ok.inj h).symm
  | format =>
      simp only [convert] at h
      split_ifs at h with hunknown
      cases h
      exact Or.inl (named_format.mpr ⟨rfl, hunknown⟩)
  | mode => exact Or.inl (named_mode.mpr (mapError_eq_ok.mp h))
  | fps =>
      cases hstod : stod fl inRange text.toList with
      | error e =>
          simp only [convert, hstod] at h
          cases h
      | ok found =>
          simp only [convert, hstod] at h
          cases h
          obtain ⟨rate, parsed⟩ := found
          obtain ⟨numeral, hlongest, hrate⟩ := stod_eq_ok.mp hstod
          cases hread : number? text.toList with
          | none => exact Or.inr ⟨hread, numeral, parsed, rate, hlongest, hrate⟩
          | some whole =>
              rw [longestPrefix_of_read hread] at hlongest
              cases hlongest
              exact Or.inl ⟨numeral, hread, hrate⟩
  | _ => exact parseUint_denotes h

theorem Misread.converts (h : option.Misread fl inRange text) :
    ∃ x, option.convert fl inRange text = .ok x := by
  cases option with
  | device => exact h.elim
  | format => exact h.elim
  | mode => exact h.elim
  | fps =>
      obtain ⟨_, numeral, parsed, rate, hlongest, hrate⟩ := h
      have hstod := stod_eq_ok.mpr ⟨numeral, hlongest, hrate⟩
      refine ⟨rate, ?_⟩
      change ((stod fl inRange text.toList).mapError _).map _ = _
      rw [hstod]
      rfl
  | _ => exact WrapsAround.parseUint h _

theorem Misread.not_literal {x : option.Value} (h : option.Misread fl inRange text) :
    ¬ option.Literal fl inRange text x := by
  intro hx
  cases option with
  | device => exact h.elim
  | format => exact h.elim
  | mode => exact h.elim
  | fps =>
      obtain ⟨numeral, hread, _⟩ := hx
      rw [h.1] at hread
      cases hread
  | _ => exact WrapsAround.not_denotes h hx

end ValueOption

end Values

end CameraCore
