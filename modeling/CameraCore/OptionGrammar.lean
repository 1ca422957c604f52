import CameraCore.OptionValues

/-!
# The grammar of the command line

The arguments are items: `--synthetic`, or an option with its value. They split into items in
one way at most, and reading them is reading the items one by one, each of which sets one field
of the options. So the last item of an option decides about its field.
-/

namespace CameraCore

open Assignments FloatingPoint TextConversion

inductive Item
  | synthetic
  | valued (option : ValueOption) (text : String)

namespace Item

def arguments : Item → List String
  | .synthetic => ["--synthetic"]
  | .valued option text => [option.text, text]

def key : Item → OptionKey
  | .synthetic => .synthetic
  | .valued option _ => .valued option

def Denotes (fl : Rounding) (inRange : ℚ → Bool) : (item : Item) → item.key.Value → Prop
  | .synthetic, backend => backend = .synthetic
  | .valued option text, x => option.Literal fl inRange text x

def Literal (fl : Rounding) (inRange : ℚ → Bool) (item : Item) : Prop :=
  ∃ x, item.Denotes fl inRange x

def Misread (fl : Rounding) (inRange : ℚ → Bool) : Item → Prop
  | .synthetic => False
  | .valued option text => option.Misread fl inRange text

/-- What the item assigns, unless its converter throws. -/
def setting? (fl : Rounding) (inRange : ℚ → Bool) : Item → Option Setting
  | .synthetic => some ⟨.synthetic, .synthetic⟩
  | .valued option text =>
      (option.convert fl inRange text).toOption.map fun x => ⟨.valued option, x⟩

end Item

def written (items : List Item) : List String := items.flatMap Item.arguments

theorem ValueOption.text_ne_synthetic (option : ValueOption) : option.text ≠ "--synthetic" := by
  cases option <;> decide

theorem ValueOption.text_ne_help (option : ValueOption) :
    ¬ (option.text = "--help" ∨ option.text = "-h") := by
  cases option <;> decide

theorem ValueOption.text_injective : Function.Injective ValueOption.text := by
  intro option option' h
  cases option <;> cases option' <;> first | rfl | exact absurd h (by decide)

theorem written_cons (item : Item) (items : List Item) :
    written (item :: items) = item.arguments ++ written items := List.flatMap_cons

theorem Item.arguments_append_inj {item item' : Item} {args args' : List String}
    (h : item.arguments ++ args = item'.arguments ++ args') : item = item' ∧ args = args' := by
  cases item with
  | synthetic =>
      cases item' with
      | synthetic => exact ⟨rfl, (List.cons.inj h).2⟩
      | valued option text => exact absurd (List.cons.inj h).1.symm option.text_ne_synthetic
  | valued option text =>
      cases item' with
      | synthetic => exact absurd (List.cons.inj h).1 option.text_ne_synthetic
      | valued option' text' =>
          obtain ⟨hoption, h⟩ := List.cons.inj h
          obtain ⟨rfl, rfl⟩ := List.cons.inj h
          rw [ValueOption.text_injective hoption]
          exact ⟨rfl, rfl⟩

theorem Item.arguments_ne_nil (item : Item) : item.arguments ≠ [] := by
  cases item <;> exact List.cons_ne_nil _ _

theorem written_injective : Function.Injective written := by
  intro items items' h
  induction items generalizing items' with
  | nil =>
      cases items' with
      | nil => rfl
      | cons item' items' =>
          rw [written_cons] at h
          exact absurd (List.append_eq_nil_iff.mp h.symm).1 item'.arguments_ne_nil
  | cons item items ih =>
      cases items' with
      | nil =>
          rw [written_cons] at h
          exact absurd (List.append_eq_nil_iff.mp h).1 item.arguments_ne_nil
      | cons item' items' =>
          rw [written_cons, written_cons] at h
          obtain ⟨rfl, hrest⟩ := Item.arguments_append_inj h
          rw [ih hrest]

section Reading

variable {fl : Rounding} {inRange : ℚ → Bool} {options r : Options} {args : List String}
  {item : Item} {items : List Item} {s : Setting}

theorem Item.valued_setting {option : ValueOption} {text : String} :
    (Item.valued option text).setting? fl inRange = some s ↔
      ∃ x, option.convert fl inRange text = .ok x ∧ ⟨.valued option, x⟩ = s := by
  simp only [setting?, Option.map_eq_some_iff, toOption_eq_some]

theorem Item.Denotes.setting {x : item.key.Value} (h : item.Denotes fl inRange x) :
    item.setting? fl inRange = some ⟨item.key, x⟩ := by
  cases item with
  | synthetic =>
      cases h
      rfl
  | valued option text =>
      exact valued_setting.mpr ⟨x, ValueOption.convert_of_literal h, rfl⟩

theorem Item.setting_eq_some (h : item.setting? fl inRange = some s) :
    ∃ x, s = ⟨item.key, x⟩ ∧ (item.Denotes fl inRange x ∨ item.Misread fl inRange) := by
  cases item with
  | synthetic =>
      cases h
      exact ⟨_, rfl, Or.inl rfl⟩
  | valued option text =>
      obtain ⟨x, hx, rfl⟩ := valued_setting.mp h
      exact ⟨x, rfl, ValueOption.literal_of_convert hx⟩

theorem key_ne_of_setting {key : OptionKey} (h : ∀ item ∈ items, item.key ≠ key) :
    ∀ s ∈ items.filterMap (Item.setting? fl inRange), s.1 ≠ key := by
  intro s hs
  obtain ⟨item, hmem, hsetting⟩ := List.mem_filterMap.mp hs
  obtain ⟨x, rfl, _⟩ := Item.setting_eq_some hsetting
  exact h item hmem

theorem Item.Misread.setting (h : item.Misread fl inRange) :
    ∃ s, item.setting? fl inRange = some s := by
  cases item with
  | synthetic => exact h.elim
  | valued option text =>
      obtain ⟨x, hx⟩ := ValueOption.Misread.converts h
      exact ⟨_, valued_setting.mpr ⟨x, hx, rfl⟩⟩

theorem Item.Misread.not_literal (h : item.Misread fl inRange) : ¬ item.Literal fl inRange := by
  rintro ⟨x, hx⟩
  cases item with
  | synthetic => exact h
  | valued option text => exact ValueOption.Misread.not_literal h hx

theorem parseArguments_synthetic :
    parseArguments fl inRange options ("--synthetic" :: args) =
      parseArguments fl inRange (options.set ⟨.synthetic, .synthetic⟩) args := by
  conv_lhs => unfold parseArguments
  dsimp only
  rw [if_neg (by decide), if_pos rfl]
  rfl

theorem parseArguments_valued (option : ValueOption) (text : String) :
    parseArguments fl inRange options (option.text :: text :: args) =
      match option.convert fl inRange text with
      | .error e => .error (.threw e)
      | .ok x => parseArguments fl inRange (options.set ⟨.valued option, x⟩) args := by
  conv_lhs => unfold parseArguments
  dsimp only
  rw [if_neg option.text_ne_help, if_neg option.text_ne_synthetic, setOption_eq_convert]
  cases option.convert fl inRange text <;> rfl

theorem parseArguments_item (h : item.setting? fl inRange = some s) :
    parseArguments fl inRange options (item.arguments ++ args) =
      parseArguments fl inRange (options.set s) args := by
  cases item with
  | synthetic =>
      cases h
      exact parseArguments_synthetic
  | valued option text =>
      obtain ⟨x, hx, rfl⟩ := Item.valued_setting.mp h
      refine (parseArguments_valued option text).trans ?_
      rw [hx]
      rfl

theorem parseArguments_item_none (h : item.setting? fl inRange = none) :
    ∃ e, parseArguments fl inRange options (item.arguments ++ args) = .error e := by
  cases item with
  | synthetic => cases h
  | valued option text =>
      cases hx : option.convert fl inRange text with
      | error e =>
          refine ⟨.threw e, (parseArguments_valued option text).trans ?_⟩
          rw [hx]
      | ok x =>
          rw [Item.valued_setting.mpr ⟨x, hx, rfl⟩] at h
          cases h

/-- Items are read when every one of them assigns something, and then the assignments are made
one after the other. -/
theorem parseArguments_written :
    parseArguments fl inRange options (written items) = .ok r ↔
      (∀ item ∈ items, ∃ s, item.setting? fl inRange = some s) ∧
        (items.filterMap (Item.setting? fl inRange)).foldl Options.set options = r := by
  induction items generalizing options with
  | nil =>
      change Except.ok options = Except.ok r ↔ _
      simp
  | cons item items ih =>
      rw [written_cons, List.forall_mem_cons]
      cases hs : item.setting? fl inRange with
      | none =>
          obtain ⟨e, he⟩ : ∃ e, parseArguments fl inRange options
              (item.arguments ++ written items) = .error e := parseArguments_item_none hs
          rw [he]
          simp
      | some s =>
          rw [parseArguments_item hs, ih, List.filterMap_cons_some hs]
          simp

theorem setOption_known {argument value : String}
    (h : setOption fl inRange options argument value = .ok r) :
    ∃ option : ValueOption, argument = option.text := by
  unfold setOption at h
  split_ifs at h with h₁ h₂ h₃ h₄ h₅ h₆ h₇ h₈ h₉
  · exact ⟨.device, h₁⟩
  · exact ⟨.format, h₂⟩
  · exact ⟨.mode, h₃⟩
  · exact ⟨.width, h₄⟩
  · exact ⟨.height, h₅⟩
  · exact ⟨.fps, h₆⟩
  · exact ⟨.buffers, h₇⟩
  · exact ⟨.capture, h₈⟩
  · exact ⟨.timeoutMs, h₉⟩

theorem written_of_ok (h : parseArguments fl inRange options args = .ok r) :
    ∃ items, args = written items := by
  induction options, args using parseArguments.induct fl inRange with
  | case1 options => exact ⟨[], rfl⟩
  | case2 options argument rest hhelp =>
      unfold parseArguments at h
      dsimp only at h
      rw [if_pos hhelp] at h
      cases h
  | case3 options rest hhelp ih =>
      rw [parseArguments_synthetic] at h
      obtain ⟨items, rfl⟩ := ih h
      exact ⟨.synthetic :: items, rfl⟩
  | case4 options argument hhelp hsynthetic =>
      unfold parseArguments at h
      dsimp only at h
      rw [if_neg hhelp, if_neg hsynthetic] at h
      cases h
  | case5 options argument hhelp hsynthetic value rest e hset =>
      unfold parseArguments at h
      dsimp only at h
      rw [if_neg hhelp, if_neg hsynthetic, hset] at h
      cases h
  | case6 options argument hhelp hsynthetic value rest options' hset ih =>
      unfold parseArguments at h
      dsimp only at h
      rw [if_neg hhelp, if_neg hsynthetic, hset] at h
      obtain ⟨items, rfl⟩ := ih h
      obtain ⟨option, rfl⟩ := setOption_known hset
      exact ⟨.valued option value :: items, rfl⟩

end Reading

section Grammar

variable {fl : Rounding} {inRange : ℚ → Bool} {options r : Options} {argv argv' : List String}
  {item item' : Item} {items before after : List Item} {settings : List Setting}

theorem foldl_set_get :
    (settings.foldl Options.set options).get = assign options.get settings :=
  Options.fields.get_foldl options settings

theorem foldl_set_seed :
    (settings.foldl Options.set options).config.syntheticSeed = options.config.syntheticSeed := by
  induction settings generalizing options with
  | nil => rfl
  | cons s settings ih => rw [List.foldl_cons, ih, Options.set_seed]

theorem parseOptions_written (h : argv.tail = written items) :
    parseOptions fl inRange argv = .ok r ↔
      (∀ item ∈ items, ∃ s, item.setting? fl inRange = some s) ∧
        (items.filterMap (Item.setting? fl inRange)).foldl Options.set {} = r := by
  unfold parseOptions
  rw [h]
  exact parseArguments_written

/-- What the tool accepts in fact. -/
theorem parseOptions_returns_iff :
    (∃ r, parseOptions fl inRange argv = .ok r) ↔
      ∃ items, argv.tail = written items ∧
        ∀ item ∈ items, item.Literal fl inRange ∨ item.Misread fl inRange := by
  constructor
  · rintro ⟨r, h⟩
    obtain ⟨items, hitems⟩ := written_of_ok h
    refine ⟨items, hitems, fun item hmem => ?_⟩
    obtain ⟨s, hs⟩ := ((parseOptions_written hitems).mp h).1 item hmem
    obtain ⟨x, _, hx⟩ := Item.setting_eq_some hs
    exact hx.imp_left fun hdenotes => ⟨x, hdenotes⟩
  · rintro ⟨items, hitems, hread⟩
    refine ⟨_, (parseOptions_written hitems).mpr ⟨fun item hmem => ?_, rfl⟩⟩
    rcases hread item hmem with ⟨x, hx⟩ | hmisread
    · exact ⟨_, hx.setting⟩
    · exact hmisread.setting

theorem parseOptions_absent {key : OptionKey} (hitems : argv.tail = written items)
    (h : parseOptions fl inRange argv = .ok r) (hkey : ∀ item ∈ items, item.key ≠ key) :
    r.get key = ({} : Options).get key := by
  obtain ⟨_, rfl⟩ := (parseOptions_written hitems).mp h
  rw [foldl_set_get]
  apply assign_of_absent
  exact key_ne_of_setting hkey

theorem parseOptions_seed (h : parseOptions fl inRange argv = .ok r) :
    r.config.syntheticSeed = ({} : Options).config.syntheticSeed := by
  obtain ⟨items, hitems⟩ := written_of_ok h
  obtain ⟨_, rfl⟩ := (parseOptions_written hitems).mp h
  exact foldl_set_seed

theorem parseOptions_last (hitems : argv.tail = written (before ++ item :: after))
    (h : parseOptions fl inRange argv = .ok r) (hafter : ∀ item' ∈ after, item'.key ≠ item.key) :
    item.Denotes fl inRange (r.get item.key) ∨ item.Misread fl inRange := by
  obtain ⟨hread, rfl⟩ := (parseOptions_written hitems).mp h
  obtain ⟨s, hs⟩ := hread item (List.mem_append_right _ List.mem_cons_self)
  obtain ⟨x, rfl, hx⟩ := Item.setting_eq_some hs
  rw [List.filterMap_append, List.filterMap_cons_some hs, foldl_set_get]
  have hvalue : assign ({} : Options).get (before.filterMap (Item.setting? fl inRange) ++
      ⟨item.key, x⟩ :: after.filterMap (Item.setting? fl inRange)) item.key = x :=
    assign_last (key_ne_of_setting hafter)
  rw [hvalue]
  exact hx

theorem foldl_set_swap {before after : List Setting} {s s' : Setting} (h : s.1 ≠ s'.1) :
    (before ++ s :: s' :: after).foldl Options.set options =
      (before ++ s' :: s :: after).foldl Options.set options := by
  apply Options.ext_get
  · rw [foldl_set_get, foldl_set_get, assign_swap h]
  · rw [foldl_set_seed, foldl_set_seed]

theorem parseOptions_exchange (hkey : item.key ≠ item'.key)
    (hitems : argv.tail = written (before ++ item :: item' :: after))
    (hitems' : argv'.tail = written (before ++ item' :: item :: after))
    (h : parseOptions fl inRange argv = .ok r) : parseOptions fl inRange argv' = .ok r := by
  obtain ⟨hread, rfl⟩ := (parseOptions_written hitems).mp h
  have hperm : (before ++ item' :: item :: after).Perm (before ++ item :: item' :: after) :=
    (List.Perm.swap item item' after).append_left before
  refine (parseOptions_written hitems').mpr ⟨fun a ha => hread a (hperm.mem_iff.mp ha), ?_⟩
  obtain ⟨s, hs⟩ := hread item (by simp)
  obtain ⟨s', hs'⟩ := hread item' (by simp)
  obtain ⟨x, rfl, _⟩ := Item.setting_eq_some hs
  obtain ⟨x', rfl, _⟩ := Item.setting_eq_some hs'
  simp only [List.filterMap_append, List.filterMap_cons_some hs, List.filterMap_cons_some hs']
  exact foldl_set_swap hkey.symm

/-- A call returns just for arguments that split into items whose values are literals. In what it
returns each field has the value of its last item, or the default, and items of different options
may change places. -/
structure ParsesGrammar (fl : Rounding) (inRange : ℚ → Bool) (argv : List String) : Prop where
  returns_iff : (∃ r, parseOptions fl inRange argv = .ok r) ↔
    ∃ items, argv.tail = written items ∧ ∀ item ∈ items, item.Literal fl inRange
  absent : ∀ items key r, argv.tail = written items → parseOptions fl inRange argv = .ok r →
    (∀ item ∈ items, item.key ≠ key) → r.get key = ({} : Options).get key
  seed : ∀ r, parseOptions fl inRange argv = .ok r →
    r.config.syntheticSeed = ({} : Options).config.syntheticSeed
  last : ∀ before item after r, argv.tail = written (before ++ item :: after) →
    parseOptions fl inRange argv = .ok r → (∀ item' ∈ after, item'.key ≠ item.key) →
    item.Denotes fl inRange (r.get item.key)
  exchange : ∀ before item item' after argv', item.key ≠ item'.key →
    argv.tail = written (before ++ item :: item' :: after) →
    argv'.tail = written (before ++ item' :: item :: after) →
    ∀ r, parseOptions fl inRange argv = .ok r ↔ parseOptions fl inRange argv' = .ok r

/-- The arguments split into items whose values are literals or are misread, and one is misread. -/
def MisreadArguments (fl : Rounding) (inRange : ℚ → Bool) (argv : List String) : Prop :=
  ∃ items, argv.tail = written items ∧
    (∀ item ∈ items, item.Literal fl inRange ∨ item.Misread fl inRange) ∧
    ∃ item ∈ items, item.Misread fl inRange

theorem literal_of_returned (hgood : ¬ MisreadArguments fl inRange argv)
    (hitems : argv.tail = written items) (h : parseOptions fl inRange argv = .ok r) :
    ∀ item ∈ items, item.Literal fl inRange := by
  obtain ⟨items', hitems', hread⟩ := parseOptions_returns_iff.mp ⟨r, h⟩
  have hsplit : items = items' := written_injective (hitems.symm.trans hitems')
  subst hsplit
  intro item hmem
  apply (hread item hmem).resolve_right
  intro hmisread
  exact hgood ⟨items, hitems, hread, item, hmem, hmisread⟩

theorem MisreadArguments.not_parses (h : MisreadArguments fl inRange argv) :
    ¬ ParsesGrammar fl inRange argv := by
  intro hparses
  obtain ⟨items, hitems, hread, item, hmem, hmisread⟩ := h
  obtain ⟨items', hitems', hliteral⟩ :=
    hparses.returns_iff.mp (parseOptions_returns_iff.mpr ⟨items, hitems, hread⟩)
  have hsplit : items = items' := written_injective (hitems.symm.trans hitems')
  subst hsplit
  exact hmisread.not_literal (hliteral item hmem)

/-- The options follow their grammar unless a value is misread. -/
theorem parseOptions_grammar_iff (fl : Rounding) (inRange : ℚ → Bool) (argv : List String) :
    ParsesGrammar fl inRange argv ↔ ¬ MisreadArguments fl inRange argv := by
  constructor
  · intro h hmisread
    exact hmisread.not_parses h
  · intro hgood
    constructor
    · constructor
      · rintro ⟨r, h⟩
        obtain ⟨items, hitems⟩ := written_of_ok h
        exact ⟨items, hitems, literal_of_returned hgood hitems h⟩
      · rintro ⟨items, hitems, hliteral⟩
        exact parseOptions_returns_iff.mpr
          ⟨items, hitems, fun item hmem => Or.inl (hliteral item hmem)⟩
    · intro items key r hitems h hkey
      exact parseOptions_absent hitems h hkey
    · intro r h
      exact parseOptions_seed h
    · intro before item after r hitems h hafter
      apply (parseOptions_last hitems h hafter).resolve_right
      intro hmisread
      have hmem : item ∈ before ++ item :: after := List.mem_append_right _ List.mem_cons_self
      exact hmisread.not_literal (literal_of_returned hgood hitems h item hmem)
    · intro before item item' after argv' hkey hitems hitems' r
      exact ⟨parseOptions_exchange hkey hitems hitems',
        parseOptions_exchange hkey.symm hitems' hitems⟩

end Grammar

/-- A rate with letters behind it is accepted for its digits. -/
theorem parseOptions_accepts_trailing_text :
    parseOptions .exact (fun _ => true) ["xgc2-camera-inspect", "--fps", "30abc"] =
      .ok { config := { frameRate := .finite 30 } } ∧
    ¬ ParsesGrammar .exact (fun _ => true) ["xgc2-camera-inspect", "--fps", "30abc"] := by
  have hlongest : longestPrefix number? "30abc".toList =
      some (.finite (30 * 10 ^ (0 : ℤ) / 10 ^ 0), 2) := rfl
  have hvalue : (30 * 10 ^ (0 : ℤ) / 10 ^ 0 : ℚ) = 30 := by norm_num
  rw [hvalue] at hlongest
  have hmisread : (Item.valued .fps "30abc").Misread .exact fun _ => true :=
    ⟨rfl, .finite 30, 2, .finite 30, hlongest, rfl⟩
  constructor
  · have hstod : stod .exact (fun _ => true) "30abc".toList = .ok (.finite 30, 2) :=
      stod_eq_ok.mpr ⟨.finite 30, hlongest, rfl⟩
    have hconvert : ValueOption.fps.convert .exact (fun _ => true) "30abc" =
        .ok (.finite 30) := by
      simp only [ValueOption.convert, hstod]
      rfl
    refine (parseArguments_valued .fps "30abc").trans ?_
    rw [hconvert]
    rfl
  · apply MisreadArguments.not_parses
    refine ⟨[.valued .fps "30abc"], rfl, ?_, _, List.mem_singleton_self _, hmisread⟩
    intro item hmem
    rw [List.mem_singleton.mp hmem]
    exact Or.inr hmisread

end CameraCore
