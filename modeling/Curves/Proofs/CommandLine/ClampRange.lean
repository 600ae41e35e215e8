import Curves.CommandLine.Run
import Curves.Proofs.CommandLine.Reading
import Curves.Proofs.Expr.Literal
import Curves.Proofs.Number.Scientific
import Curves.Proofs.Number.Signs
import Curves.Proofs.Sampling.Clamping

/-!
# Clamp ranges of the command line

A clamp range is checked twice: its ends are compared when the range is read, and again before a
curve is sampled, when they also have to be numbers. NaN is not greater than anything, so a range
with the end NaN is read and only refused later. No other range makes a difference between the two.

Main statements:

* `isNaN_read?`: the texts that are read as NaN;
* `readClamp_eq_ok_iff`: the texts that are read as a range;
* `ofWords_sample`: the range of a sampling was given on the command line;
* `curveTable_eq_invalidClamp_iff`: when sampling fails because of the range;
* `clampRange_refused_iff`: the ranges that are read and refused later.
-/

namespace Curves

/-! ## Texts that are read as NaN -/

namespace Number

/-- Whether a text stands for NaN: `nan` in any case of letters, perhaps behind a sign. -/
def SpellsNaN (source : List Char) : Prop :=
  (splitSign source).2.map Char.toLower = ['n', 'a', 'n']

instance (source : List Char) : Decidable (SpellsNaN source) := inferInstanceAs (Decidable (_ = _))

theorem isNaN_neg (x : Float) : (-x).isNaN = x.isNaN := by
  change (-x).toModel.unpack.isNaN = x.toModel.unpack.isNaN
  rw [unpack_neg]
  cases x.toModel.unpack <;> rfl

/-- Of all texts that are read as numbers, exactly those that spell NaN are read as NaN. -/
theorem isNaN_read? {source : List Char} {x : Float} (h : read? source = some x) :
    x.isNaN ↔ SpellsNaN source := by
  rcases parts : splitSign source with ⟨negative, magnitude⟩
  simp only [read?, parts] at h
  obtain ⟨value, named, rfl⟩ := Option.map_eq_some_iff.1 h
  have unsigned : (if negative then -value else value).isNaN = value.isNaN := by
    split_ifs
    · exact isNaN_neg value
    · rfl
  have spelled {s : String} (name : String.ofList (magnitude.map Char.toLower) = s) :
      SpellsNaN source ↔ s.toList = ['n', 'a', 'n'] := by
    rw [SpellsNaN, parts, ← name, String.toList_ofList]
  rw [unsigned]
  split at named
  · next name =>
    obtain rfl := Option.some.inj named
    exact iff_of_false (by decide) ((spelled name).not.2 (by decide))
  · next name =>
    obtain rfl := Option.some.inj named
    exact iff_of_false (by decide) ((spelled name).not.2 (by decide))
  · next name =>
    obtain rfl := Option.some.inj named
    exact iff_of_true (by decide) ((spelled name).2 (by decide))
  · next name =>
    obtain ⟨d, -, rfl⟩ := Option.map_eq_some_iff.1 named
    rw [SpellsNaN, parts]
    exact iff_of_false (Bool.eq_false_iff.1 d.toFloat_roundsTo.isNaN_eq_false) fun spells =>
      name (congrArg String.ofList spells)

end Number

namespace CommandLine

/-! ## Texts that are read as a range -/

section Range
variable {text : String} {low high : List Char} {b : Bounds}

theorem parts_of_first_comma (parts : text.toList = low ++ ',' :: high) (first : ',' ∉ low) :
    text.toList.takeWhile (· ≠ ',') = low ∧ text.toList.dropWhile (· ≠ ',') = ',' :: high := by
  rw [parts]
  exact Grammar.takeWhile_dropWhile_append (by grind) (by simp)

/-- What is read of two numbers around the first comma of a text. -/
theorem readClamp_of_numbers (parts : text.toList = low ++ ',' :: high) (first : ',' ∉ low)
    {l h : Float} (readLow : readPadded? low = some l) (readHigh : readPadded? high = some h) :
    readClamp text = if l > h then .error (.reversed l h) else .ok ⟨l, h⟩ := by
  obtain ⟨before, behind⟩ := parts_of_first_comma parts first
  unfold readClamp
  rw [before, behind]
  simp only [readLow, readHigh]

/-- A range is two numbers around the first comma of the text, the first not greater than the
second. -/
theorem readClamp_eq_ok_iff : readClamp text = .ok b ↔ ∃ low high,
    text.toList = low ++ ',' :: high ∧ ',' ∉ low ∧ readPadded? low = some b.low ∧
      readPadded? high = some b.high ∧ ¬ b.low > b.high := by
  constructor
  · intro read
    by_cases comma : ',' ∈ text.toList
    · obtain ⟨low, high, parts, first⟩ := List.eq_append_cons_of_mem comma
      obtain ⟨before, behind⟩ := parts_of_first_comma parts first
      unfold readClamp at read
      rw [before, behind] at read
      dsimp only at read
      split at read
      · cases read
      · cases read
      · next l h readLow readHigh =>
        split_ifs at read with reversed
        obtain rfl := Except.ok.inj read
        exact ⟨low, high, parts, first, readLow, readHigh, reversed⟩
    · have none : text.toList.dropWhile (· ≠ ',') = [] := List.dropWhile_eq_nil_iff.2 (by grind)
      unfold readClamp at read
      rw [none] at read
      cases read
  · rintro ⟨low, high, parts, first, readLow, readHigh, ordered⟩
    rw [readClamp_of_numbers parts first readLow readHigh, if_neg ordered]

/-- Whether a text is two numbers around its first comma, one of which is NaN. -/
def NamesNaN (text : String) : Prop := ∃ low high,
  text.toList = low ++ ',' :: high ∧ ',' ∉ low ∧ (readPadded? low).isSome ∧
    (readPadded? high).isSome ∧
      (Number.SpellsNaN (Text.trim low) ∨ Number.SpellsNaN (Text.trim high))

/-- Two numbers of which one is NaN are read as a range, as they are not in the wrong order. -/
theorem readClamp_of_namesNaN (named : NamesNaN text) :
    ∃ b, readClamp text = .ok b ∧ (b.low.isNaN ∨ b.high.isNaN) := by
  obtain ⟨low, high, parts, first, someLow, someHigh, spells⟩ := named
  obtain ⟨l, readLow⟩ := Option.isSome_iff_exists.1 someLow
  obtain ⟨h, readHigh⟩ := Option.isSome_iff_exists.1 someHigh
  have unordered : l.isNaN ∨ h.isNaN :=
    spells.imp (Number.isNaN_read? readLow).2 (Number.isNaN_read? readHigh).2
  have ordered : ¬ l > h := fun reversed => by
    have number := Number.isNaN_eq_false_of_gt reversed
    have number' := ((Number.le_iff_not_gt number).1 (Number.le_of_lt reversed)).1
    simp only [number, number', Bool.false_eq_true, or_self] at unordered
  refine ⟨⟨l, h⟩, ?_, unordered⟩
  rw [readClamp_of_numbers parts first readLow readHigh, if_neg ordered]

/-- A text that was read as a range has an end that is NaN exactly if it names NaN. -/
theorem namesNaN_iff (read : readClamp text = .ok b) :
    NamesNaN text ↔ b.low.isNaN ∨ b.high.isNaN := by
  constructor
  · intro named
    obtain ⟨b', read', unordered⟩ := readClamp_of_namesNaN named
    obtain rfl := Except.ok.inj (read.symm.trans read')
    exact unordered
  · intro unordered
    obtain ⟨low, high, parts, first, readLow, readHigh, -⟩ := readClamp_eq_ok_iff.1 read
    exact ⟨low, high, parts, first, readLow ▸ rfl, readHigh ▸ rfl,
      unordered.imp (Number.isNaN_read? readLow).1 (Number.isNaN_read? readHigh).1⟩

/-- A range that is read has its ends in order, so only NaN is left to be refused. -/
theorem isValid_iff_of_readClamp (read : readClamp text = .ok b) :
    b.isValid ↔ ¬ NamesNaN text := by
  obtain ⟨-, -, -, -, -, -, ordered⟩ := readClamp_eq_ok_iff.1 read
  rw [namesNaN_iff read, Bounds.isValid_iff]
  simp [ordered]

end Range

/-! ## The range of a sampling -/

/-- Whether the range of a sampling, if it has one, was read from a value of the option. -/
def ClampGiven (given : String → String → Prop) (s : Sampling) : Prop :=
  ∀ b, s.clamp = some b → ∃ text, given "clamp" text ∧ readClamp text = .ok b

section Options
variable {given : String → String → Prop}

theorem clampParameter_keeps :
    CurveOptions.clampParameter.Keeps given (ClampGiven given) := by
  intro text spelled s t _ changed b clamp
  dsimp only at changed
  cases read : readClamp text with
  | error problem =>
    rw [read] at changed
    cases changed
  | ok bounds =>
    rw [read] at changed
    obtain rfl := Except.ok.inj changed
    obtain rfl := Option.some.inj clamp
    exact ⟨text, spelled rfl, read⟩

theorem samplingParameters_keep :
    ∀ p ∈ CurveOptions.samplingParameters, p.Keeps given (ClampGiven given) := by
  simp only [CurveOptions.samplingParameters, List.forall_mem_cons]
  exact ⟨Parameter.keeps_value fun _ _ => id, Parameter.keeps_value fun _ _ => id,
    Parameter.keeps_value fun _ _ => id, Parameter.keeps_value fun _ _ => id, clampParameter_keeps,
    Parameter.keeps_flag fun _ => id, List.forall_mem_nil _⟩

/-- All options of `sample` keep that the range, if there is one, was given by its option. -/
theorem curveGrammar_keeps :
    CurveOptions.grammar.Keeps given fun d => ClampGiven given d.own.sampling := by
  refine Draft.grammar_keeps (P := fun own : CurveOptions => ClampGiven given own.sampling)
    (List.forall_mem_append.2 ⟨List.forall_mem_append.2 ⟨?_, ?_⟩, ?_⟩) (List.forall_mem_nil _)
  · exact List.forall_mem_map.2 fun p hp =>
      (samplingParameters_keep p hp).within (fun _ hs => hs) fun _ _ _ hs => hs
  · simp only [List.forall_mem_cons]
    exact ⟨Parameter.keeps_value fun _ _ => id, Parameter.keeps_flag fun _ => id,
      Parameter.keeps_value fun _ _ => id, Parameter.keeps_value fun _ _ => id,
      List.forall_mem_nil _⟩
  · exact List.forall_mem_map.2 fun p _ =>
      p.keeps_true.within (fun _ _ => trivial) fun _ _ hs _ => hs

end Options

theorem Draft.complete_eq_ok {α : Type} {d : Draft α} {command : String → Except Misuse Command}
    {common : CommonOptions} {c : Command} (ok : d.complete command = .ok (common, c)) :
    ∃ expression, command expression = .ok c := by
  unfold Draft.complete at ok
  split at ok
  · cases ok
  · next expression _ =>
    obtain ⟨c', made, same⟩ := map_eq_ok_iff.1 ok
    obtain ⟨-, rfl⟩ := Prod.mk.inj same
    exact ⟨expression, made⟩

/-- A command that samples was read by the grammar for it. -/
theorem sampling_of_commandReader {word : String} {rest : List String}
    {read : List String → Except Misuse (CommonOptions × Command)} {common : CommonOptions}
    {expression : String} {sampling : Sampling} {rendering : Rendering} {target : Target}
    (found : commandReader? word = some read)
    (ok : read rest = .ok (common, .sample expression sampling rendering target)) :
    ∃ d, CurveOptions.grammar.read { own := {} } rest = .ok d ∧ d.own.sampling = sampling := by
  unfold commandReader? at found
  split at found
  case h_5 => cases found
  all_goals
    obtain rfl := Option.some.inj found
    obtain ⟨d, read, ok⟩ := bind_eq_ok_iff.1 ok
    obtain ⟨expression, made⟩ := Draft.complete_eq_ok ok
  case h_2 =>
    obtain ⟨rendering, -, made⟩ := bind_eq_ok_iff.1 made
    cases made
    exact ⟨d, read, rfl⟩
  all_goals cases made

/-- The range of a sampling was given on the command line. -/
theorem ofWords_sample {words : List String} {options : CommonOptions} {expression : String}
    {sampling : Sampling} {rendering : Rendering} {target : Target}
    (ok : Invocation.ofWords words = .ok ⟨options, .sample expression sampling rendering target⟩) :
    ClampGiven (Given words) sampling := by
  unfold Invocation.ofWords at ok
  obtain ⟨⟨reading, command?⟩, stopped, ok⟩ := bind_eq_ok_iff.1 ok
  dsimp only at ok
  split at ok
  · obtain ⟨_, _, ok⟩ := bind_eq_ok_iff.1 ok
    cases ok
  · next read rest =>
    obtain ⟨⟨behind, command⟩, readRest, ok⟩ := bind_eq_ok_iff.1 ok
    obtain ⟨settled, -, ok⟩ := bind_eq_ok_iff.1 ok
    obtain ⟨-, rfl⟩ := Invocation.mk.inj (Except.ok.inj ok)
    obtain ⟨word, part, found⟩ := Grammar.readTo_eq_ok stopped
    obtain ⟨d, described, rfl⟩ := sampling_of_commandReader found readRest
    have unclamped : ClampGiven (Given rest) {} := fun b none => absurd none (by simp)
    intro b clamp
    obtain ⟨text, given, readText⟩ :=
      Grammar.read_keeps curveGrammar_keeps unclamped described b clamp
    have within : rest <:+: words := ((List.suffix_cons word rest).trans part).isInfix
    exact ⟨text, given.mono within, readText⟩

/-! ## Refusals -/

def Rendering.HasLengths : Rendering → Prop
  | .grid => True
  | .refined maxStep => IsLength maxStep
  | .segments maxStep maxJump => IsLength maxStep ∧ IsLength maxJump

section Refusal
variable {sampling : Sampling} {low high : Float}

/-- A range is the last thing that is checked. -/
theorem check_eq_invalidClamp_iff : sampling.check = .error (.invalidClamp low high) ↔
    { sampling with clamp := none }.check = .ok () ∧ sampling.clamp = some ⟨low, high⟩ ∧
      ¬ (Bounds.mk low high).isValid := by
  unfold Sampling.check
  dsimp only
  split_ifs with resolution window
  · simp
  · simp
  · rw [and_iff_right (show checkClamp none = .ok () from rfl)]
    cases sampling.clamp with
    | none => simp [checkClamp]
    | some b =>
      obtain ⟨l, h⟩ := b
      unfold checkClamp
      dsimp only
      split_ifs <;> grind

/-- Only the checks refuse a clamp range, not what is done for the spacing. -/
theorem grid_eq_invalidClamp_iff : sampling.grid = .error (.invalidClamp low high) ↔
    sampling.check = .error (.invalidClamp low high) := by
  rw [Sampling.grid, bind_eq_error_iff]
  refine or_iff_left ?_
  rintro ⟨_, -, refused⟩
  cases spacing : sampling.spacing with
  | uniform =>
    rw [spacing] at refused
    dsimp only [Sampling.uniformGrid] at refused
    split_ifs at refused
    cases refused
  | piMultiples =>
    rw [spacing] at refused
    dsimp only [Sampling.piGrid] at refused
    split_ifs at refused <;> cases refused

theorem checkLength_bind_iff {α : Type} {extent : Extent} {value : Float}
    {next : Except SamplingProblem α} :
    (checkLength extent value >>= fun _ => next) = .error (.invalidClamp low high) ↔
      IsLength value ∧ next = .error (.invalidClamp low high) := by
  rw [← checkLength_eq_ok_iff extent]
  unfold checkLength
  split_ifs
  · exact (and_iff_right rfl).symm
  · exact iff_of_false (by simp [bind, Except.bind]) (by simp)

/-- A curve is refused for its clamp range exactly if its lengths are accepted and the range is not.
-/
theorem curveTable_eq_invalidClamp_iff {f : Formula} {rendering : Rendering} {format : Csv.Format} :
    curveTable f sampling rendering format = .error (.invalidClamp low high) ↔
      rendering.HasLengths ∧ sampling.check = .error (.invalidClamp low high) := by
  rw [← grid_eq_invalidClamp_iff]
  cases rendering with
  | grid =>
    rw [curveTable, bind_pure_eq_error_iff, Sampling.polyline, bind_pure_eq_error_iff]
    exact (and_iff_right trivial).symm
  | refined maxStep =>
    rw [curveTable, bind_pure_eq_error_iff, Sampling.refinedPolyline, checkLength_bind_iff,
      bind_pure_eq_error_iff]
    rfl
  | segments maxStep maxJump =>
    rw [curveTable, bind_pure_eq_error_iff, Segmentation.drawing, checkLength_bind_iff,
      checkLength_bind_iff, bind_pure_eq_error_iff, ← and_assoc]
    rfl

end Refusal

/-- The two checks of a range differ exactly for ranges with the end NaN. Such a range is always
read, and it is what sampling is refused for whenever nothing else about the sampling is wrong. -/
theorem clampRange_refused_iff (text : String) (words : List String) :
    (∀ b, readClamp text = .ok b → (checkClamp (some b) = .ok () ↔ ¬ NamesNaN text)) ∧
    (NamesNaN text → ∃ b, readClamp text = .ok b ∧
      checkClamp (some b) = .error (.invalidClamp b.low b.high)) ∧
    ∀ options expression sampling rendering target,
      Invocation.ofWords words = .ok ⟨options, .sample expression sampling rendering target⟩ →
        ∀ (f : Formula) format low high,
          curveTable f sampling rendering format = .error (.invalidClamp low high) ↔
            rendering.HasLengths ∧ { sampling with clamp := none }.check = .ok () ∧
              sampling.clamp = some ⟨low, high⟩ ∧
                ∃ value, Given words "clamp" value ∧ NamesNaN value ∧
                  readClamp value = .ok ⟨low, high⟩ := by
  refine ⟨fun b read => ?_, fun named => ?_, ?_⟩
  · rw [checkClamp_eq_ok_iff, isValid_iff_of_readClamp read]
  · obtain ⟨b, read, -⟩ := readClamp_of_namesNaN named
    have invalid : ¬ b.isValid := fun valid => (isValid_iff_of_readClamp read).1 valid named
    exact ⟨b, read, if_neg invalid⟩
  · intro options expression sampling rendering target ok f format low high
    rw [curveTable_eq_invalidClamp_iff, check_eq_invalidClamp_iff]
    refine and_congr_right fun _ => and_congr_right fun _ => and_congr_right fun clamp => ?_
    constructor
    · intro invalid
      obtain ⟨value, given, read⟩ := ofWords_sample ok _ clamp
      exact ⟨value, given, not_not.1 ((isValid_iff_of_readClamp read).not.1 invalid), read⟩
    · rintro ⟨value, -, named, read⟩ valid
      exact (isValid_iff_of_readClamp read).1 valid named

theorem clampRange_refused_iff_nan :
    NamesNaN "1,nan" ∧ readClamp "1,nan" = .ok ⟨1.0, 0.0 / 0.0⟩ ∧
      checkClamp (some ⟨1.0, 0.0 / 0.0⟩) ≠ .ok () ∧
      Invocation.ofWords ["sample", "x", "--clamp=1,nan"] =
        .ok ⟨{}, .sample "x" { clamp := some ⟨1.0, 0.0 / 0.0⟩ } .grid {}⟩ ∧
      curveTable (.ofSource "x" {}) { clamp := some ⟨1.0, 0.0 / 0.0⟩ } .grid {} =
        .error (.invalidClamp 1.0 (0.0 / 0.0)) := by
  have named : NamesNaN "1,nan" :=
    ⟨['1'], ['n', 'a', 'n'], by decide +kernel⟩
  have read : readClamp "1,nan" = .ok ⟨1.0, 0.0 / 0.0⟩ := by decide +kernel
  have words : Invocation.ofWords ["sample", "x", "--clamp=1,nan"] =
      .ok ⟨{}, .sample "x" { clamp := some ⟨1.0, 0.0 / 0.0⟩ } .grid {}⟩ := by decide +kernel
  obtain ⟨accepted, -, surfaces⟩ :=
    clampRange_refused_iff "1,nan" ["sample", "x", "--clamp=1,nan"]
  refine ⟨named, read, fun fine => (accepted _ read).1 fine named, words, ?_⟩
  exact (surfaces _ _ _ _ _ words _ _ _ _).2
    ⟨trivial, by decide +kernel, rfl, "1,nan", .inl (by decide +kernel), named, read⟩

/-- A range with the end NaN is read and refused afterwards. -/
theorem nanRange_refused_later : readClamp "1,nan" = .ok ⟨1.0, 0.0 / 0.0⟩ ∧
    checkClamp (some ⟨1.0, 0.0 / 0.0⟩) = .error (.invalidClamp 1.0 (0.0 / 0.0)) := by
  decide +kernel

end CommandLine

end Curves
