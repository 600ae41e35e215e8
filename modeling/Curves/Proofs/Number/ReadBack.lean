import Curves.Number.Text
import Curves.Proofs.Expr.Literal
import Curves.Proofs.Number.Scientific

/-!
# Numbers are read back

Reading the text of a double gives the double. The digits of a finite magnitude are those of a
decimal that is rounded to it; trailing zeros are taken away and leading ones added, which leaves
the value of the decimal as it is, and the double of a decimal depends on nothing else.

Main statements:

* `nearest_shortest`: the chosen decimal is rounded to the double;
* `readDecimal?_positional`: the digits that are written denote the decimal;
* `read?_text`: every double is read back.
-/

namespace Curves.Number
open Decimal
open Float.Model (Format UnpackedFloat)
open Float.Model.UnpackedFloat (Sign)

/-! ## Digits -/

/-- The value of digits is that of the library. -/
theorem digitsValue_eq (w : List Char) : digitsValue w = Nat.ofDigitChars 10 w 0 :=
  Nat.ofDigitChars_eq_foldl.symm

/-- The digits of a number are read back. -/
theorem digitsValue_digitsOf (n : Nat) : digitsValue (digitsOf n) = n := by
  rw [digitsValue_eq, digitsOf, Nat.ofDigitChars_ten_toDigits]

theorem digitsValue_replicate_append (k : Nat) (w : List Char) :
    digitsValue (List.replicate k '0' ++ w) = digitsValue w := by
  rw [digitsValue_eq, digitsValue_eq, Nat.ofDigitChars_append, Nat.ofDigitChars_replicate_zero,
    Nat.mul_zero]

theorem isDigit_of_mem_digitsOf {n : Nat} {c : Char} (h : c ∈ digitsOf n) : c.isDigit :=
  Nat.isDigit_of_mem_toDigits (by decide) (by decide) h

theorem digitsOf_ne_nil (n : Nat) : digitsOf n ≠ [] := Nat.toDigits_ne_nil

/-- The point divides the digits, of which there may be more zeros in front. -/
theorem exists_withPoint {digits : List Char} (hd : ∀ c ∈ digits, c.isDigit) {places : Nat}
    (positive : places ≠ 0) : ∃ whole fraction, withPoint digits places = whole ++ '.' :: fraction ∧
      whole ≠ [] ∧ (∀ c ∈ whole, c.isDigit) ∧ (∀ c ∈ fraction, c.isDigit) ∧
      digitsValue (whole ++ fraction) = digitsValue digits ∧ fraction.length = places := by
  unfold withPoint
  rw [if_neg positive]
  generalize hpadded : List.replicate (places + 1 - digits.length) '0' ++ digits = padded
  have value : digitsValue padded = digitsValue digits := by
    rw [← hpadded, digitsValue_replicate_append]
  have isDigit : ∀ c ∈ padded, c.isDigit := by
    rw [← hpadded]
    intro c hc
    rcases List.mem_append.1 hc with zero | digit
    · rw [List.eq_of_mem_replicate zero]
      rfl
    · exact hd c digit
  have long : places < padded.length := by
    rw [← hpadded, List.length_append, List.length_replicate]
    omega
  refine ⟨_, _, rfl, ?_, fun c hc => isDigit c (List.mem_of_mem_take hc),
    fun c hc => isDigit c (List.mem_of_mem_drop hc), ?_, ?_⟩
  · rw [Ne, List.take_eq_nil_iff]
    rintro (none | rfl)
    · omega
    · cases long
  · rw [List.take_append_drop, value]
  · rw [List.length_drop]
    omega

theorem digit_or_point_of_mem_withPoint {digits : List Char} (hd : ∀ c ∈ digits, c.isDigit)
    (places : Nat) {c : Char} (h : c ∈ withPoint digits places) : c.isDigit ∨ c = '.' := by
  by_cases integral : places = 0
  · rw [withPoint, if_pos integral] at h
    exact .inl (hd c h)
  · obtain ⟨whole, fraction, cut, -, hw, hf, -⟩ := exists_withPoint hd integral
    rw [cut, List.mem_append, List.mem_cons] at h
    rcases h with h | rfl | h
    · exact .inl (hw c h)
    · exact .inr rfl
    · exact .inl (hf c h)

/-- The digits of a decimal begin with a digit and denote its value. -/
theorem readDecimal?_positional (d : Decimal) :
    (∃ c ∈ d.positional.head?, c.isDigit) ∧
      ∃ d', readDecimal? d.positional = some d' ∧ d'.value = d.value := by
  unfold positional
  generalize hn : d.digits * Nat.pow 10 d.exponent.toNat = n
  have digits : ∀ c ∈ digitsOf n, c.isDigit := fun c => isDigit_of_mem_digitsOf
  by_cases integral : (-d.exponent).toNat = 0
  · have whole : withPoint (digitsOf n) (-d.exponent).toNat = digitsOf n := if_pos integral
    rw [whole]
    obtain ⟨c, rest, first⟩ := List.exists_cons_of_ne_nil (digitsOf_ne_nil n)
    refine ⟨⟨c, congrArg List.head? first, digits c (first ▸ List.mem_cons_self)⟩, _,
      Grammar.readDecimal?_digits (digitsOf_ne_nil n) digits, ?_⟩
    have exponent : (d.exponent.toNat : Int) = d.exponent := by omega
    have power : ((Nat.pow 10 d.exponent.toNat : Nat) : ℚ) = 10 ^ d.exponent := by
      rw [Nat.pow_eq, Nat.cast_pow, Nat.cast_ofNat, ← zpow_natCast, exponent]
    rw [value, value, digitsValue_digitsOf, ← hn, zpow_zero, mul_one, Nat.cast_mul, power]
  · obtain ⟨whole, fraction, cut, nonempty, hw, hf, same, length⟩ :=
      exists_withPoint digits integral
    obtain ⟨c, rest, first⟩ := List.exists_cons_of_ne_nil nonempty
    rw [cut]
    have read : readDecimal? (whole ++ '.' :: (fraction ++ [])) = some _ :=
      Grammar.readDecimal?_point nonempty hw hf nofun
    rw [List.append_nil] at read
    refine ⟨⟨c, by rw [first]; rfl, hw c (first ▸ List.mem_cons_self)⟩, _, read, ?_⟩
    have exponent : -(fraction.length : Int) = d.exponent := by omega
    have power : d.exponent.toNat = 0 := by omega
    rw [value, value, same, digitsValue_digitsOf, exponent, ← hn, power]
    norm_num

/-- Trailing zeros do not count. -/
theorem value_trim (d : Decimal) : d.trim.value = d.value := by
  fun_induction Decimal.trim d with
  | case1 d h ih =>
    have split : (d.digits : ℚ) = 10 * (d.digits / 10 : Nat) := by
      have : d.digits = 10 * (d.digits / 10) := by omega
      exact_mod_cast this
    rw [ih, value, value, split, zpow_add_one₀ (by norm_num)]
    ring
  | case2 => rfl

/-! ## The double of a decimal depends on its value -/

section Positive
variable {x : Float} {d : Decimal}

/-- A decimal that is nearest to a double is read as this double. -/
theorem toFloat_eq_of_nearest (hx : x.isFinite) (nonzero : toRat x ≠ 0)
    (h : nearest d.value = toRat x) : d.toFloat = x := by
  have rounded := d.toFloat_roundsTo
  obtain ⟨finite, value⟩ := rounded.inside (h ▸ abs_toRat_lt x)
  rw [h] at value
  exact eq_of_toRat_eq finite hx value (value ▸ nonzero)

theorem nearest_of_toFloat_beq (hx : x.isFinite) (nonzero : toRat x ≠ 0)
    (h : (d.toFloat == x) = true) : nearest d.value = toRat x := by
  obtain ⟨-, -, rfl | ⟨-, rfl⟩ | ⟨-, rfl⟩⟩ := Float.beq_iff_ne_nan_and_eq.1 h
  · exact (d.toFloat_roundsTo.toRat_eq hx).symm
  · exact absurd rfl nonzero
  · exact absurd rfl nonzero

end Positive

section Shortest
variable {x : Float} {m : Nat} {e : Int} {h : 0 < m}

/-- The exact value as a decimal, which is taken if no shorter one reads back. -/
theorem value_exact (m : Nat) (e : Int) :
    (Decimal.mk (m * Nat.pow 2 e.toNat * Nat.pow 5 (-e).toNat) (min e 0)).value = m * 2 ^ e := by
  rw [value, Nat.pow_eq, Nat.pow_eq]
  push_cast
  rcases le_total 0 e with nonneg | negative
  · have whole : (2 : ℚ) ^ e.toNat = 2 ^ e := by
      rw [← zpow_natCast, Int.toNat_of_nonneg nonneg]
    have none : (-e).toNat = 0 := by omega
    rw [min_eq_right nonneg, whole, none]
    norm_num
  · have five : (5 : ℚ) ^ (-e).toNat = 5 ^ (-e) := by
      rw [← zpow_natCast, Int.toNat_of_nonneg (by omega)]
    have none : e.toNat = 0 := by omega
    have ten : (10 : ℚ) ^ e = 2 ^ e * 5 ^ e := by
      rw [← mul_zpow]
      norm_num
    rw [min_eq_left negative, five, none, ten, zpow_neg]
    field_simp

/-- The digits that are written are rounded to the double. -/
theorem nearest_shortest (unpacked : x.toModel.unpack = .finite .positive m e h) :
    nearest (shortest x m e).value = toRat x := by
  have hx : x.isFinite := congrArg UnpackedFloat.isFinite unpacked
  have size : toRat x = m * 2 ^ e := by
    rw [toRat, unpacked, rat, signFactor, one_mul]
  have nonzero : toRat x ≠ 0 := by
    rw [size]
    exact (scaled_pos h e).ne'
  unfold shortest
  dsimp only
  split
  · rename_i d found
    obtain ⟨n, -, chosen⟩ := List.exists_of_findSome?_eq_some found
    rw [value_trim]
    exact nearest_of_toFloat_beq hx nonzero (toFloat_of_readingNeighbour? chosen)
  · rw [value_exact, ← size, nearest_toRat hx]

end Shortest

/-! ## Signs -/

section Signs
variable {x : Float} {m : Nat} {e : Int} {h : 0 < m}

theorem unpack_abs (x : Float) : x.abs.toModel.unpack = x.toModel.unpack.abs := by
  obtain ⟨canonical, fits⟩ := isCanonical_unpack x
  have packed : x.abs.toModel = .pack x.toModel.unpack.abs := rfl
  rw [packed]
  generalize x.toModel.unpack = u at canonical fits ⊢
  rcases u with _ | _ | _ | ⟨s, m, e, h⟩
  · exact unpack_pack trivial
  · exact unpack_pack trivial
  · exact unpack_pack trivial
  · rw [bounded] at fits
    have small : ¬ 971 < e := by
      intro large
      rw [if_pos large] at fits
      cases fits
    refine (unpack_pack (u := .finite .positive m e h) canonical).trans ?_
    rw [bounded, if_neg small]
    rfl

theorem abs_eq_self (unpacked : x.toModel.unpack = .finite .positive m e h) : x.abs = x := by
  have packed : x.abs = .ofModel (.pack x.toModel.unpack.abs) := rfl
  rw [packed, unpacked]
  change Float.ofModel (.pack (.finite .positive m e h)) = x
  rw [← unpacked, ofModel_pack_unpack]

theorem neg_abs_eq_self (unpacked : x.toModel.unpack = .finite .negative m e h) : -x.abs = x := by
  have packed : -x.abs = .ofModel (.pack x.abs.toModel.unpack.neg) := rfl
  rw [packed, unpack_abs, unpacked]
  change Float.ofModel (.pack (.finite .negative m e h)) = x
  rw [← unpacked, ofModel_pack_unpack]

theorem unpackSign_eq_zero {b : BitVec 64} (h : b >>> 63 = 0) :
    @UnpackedFloat.unpackSign Format.binary64 b = 0#1 := by
  have top : b[63] = false := by
    have := congrArg (·.getLsbD 0) h
    simpa using this
  apply BitVec.eq_of_getLsbD_eq
  intro i hi
  obtain rfl : i = 0 := by omega
  simpa [UnpackedFloat.unpackSign, ← BitVec.getLsbD_eq_getElem] using top

/-- What a finite double without a sign bit is unpacked to. -/
theorem unpack_of_unsigned (finite : x.isFinite) (unsigned : x.toBits >>> 63 = 0) :
    x.toModel.unpack = .zero .positive ∨
      ∃ m e h, x.toModel.unpack = .finite .positive m e h := by
  have bits : x.toModel.toBits.toBitVec >>> 63 = 0 := congrArg UInt64.toBitVec unsigned
  have number : x.toModel.unpack.isFinite := finite
  unfold Float.Model.unpack at number ⊢
  rw [← @UnpackedFloat.packComponents_unpackSign_unpackExponent_unpackMantissa Format.binary64
    x.toModel.toBits.toBitVec, unpack_packComponents, unpackSign_eq_zero bits] at number ⊢
  split at number
  · split at number <;> cases number
  rename_i most
  rw [if_neg most]
  split
  · split
    · exact .inl rfl
    · refine .inr ⟨_, _, ?_, rfl⟩
      simpa [BitVec.toNat_pos, BitVec.pos_iff_ne_zero]
  · refine .inr ⟨_, _, ?_, rfl⟩
    omega

/-- A minus in front of digits changes the sign of what is read. -/
theorem read?_minus {w : List Char} (first : ∃ c ∈ w.head?, c.isDigit) :
    read? ('-' :: w) = (read? w).map (- ·) := by
  have unsigned : splitSign w = (false, w) := by
    unfold splitSign
    split <;> simp_all
  have minus : splitSign ('-' :: w) = (true, w) := rfl
  simp [read?, unsigned, minus]

end Signs

/-! ## Texts -/

theorem toList_signed (s : Sign) (w : List Char) : (signed s w).toList =
    match s with
    | .negative => '-' :: w
    | .positive => w := by
  cases s <;> exact String.toList_ofList

/-- A finite double without a sign bit is written in digits and at most a point among them. -/
theorem text_of_unsigned {x : Float} (finite : x.isFinite) (unsigned : x.toBits >>> 63 = 0) :
    (∃ c ∈ (text x).toList.head?, c.isDigit) ∧ ∀ c ∈ (text x).toList, c.isDigit ∨ c = '.' := by
  unfold text render
  rcases unpack_of_unsigned finite unsigned with zero | ⟨m, e, h, magnitude⟩
  · rw [zero]
    dsimp only
    rw [toList_signed]
    exact ⟨⟨'0', rfl, rfl⟩, by simp⟩
  · rw [magnitude]
    dsimp only
    rw [toList_signed]
    exact ⟨(readDecimal?_positional _).1, fun c hc =>
      digit_or_point_of_mem_withPoint (fun c => isDigit_of_mem_digitsOf) _ hc⟩

/-- Every double is read back from its text. -/
theorem read?_text (x : Float) : read? (text x).toList = some x := by
  have same := ofModel_pack_unpack x
  unfold text render
  cases unpacked : x.toModel.unpack with
  | notANumber =>
    rw [unpacked] at same
    rw [← same]
    decide +kernel
  | infinity s =>
    rw [unpacked] at same
    rw [← same]
    cases s <;> decide +kernel
  | zero s =>
    rw [unpacked] at same
    rw [← same]
    cases s <;> decide +kernel
  | finite s m e h =>
    have magnitude : x.abs.toModel.unpack = .finite .positive m e h := by
      rw [unpack_abs, unpacked]
      rfl
    have finite : x.abs.isFinite := congrArg UnpackedFloat.isFinite magnitude
    have nonzero : toRat x.abs ≠ 0 := by
      rw [toRat, magnitude, rat, signFactor, one_mul]
      exact (scaled_pos h e).ne'
    -- The digits are read as some decimal with the value of the one that was chosen.
    obtain ⟨first, d, read, value⟩ := readDecimal?_positional (shortest x.abs m e)
    have digits : read? (shortest x.abs m e).positional = some x.abs := by
      rw [Grammar.read?_of_digit_first first, read, Option.map_some,
        toFloat_eq_of_nearest finite nonzero (value ▸ nearest_shortest magnitude)]
    dsimp only
    rw [toList_signed]
    cases s with
    | negative => rw [read?_minus first, digits, Option.map_some, neg_abs_eq_self unpacked]
    | positive => rw [digits, abs_eq_self unpacked]

end Curves.Number
