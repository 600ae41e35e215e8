import Curves.Proofs.Number.Order
import Curves.Proofs.Number.Nearest

/-!
# Exact values

A finite number is rational. Its mantissa has as many bits as its format says unless its exponent
is the least one, so numbers of a format are compared by exponents first and by mantissas second. A
number with such a mantissa survives packing, unless its exponent is too large; then it becomes
infinite.

Main statements:

* `unpack_packIn`: what becomes of a number that is packed;
* `le_iff_toRat`, `lt_iff_toRat`: the order of finite doubles is the order of their values;
* `eq_of_toRat_eq`: finite doubles with one value are equal, unless they are zeros.
-/

namespace Curves.Number
open Float.Model (Format UnpackedFloat)
open Float.Model.UnpackedFloat (Sign)

/-- The factor by which a sign changes a magnitude. -/
def signFactor : Sign → ℚ
  | .negative => -1
  | .positive => 1

/-- The value of an unpacked number, where NaN and infinities count as zero. -/
def rat : UnpackedFloat → ℚ
  | .finite s m e _ => signFactor s * (m * 2 ^ e)
  | _ => 0

/-- The value of a double, where NaN and infinities count as zero. -/
def toRat (x : Float) : ℚ := rat x.toModel.unpack

/-! ## Formats -/

/-- Whether a finite number has the exponent that its size asks for, however large it is. -/
def CanonicalIn (f : Format) : UnpackedFloat → Prop
  | .finite _ m e _ => m < 2 ^ f.mantissaBits ∧ f.minExponent ≤ e ∧
    (2 ^ f.mantissaBitsWithoutImplicit ≤ m ∨ e = f.minExponent)
  | _ => True

def greatestExponent (f : Format) : Int := f.exponentBias - f.mantissaBitsWithoutImplicit

/-- The number itself, or an infinity if its exponent is too large. -/
def boundedIn (f : Format) : UnpackedFloat → UnpackedFloat
  | .finite s m e h => if greatestExponent f < e then .infinity s else .finite s m e h
  | u => u

section Format
variable (f : Format)

theorem two_pow_exponentBits : 2 ^ f.exponentBits = 2 * f.exponentBias + 2 := by
  have split : 2 ^ f.exponentBits = 2 * 2 ^ (f.exponentBits - 1) := by
    rw [← pow_succ', Nat.sub_add_cancel f.he]
  have := Nat.two_pow_pos (f.exponentBits - 1)
  rw [Format.exponentBias, split]
  omega

theorem minExponent_eq :
    f.minExponent = 1 - (f.exponentBias + f.mantissaBitsWithoutImplicit) := by
  have := Nat.two_pow_pos (f.exponentBits - 1)
  have power : (2 : Int) ^ (f.exponentBits - 1) = (2 ^ (f.exponentBits - 1) : Nat) := by
    push_cast
    rfl
  rw [Format.minExponent, mantissaBits_eq, Format.exponentBias, power]
  omega

/-! ### Packing -/

theorem unpack_packComponentsIn (s : Sign) (exponent : BitVec f.exponentBits)
    (mantissa : BitVec f.mantissaBitsWithoutImplicit) :
    UnpackedFloat.unpack f (UnpackedFloat.packComponents f s exponent mantissa) =
      if exponent = -1#_ then if mantissa = 0#_ then .infinity s else .notANumber
      else if exponent = 0#_ then
        if h : mantissa = 0#_ then .zero s
        else .finite s mantissa.toNat f.minExponent
          (by simpa [BitVec.toNat_pos, BitVec.pos_iff_ne_zero])
      else .finite s (2 ^ f.mantissaBitsWithoutImplicit + mantissa.toNat)
        (exponent.toNat - (f.exponentBias + f.mantissaBitsWithoutImplicit)) (by positivity) := by
  have carried : (1#1 ++ mantissa).toNat = 2 ^ f.mantissaBitsWithoutImplicit + mantissa.toNat := by
    rw [BitVec.toNat_append, ← Nat.shiftLeft_add_eq_or_of_lt mantissa.isLt, Nat.shiftLeft_eq]
    exact congrArg (· + _) (one_mul _)
  simp only [UnpackedFloat.unpack, UnpackedFloat.unpackExponent_packComponents,
    UnpackedFloat.unpackMantissa_packComponents, UnpackedFloat.unpackSign_packComponents,
    UnpackedFloat.Sign.ofBitVec_toBitVec, carried]
  by_cases least : exponent = 0#_
  · subst least
    have value : ((0#f.exponentBits).toNat : Int) -
        (f.exponentBias + f.mantissaBitsWithoutImplicit) + 1 = f.minExponent := by
      rw [minExponent_eq, BitVec.toNat_zero]
      omega
    simp only [value, if_true]
  · simp only [least, if_false]

variable {f}

/-- Bits that are read are canonical and in the bounds of the format. -/
theorem canonicalIn_unpack (wide : 0 < f.exponentBias) (bits : BitVec f.numBits) :
    CanonicalIn f (UnpackedFloat.unpack f bits) ∧
      boundedIn f (UnpackedFloat.unpack f bits) = UnpackedFloat.unpack f bits := by
  rw [← @UnpackedFloat.packComponents_unpackSign_unpackExponent_unpackMantissa f bits,
    unpack_packComponentsIn]
  generalize @UnpackedFloat.unpackExponent f bits = exponent
  generalize @UnpackedFloat.unpackMantissa f bits = mantissa
  have small : mantissa.toNat < 2 ^ f.mantissaBitsWithoutImplicit := mantissa.isLt
  have bits : 2 ^ f.mantissaBits = 2 * 2 ^ f.mantissaBitsWithoutImplicit := by
    rw [mantissaBits_eq, pow_add, pow_one]
  have range := two_pow_exponentBits f
  have bottom := minExponent_eq f
  split
  · split <;> exact ⟨trivial, rfl⟩
  split
  · split
    · exact ⟨trivial, rfl⟩
    · refine ⟨⟨by omega, le_rfl, .inr rfl⟩, ?_⟩
      rw [boundedIn, if_neg]
      rw [greatestExponent]
      omega
  · rename_i most least
    have : exponent.toNat < 2 ^ f.exponentBits := exponent.isLt
    have below : exponent.toNat ≠ 2 ^ f.exponentBits - 1 := by
      rw [← BitVec.toNat_allOnes, ← BitVec.neg_one_eq_allOnes]
      exact mt BitVec.toNat_inj.mp most
    have above : exponent.toNat ≠ 0 := by
      rw [← BitVec.toNat_zero (w := f.exponentBits)]
      exact mt BitVec.toNat_inj.mp least
    refine ⟨⟨by omega, by omega, .inl (by omega)⟩, ?_⟩
    rw [boundedIn, if_neg]
    rw [greatestExponent]
    omega

/-- A canonical number is packed as it is, unless it is too large. -/
theorem unpack_packIn (wide : 0 < f.exponentBias) {u : UnpackedFloat} (hu : CanonicalIn f u) :
    UnpackedFloat.unpack f (UnpackedFloat.pack f u) = boundedIn f u := by
  have infinite (s : Sign) : UnpackedFloat.unpack f (UnpackedFloat.packedInfinity f s) =
      .infinity s := by
    refine (unpack_packComponentsIn f s (-1#_) 0#_).trans ?_
    rw [if_pos rfl, if_pos rfl]
  match u with
  | .notANumber => exact UnpackedFloat.unpack_packedNaN
  | .zero s => exact UnpackedFloat.unpack_packedZero
  | .infinity s => exact infinite s
  | .finite s m e h =>
    obtain ⟨small, above, normal⟩ := hu
    have range := two_pow_exponentBits f
    have bottom := minExponent_eq f
    have length : 2 ^ f.mantissaBits = 2 * 2 ^ f.mantissaBitsWithoutImplicit := by
      rw [mantissaBits_eq, pow_add, pow_one]
    have top : greatestExponent f = f.exponentBias - f.mantissaBitsWithoutImplicit := rfl
    simp only [UnpackedFloat.pack, boundedIn]
    by_cases large : greatestExponent f < e
    · rw [if_pos large, if_pos (by omega)]
      exact infinite s
    rw [if_neg large, if_neg (by omega)]
    have bits : m.log2 + 1 = f.mantissaBits ↔ 2 ^ f.mantissaBitsWithoutImplicit ≤ m := by
      rw [← Nat.le_log2 h.ne', mantissaBits_eq]
      have := (Nat.log2_lt h.ne').2 small
      rw [mantissaBits_eq] at this
      omega
    -- The leading bit of a full mantissa is not stored, a short one has the least exponent.
    by_cases full : 2 ^ f.mantissaBitsWithoutImplicit ≤ m
    · rw [if_pos (bits.2 full)]
      generalize hb : (e + f.exponentBias + f.mantissaBitsWithoutImplicit).toNat = biased
      have exponent : (BitVec.ofNat f.exponentBits biased).toNat = biased := by
        rw [BitVec.toNat_ofNat, Nat.mod_eq_of_lt (by omega)]
      have mantissa : (BitVec.ofNat f.mantissaBitsWithoutImplicit m).toNat =
          m - 2 ^ f.mantissaBitsWithoutImplicit := by
        rw [BitVec.toNat_ofNat, Nat.mod_eq_sub_mod full, Nat.mod_eq_of_lt (by omega)]
      refine (unpack_packComponentsIn f ..).trans ?_
      rw [if_neg, if_neg]
      · have whole : 2 ^ f.mantissaBitsWithoutImplicit + (m - 2 ^ f.mantissaBitsWithoutImplicit) =
            m := Nat.add_sub_cancel' full
        have same : (biased : Int) - (f.exponentBias + f.mantissaBitsWithoutImplicit) = e := by
          omega
        simp only [exponent, mantissa, whole, same]
      · intro least
        have := exponent.symm.trans (congrArg BitVec.toNat least)
        rw [BitVec.toNat_zero] at this
        omega
      · intro most
        have := exponent.symm.trans (congrArg BitVec.toNat most)
        rw [BitVec.neg_one_eq_allOnes, BitVec.toNat_allOnes] at this
        omega
    · rw [if_neg (mt bits.1 full)]
      have mantissa : (BitVec.ofNat f.mantissaBitsWithoutImplicit m).toNat = m := by
        rw [BitVec.toNat_ofNat, Nat.mod_eq_of_lt (by omega)]
      refine (unpack_packComponentsIn f ..).trans ?_
      rw [if_neg, if_pos rfl, dif_neg]
      · obtain rfl := normal.resolve_left full
        simp only [mantissa]
      · intro zero
        have := mantissa.symm.trans (congrArg BitVec.toNat zero)
        rw [BitVec.toNat_zero] at this
        omega
      · intro most
        have := congrArg BitVec.toNat most
        rw [BitVec.toNat_zero, BitVec.neg_one_eq_allOnes, BitVec.toNat_allOnes] at this
        omega

/-! ### Order -/

theorem scaled_pos {m : Nat} (h : 0 < m) (e : Int) : (0 : ℚ) < m * 2 ^ e := by positivity

/-- Canonical magnitudes are in the order of their exponents if these differ. -/
theorem scaled_lt_scaled {m₁ m₂ : Nat} {e₁ e₂ : Int} (small : m₁ < 2 ^ f.mantissaBits)
    (full : 2 ^ f.mantissaBitsWithoutImplicit ≤ m₂) (h : e₁ < e₂) :
    (m₁ : ℚ) * 2 ^ e₁ < m₂ * 2 ^ e₂ := by
  have h₁ : (m₁ : ℚ) < 2 ^ f.mantissaBits := by exact_mod_cast small
  have h₂ : (2 : ℚ) ^ f.mantissaBitsWithoutImplicit ≤ m₂ := by exact_mod_cast full
  calc (m₁ : ℚ) * 2 ^ e₁ < 2 ^ f.mantissaBits * 2 ^ e₁ := by gcongr
    _ = 2 ^ f.mantissaBitsWithoutImplicit * 2 ^ (e₁ + 1) := by
      rw [zpow_add_one₀ two_ne_zero, mantissaBits_eq, pow_add]
      ring
    _ ≤ m₂ * 2 ^ e₂ := by gcongr; exacts [one_le_two, h]

theorem compare_scaled {s₁ s₂ : Sign} {m₁ m₂ : Nat} {e₁ e₂ : Int} {h₁ : 0 < m₁} {h₂ : 0 < m₂}
    (c₁ : CanonicalIn f (.finite s₁ m₁ e₁ h₁)) (c₂ : CanonicalIn f (.finite s₂ m₂ e₂ h₂)) :
    (compare e₁ e₂).then (compare m₁ m₂) = cmp ((m₁ : ℚ) * 2 ^ e₁) (m₂ * 2 ^ e₂) := by
  obtain ⟨small₁, least₁, full₁⟩ := c₁
  obtain ⟨small₂, least₂, full₂⟩ := c₂
  rcases lt_trichotomy e₁ e₂ with less | rfl | more
  · have := scaled_lt_scaled small₁ (full₂.resolve_right (by omega)) less
    rw [Int.compare_eq_lt.2 less, this.cmp_eq_lt]
    rfl
  · rw [Int.compare_eq_eq.2 rfl, cmp_mul_pos_right (by positivity),
      Nat.strictMono_cast.cmp_map_eq, cmp_eq_compare]
    rfl
  · have := scaled_lt_scaled small₂ (full₁.resolve_right (by omega)) more
    rw [Int.compare_eq_gt.2 more, this.cmp_eq_gt]
    rfl

/-- Canonical finite numbers are compared by their values. -/
theorem compare_eq_cmpIn {u v : UnpackedFloat} (hu : CanonicalIn f u) (hv : CanonicalIn f v)
    (fu : u.isFinite) (fv : v.isFinite) : u.compare v = some (cmp (rat u) (rat v)) := by
  have below {a b : ℚ} (h : a < b) : some Ordering.lt = some (cmp a b) := by rw [h.cmp_eq_lt]
  have above {a b : ℚ} (h : b < a) : some Ordering.gt = some (cmp a b) := by rw [h.cmp_eq_gt]
  rcases u with _ | _ | s | ⟨s₁, m₁, e₁, h₁⟩
  · cases fu
  · cases fu
  · rcases v with _ | _ | t | ⟨s₂, m₂, e₂, h₂⟩
    · cases fv
    · cases fv
    · simp [UnpackedFloat.compare, rat]
    · have := scaled_pos h₂ e₂
      cases s₂
      · exact above (by simpa [rat, signFactor])
      · exact below (by simpa [rat, signFactor])
  · have p₁ := scaled_pos h₁ e₁
    rcases v with _ | _ | t | ⟨s₂, m₂, e₂, h₂⟩
    · cases fv
    · cases fv
    · cases s₁
      · exact below (by simpa [rat, signFactor])
      · exact above (by simpa [rat, signFactor])
    · have p₂ := scaled_pos h₂ e₂
      have magnitudes := compare_scaled hu hv
      cases s₁ <;> cases s₂
      · have swapped := StrictAnti.cmp_map_eq (fun a b h => neg_lt_neg h)
          ((m₁ : ℚ) * 2 ^ e₁) (m₂ * 2 ^ e₂)
        simp only [UnpackedFloat.compare, rat, signFactor, neg_one_mul, magnitudes, cmp_swap]
        rw [← swapped]
      · exact below (by simp [rat, signFactor]; linarith)
      · exact above (by simp [rat, signFactor]; linarith)
      · simpa [rat, signFactor, UnpackedFloat.compare] using magnitudes

end Format

/-! ## Doubles -/

/-- Whether a finite number has the exponent that its size asks for, however large it is. -/
def IsCanonical : UnpackedFloat → Prop
  | .finite _ m e _ => m < 2 ^ 53 ∧ -1074 ≤ e ∧ (2 ^ 52 ≤ m ∨ e = -1074)
  | _ => True

/-- The number itself, or an infinity if its exponent is too large for a double. -/
def bounded : UnpackedFloat → UnpackedFloat
  | .finite s m e h => if 971 < e then .infinity s else .finite s m e h
  | u => u

theorem isCanonical_iff (u : UnpackedFloat) : IsCanonical u ↔ CanonicalIn .binary64 u := by
  cases u <;> rfl

theorem bounded_eq (u : UnpackedFloat) : bounded u = boundedIn .binary64 u := by
  cases u <;> rfl

theorem unpack_packComponents (s : Sign) (exponent : BitVec 11) (mantissa : BitVec 52) :
    UnpackedFloat.unpack Format.binary64
        (UnpackedFloat.packComponents Format.binary64 s exponent mantissa) =
      if exponent = -1#_ then if mantissa = 0#_ then .infinity s else .notANumber
      else if exponent = 0#_ then
        if h : mantissa = 0#_ then .zero s
        else .finite s mantissa.toNat (-1074) (by simpa [BitVec.toNat_pos, BitVec.pos_iff_ne_zero])
      else .finite s (2 ^ 52 + mantissa.toNat) (exponent.toNat - 1075) (by omega) :=
  unpack_packComponentsIn .binary64 s exponent mantissa

/-- Every double is canonical and bounded. -/
theorem isCanonical_unpack (x : Float) :
    IsCanonical x.toModel.unpack ∧ bounded x.toModel.unpack = x.toModel.unpack := by
  rw [isCanonical_iff, bounded_eq]
  exact canonicalIn_unpack (by decide) _

/-- A canonical number is packed as it is, unless it is too large. -/
theorem unpack_pack {u : UnpackedFloat} (hu : IsCanonical u) :
    (Float.Model.pack u).unpack = bounded u := by
  rw [isCanonical_iff] at hu
  rw [bounded_eq]
  exact unpack_packIn (by decide) hu

theorem ofModel_pack_unpack (x : Float) : Float.ofModel (.pack x.toModel.unpack) = x :=
  Float.ofBits_toBits x

/-- A double is told by its unpacked form. -/
theorem unpack_inj {v w : Float} : v.toModel.unpack = w.toModel.unpack ↔ v = w := by
  refine ⟨fun same => ?_, fun same => congrArg (·.toModel.unpack) same⟩
  rw [← ofModel_pack_unpack v, same, ofModel_pack_unpack]

/-- Canonical numbers are ordered by their values. -/
theorem compare_eq_cmp {u v : UnpackedFloat} (hu : IsCanonical u) (hv : IsCanonical v)
    (fu : u.isFinite) (fv : v.isFinite) : u.compare v = some (cmp (rat u) (rat v)) :=
  compare_eq_cmpIn ((isCanonical_iff u).1 hu) ((isCanonical_iff v).1 hv) fu fv

section Float
variable {x y : Float}

theorem toRat_of_unpack {s : Sign} {m : Nat} {e : Int} {h : 0 < m}
    (unpacked : x.toModel.unpack = .finite s m e h) :
    x.isFinite ∧ toRat x = signFactor s * (m * 2 ^ e) :=
  ⟨congrArg UnpackedFloat.isFinite unpacked, congrArg rat unpacked⟩

theorem toRat_zero : (0.0 : Float).isFinite ∧ toRat 0.0 = 0 := ⟨by decide +kernel, by rfl⟩

theorem toRat_half : (0.5 : Float).isFinite ∧ toRat 0.5 = 1 / 2 := by
  have unpacked : (0.5 : Float).toModel.unpack = .finite .positive (2 ^ 52) (-53) (by decide) := by
    rfl
  obtain ⟨finite, value⟩ := toRat_of_unpack unpacked
  rw [value, signFactor]
  exact ⟨finite, by norm_num⟩

theorem toRat_one : (1.0 : Float).isFinite ∧ toRat 1.0 = 1 := by
  have unpacked : (1.0 : Float).toModel.unpack = .finite .positive (2 ^ 52) (-52) (by decide) := by
    rfl
  obtain ⟨finite, value⟩ := toRat_of_unpack unpacked
  rw [value, signFactor]
  exact ⟨finite, by norm_num⟩

theorem compare_eq_cmp_toRat (hx : x.isFinite) (hy : y.isFinite) :
    x.toModel.unpack.compare y.toModel.unpack = some (cmp (toRat x) (toRat y)) :=
  compare_eq_cmp (isCanonical_unpack x).1 (isCanonical_unpack y).1 hx hy

/-- Finite doubles are ordered by their values. -/
theorem le_iff_toRat (hx : x.isFinite) (hy : y.isFinite) : x ≤ y ↔ toRat x ≤ toRat y := by
  rw [le_iff_compare, compare_eq_cmp_toRat hx hy, Option.any_some, ← Ordering.ne_gt_iff_isLE,
    not_congr (cmp_eq_gt_iff _ _), not_lt]

theorem lt_iff_toRat (hx : x.isFinite) (hy : y.isFinite) : x < y ↔ toRat x < toRat y := by
  rw [lt_iff_compare, compare_eq_cmp_toRat hx hy, Option.some_inj, cmp_eq_lt_iff]

theorem beq_iff_toRat (hx : x.isFinite) (hy : y.isFinite) :
    (x == y) = true ↔ toRat x = toRat y := by
  change (x.toModel.unpack.compare y.toModel.unpack == some .eq) = true ↔ _
  rw [compare_eq_cmp_toRat hx hy, beq_iff_eq, Option.some_inj, cmp_eq_eq_iff]

/-- Finite doubles with one value are equal, unless they are zeros. -/
theorem eq_of_toRat_eq (hx : x.isFinite) (hy : y.isFinite) (h : toRat x = toRat y)
    (nonzero : toRat x ≠ 0) : x = y := by
  obtain ⟨-, -, same | ⟨rfl, -⟩ | ⟨rfl, -⟩⟩ :=
    Float.beq_iff_ne_nan_and_eq.1 ((beq_iff_toRat hx hy).2 h)
  · exact same
  · exact absurd rfl nonzero
  · exact absurd rfl nonzero

end Float

end Curves.Number
