import ChatInference.Json.Record
import Mathlib

/-!
Signs of single-precision numbers. A single below zero is on no other side of zero, and an integer
below zero is rounded to one, whatever its size: rounding leaves it all 24 bits of the mantissa, so
nothing brings it to zero.
-/

namespace ChatInference.Json

open Float.Model Float.Model.UnpackedFloat

/-- A number other than zero, and its sign. -/
def Signed (s : Sign) : UnpackedFloat → Prop
  | infinity t => t = s
  | finite t _ _ _ => t = s
  | _ => False

theorem compare_zero_iff {a : UnpackedFloat} {t : Sign} :
    a.compare (.zero t) = some .lt ↔ Signed .negative a := by
  cases a with
  | infinity s => cases s <;> simp [UnpackedFloat.compare, Signed]
  | notANumber => simp [UnpackedFloat.compare, Signed]
  | zero s => simp [UnpackedFloat.compare, Signed]
  | finite s m e h => cases s <;> simp [UnpackedFloat.compare, Signed]

theorem zero_compare {a : UnpackedFloat} (h : Signed .negative a) (t : Sign) :
    (UnpackedFloat.zero t).compare a = some .gt := by
  cases a with
  | infinity s => cases h; rfl
  | notANumber => cases h
  | zero s => cases h
  | finite s m e hm => cases h; rfl

theorem positive_compare {a b : UnpackedFloat} (ha : Signed .negative a)
    (hb : Signed .positive b) : b.compare a = some .gt := by
  cases a with
  | infinity s => cases ha; cases b <;> cases hb <;> rfl
  | notANumber => cases ha
  | zero s => cases ha
  | finite s m e hm => cases ha; cases b <;> cases hb <;> rfl

variable {p : Float32}

theorem single_lt_zero_iff : p < 0.0 ↔ Signed .negative p.toModel.unpack := by
  have hlt : p < 0.0 ↔ (p.toModel.unpack.compare (.zero .positive) == some .lt) = true :=
    decide_eq_true_iff
  rw [hlt, beq_iff_eq, compare_zero_iff]

/-- A single below zero is below every bound that is at least zero. -/
theorem not_le_single {least : Float32} (h : p < 0.0)
    (hleast : least.toModel.unpack = .zero .positive ∨ Signed .positive least.toModel.unpack) :
    ¬least ≤ p := by
  have hle : least ≤ p ↔ (least.toModel.unpack.compare p.toModel.unpack).any (·.isLE) = true :=
    decide_eq_true_iff
  have hp := single_lt_zero_iff.1 h
  have hgt : least.toModel.unpack.compare p.toModel.unpack = some .gt := by
    obtain hzero | hpositive := hleast
    · rw [hzero]
      exact zero_compare hp _
    · exact positive_compare hp hpositive
  rw [hle, hgt]
  decide

theorem not_zero_lt_single (h : p < 0.0) : ¬0.0 < p := by
  have hlt : 0.0 < p ↔ ((UnpackedFloat.zero .positive).compare p.toModel.unpack == some .lt) = true :=
    decide_eq_true_iff
  rw [hlt, zero_compare (single_lt_zero_iff.1 h)]
  decide

/-! Integers. -/

theorem shiftRight_mantissa (em : ExtendedMantissa) (n : ℕ) :
    (em >>> n).mantissa = em.mantissa / 2 ^ n := by
  change (Nat.repeat ExtendedMantissa.shiftRightOne n em).mantissa = _
  induction n with
  | zero => simp [Nat.repeat]
  | succ n ih =>
    change (Nat.repeat ExtendedMantissa.shiftRightOne n em).mantissa / 2 = _
    rw [ih, Nat.div_div_eq_div_mul, Nat.pow_succ]

theorem le_roundedMantissa (em : ExtendedMantissa) : em.mantissa ≤ em.roundedMantissa := by
  unfold ExtendedMantissa.roundedMantissa Accuracy.roundToNearestEven
  split <;> omega

theorem minExponent_binary32 : Format.binary32.minExponent = -149 := rfl

theorem mantissaBits_binary32 : (Format.binary32.mantissaBits : ℤ) = 24 := rfl

/-- A mantissa of at least 24 bits is cut to 24. -/
theorem log2_shift {m : ℕ} {e : ℤ} (hm : 23 ≤ m.log2) (he : -149 ≤ e) :
    (shiftToTargetExponent .binary32 m e .exact).1.mantissa.log2 = 23 ∧
      e ≤ (shiftToTargetExponent .binary32 m e .exact).2 := by
  have hamount : (Format.binary32.targetExponent (totalExponent m e) - e).toNat = m.log2 - 23 := by
    unfold Format.targetExponent totalExponent
    rw [minExponent_binary32, mantissaBits_binary32]
    omega
  unfold shiftToTargetExponent shiftToExponent
  dsimp only
  rw [hamount, shiftRight_mantissa]
  refine ⟨?_, by omega⟩
  calc (m / 2 ^ (m.log2 - 23)).log2
      = m.log2 - (m.log2 - 23) := by
        rw [Nat.log2_eq_log_two, Nat.log2_eq_log_two, Nat.log_div_base_pow]
    _ = 23 := by omega

/-- Rounding a natural above zero keeps its sign and all 24 bits of the mantissa. -/
theorem round_natural (s : Sign) {m : ℕ} (hm : 0 < m) : ∃ m' e h,
    UnpackedFloat.round .binary32 s m 0 = .finite s m' e h ∧ m'.log2 = 23 ∧ -149 ≤ e := by
  have htarget : Format.binary32.targetExponent (totalExponent m 0) = m.log2 - 23 := by
    unfold Format.targetExponent totalExponent
    rw [minExponent_binary32, mantissaBits_binary32]
    omega
  -- a short mantissa is first filled up to 24 bits
  let filling := 23 - m.log2
  have hfilled : 23 ≤ (m <<< filling).log2 := by
    have hne : m * 2 ^ filling ≠ 0 := (Nat.mul_pos hm (Nat.two_pow_pos _)).ne'
    rw [Nat.shiftLeft_eq, Nat.le_log2 hne]
    calc 2 ^ 23 ≤ 2 ^ (m.log2 + filling) := Nat.pow_le_pow_right (by decide) (by omega)
      _ = 2 ^ m.log2 * 2 ^ filling := Nat.pow_add ..
      _ ≤ m * 2 ^ filling := Nat.mul_le_mul_right _ (Nat.log2_self_le hm.ne')
  have hround : UnpackedFloat.round .binary32 s m 0 =
      roundWithAccuracy .binary32 s (m <<< filling) (-filling) .exact := by
    have hamount : (0 - ((m.log2 : ℤ) - 23)).toNat = filling := by omega
    unfold UnpackedFloat.round decreaseExponent
    dsimp only
    rw [htarget, hamount, Int.zero_sub]
  rw [hround]
  obtain ⟨hcut, hcut_exponent⟩ := log2_shift (e := -filling) hfilled (by omega)
  unfold roundWithAccuracy
  dsimp only
  generalize shiftToTargetExponent .binary32 (m <<< filling) (-filling) .exact = cut at *
  have hrounded : 23 ≤ cut.1.roundedMantissa.log2 := by
    calc 23 = Nat.log 2 cut.1.mantissa := by rw [← Nat.log2_eq_log_two, hcut]
      _ ≤ Nat.log 2 cut.1.roundedMantissa := Nat.log_mono_right (le_roundedMantissa _)
      _ = cut.1.roundedMantissa.log2 := Nat.log2_eq_log_two.symm
  obtain ⟨hfinal, hfinal_exponent⟩ := log2_shift (e := cut.2) hrounded (by omega)
  generalize shiftToTargetExponent .binary32 cut.1.roundedMantissa cut.2 .exact = final at *
  have hne : final.1.mantissa ≠ 0 := by
    intro hzero
    rw [hzero] at hfinal
    cases hfinal
  exact ⟨_, _, Nat.pos_of_ne_zero hne, dif_neg hne, hfinal, by omega⟩

/-- Packing keeps the sign of a number that has all 24 bits of the mantissa. -/
theorem signed_unpack_pack {s : Sign} {m : ℕ} {e : ℤ} {h : 0 < m} (hm : m.log2 = 23)
    (he : -149 ≤ e) :
    Signed s (UnpackedFloat.unpack .binary32 (UnpackedFloat.pack .binary32 (.finite s m e h))) := by
  have hbias : e + Format.binary32.exponentBias + Format.binary32.mantissaBitsWithoutImplicit =
      e + 150 := Int.add_assoc e 127 23
  unfold UnpackedFloat.pack
  dsimp only
  split
  case isTrue hlarge =>
    -- too large for a single: an infinity
    unfold packedInfinity UnpackedFloat.unpack
    simp only [unpackMantissa_packComponents, unpackExponent_packComponents,
      unpackSign_packComponents, Sign.ofBitVec_toBitVec, if_true]
    rfl
  case isFalse hsmall =>
    rw [if_pos (by rw [hm]; rfl)]
    unfold UnpackedFloat.unpack
    simp only [unpackMantissa_packComponents, unpackExponent_packComponents,
      unpackSign_packComponents, Sign.ofBitVec_toBitVec]
    rw [hbias] at hsmall ⊢
    have hlast : BitVec.ofNat 8 (e + 150).toNat ≠ -1#8 := fun heq => by
      have hval : (e + 150).toNat % 256 = 255 := congrArg BitVec.toNat heq
      omega
    have hfirst : BitVec.ofNat 8 (e + 150).toNat ≠ 0#8 := fun heq => by
      have hval : (e + 150).toNat % 256 = 0 := congrArg BitVec.toNat heq
      omega
    rw [if_neg hlast, if_neg hfirst]
    rfl

/-- An integer below zero is a single below zero. -/
theorem intToSingle_lt_zero {n : ℤ} (hn : n < 0) : intToSingle n < 0.0 := by
  rw [single_lt_zero_iff]
  obtain ⟨m, e, h, hround, hm, he⟩ := round_natural .negative (m := (-n).toNat) (by omega)
  have hnormal : UnpackedFloat.ofInt .binary32 n = .finite .negative m e h := by
    unfold UnpackedFloat.ofInt UnpackedFloat.normalize
    rw [Int.compare_eq_lt.2 hn]
    exact hround
  change Signed .negative (UnpackedFloat.unpack .binary32 (UnpackedFloat.pack .binary32 (.ofInt .binary32 n)))
  rw [hnormal]
  exact signed_unpack_pack hm he

end ChatInference.Json
