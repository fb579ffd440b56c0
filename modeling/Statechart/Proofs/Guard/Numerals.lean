import Mathlib
import Statechart.Guard.Reader

/-!
# The numbers numerals stand for

A numeral may be too long for a number, and then its value is infinite, but it
is always a number: neither rounding nor the division by a power of ten that a
fraction asks for leaves the numbers.
-/

namespace Statechart

open Float.Model (UnpackedFloat Format)
open Float.Model.UnpackedFloat (packComponents unpackExponent unpackMantissa roundWithAccuracy)

namespace Guard

theorem isNaN_unpack_of_mantissa {spec : Format} {bits : BitVec spec.numBits}
    (noMantissa : unpackMantissa bits = 0#_) : (UnpackedFloat.unpack spec bits).isNaN = false := by
  simp only [UnpackedFloat.unpack]
  split
  · rfl
  · split
    · rfl
    · rfl

theorem isNaN_unpack_of_exponent {spec : Format} {bits : BitVec spec.numBits}
    (notAllOnes : unpackExponent bits ≠ -1#_) : (UnpackedFloat.unpack spec bits).isNaN = false := by
  simp only [UnpackedFloat.unpack, if_neg notAllOnes]
  split
  · split
    · rfl
    · rfl
  · rfl

/-- Packing rounds what is too large to infinity. -/
theorem isNaN_unpack_pack {spec : Format} {unpacked : UnpackedFloat}
    (number : unpacked.isNaN = false) :
    (UnpackedFloat.unpack spec (unpacked.pack spec)).isNaN = false := by
  cases unpacked with
  | notANumber => cases number
  | infinity sign =>
      apply isNaN_unpack_of_mantissa
      simp [UnpackedFloat.pack, UnpackedFloat.packedInfinity]
  | zero sign =>
      apply isNaN_unpack_of_mantissa
      simp [UnpackedFloat.pack, UnpackedFloat.packedZero]
  | finite sign mantissa exponent positive =>
      simp only [UnpackedFloat.pack]
      split
      · apply isNaN_unpack_of_mantissa
        simp [UnpackedFloat.packedInfinity]
      · next inRange =>
          -- Neither a normal exponent nor that of subnormal numbers has all bits set.
          have wide := Nat.one_lt_two_pow (Nat.ne_of_gt spec.he)
          split
          all_goals
            apply isNaN_unpack_of_exponent
            rw [Float.Model.UnpackedFloat.unpackExponent_packComponents, Ne, ← BitVec.toNat_inj,
              BitVec.neg_one_eq_allOnes, BitVec.toNat_allOnes, BitVec.toNat_ofNat]
          · rw [Nat.mod_eq_of_lt (by omega)]
            omega
          · rw [Nat.zero_mod]
            omega

theorem isNaN_roundWithAccuracy (spec : Format) (sign : UnpackedFloat.Sign) (mantissa : Nat)
    (exponent : Int) (accuracy : UnpackedFloat.Accuracy) :
    (roundWithAccuracy spec sign mantissa exponent accuracy).isNaN = false := by
  simp only [roundWithAccuracy]
  split
  · rfl
  · rfl

/-- Numbers other than zero and infinity can be divided by. -/
def IsDivisor : UnpackedFloat → Prop
  | .finite .. => True
  | _ => False

theorem isNaN_div {spec : Format} {dividend divisor : UnpackedFloat}
    (number : dividend.isNaN = false) (isDivisor : IsDivisor divisor) :
    (dividend.div spec divisor).isNaN = false := by
  cases divisor with
  | finite =>
      cases dividend with
      | notANumber => cases number
      | infinity => rfl
      | zero => rfl
      | finite => exact isNaN_roundWithAccuracy ..
  | notANumber => cases isDivisor
  | infinity => cases isDivisor
  | zero => cases isDivisor

theorem isNaN_ofNat (spec : Format) (n : Nat) : (UnpackedFloat.ofNat spec n).isNaN = false := by
  simp only [UnpackedFloat.ofNat, UnpackedFloat.ofInt, UnpackedFloat.normalize, UnpackedFloat.round]
  split
  · exact isNaN_roundWithAccuracy ..
  · rfl
  · exact isNaN_roundWithAccuracy ..

theorem isNaN_ofScientific (spec : Format) (mantissa : Nat) (exponent : Int) :
    (UnpackedFloat.ofScientific spec mantissa exponent).isNaN = false := by
  simp only [UnpackedFloat.ofScientific]
  split
  · rfl
  · split
    · rfl
    · split
      · rfl
      · split
        · exact isNaN_roundWithAccuracy ..
        · exact isNaN_roundWithAccuracy ..

instance (unpacked : UnpackedFloat) : Decidable (IsDivisor unpacked) :=
  match unpacked with
  | .finite .. => .isTrue trivial
  | .infinity .. | .notANumber | .zero .. => .isFalse id

/-- The powers of ten that are numbers without rounding can be divided by. -/
theorem isDivisor_powerOfTen : ∀ power ∈ Float.exactlyRepresentablePowersOfTen,
    IsDivisor power.toModel.unpack := by
  decide +kernel

theorem isNaN_ofScientificValue (mantissa exponent : Nat) :
    (Float.ofScientific mantissa true exponent).isNaN = false := by
  rw [Float.ofScientific]
  split
  · exact isNaN_unpack_pack (isNaN_div (isNaN_unpack_pack (isNaN_ofNat ..))
      (isDivisor_powerOfTen _ (Array.getElem_mem _)))
  · exact isNaN_unpack_pack (isNaN_ofScientific ..)

theorem isNaN_neg {x : Float} (number : x.isNaN = false) : (-x).isNaN = false := by
  apply isNaN_unpack_pack
  cases shape : x.toModel.unpack with
  | notANumber => rw [Float.isNaN, Float.Model.isNaN, shape] at number; cases number
  | infinity => rfl
  | zero => rfl
  | finite => rfl

theorem Numeral.isNaN_value (numeral : Numeral) : numeral.value.isNaN = false := by
  rw [Numeral.value]
  split
  · exact isNaN_neg (isNaN_ofScientificValue ..)
  · exact isNaN_ofScientificValue ..

/-- The value of a numeral is finite unless it is infinite. -/
theorem Numeral.isFinite_value (numeral : Numeral) :
    numeral.value.isFinite = !numeral.value.isInf := by
  have number := numeral.isNaN_value
  rw [Float.isNaN, Float.Model.isNaN] at number
  rw [Float.isFinite, Float.Model.isFinite, Float.isInf, Float.Model.isInf]
  cases shape : numeral.value.toModel.unpack with
  | notANumber => rw [shape] at number; cases number
  | infinity => rfl
  | zero => rfl
  | finite => rfl

end Guard

end Statechart
