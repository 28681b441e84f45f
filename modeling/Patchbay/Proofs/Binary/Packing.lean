import Patchbay.Proofs.Binary.Magnitude
import Patchbay.Proofs.Value.Canonical

/-!
# Packed numbers

The bits of a number are its sign and its magnitude, and the machine unpacks them into a sign, a
mantissa and an exponent. To pack a number in the form of the machine gives the sign and the
magnitude of it (`magnitude_packed`), and what is unpacked of a finite magnitude are its parts
(`unpacked_of_finite`).
-/

open Float.Model (UnpackedFloat)
open Float.Model.UnpackedFloat

namespace Patchbay.Binary.Machine

/-! ## Any format -/

theorem apply_neg (s : Sign) (k : Int) : (-s).apply k = -s.apply k := by
  cases s with
  | positive => rfl
  | negative => exact (Int.neg_neg k).symm

theorem sub_eq_add (spec : Float.Model.Format) (u v : UnpackedFloat) :
    UnpackedFloat.sub spec u v = UnpackedFloat.add spec u v.neg := by
  cases u with
  | notANumber => rfl
  | infinity s | zero s => cases v <;> rfl
  | finite s m e hm =>
    cases v with
    | notANumber | infinity t | zero t => rfl
    | finite t k f hk =>
      simp only [UnpackedFloat.sub, UnpackedFloat.add, UnpackedFloat.neg, apply_neg,
        Int.sub_eq_add_neg]

/-- To pack what was unpacked loses nothing but the bits of what is no number. -/
theorem unpack_pack_unpack {spec : Float.Model.Format} (b : BitVec spec.numBits)
    (hspec : 2 ≤ spec.exponentBits) :
    unpack spec (UnpackedFloat.pack spec (unpack spec b)) = unpack spec b := by
  rw [pack_unpack b hspec]
  split
  · rename_i hnan
    obtain ⟨hexponent, hmantissa⟩ := of_decide_eq_true hnan
    rw [unpack_packedNaN, unpack, if_pos hexponent, if_neg hmantissa]
  · rfl

/-! ## Packing -/

/-- The bits of a sign, an exponent and a fraction, as a number. -/
theorem toNat_packComponents (s : Sign) (e : BitVec 11) (m : BitVec 52) :
    (packComponents .binary64 s e m).toNat =
      (if s == .negative then 2 ^ 63 else 0) + (e.toNat * 2 ^ 52 + m.toNat) := by
  have hsign : s.toBitVec.toNat = if s == .negative then 1 else 0 := by cases s <;> rfl
  change (s.toBitVec ++ e ++ m).toNat = _
  rw [BitVec.toNat_append, BitVec.toNat_append, ← Nat.shiftLeft_add_eq_or_of_lt m.isLt,
    ← Nat.shiftLeft_add_eq_or_of_lt e.isLt, Nat.shiftLeft_eq, Nat.shiftLeft_eq, hsign]
  split <;> omega

/-- The number that an unpacked one is packed into. -/
def packed (u : UnpackedFloat) : Double := .ofFloat (.ofModel (.pack u))

theorem packed_of_components {u : UnpackedFloat} {s : Sign} {e : BitVec 11} {m : BitVec 52}
    (h : UnpackedFloat.pack .binary64 u = packComponents .binary64 s e m) :
    (packed u).isNegative = (s == .negative) ∧
      (packed u).magnitude = e.toNat * 2 ^ 52 + m.toNat := by
  have hbits : (packed u).bits.toNat =
      (if s == .negative then 2 ^ 63 else 0) + (e.toNat * 2 ^ 52 + m.toNat) := by
    rw [← toNat_packComponents, ← h]
    rfl
  have hm := m.isLt
  have he := e.isLt
  refine Double.parts_of_toNat_bits ?_ hbits
  rw [Double.signBit]
  omega

theorem isNegative_packed (u : UnpackedFloat) : (packed u).isNegative = isNegative u := by
  cases u with
  | notANumber => decide +kernel
  | infinity s => cases s <;> decide +kernel
  | zero s => cases s <;> decide +kernel
  | finite s m e hm =>
    -- whatever becomes of exponent and mantissa, the sign is packed with them
    obtain ⟨x, k, hpack⟩ : ∃ x k, UnpackedFloat.pack .binary64 (.finite s m e hm) =
        packComponents .binary64 s x k := by
      unfold UnpackedFloat.pack
      dsimp only
      split
      · exact ⟨_, _, rfl⟩
      · split <;> exact ⟨_, _, rfl⟩
    exact (packed_of_components hpack).1

theorem infinity_eq : Format.double.infinity = 2047 * 2 ^ 52 := by decide

theorem minExponent_eq : Format.double.minExponent = -1074 := by decide

theorem magnitude_packed {u : UnpackedFloat} (hu : Canonical u) :
    (packed u).magnitude = magnitude u := by
  cases u with
  | notANumber => decide +kernel
  | infinity s => cases s <;> decide +kernel
  | zero s => cases s <;> decide +kernel
  | finite s m e hm =>
    obtain ⟨hbits, hmin, hfull⟩ := hu
    rw [minExponent_eq] at hmin hfull
    obtain ⟨p, hp⟩ : ∃ p : Nat, e + 1074 = p := ⟨(e + 1074).toNat, by omega⟩
    have hbiased : (e + Float.Model.Format.binary64.exponentBias + 52).toNat = p + 1 := by
      change (e + 1023 + 52).toNat = p + 1
      omega
    have hmagnitude : magnitude (.finite s m e hm) = min (p * 2 ^ 52 + m) (2047 * 2 ^ 52) := by
      rw [magnitude_finite, minExponent_eq, infinity_eq]
      omega
    have hpack : UnpackedFloat.pack .binary64 (.finite s m e hm) =
        if 2 ^ 11 ≤ p + 1 + 1 then packComponents .binary64 s (-1#11) 0
        else if m.log2 + 1 = 53 then packComponents .binary64 s (.ofNat 11 (p + 1)) (.ofNat 52 m)
        else packComponents .binary64 s 0#11 (.ofNat 52 m) := by
      rw [← hbiased]
      rfl
    rw [hmagnitude]
    by_cases hlarge : 2 ^ 11 ≤ p + 1 + 1
    · -- the exponent does not fit
      rw [if_pos hlarge] at hpack
      refine (packed_of_components hpack).2.trans ?_
      change 2047 * 2 ^ 52 + 0 = _
      omega
    · rw [if_neg hlarge] at hpack
      by_cases hnormal : m.log2 + 1 = 53
      · -- the first bit of the significand is left out and counted with the exponent
        have hunit : 2 ^ 52 ≤ m := by
          have hle := Nat.log2_self_le hm.ne'
          rwa [show m.log2 = 52 by omega] at hle
        rw [if_pos hnormal] at hpack
        have hpacked := (packed_of_components hpack).2
        rw [BitVec.toNat_ofNat, BitVec.toNat_ofNat] at hpacked
        omega
      · have hsmall : m < 2 ^ 52 := by
          by_contra hle
          have hlog := (Nat.le_log2 hm.ne').mpr (not_lt.mp hle)
          have hlog' := (Nat.log2_lt hm.ne').mpr hbits
          omega
        rw [if_neg hnormal] at hpack
        have hpacked := (packed_of_components hpack).2
        rw [BitVec.toNat_ofNat, BitVec.toNat_ofNat] at hpacked
        omega

/-! ## Unpacking -/

/-- The bits of a number as the machine takes them. -/
def word (x : Double) : BitVec Float.Model.Format.binary64.numBits := x.bits.toBitVec

/-- The unpacked number that the machine works on. -/
def unpacked (x : Double) : UnpackedFloat := x.toFloat.toModel.unpack

theorem unpacked_eq_unpack (x : Double) : unpacked x = unpack .binary64 (word x) :=
  unpack_pack_unpack (word x) (by decide)

/-- The sign that a number has. -/
def signOf (x : Double) : Sign := if x.isNegative then .negative else .positive

theorem toNat_unpackMantissa (x : Double) :
    (unpackMantissa (word x)).toNat = x.magnitude % 2 ^ 52 := by
  rw [unpackMantissa_def, BitVec.extractLsb'_toNat, Double.magnitude, Double.signBit]
  change x.bits.toNat >>> 0 % 2 ^ 52 = _
  rw [Nat.shiftRight_zero]
  omega

theorem toNat_unpackExponent (x : Double) :
    (unpackExponent (word x)).toNat = x.magnitude / 2 ^ 52 := by
  rw [unpackExponent_def, BitVec.extractLsb'_toNat, Double.magnitude, Double.signBit]
  change x.bits.toNat >>> 52 % 2 ^ 11 = _
  rw [Nat.shiftRight_eq_div_pow]
  omega

theorem ofBitVec_unpackSign (x : Double) :
    Sign.ofBitVec (unpackSign (word x)) = signOf x := by
  have hsign : (unpackSign (word x)).toNat = x.bits.toNat / 2 ^ 63 := by
    have hlt : x.bits.toNat < 2 ^ 64 := x.bits.toNat_lt
    rw [unpackSign_def, BitVec.extractLsb'_toNat]
    change x.bits.toNat >>> 63 % 2 ^ 1 = _
    rw [Nat.shiftRight_eq_div_pow]
    omega
  rw [signOf, Double.isNegative, Double.signBit, Sign.ofBitVec]
  by_cases hneg : 2 ^ 63 ≤ x.bits.toNat
  · rw [if_neg fun hzero => ?_, if_pos (by simpa using hneg)]
    rw [hzero] at hsign
    change 0 = _ at hsign
    omega
  · rw [if_pos (BitVec.eq_of_toNat_eq ?_), if_neg (by simpa using hneg)]
    rw [hsign]
    change _ = 0
    omega

/-- The exponent bits tell apart what is not finite, the small numbers and the others. -/
theorem unpacked_eq (x : Double) :
    unpacked x =
      if x.magnitude / 2 ^ 52 = 2047 then
        if x.magnitude % 2 ^ 52 = 0 then .infinity (signOf x) else .notANumber
      else if x.magnitude / 2 ^ 52 = 0 then
        if h : x.magnitude % 2 ^ 52 = 0 then .zero (signOf x)
        else .finite (signOf x) (x.magnitude % 2 ^ 52) (-1074) (Nat.pos_of_ne_zero h)
      else .finite (signOf x) (2 ^ 52 + x.magnitude % 2 ^ 52) (x.magnitude / 2 ^ 52 - 1075 : Int)
        (Nat.add_pos_left (by decide) _) := by
  have hmantissa := toNat_unpackMantissa x
  have hexponent := toNat_unpackExponent x
  have hzero : unpackMantissa (word x) = 0#_ ↔
      x.magnitude % 2 ^ 52 = 0 := by
    rw [← hmantissa, ← BitVec.toNat_inj]
    rfl
  have hall : unpackExponent (word x) = -1#_ ↔
      x.magnitude / 2 ^ 52 = 2047 := by
    rw [← hexponent, ← BitVec.toNat_inj]
    rfl
  have hnone : unpackExponent (word x) = 0#_ ↔
      x.magnitude / 2 ^ 52 = 0 := by
    rw [← hexponent, ← BitVec.toNat_inj]
    rfl
  rw [unpacked_eq_unpack, unpack, ofBitVec_unpackSign]
  simp only [hzero, hall, hnone]
  refine if_congr Iff.rfl rfl (ite_congr rfl (fun hnone => ?_) fun _ => ?_)
  · refine dite_congr rfl (fun _ => rfl) fun _ => ?_
    simp only [hmantissa, hexponent, hnone]
    rfl
  · have hunit : (1#1 ++ unpackMantissa (word x)).toNat =
        2 ^ 52 + x.magnitude % 2 ^ 52 := by
      rw [BitVec.toNat_append, ← Nat.shiftLeft_add_eq_or_of_lt (BitVec.isLt _), hmantissa]
      rfl
    simp only [hunit, hexponent]
    rfl

theorem unpacked_of_infinite {x : Double} (h : x.magnitude = Format.double.infinity) :
    unpacked x = .infinity (signOf x) := by
  rw [infinity_eq] at h
  rw [unpacked_eq, if_pos (by omega), if_pos (by omega)]

theorem unpacked_of_zero {x : Double} (h : x.magnitude = 0) : unpacked x = .zero (signOf x) := by
  rw [unpacked_eq, if_neg (by omega), if_pos (by omega), dif_pos (by omega)]

theorem unpacked_of_finite {x : Double} (hzero : x.magnitude ≠ 0)
    (h : x.magnitude < Format.double.infinity) :
    ∃ hm, unpacked x = .finite (signOf x) (Format.double.parts x.magnitude).1
      (Format.double.parts x.magnitude).2 hm := by
  rw [infinity_eq] at h
  rw [unpacked_eq, if_neg (by omega)]
  rcases Format.double.parts_spec x.magnitude with ⟨hlt, hparts⟩ | ⟨hle, hparts⟩
  · change _ < 2 ^ 52 at hlt
    rw [hparts, minExponent_eq, if_pos (by omega), dif_neg (by omega)]
    refine ⟨Nat.pos_of_ne_zero hzero, ?_⟩
    rw [UnpackedFloat.finite.injEq]
    exact ⟨rfl, Nat.mod_eq_of_lt hlt, rfl⟩
  · change 2 ^ 52 ≤ _ at hle
    rw [hparts, minExponent_eq, if_neg (by omega)]
    refine ⟨Nat.add_pos_left (by decide) _, ?_⟩
    rw [UnpackedFloat.finite.injEq]
    change _ ∧ _ ∧ (x.magnitude / 2 ^ 52 - 1075 : Int) = -1074 + (x.magnitude / 2 ^ 52 - 1 : Nat)
    exact ⟨rfl, rfl, by omega⟩

theorem unpacked_of_isNaN {x : Double} (h : x.isNaN = true) : unpacked x = .notANumber := by
  have hlarge : Format.double.infinity < x.magnitude := by simpa [Double.isNaN] using h
  have hlt : x.magnitude < 2 ^ 63 := Nat.mod_lt _ (by decide)
  rw [infinity_eq] at hlarge
  rw [unpacked_eq, if_pos (by omega), if_neg (by omega)]

theorem signOf_beq (x : Double) : (signOf x == .negative) = x.isNegative := by
  unfold signOf
  cases x.isNegative <;> rfl

theorem isNegative_unpacked {x : Double} (h : x.isNaN = false) :
    isNegative (unpacked x) = x.isNegative := by
  rw [← signOf_beq]
  rcases (Double.isNaN_eq_false_iff.mp h).lt_or_eq with hlt | heq
  · by_cases hzero : x.magnitude = 0
    · rw [unpacked_of_zero hzero]
      rfl
    · obtain ⟨hm, hunpacked⟩ := unpacked_of_finite hzero hlt
      rw [hunpacked]
      rfl
  · rw [unpacked_of_infinite heq]
    rfl

end Patchbay.Binary.Machine
