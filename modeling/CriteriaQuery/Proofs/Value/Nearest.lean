import CriteriaQuery.Proofs.Value.Float

/-! Integers as floating-point numbers. A large integer is rounded to one that has a place, and
rounding keeps the order of integers, though it may put several into one place
(`isLE_comparePlaces_nearest`). -/
namespace CriteriaQuery
open Float.Model Float.Model.UnpackedFloat
set_option autoImplicit false

/-! ## Rounding on a grid -/

/-- A mantissa with the bits behind it, in quarters of its last place. -/
def quarters (em : ExtendedMantissa) : Nat :=
  4 * em.mantissa + 2 * em.roundBit.toNat + em.stickyBit.toNat

theorem quarters_shiftRightOne (em : ExtendedMantissa) : quarters em.shiftRightOne =
    2 * (quarters em / 4) + min (quarters em % 4) 1 := by
  obtain ⟨mantissa, roundBit, stickyBit⟩ := em
  rcases Nat.mod_two_eq_zero_or_one mantissa with h | h <;> cases roundBit <;> cases stickyBit <;>
    simp [quarters, ExtendedMantissa.shiftRightOne, h] <;> omega

theorem roundedMantissa_mono {a b : ExtendedMantissa} (h : quarters a ≤ quarters b) :
    a.roundedMantissa ≤ b.roundedMantissa := by
  obtain ⟨m, r, s⟩ := a
  obtain ⟨n, t, u⟩ := b
  cases r <;> cases s <;> cases t <;> cases u <;>
    simp [quarters, ExtendedMantissa.roundedMantissa, ExtendedMantissa.accuracy,
      Accuracy.roundToNearestEven] at h ⊢ <;> omega

theorem quarters_shift_mono {a b : ExtendedMantissa} (h : quarters a ≤ quarters b) (shift : Nat) :
    quarters (a >>> shift) ≤ quarters (b >>> shift) := by
  induction shift with
  | zero => exact h
  | succ shift ih =>
    change quarters (a >>> shift).shiftRightOne ≤ quarters (b >>> shift).shiftRightOne
    rw [quarters_shiftRightOne, quarters_shiftRightOne]
    omega

/-- A number rounded to a multiple of a power of two. -/
def roundedShift (n shift : Nat) : Nat :=
  ((⟨n, false, false⟩ : ExtendedMantissa) >>> shift).roundedMantissa

theorem roundedShift_mono {m n : Nat} (h : m ≤ n) (shift : Nat) :
    roundedShift m shift ≤ roundedShift n shift := by
  apply roundedMantissa_mono
  apply quarters_shift_mono
  simp only [quarters]
  omega

theorem roundedShift_mul (n shift : Nat) : roundedShift (n * 2 ^ shift) shift = n := by
  have hshift : ∀ n : Nat, (⟨n * 2 ^ shift, false, false⟩ : ExtendedMantissa) >>> shift =
      ⟨n, false, false⟩ := by
    induction shift with
    | zero =>
      intro n
      rw [Nat.pow_zero, Nat.mul_one]
      rfl
    | succ shift ih =>
      intro n
      have hn : n * 2 ^ (shift + 1) = 2 * n * 2 ^ shift := by ring
      change ((⟨n * 2 ^ (shift + 1), false, false⟩ : ExtendedMantissa) >>> shift).shiftRightOne = _
      rw [hn, ih]
      simp [ExtendedMantissa.shiftRightOne]
  rw [roundedShift, hshift]
  rfl

/-! ## Positive integers -/

/-- The mantissa of an integer before a last shift: it may be too long by one bit. -/
def grid (n : Nat) : Nat := roundedShift (n * 2 ^ (52 - n.log2)) (n.log2 - 52)

theorem grid_bounds {n : Nat} (hn : n ≠ 0) : 2 ^ 52 ≤ grid n ∧ grid n ≤ 2 ^ 53 := by
  have hscale : ∀ i : Nat,
      2 ^ (n.log2 + i) * 2 ^ (52 - n.log2) = 2 ^ (52 + i) * 2 ^ (n.log2 - 52) := by
    intro i
    rw [← Nat.pow_add, ← Nat.pow_add]
    congr 1
    omega
  have hlow : 2 ^ 52 * 2 ^ (n.log2 - 52) ≤ n * 2 ^ (52 - n.log2) := calc
    _ = 2 ^ n.log2 * 2 ^ (52 - n.log2) := (hscale 0).symm
    _ ≤ _ := Nat.mul_le_mul_right _ (Nat.log2_self_le hn)
  have hhigh : n * 2 ^ (52 - n.log2) ≤ 2 ^ 53 * 2 ^ (n.log2 - 52) := calc
    _ ≤ 2 ^ (n.log2 + 1) * 2 ^ (52 - n.log2) := Nat.mul_le_mul_right _ Nat.lt_log2_self.le
    _ = _ := hscale 1
  constructor
  · rw [← roundedShift_mul (2 ^ 52) (n.log2 - 52)]
    exact roundedShift_mono hlow _
  · rw [← roundedShift_mul (2 ^ 53) (n.log2 - 52)]
    exact roundedShift_mono hhigh _

def nearestMantissa (n : Nat) : Nat := if grid n < 2 ^ 53 then grid n else 2 ^ 52

def nearestExponent (n : Nat) : Int := if grid n < 2 ^ 53 then n.log2 - 52 else n.log2 - 51

theorem nearest_mono {m n : Nat} (hm : m ≠ 0) (h : m ≤ n) :
    nearestExponent m < nearestExponent n ∨
      nearestExponent m = nearestExponent n ∧ nearestMantissa m ≤ nearestMantissa n := by
  have hn : n ≠ 0 := by omega
  have hbm := grid_bounds hm
  have hbn := grid_bounds hn
  have hlog : m.log2 ≤ n.log2 := (Nat.le_log2 hn).mpr ((Nat.log2_self_le hm).trans h)
  unfold nearestExponent nearestMantissa
  rcases hlog.lt_or_eq with hlog | hlog
  -- a shorter number that is rounded up to the next power of two is still no larger
  · split <;> split <;> omega
  · have hgrid : grid m ≤ grid n := by
      unfold grid
      rw [hlog]
      exact roundedShift_mono (Nat.mul_le_mul_right _ h) _
    split <;> split <;> omega

theorem log2_mul_two_pow {n : Nat} (hn : n ≠ 0) (i : Nat) : (n * 2 ^ i).log2 = n.log2 + i := by
  have hpow : 0 < 2 ^ i := Nat.two_pow_pos i
  rw [Nat.log2_eq_iff (Nat.mul_ne_zero hn hpow.ne')]
  constructor
  · rw [Nat.pow_add]
    exact Nat.mul_le_mul_right _ (Nat.log2_self_le hn)
  · rw [Nat.add_right_comm, Nat.pow_add]
    exact Nat.mul_lt_mul_of_pos_right Nat.lt_log2_self hpow

theorem targetExponent_eq {total : Int} (h : -1021 ≤ total) :
    Format.binary64.targetExponent total = total - 53 := by
  simp only [Format.targetExponent, Format.mantissaBits, Format.minExponent]
  omega

theorem shiftToTargetExponent_scaled {n : Nat} (hn : n ≠ 0) :
    shiftToTargetExponent Format.binary64 (n * 2 ^ (52 - n.log2)) (-(52 - n.log2 : Nat)) .exact =
      ((⟨n * 2 ^ (52 - n.log2), false, false⟩ : ExtendedMantissa) >>> (n.log2 - 52),
        (n.log2 : Int) - 52) := by
  have htotal : totalExponent (n * 2 ^ (52 - n.log2)) (-(52 - n.log2 : Nat)) = n.log2 + 1 := by
    rw [totalExponent, log2_mul_two_pow hn]
    omega
  rw [shiftToTargetExponent, htotal, targetExponent_eq (by omega), shiftToExponent]
  have hshift : ((n.log2 : Int) + 1 - 53 - -(52 - n.log2 : Nat)).toNat = n.log2 - 52 := by omega
  rw [hshift]
  refine Prod.ext rfl ?_
  simp only
  omega

/-- The shift after rounding: none, unless the mantissa has become too long. -/
theorem shiftToTargetExponent_rounded {n : Nat} (hlow : 2 ^ 52 ≤ n) (hhigh : n ≤ 2 ^ 53) {e : Int}
    (he : -1000 ≤ e) : shiftToTargetExponent Format.binary64 n e .exact =
      if n < 2 ^ 53 then (⟨n, false, false⟩, e) else (⟨2 ^ 52, false, false⟩, e + 1) := by
  split
  · next h =>
    have hlog : n.log2 = 52 := (Nat.log2_eq_iff (by omega)).mpr ⟨hlow, h⟩
    have hshift : ((n.log2 : Int) + 1 + e - 53 - e).toNat = 0 := by omega
    rw [shiftToTargetExponent, totalExponent, targetExponent_eq (by omega), shiftToExponent, hshift]
    simp only [Int.natCast_zero, Int.add_zero]
    rfl
  · next h =>
    have hn : n = 2 ^ 53 := by omega
    have hlog : n.log2 = 53 := by rw [hn, Nat.log2_two_pow]
    have hshift : ((n.log2 : Int) + 1 + e - 53 - e).toNat = 1 := by omega
    rw [shiftToTargetExponent, totalExponent, targetExponent_eq (by omega), shiftToExponent, hshift,
      hn]
    rfl

theorem nearestMantissa_pos {n : Nat} (hn : n ≠ 0) : 0 < nearestMantissa n := by
  have h := grid_bounds hn
  unfold nearestMantissa
  split <;> omega

theorem roundWithAccuracy_eq {format : Format} {sign : Sign} {m : Nat} {e e₁ e₂ : Int}
    {accuracy : Accuracy} {first last : ExtendedMantissa}
    (hfirst : shiftToTargetExponent format m e accuracy = (first, e₁))
    (hlast : shiftToTargetExponent format first.roundedMantissa e₁ .exact = (last, e₂))
    (hpos : 0 < last.mantissa) :
    roundWithAccuracy format sign m e accuracy = .finite sign last.mantissa e₂ hpos := by
  unfold roundWithAccuracy
  simp only [hfirst, hlast]
  rw [dif_neg hpos.ne']

theorem round_eq {n : Nat} (hn : n ≠ 0) (sign : Sign) :
    UnpackedFloat.round Format.binary64 sign n 0 =
      .finite sign (nearestMantissa n) (nearestExponent n) (nearestMantissa_pos hn) := by
  have htarget : Format.binary64.targetExponent (totalExponent n 0) = (n.log2 : Int) - 52 := by
    rw [totalExponent, targetExponent_eq (by omega)]
    omega
  -- a short integer is scaled up before it is rounded, and a long one is not
  have hback : ((0 : Int) - (n.log2 - 52)).toNat = 52 - n.log2 := by omega
  have hscaled : UnpackedFloat.round Format.binary64 sign n 0 =
      roundWithAccuracy Format.binary64 sign (n * 2 ^ (52 - n.log2)) (-(52 - n.log2 : Nat))
        .exact := by
    unfold UnpackedFloat.round decreaseExponent
    simp only [htarget, hback, Nat.shiftLeft_eq, ← Int.zero_sub]
  have hlast : shiftToTargetExponent Format.binary64 (grid n) (n.log2 - 52) .exact =
      (⟨nearestMantissa n, false, false⟩, nearestExponent n) := by
    have h := grid_bounds hn
    rw [shiftToTargetExponent_rounded h.1 h.2 (by omega), nearestMantissa, nearestExponent]
    split
    · rfl
    · refine Prod.ext rfl ?_
      simp only
      omega
  rw [hscaled]
  exact roundWithAccuracy_eq (shiftToTargetExponent_scaled hn) hlast (nearestMantissa_pos hn)

/-! ## Packing -/

/-- A number with a mantissa of full length stays the same when it is packed. -/
theorem unpack_pack {sign : Sign} {m : Nat} {e : Int} (hlow : 2 ^ 52 ≤ m) (hhigh : m < 2 ^ 53)
    (hmin : -1000 ≤ e) (hmax : e ≤ 900) (hpos : 0 < m) :
    (Float.Model.pack (.finite sign m e hpos)).unpack = .finite sign m e hpos := by
  have hlog : m.log2 = 52 := (Nat.log2_eq_iff hpos.ne').mpr ⟨hlow, hhigh⟩
  have hbias : (Format.binary64.exponentBias : Int) = 1023 := rfl
  obtain ⟨biased, hbiased⟩ : ∃ biased : Nat,
      e + Format.binary64.exponentBias + (52 : Nat) = biased := Int.eq_ofNat_of_zero_le (by omega)
  have hexponent : (BitVec.ofNat 11 biased).toNat = biased := by
    rw [BitVec.toNat_ofNat, Nat.mod_eq_of_lt (by omega)]
  have hnormal : BitVec.ofNat 11 biased ≠ 0#11 := by
    intro h
    have hzero := congrArg BitVec.toNat h
    rw [hexponent, BitVec.toNat_zero] at hzero
    omega
  have hfinite : BitVec.ofNat 11 biased ≠ -1#11 := by
    intro h
    have hones : biased = 2047 := hexponent.symm.trans (congrArg BitVec.toNat h)
    omega
  have hmantissa : (1#1 ++ BitVec.ofNat 52 m).toNat = m := by
    rw [BitVec.toNat_append, ← Nat.shiftLeft_add_eq_or_of_lt (BitVec.isLt _), BitVec.toNat_ofNat]
    simp only [BitVec.toNat_ofNat, Nat.shiftLeft_eq]
    omega
  have hpack : UnpackedFloat.pack Format.binary64 (.finite sign m e hpos) =
      packComponents Format.binary64 sign (BitVec.ofNat 11 biased) (BitVec.ofNat 52 m) := by
    have hfits : ¬2 ^ 11 ≤ biased + 1 := by omega
    have hlength : m.log2 + 1 = Format.binary64.mantissaBits := by rw [hlog]; rfl
    unfold UnpackedFloat.pack
    simp only [hbiased, Int.toNat_natCast, hfits, hlength, if_false, if_true]
  -- reading the fields back puts the leading bit in front of the mantissa again
  change UnpackedFloat.unpack Format.binary64 (UnpackedFloat.pack Format.binary64 _) = _
  rw [hpack]
  unfold UnpackedFloat.unpack
  simp only [unpackMantissa_packComponents, unpackExponent_packComponents,
    unpackSign_packComponents, Sign.ofBitVec_toBitVec, hnormal, hfinite, if_false, hexponent, hmantissa]
  congr 1
  omega

theorem unpack_pack_round {n : Nat} (hn : n ≠ 0) (hsmall : n < 2 ^ 64) (sign : Sign) :
    (Float.Model.pack (UnpackedFloat.round Format.binary64 sign n 0)).unpack =
      .finite sign (nearestMantissa n) (nearestExponent n) (nearestMantissa_pos hn) := by
  have hlog : n.log2 < 64 := (Nat.log2_lt hn).mpr hsmall
  have hgrid := grid_bounds hn
  have hmantissa : 2 ^ 52 ≤ nearestMantissa n ∧ nearestMantissa n < 2 ^ 53 := by
    unfold nearestMantissa
    split <;> omega
  have hexponent : -1000 ≤ nearestExponent n ∧ nearestExponent n ≤ 900 := by
    unfold nearestExponent
    split <;> omega
  rw [round_eq hn]
  exact unpack_pack hmantissa.1 hmantissa.2 hexponent.1 hexponent.2 _

/-! ## Places of integers -/

/-- Where an integer stands among the floating-point numbers. -/
def integerPlace (n : Int) : Int × Int × Int :=
  match compare n 0 with
  | .lt => (-1, -nearestExponent n.natAbs, -nearestMantissa n.natAbs)
  | .eq => (0, 0, 0)
  | .gt => (1, nearestExponent n.natAbs, nearestMantissa n.natAbs)

theorem isLE_comparePlaces_finite {sign e₁ m₁ e₂ m₂ : Int} (h : e₁ < e₂ ∨ e₁ = e₂ ∧ m₁ ≤ m₂) :
    (comparePlaces (sign, e₁, m₁) (sign, e₂, m₂)).isLE = true := by
  rw [comparePlaces_finite]
  rcases h with h | ⟨rfl, h⟩
  · rw [Int.compare_eq_lt.mpr h]
    rfl
  · rw [Int.compare_eq_eq.mpr rfl]
    exact Int.isLE_compare.mpr h

theorem integerPlace_mono {m n : Int} (h : m ≤ n) :
    (comparePlaces (integerPlace m) (integerPlace n)).isLE = true := by
  have hsign : ∀ {i j : Int} {p q : Int × Int}, i < j →
      (comparePlaces (i, p) (j, q)).isLE = true := by
    intro i j p q hij
    rw [comparePlaces_of_sign_lt hij]
    rfl
  unfold integerPlace
  rcases hm : compare m 0 with _ | _ | _ <;> rcases hn : compare n 0 with _ | _ | _ <;>
    simp only [Int.compare_eq_lt, Int.compare_eq_eq, Int.compare_eq_gt] at hm hn
  · have hnearest := @nearest_mono n.natAbs m.natAbs (by omega) (by omega)
    exact isLE_comparePlaces_finite (by omega)
  · exact hsign (by decide)
  · exact hsign (by decide)
  · omega
  · rfl
  · exact hsign (by decide)
  · omega
  · omega
  · have hnearest := @nearest_mono m.natAbs n.natAbs (by omega) (by omega)
    exact isLE_comparePlaces_finite (by omega)

theorem nearestFloat_unpack (n : Int64) : (Value.nearestFloat n).toModel.unpack.isNaN = false ∧
    placeOf (Value.nearestFloat n) = integerPlace n.toInt := by
  have hlow := Int64.le_toInt n
  have hhigh := Int64.toInt_lt n
  have hunpack : (Value.nearestFloat n).toModel.unpack =
      (Float.Model.pack (UnpackedFloat.normalize Format.binary64 n.toInt 0 .positive)).unpack := rfl
  rw [placeOf, hunpack, UnpackedFloat.normalize, integerPlace]
  cases h : compare n.toInt 0 with
  | lt =>
    have hn := Int.compare_eq_lt.mp h
    have habs : (-n.toInt).toNat = n.toInt.natAbs := by omega
    simp only [habs]
    rw [unpack_pack_round (by omega) (by omega)]
    exact ⟨rfl, rfl⟩
  | eq =>
    have hzero : (Float.Model.pack (.zero .positive)).unpack.isNaN = false ∧
        place (Float.Model.pack (.zero .positive)).unpack = (0, 0, 0) := by decide +kernel
    exact hzero
  | gt =>
    have hn := Int.compare_eq_gt.mp h
    have habs : n.toInt.toNat = n.toInt.natAbs := by omega
    simp only [habs]
    rw [unpack_pack_round (by omega) (by omega)]
    exact ⟨rfl, rfl⟩

theorem isNaN_nearestFloat (n : Int64) : (Value.nearestFloat n).isNaN = false :=
  (nearestFloat_unpack n).1

/-- Rounding keeps the order of integers. -/
theorem isLE_comparePlaces_nearest {m n : Int64} (h : m.toInt ≤ n.toInt) :
    (comparePlaces (placeOf (Value.nearestFloat m)) (placeOf (Value.nearestFloat n))).isLE =
      true := by
  rw [(nearestFloat_unpack m).2, (nearestFloat_unpack n).2]
  exact integerPlace_mono h

end CriteriaQuery
