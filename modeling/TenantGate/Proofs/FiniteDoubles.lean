import Mathlib
import TenantGate.Proofs.JsonValues
/-!
# Numbers that are read are finite

A number is put together in doubles, by conversions, products and quotients.  None of them is ever
a NaN, and only a product can be infinite, which is looked for.  What bounds the others is the place
of their last bit, as a power of two.
-/

namespace TenantGate

open Float.Model Float.Model.UnpackedFloat

/-- Zero, or a finite number whose last place is at most this. -/
def UpTo (high : Int) : UnpackedFloat → Prop
  | .zero _ => True
  | .finite _ _ e _ => e ≤ high
  | .infinity _ => False
  | .notANumber => False

/-- A number with all bits of a significand, and its last place. -/
def Normal (low high : Int) : UnpackedFloat → Prop
  | .finite _ m e _ => m.log2 = 52 ∧ low ≤ e ∧ e ≤ high
  | _ => False

instance (low high : Int) (x : UnpackedFloat) : Decidable (Normal low high x) :=
  match x with
  | .finite _ m e _ => inferInstanceAs (Decidable (m.log2 = 52 ∧ low ≤ e ∧ e ≤ high))
  | .zero _ | .infinity _ | .notANumber => inferInstanceAs (Decidable False)

theorem UpTo.eq_zero_or {high : Int} {x : UnpackedFloat} (h : UpTo high x) :
    (∃ sign, x = .zero sign) ∨ ∃ sign m e hm, x = .finite sign m e hm ∧ e ≤ high := by
  cases x with
  | zero sign => exact .inl ⟨sign, rfl⟩
  | finite sign m e hm => exact .inr ⟨sign, m, e, hm, rfl, h⟩
  | infinity | notANumber => exact absurd h id

theorem Normal.exists_eq {low high : Int} {x : UnpackedFloat} (h : Normal low high x) :
    ∃ sign m e hm, x = .finite sign m e hm ∧ m.log2 = 52 ∧ low ≤ e ∧ e ≤ high := by
  cases x with
  | finite sign m e hm => exact ⟨sign, m, e, hm, rfl, h⟩
  | zero | infinity | notANumber => exact absurd h id

theorem UpTo.isFinite {high : Int} {x : UnpackedFloat} (h : UpTo high x) : x.isFinite = true := by
  cases x with
  | zero | finite => rfl
  | infinity | notANumber => exact absurd h id

theorem UpTo.mono {high high' : Int} {x : UnpackedFloat} (h : UpTo high x) (hle : high ≤ high') :
    UpTo high' x := by
  cases x with
  | zero => trivial
  | finite => exact Int.le_trans h hle
  | infinity | notANumber => exact h

theorem Normal.upTo {low high : Int} {x : UnpackedFloat} (h : Normal low high x) : UpTo high x := by
  cases x with
  | finite => exact h.2.2
  | zero | infinity | notANumber => exact absurd h id

theorem log2_le_of_lt {n k : Nat} (h : n < 2 ^ (k + 1)) : n.log2 ≤ k := by
  by_cases hn : n = 0
  · simp [hn]
  · exact Nat.lt_succ_iff.1 ((Nat.log2_lt hn).2 h)

theorem log2_shiftLeft {n : Nat} (hn : n ≠ 0) (k : Nat) : (n <<< k).log2 = n.log2 + k := by
  have hpos : n * 2 ^ k ≠ 0 := Nat.mul_ne_zero hn (Nat.ne_of_gt (Nat.two_pow_pos k))
  rw [Nat.shiftLeft_eq, Nat.log2_eq_iff hpos]
  refine ⟨?_, ?_⟩
  · rw [Nat.pow_add]
    exact Nat.mul_le_mul_right _ (Nat.log2_self_le hn)
  · rw [Nat.add_right_comm, Nat.pow_add]
    exact Nat.mul_lt_mul_of_pos_right Nat.lt_log2_self (Nat.two_pow_pos k)

theorem log2_div_two_pow {n k : Nat} (hn : n ≠ 0) (hk : k ≤ n.log2) :
    (n / 2 ^ k).log2 = n.log2 - k := by
  have hpow : 2 ^ (n.log2 - k) * 2 ^ k = 2 ^ n.log2 := by rw [← Nat.pow_add, Nat.sub_add_cancel hk]
  have hlow : 2 ^ (n.log2 - k) ≤ n / 2 ^ k := by
    rw [Nat.le_div_iff_mul_le (Nat.two_pow_pos k), hpow]
    exact Nat.log2_self_le hn
  have hpos : n / 2 ^ k ≠ 0 := Nat.ne_of_gt (Nat.lt_of_lt_of_le (Nat.two_pow_pos _) hlow)
  refine (Nat.log2_eq_iff hpos).2 ⟨hlow, ?_⟩
  rw [Nat.div_lt_iff_lt_mul (Nat.two_pow_pos k), Nat.pow_succ, Nat.mul_right_comm, hpow]
  exact Nat.lt_log2_self

theorem div_lt_two_pow (m k : Nat) : m / 2 ^ k < 2 ^ (m.log2 + 1 - k) := by
  rw [Nat.div_lt_iff_lt_mul (Nat.two_pow_pos k), ← Nat.pow_add]
  exact Nat.lt_of_lt_of_le Nat.lt_log2_self (Nat.pow_le_pow_right (by decide) (by omega))

theorem log2_mul_le (m n : Nat) : (m * n).log2 ≤ m.log2 + n.log2 + 1 := by
  have hlt := Nat.mul_lt_mul'' (Nat.lt_log2_self (n := m)) (Nat.lt_log2_self (n := n))
  rw [← Nat.pow_add] at hlt
  refine log2_le_of_lt (Nat.lt_of_lt_of_eq hlt (congrArg (2 ^ ·) ?_))
  omega

theorem log2_div_le (n : Nat) {m : Nat} (hm : 0 < m) : (n / m).log2 ≤ n.log2 - m.log2 := by
  have hself := Nat.log2_self_le (Nat.ne_of_gt hm)
  have hle : n / m ≤ n / 2 ^ m.log2 := Nat.div_le_div_left hself (Nat.two_pow_pos _)
  refine log2_le_of_lt (Nat.lt_of_le_of_lt hle (Nat.lt_of_lt_of_le (div_lt_two_pow n m.log2) ?_))
  exact Nat.pow_le_pow_right (by decide) (by omega)

theorem mantissa_shiftRight (em : ExtendedMantissa) (k : Nat) :
    (em >>> k).mantissa = em.mantissa / 2 ^ k := by
  induction k with
  | zero => exact (Nat.div_one _).symm
  | succ k ih =>
    have hstep : (em >>> (k + 1)).mantissa = (em >>> k).mantissa / 2 := rfl
    rw [hstep, ih, Nat.div_div_eq_div_mul, Nat.pow_succ]

theorem roundedMantissa_bounds (em : ExtendedMantissa) :
    em.mantissa ≤ em.roundedMantissa ∧ em.roundedMantissa ≤ em.mantissa + 1 := by
  obtain ⟨m, round, sticky⟩ := em
  cases round <;> cases sticky <;>
    simp only [ExtendedMantissa.roundedMantissa, ExtendedMantissa.accuracy,
      Accuracy.roundToNearestEven] <;> omega

/-- The place that a number is shifted to, so that 53 bits are left of it. -/
def place (m : Nat) (e : Int) : Int := max (m.log2 + e - 52) (-1074)

theorem targetExponent_eq (m : Nat) (e : Int) :
    Format.binary64.targetExponent (totalExponent m e) = place m e := by
  simp only [Format.targetExponent, totalExponent, Format.mantissaBits, Format.minExponent, place]
  omega

section Shifts

variable (m : Nat) (e : Int) (accuracy : Accuracy)

theorem shifted_exponent :
    (shiftToTargetExponent Format.binary64 m e accuracy).2 = max e (place m e) := by
  simp only [shiftToTargetExponent, shiftToExponent, targetExponent_eq]
  omega

theorem shifted_mantissa : (shiftToTargetExponent Format.binary64 m e accuracy).1.mantissa
    = m / 2 ^ (place m e - e).toNat := by
  simp only [shiftToTargetExponent, shiftToExponent, targetExponent_eq, mantissa_shiftRight]
  unfold ExtendedMantissa.ofMantissaAndAccuracy
  split <;> rfl

def rounded : Nat := (shiftToTargetExponent Format.binary64 m e accuracy).1.roundedMantissa

theorem rounded_bounds : m / 2 ^ (place m e - e).toNat ≤ rounded m e accuracy ∧
    rounded m e accuracy ≤ m / 2 ^ (place m e - e).toNat + 1 := by
  rw [← shifted_mantissa m e accuracy]
  exact roundedMantissa_bounds _

theorem log2_rounded_le : (rounded m e accuracy).log2 ≤ m.log2 + 1 - (place m e - e).toNat := by
  have hdiv := div_lt_two_pow m (place m e - e).toNat
  have hle := (rounded_bounds m e accuracy).2
  have hpos := Nat.two_pow_pos (m.log2 + 1 - (place m e - e).toNat)
  refine log2_le_of_lt ?_
  rw [Nat.pow_succ]
  omega

theorem roundWithAccuracy_eq (sign : Sign) :
    roundWithAccuracy Format.binary64 sign m e accuracy =
      if h : rounded m e accuracy /
          2 ^ (place (rounded m e accuracy) (max e (place m e)) - max e (place m e)).toNat = 0 then
        .zero sign
      else .finite sign _
        (max (max e (place m e)) (place (rounded m e accuracy) (max e (place m e))))
        (Nat.pos_of_ne_zero h) := by
  rw [roundWithAccuracy]
  simp only [shifted_mantissa, shifted_exponent]
  rfl

variable {m e accuracy}

/-- What is rounded has its last place where it was, or where 53 bits end, or one above. -/
theorem upTo_roundWithAccuracy {high : Int} (he : e ≤ high) (hm : m.log2 + e - 51 ≤ high)
    (hlow : -1074 ≤ high) (sign : Sign) :
    UpTo high (roundWithAccuracy Format.binary64 sign m e accuracy) := by
  have hlog := log2_rounded_le m e accuracy
  rw [roundWithAccuracy_eq]
  split
  · trivial
  · simp only [UpTo, place] at hlog ⊢
    omega

/-- A number with 53 bits or more has 53 of them left. -/
theorem normal_roundWithAccuracy {low high : Int} (h53 : 52 ≤ m.log2) (hlow : -1074 ≤ low)
    (hm : low ≤ m.log2 + e - 52) (hhigh : m.log2 + e - 51 ≤ high) (sign : Sign) :
    Normal low high (roundWithAccuracy Format.binary64 sign m e accuracy) := by
  have hm0 : m ≠ 0 := by
    rintro rfl
    simp at h53
  have hplace : place m e = m.log2 + e - 52 := by
    simp only [place]
    omega
  have hshift : (place m e - e).toNat = m.log2 - 52 := by omega
  have hlog := log2_rounded_le m e accuracy
  have hfull : (m / 2 ^ (m.log2 - 52)).log2 = 52 := by
    rw [log2_div_two_pow hm0 (by omega)]
    omega
  have hrounded : 2 ^ 52 ≤ rounded m e accuracy := by
    have hle := (rounded_bounds m e accuracy).1
    rw [hshift] at hle
    have hq : m / 2 ^ (m.log2 - 52) ≠ 0 := by
      intro hzero
      simp [hzero] at hfull
    exact Nat.le_trans ((Nat.le_log2 hq).1 (Nat.le_of_eq hfull.symm)) hle
  have hr0 : rounded m e accuracy ≠ 0 := Nat.ne_of_gt (Nat.lt_of_lt_of_le (by decide) hrounded)
  have hr52 : 52 ≤ (rounded m e accuracy).log2 := (Nat.le_log2 hr0).2 hrounded
  have hplace' : place (rounded m e accuracy) (max e (place m e))
      = (rounded m e accuracy).log2 + (m.log2 + e - 52) - 52 := by
    simp only [place] at hplace ⊢
    omega
  have hdrop : (place (rounded m e accuracy) (max e (place m e)) - max e (place m e)).toNat
      = (rounded m e accuracy).log2 - 52 := by
    omega
  have hlast := log2_div_two_pow hr0 (Nat.sub_le (rounded m e accuracy).log2 52)
  rw [roundWithAccuracy_eq]
  split
  · next hzero =>
    rw [hdrop] at hzero
    rw [hzero, Nat.log2_zero] at hlast
    omega
  · refine ⟨?_, ?_, ?_⟩
    · rw [hdrop, hlast]
      omega
    · omega
    · omega

end Shifts

theorem isFinite_roundWithAccuracy (sign : Sign) (m : Nat) (e : Int) (accuracy : Accuracy) :
    (roundWithAccuracy Format.binary64 sign m e accuracy).isFinite = true := by
  rw [roundWithAccuracy_eq]
  split <;> rfl

def packed (x : UnpackedFloat) : UnpackedFloat :=
  UnpackedFloat.unpack Format.binary64 (UnpackedFloat.pack Format.binary64 x)

theorem ofNat_ne_neg_one {b : Nat} (hb : b ≤ 2046) : BitVec.ofNat 11 b ≠ -1#11 := by
  intro h
  have hnat := congrArg BitVec.toNat h
  rw [BitVec.toNat_ofNat, Nat.mod_eq_of_lt (by omega)] at hnat
  have hlast : (-1#11).toNat = 2047 := by decide
  omega

theorem toNat_append_one (m : BitVec 52) : (1#1 ++ m).toNat = 2 ^ 52 + m.toNat := by
  rw [BitVec.toNat_append, ← Nat.shiftLeft_add_eq_or_of_lt m.isLt]
  rfl

theorem log2_append_one (m : BitVec 52) : (1#1 ++ m).toNat.log2 = 52 := by
  have hlt := m.isLt
  rw [toNat_append_one, Nat.log2_eq_iff (by omega)]
  omega

section Components

variable {b : Nat} (hb : b ≤ 2046) {low high : Int} (hhigh : (b : Int) - 1075 ≤ high) (sign : Sign)
  (m : BitVec 52)
include hb hhigh

theorem upTo_packComponents (hlow : -1074 ≤ high) :
    UpTo high (UnpackedFloat.unpack Format.binary64
      (packComponents Format.binary64 sign (BitVec.ofNat 11 b) m)) := by
  have hnat : (BitVec.ofNat 11 b).toNat = b := by
    rw [BitVec.toNat_ofNat, Nat.mod_eq_of_lt (by omega)]
  have hbias : (Format.binary64.exponentBias : Int) = 1023 := rfl
  unfold UnpackedFloat.unpack
  simp only [unpackMantissa_packComponents, unpackExponent_packComponents]
  rw [if_neg (ofNat_ne_neg_one hb)]
  split
  · next hzero =>
    split
    · trivial
    · have hzero' := congrArg BitVec.toNat hzero
      simp only [UpTo, hnat, hbias, BitVec.toNat_zero] at hzero' ⊢
      omega
  · simp only [UpTo, hnat, hbias]
    omega

theorem normal_packComponents (hpos : 0 < b) (hlow : low ≤ (b : Int) - 1075) :
    Normal low high (UnpackedFloat.unpack Format.binary64
      (packComponents Format.binary64 sign (BitVec.ofNat 11 b) m)) := by
  have hnat : (BitVec.ofNat 11 b).toNat = b := by
    rw [BitVec.toNat_ofNat, Nat.mod_eq_of_lt (by omega)]
  have hbias : (Format.binary64.exponentBias : Int) = 1023 := rfl
  have hne : BitVec.ofNat 11 b ≠ 0#11 := by
    intro hzero
    have hzero' := congrArg BitVec.toNat hzero
    simp only [hnat, BitVec.toNat_zero] at hzero'
    omega
  unfold UnpackedFloat.unpack
  simp only [unpackMantissa_packComponents, unpackExponent_packComponents]
  rw [if_neg (ofNat_ne_neg_one hb), if_neg hne]
  refine ⟨log2_append_one m, ?_, ?_⟩ <;> simp only [hnat, hbias] <;> omega

end Components

theorem isInf_packedInfinity (sign : Sign) : (UnpackedFloat.unpack Format.binary64
    (packedInfinity Format.binary64 sign)).isInf = true := by
  unfold UnpackedFloat.unpack packedInfinity
  simp only [unpackMantissa_packComponents, unpackExponent_packComponents]
  rfl

theorem upTo_packed {high : Int} (hlow : -1074 ≤ high) (hhigh : high ≤ 971) {x : UnpackedFloat}
    (hx : UpTo high x) : UpTo high (packed x) := by
  cases x with
  | zero sign => exact upTo_packComponents (b := 0) (by omega) (by omega) sign 0 hlow
  | finite sign m e hm =>
    have hbias : (Format.binary64.exponentBias : Int) = 1023 := rfl
    have he : e ≤ high := hx
    simp only [packed, UnpackedFloat.pack]
    rw [if_neg (by simp only [hbias]; omega)]
    split
    · exact upTo_packComponents (by omega) (by simp only [hbias]; omega) sign _ hlow
    · exact upTo_packComponents (b := 0) (by omega) (by omega) sign _ hlow
  | infinity | notANumber => exact absurd hx id

/-- A finite number that does not fit into a pattern becomes infinite, and never a NaN. -/
theorem packed_cases {x : UnpackedFloat} (hx : x.isFinite = true) :
    (packed x).isFinite = true ∨ (packed x).isInf = true := by
  cases x with
  | zero sign =>
    have hzero : UpTo 0 (.zero sign) := trivial
    exact .inl (upTo_packed (by decide) (by decide) hzero).isFinite
  | finite sign m e hm =>
    by_cases hsmall : e ≤ 971
    · have hfits : UpTo 971 (.finite sign m e hm) := hsmall
      exact .inl (upTo_packed (by decide) (by decide) hfits).isFinite
    · have hbias : (Format.binary64.exponentBias : Int) = 1023 := rfl
      simp only [packed, UnpackedFloat.pack]
      rw [if_pos (by simp only [hbias]; omega)]
      exact .inr (isInf_packedInfinity sign)
  | infinity | notANumber => cases hx

theorem normal_packed {low high : Int} (hlow : -1074 ≤ low) (hhigh : high ≤ 971) {x : UnpackedFloat}
    (hx : Normal low high x) : Normal low high (packed x) := by
  cases x with
  | finite sign m e hm =>
    have hbias : (Format.binary64.exponentBias : Int) = 1023 := rfl
    obtain ⟨h53, he, he'⟩ := hx
    simp only [packed, UnpackedFloat.pack]
    rw [if_neg (by simp only [hbias]; omega), if_pos (by rw [h53]; rfl)]
    exact normal_packComponents (by omega) (by simp only [hbias]; omega) sign _ (by omega)
      (by simp only [hbias]; omega)
  | zero | infinity | notANumber => exact absurd hx id

theorem unpack_bounds {b : BitVec 64} {sign : Sign} {m : Nat} {e : Int} {hm : 0 < m}
    (h : UnpackedFloat.unpack Format.binary64 b = .finite sign m e hm) : m.log2 ≤ 52 ∧ e ≤ 971 := by
  have hbias : (Format.binary64.exponentBias : Int) = 1023 := rfl
  unfold UnpackedFloat.unpack at h
  dsimp only at h
  split at h
  · split at h <;> cases h
  · next hlast =>
    have hlt : (@unpackExponent Format.binary64 b).toNat < 2048 := BitVec.isLt _
    have hne : (@unpackExponent Format.binary64 b).toNat ≠ 2047 :=
      fun heq => hlast (BitVec.eq_of_toNat_eq heq)
    split at h
    · next hzero =>
      have hzero' : (@unpackExponent Format.binary64 b).toNat = 0 :=
        congrArg BitVec.toNat hzero
      split at h
      · cases h
      · cases h
        have hmlt := (@unpackMantissa Format.binary64 b).isLt
        refine ⟨log2_le_of_lt (Nat.lt_of_lt_of_le hmlt (by decide)), ?_⟩
        simp only [hbias, hzero']
        decide
    · cases h
      refine ⟨Nat.le_of_eq (log2_append_one _), ?_⟩
      simp only [hbias]
      omega

def parts (x : Float) : UnpackedFloat := x.toModel.unpack

theorem upTo_parts {x : Float} (h : (parts x).isFinite = true) : UpTo 971 (parts x) := by
  cases hx : parts x with
  | zero => trivial
  | finite => exact (unpack_bounds hx).2
  | infinity | notANumber =>
    rw [hx] at h
    cases h

theorem parts_mul (x y : Float) :
    parts (x * y) = packed (UnpackedFloat.mul Format.binary64 (parts x) (parts y)) :=
  rfl

theorem parts_div (x y : Float) :
    parts (x / y) = packed (UnpackedFloat.div Format.binary64 (parts x) (parts y)) :=
  rfl

theorem parts_neg (x : Float) : parts (-x) = packed (parts x).neg :=
  rfl

theorem isFinite_neg {x : Float} (h : (parts x).isFinite = true) :
    (parts (-x)).isFinite = true := by
  have hneg : UpTo 971 (parts x).neg := by
    obtain ⟨sign, hx⟩ | ⟨sign, m, e, hm, hx, he⟩ := (upTo_parts h).eq_zero_or
    · rw [hx]
      trivial
    · rw [hx]
      exact he
  rw [parts_neg]
  exact (upTo_packed (by decide) (by decide) hneg).isFinite

theorem isFinite_mul {x y : Float} (hx : (parts x).isFinite = true) (hy : (parts y).isFinite = true)
    (hinf : ¬(x * y).isInf = true) : (parts (x * y)).isFinite = true := by
  have hmul : (UnpackedFloat.mul Format.binary64 (parts x) (parts y)).isFinite = true := by
    obtain ⟨_, hx⟩ | ⟨_, _, _, _, hx, _⟩ := (upTo_parts hx).eq_zero_or <;>
      obtain ⟨_, hy⟩ | ⟨_, _, _, _, hy, _⟩ := (upTo_parts hy).eq_zero_or <;> rw [hx, hy]
    case inr.inr => exact isFinite_roundWithAccuracy _ _ _ _
    all_goals rfl
  exact (packed_cases hmul).resolve_right hinf

theorem upTo_mul {x y : Float} {high low high' : Int} (hx : UpTo high (parts x))
    (hy : Normal low high' (parts y)) (hlow : -1074 ≤ high + high' + 54)
    (hhigh : high + high' + 54 ≤ 971) : UpTo (high + high' + 54) (parts (x * y)) := by
  rw [parts_mul]
  refine upTo_packed hlow hhigh ?_
  obtain ⟨sign', m', e', hm', hyp, hm53', _, he'⟩ := hy.exists_eq
  obtain ⟨sign, hxp⟩ | ⟨sign, m, e, hm, hxp, he⟩ := hx.eq_zero_or
  · rw [hxp, hyp]
    trivial
  · have hm53 := (unpack_bounds hxp).1
    have hlog := log2_mul_le m m'
    rw [hxp, hyp]
    exact upTo_roundWithAccuracy (by omega) (by omega) hlow _

theorem upTo_div {x y : Float} {high low high' : Int} (hx : UpTo high (parts x))
    (hy : Normal low high' (parts y)) (hlow : -1074 ≤ high - low) (hhigh : high - low ≤ 971) :
    UpTo (high - low) (parts (x / y)) := by
  rw [parts_div]
  refine upTo_packed hlow hhigh ?_
  obtain ⟨sign', m', e', hm', hyp, hm53', he', _⟩ := hy.exists_eq
  obtain ⟨sign, hxp⟩ | ⟨sign, m, e, hm, hxp, he⟩ := hx.eq_zero_or
  · rw [hxp, hyp]
    trivial
  · have hm53 := (unpack_bounds hxp).1
    rw [hxp, hyp]
    simp only [UnpackedFloat.div, divCore]
    generalize hk : min (e - e') (Format.binary64.targetExponent
      (totalExponent m e - totalExponent m' e')) = target
    have htarget : target ≤ e - e' := by omega
    have hlog : (m <<< (e - e' - target).toNat / m').log2
        ≤ m.log2 + (e - e' - target).toNat - 52 := by
      have hdiv := log2_div_le (m <<< (e - e' - target).toNat) hm'
      rw [log2_shiftLeft (by omega)] at hdiv
      omega
    exact upTo_roundWithAccuracy (by omega) (by omega) hlow _

theorem upTo_ofUInt64 (n : UInt64) : UpTo 12 (parts n.toFloat) := by
  have hparts :
      parts n.toFloat = packed (UnpackedFloat.ofInt Format.binary64 (n.toNat : Int)) := rfl
  rw [hparts]
  refine upTo_packed (by decide) (by decide) ?_
  have hlt := n.toNat_lt
  unfold UnpackedFloat.ofInt UnpackedFloat.normalize
  split
  · next hneg => exact absurd (Int.compare_eq_lt.1 hneg) (by omega)
  · trivial
  · next hpos =>
    have hne : n.toNat ≠ 0 := by
      have := Int.compare_eq_gt.1 hpos
      omega
    have hlog : n.toNat.log2 ≤ 63 := log2_le_of_lt hlt
    simp only [UnpackedFloat.round, decreaseExponent, Int.toNat_natCast]
    refine upTo_roundWithAccuracy (by omega) ?_ (by decide) _
    rw [log2_shiftLeft hne]
    omega

theorem ofScientific_eq {n : Nat} (hn : n ≠ 0) {k : Nat} (hk : k ≤ 2048) :
    UnpackedFloat.ofScientific Format.binary64 n k
      = roundWithAccuracy Format.binary64 .positive ((n <<< 53) * 10 ^ k) (-53) .exact := by
  have hbits : (2 ^ Format.binary64.exponentBits : Int) = 2048 := rfl
  unfold UnpackedFloat.ofScientific
  rw [dif_neg hn, if_neg (by omega), if_neg (by omega), if_pos (by omega)]
  simp only [UnpackedFloat.mul, Int.toNat_natCast]
  rfl

theorem normal_one : Normal (-52) (-52) (parts Float.exactlyRepresentablePowersOfTen[0]) := by
  decide +kernel

theorem upTo_ofNat {n : Nat} (hn : n < 2 ^ 64) : UpTo 14 (parts (Float.ofNat n)) := by
  have hofNat : Float.ofNat n = Float.ofScientific n false 0 := rfl
  rw [hofNat, Float.ofScientific]
  split
  · exact upTo_mul (upTo_ofUInt64 _) normal_one (by decide) (by decide)
  · next hlarge =>
    have hne : n ≠ 0 := by
      rintro rfl
      exact hlarge (by decide)
    have hlog : (n <<< 53 * 10 ^ 0).log2 ≤ 63 + 53 := by
      rw [Nat.pow_zero, Nat.mul_one, log2_shiftLeft hne]
      exact Nat.add_le_add_right (log2_le_of_lt hn) 53
    refine upTo_packed (by decide) (by decide) ?_
    have hvalue := ofScientific_eq hne (k := 0) (by decide)
    exact hvalue ▸ upTo_roundWithAccuracy (by decide) (by omega) (by decide) _

-- The parts of a power of ten are not to be worked out where only their bounds are wanted.
attribute [irreducible] parts

theorem normal_powerOfTen_small : ∀ k < 23, Normal (-52) 971 (parts (Json.powerOfTen k)) := by
  decide +kernel

theorem normal_powerOfTen_last : Normal 971 971 (parts (Json.powerOfTen 308)) := by
  decide +kernel

theorem Normal.mono {low low' high : Int} {x : UnpackedFloat} (h : Normal low high x)
    (hle : low' ≤ low) : Normal low' high x := by
  cases x with
  | finite => exact ⟨h.1, Int.le_trans hle h.2.1, h.2.2⟩
  | zero | infinity | notANumber => exact h

theorem normal_powerOfTen {k : Nat} (hk : k ≤ 308) :
    Normal (-52) 971 (parts (Json.powerOfTen k)) := by
  by_cases hsmall : k < 23
  · exact normal_powerOfTen_small k hsmall
  by_cases hlast : k = 308
  · rw [hlast]
    exact Normal.mono normal_powerOfTen_last (by decide)
  · have hlog : (10 ^ k).log2 ≤ 1022 := by
      refine log2_le_of_lt (Nat.lt_of_le_of_lt (Nat.pow_le_pow_right (by decide) (?_ : k ≤ 307)) ?_)
      · omega
      · decide +kernel
    have hshift : (1 <<< 53 * 10 ^ k).log2 = (10 ^ k).log2 + 53 := by
      rw [← log2_shiftLeft (Nat.ne_of_gt (Nat.pow_pos (by decide))), Nat.shiftLeft_eq,
        Nat.shiftLeft_eq, Nat.one_mul, Nat.mul_comm]
    rw [Json.powerOfTen, Float.ofScientific, dif_neg (by omega), parts]
    refine normal_packed (by decide) (by decide) ?_
    have hvalue := ofScientific_eq (n := 1) (by decide) (k := k) (by omega)
    exact hvalue ▸ normal_roundWithAccuracy (by omega) (by decide) (by omega) (by omega) _

theorem upTo_divideByTens {x : Float} (hx : UpTo 100 (parts x)) (e : Nat) :
    (parts (Json.divideByTens x e)).isFinite = true := by
  induction e using Nat.strongRecOn generalizing x with
  | ind e ih =>
    rw [Json.divideByTens]
    split
    · next he => exact (upTo_div hx (normal_powerOfTen he) (by decide) (by decide)).isFinite
    · split
      · exact hx.isFinite
      · refine ih (e - 308) (by omega) ?_
        exact UpTo.mono (upTo_div hx normal_powerOfTen_last (by decide) (by decide)) (by decide)

theorem isFinite_scaled? {n : Nat} {e : Int} {x : Float} (h : Json.scaled? n e = some x) :
    (parts x).isFinite = true := by
  have hn := upTo_ofUInt64 n.toUInt64
  unfold Json.scaled? at h
  dsimp only at h
  split at h
  · split at h
    · next he =>
      split at h
      · cases h
      · next hinf =>
        cases h
        exact isFinite_mul hn.isFinite (normal_powerOfTen (by omega)).upTo.isFinite hinf
    · split at h
      · cases h
        exact hn.isFinite
      · cases h
  · cases h
    exact upTo_divideByTens (hn.mono (by decide)) _

theorem exponentField_ofFloat (x : Float) : (Binary64.ofFloat x).exponentField
    = (@unpackExponent Format.binary64 x.toModel.toBits.toBitVec).toNat := by
  have hmask : (0x7ff : UInt64).toNat = 2 ^ 11 - 1 := rfl
  have hshift : (52 : UInt64).toNat % 64 = 52 := rfl
  simp only [Binary64.exponentField, UInt64.toNat_and, UInt64.toNat_shiftRight, hmask, hshift,
    Nat.and_two_pow_sub_one_eq_mod, unpackExponent, BitVec.toNat_cast, BitVec.extractLsb_toNat]
  rfl

theorem isFinite_ofFloat {x : Float} (h : (parts x).isFinite = true) :
    (Binary64.ofFloat x).isFinite = true := by
  rw [Binary64.isFinite, exponentField_ofFloat, bne_iff_ne]
  intro hlast
  rw [parts, Float.Model.unpack] at h
  unfold UnpackedFloat.unpack at h
  dsimp only at h
  rw [if_pos (BitVec.eq_of_toNat_eq hlast)] at h
  split at h <;> cases h

theorem isFinite_ofInt {i : Int} (h : i.natAbs < 2 ^ 64) : (Binary64.ofInt i).isFinite = true := by
  have hnat := (upTo_ofNat h).isFinite
  unfold Binary64.ofInt
  split
  · exact isFinite_ofFloat (isFinite_neg hnat)
  · exact isFinite_ofFloat hnat

theorem isFinite_signed {x : Float} (h : (parts x).isFinite = true) (positive : Bool) :
    (Json.signed positive x).isFinite = true := by
  cases positive with
  | true => exact isFinite_ofFloat h
  | false => exact isFinite_ofFloat (isFinite_neg h)

theorem isFinite_zero : (parts 0).isFinite = true := by
  have hzero := upTo_ofNat (n := 0) (by decide)
  exact hzero.isFinite

/-- A number that is read has a finite value. -/
theorem isFinite_readNumber {positive : Bool} {s r : Bytes} {x : Json.Number}
    (h : Json.readNumber positive s = .ok (x, r)) : x.value.isFinite = true := by
  rcases Json.readNumber_cases h with hscaled | ⟨n, hn, hkept⟩
  · cases x with
    | double y =>
      obtain ⟨y, rfl, rfl | ⟨n, e, hy⟩⟩ := hscaled
      · exact isFinite_signed isFinite_zero positive
      · exact isFinite_signed (isFinite_scaled? hy) positive
    | unsigned | negative => exact absurd hscaled id
  · have hlt : n < 2 ^ 64 := Nat.lt_succ_of_le hn
    cases x with
    | unsigned k =>
      obtain rfl : k = n := hkept
      exact isFinite_ofInt (by simpa using hlt)
    | negative k =>
      obtain ⟨rfl, _⟩ := hkept
      exact isFinite_ofInt (by simpa using hlt)
    | double y =>
      obtain rfl : y = Json.signed false n.toUInt64.toFloat := hkept
      exact isFinite_signed (upTo_ofUInt64 _).isFinite false

end TenantGate
