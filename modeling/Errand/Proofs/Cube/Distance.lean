/-
Distances: floats that can be compared.

A distance is computed in floats: coordinates are rounded, subtracted, squared, summed and rooted. No step leaves the
numbers. A coordinate is far below overflow (`Moderate`), so no difference is one infinity minus another; the square of
a number is not negative, no sum of such is, and no root of one (`sign?_distance`). On numbers that are not negative the
order of floats is that of a rank in a linear order, so distances are totally preordered (`distance_total`,
`distance_trans`) whatever was rounded on the way.
-/
import Mathlib
import Errand.Cube

namespace Errand

namespace Binary

open Float.Model Float.Model.UnpackedFloat

/-! ## Signs -/

/-- the sign of a number; there is none of what is no number -/
def sign? : UnpackedFloat → Option Sign
  | .notANumber => none
  | .infinity s | .zero s | .finite s _ _ _ => some s

section

variable {spec : Format} {s : Sign} {f g : UnpackedFloat}

/-- all exponents but the last stand for numbers -/
theorem sign?_unpack {e : BitVec spec.exponentBits} {m : BitVec spec.mantissaBitsWithoutImplicit}
    (h : e = -1#_ → m = 0#_) : sign? (UnpackedFloat.unpack spec (packComponents spec s e m)) = some s := by
  simp only [UnpackedFloat.unpack, unpackMantissa_packComponents, unpackExponent_packComponents,
    unpackSign_packComponents, Sign.ofBitVec_toBitVec]
  split
  · rw [if_pos (h ‹_›)]
    rfl
  · split
    · split <;> rfl
    · rfl

theorem ofNat_ne_neg_one {w n : Nat} (h : n + 1 < 2 ^ w) : BitVec.ofNat w n ≠ -1#_ := by
  intro he
  have hn := congrArg BitVec.toNat he
  simp only [BitVec.neg_one_eq_allOnes, BitVec.toNat_allOnes, BitVec.toNat_ofNat] at hn
  rw [Nat.mod_eq_of_lt (by omega)] at hn
  omega

theorem sign?_unpack_pack (h : sign? f = some s) :
    sign? (UnpackedFloat.unpack spec (UnpackedFloat.pack spec f)) = some s := by
  cases f with
  | notANumber => cases h
  | infinity t | zero t =>
    cases h
    exact sign?_unpack fun _ => rfl
  | finite t m e hm =>
    cases h
    simp only [UnpackedFloat.pack]
    split
    · exact sign?_unpack fun _ => rfl
    · split
      · exact sign?_unpack fun h => absurd h (ofNat_ne_neg_one (by omega))
      · exact sign?_unpack fun h => absurd h (ofNat_ne_neg_one (Nat.one_lt_two_pow spec.he.ne'))

theorem sign?_roundWithAccuracy (m : Nat) (e : Int) (a : Accuracy) :
    sign? (roundWithAccuracy spec s m e a) = some s := by
  simp only [roundWithAccuracy]
  split <;> rfl

theorem sign?_normalize (m : Int) (e : Int) :
    ∃ s, sign? (UnpackedFloat.normalize spec m e .positive) = some s ∧ (0 ≤ m → s = .positive) := by
  unfold UnpackedFloat.normalize
  split
  · rename_i hneg
    exact ⟨_, sign?_roundWithAccuracy .., fun hm => absurd (Std.compare_eq_lt.1 hneg) (Int.not_lt.2 hm)⟩
  · exact ⟨_, rfl, fun _ => rfl⟩
  · exact ⟨_, sign?_roundWithAccuracy .., fun _ => rfl⟩

/-- a difference is a number, unless both are infinite -/
theorem sign?_sub (hf : f.isFinite = true) (hg : g.isFinite = true) :
    ∃ s, sign? (UnpackedFloat.sub spec f g) = some s := by
  cases f <;> cases hf <;> cases g <;> cases hg
  case finite.refl.finite.refl =>
    obtain ⟨s, hs, -⟩ := sign?_normalize ..
    exact ⟨s, hs⟩
  case zero.refl.zero.refl =>
    simp only [UnpackedFloat.sub]
    split <;> exact ⟨_, rfl⟩
  all_goals exact ⟨_, rfl⟩

theorem sign?_mul_self (h : sign? f = some s) : sign? (UnpackedFloat.mul spec f f) = some .positive := by
  have hs : s * s = .positive := by cases s <;> rfl
  rw [← hs]
  cases f with
  | notANumber => cases h
  | infinity t | zero t =>
    cases h
    rfl
  | finite t m e hm =>
    cases h
    exact sign?_roundWithAccuracy ..

theorem sign?_add (hf : sign? f = some .positive) (hg : sign? g = some .positive) :
    sign? (UnpackedFloat.add spec f g) = some .positive := by
  cases f <;> cases hf <;> cases g <;> cases hg
  case finite.refl.finite.refl =>
    obtain ⟨s, hs, hpos⟩ := sign?_normalize ..
    exact hs.trans (congrArg some (hpos (Int.add_nonneg (Int.natCast_nonneg _) (Int.natCast_nonneg _))))
  all_goals rfl

theorem sign?_sqrt (hf : sign? f = some .positive) : sign? (UnpackedFloat.sqrt spec f) = some .positive := by
  cases f <;> cases hf
  case finite.refl => exact sign?_roundWithAccuracy ..
  all_goals rfl

end

/-! ## Coordinates -/

/-- far below overflow, which would be at an exponent of 972 -/
def Moderate : UnpackedFloat → Prop
  | .zero _ => True
  | .finite _ _ e _ => e ≤ 900
  | .infinity _ | .notANumber => False

section

variable {s : Sign} {f : UnpackedFloat} {m : Nat} {e : Int}

theorem Moderate.isFinite (h : Moderate f) : f.isFinite = true := by
  cases f <;> first | rfl | cases h

theorem Moderate.neg (h : Moderate f) : Moderate f.neg := by
  cases f <;> exact h

theorem moderate_unpack {e : BitVec 11} {m : BitVec 52} (h : e.toNat ≤ 1975) :
    Moderate (UnpackedFloat.unpack .binary64 (packComponents .binary64 s e m)) := by
  have hbias : Format.binary64.exponentBias = 1023 := rfl
  simp only [UnpackedFloat.unpack, unpackMantissa_packComponents, unpackExponent_packComponents, hbias]
  rw [if_neg (by rintro rfl; exact absurd h (by decide))]
  split
  · rename_i hzero
    split
    · trivial
    · simp only [Moderate, hzero]
      decide
  · simp only [Moderate]
    omega

theorem Moderate.unpack_pack (h : Moderate f) :
    Moderate (UnpackedFloat.unpack .binary64 (UnpackedFloat.pack .binary64 f)) := by
  cases f with
  | notANumber | infinity => cases h
  | zero s => exact moderate_unpack (by decide)
  | finite s m e hm =>
    have he : e ≤ 900 := h
    have hbias : Format.binary64.exponentBias = 1023 := rfl
    simp only [UnpackedFloat.pack, hbias]
    split
    · omega
    · split
      · exact moderate_unpack ((BitVec.toNat_ofNat ..).trans_le ((Nat.mod_le ..).trans (by omega)))
      · exact moderate_unpack (by decide)

theorem mantissa_shift_le (em : ExtendedMantissa) (n : Nat) : (em >>> n).mantissa ≤ em.mantissa := by
  change (n.repeat ExtendedMantissa.shiftRightOne em).mantissa ≤ em.mantissa
  induction n with
  | zero => exact Nat.le_refl _
  | succ n ih => exact (Nat.div_le_self ..).trans ih

theorem roundedMantissa_le (em : ExtendedMantissa) : em.roundedMantissa ≤ em.mantissa + 1 := by
  unfold ExtendedMantissa.roundedMantissa Accuracy.roundToNearestEven
  split <;> omega

theorem targetExponent_eq (t : Int) : Format.binary64.targetExponent t = max (t - 53) (-1074) := rfl

/-- shifting never makes the mantissa larger, and raises the exponent no further than the mantissa is long -/
theorem shiftToTargetExponent_le (k : Nat) (a : Accuracy) (hm : m < 2 ^ (k + 1)) :
    (shiftToTargetExponent .binary64 m e a).1.mantissa ≤ m ∧
      (shiftToTargetExponent .binary64 m e a).2 ≤ max e (max (k + e - 52) (-1074)) := by
  have hlog : m.log2 ≤ k := by
    by_cases hzero : m = 0
    · rw [hzero]
      exact Nat.zero_le k
    · exact Nat.le_of_lt_succ ((Nat.log2_lt hzero).2 hm)
  have hmantissa : (ExtendedMantissa.ofMantissaAndAccuracy m a).mantissa = m := by
    unfold ExtendedMantissa.ofMantissaAndAccuracy
    split <;> rfl
  constructor
  · exact (mantissa_shift_le ..).trans hmantissa.le
  · simp only [shiftToTargetExponent, shiftToExponent, targetExponent_eq, totalExponent]
    omega

theorem moderate_roundWithAccuracy (a : Accuracy) (hm : m < 2 ^ 120) (he : e ≤ 0) :
    Moderate (roundWithAccuracy .binary64 s m e a) := by
  -- the second shift starts where the first one ended, from a mantissa that was rounded up at most
  obtain ⟨hm₁, he₁⟩ := shiftToTargetExponent_le (e := e) 119 a hm
  have hround := roundedMantissa_le (shiftToTargetExponent .binary64 m e a).1
  obtain ⟨-, he₂⟩ := shiftToTargetExponent_le (e := (shiftToTargetExponent .binary64 m e a).2) 120 .exact
    ((hround.trans (Nat.succ_le_succ hm₁)).trans_lt (by omega))
  simp only [roundWithAccuracy]
  split
  · trivial
  · simp only [Moderate]
    omega

theorem moderate_ofNat {n : Nat} (h : n < 2 ^ 64) : Moderate (UnpackedFloat.ofNat .binary64 n) := by
  unfold UnpackedFloat.ofNat UnpackedFloat.ofInt UnpackedFloat.normalize
  split
  · rename_i hneg
    exact absurd (Std.compare_eq_lt.1 hneg) (Int.not_lt.2 (Int.natCast_nonneg n))
  · trivial
  · have htotal : 0 ≤ totalExponent n 0 := by
      unfold totalExponent
      omega
    simp only [UnpackedFloat.round, decreaseExponent, targetExponent_eq, Int.toNat_natCast, Nat.shiftLeft_eq]
    refine moderate_roundWithAccuracy _ ?_ (by omega)
    calc n * 2 ^ _ ≤ n * 2 ^ 53 := Nat.mul_le_mul_left n (Nat.pow_le_pow_right (by decide) (by omega))
      _ < 2 ^ 120 := by omega

end

/-! ## Order -/

/-- larger floats are of higher rank: by class, then by exponent, then by mantissa -/
def rank : UnpackedFloat → ℕ ×ₗ ℤ ×ₗ ℕ
  | .zero _ | .notANumber => toLex (0, toLex (0, 0))
  | .finite _ m e _ => toLex (1, toLex (e, m))
  | .infinity _ => toLex (2, toLex (0, 0))

theorem le_iff_rank_le {f g : UnpackedFloat} (hf : sign? f = some .positive) (hg : sign? g = some .positive) :
    f.le g = true ↔ rank f ≤ rank g := by
  cases f <;> cases hf <;> cases g <;> cases hg
  case finite.refl.finite.refl m e _ m' e' _ =>
    simp only [UnpackedFloat.le, UnpackedFloat.compare, rank, Option.any_some, Prod.Lex.toLex_le_toLex]
    rw [Ordering.isLE_then_iff_and, Std.isLE_compare, Std.isLE_compare, Std.compare_eq_lt]
    grind
  all_goals simp [UnpackedFloat.le, UnpackedFloat.compare, rank, Prod.Lex.toLex_le_toLex, compare]

end Binary

namespace Cube

open Float.Model Binary

theorem moderate_toFloat (c : Int64) : Moderate (toFloat c).toModel.unpack := by
  have hsize : Moderate (c.toInt.natAbs.toUInt64.toFloat).toModel.unpack :=
    (moderate_ofNat (UInt64.toNat_lt _)).unpack_pack
  unfold toFloat
  split
  · exact hsize.neg.unpack_pack
  · exact hsize

theorem sign?_square (a b : Int64) :
    sign? ((toFloat a - toFloat b) * (toFloat a - toFloat b)).toModel.unpack = some .positive := by
  obtain ⟨s, hs⟩ := sign?_sub (moderate_toFloat a).isFinite (moderate_toFloat b).isFinite
  exact sign?_unpack_pack (sign?_mul_self (sign?_unpack_pack hs))

/-- **A distance is a number**, and not a negative one -/
theorem sign?_distance (a b : Cube) : sign? (a.distance b).toModel.unpack = some .positive :=
  sign?_unpack_pack (sign?_sqrt (sign?_unpack_pack (sign?_add
    (sign?_unpack_pack (sign?_add (sign?_square a.x b.x) (sign?_square a.y b.y))) (sign?_square a.z b.z))))

theorem distance_le_iff {a b c d : Cube} :
    a.distance b ≤ c.distance d ↔ rank (a.distance b).toModel.unpack ≤ rank (c.distance d).toModel.unpack := by
  rw [← le_iff_rank_le (sign?_distance a b) (sign?_distance c d)]
  exact decide_eq_true_iff

theorem distance_total (a b c d : Cube) : a.distance b ≤ c.distance d ∨ c.distance d ≤ a.distance b := by
  simp only [distance_le_iff]
  exact le_total _ _

theorem distance_trans {a b c d e f : Cube} (h : a.distance b ≤ c.distance d) (h' : c.distance d ≤ e.distance f) :
    a.distance b ≤ e.distance f := by
  rw [distance_le_iff] at h h' ⊢
  exact h.trans h'

end Cube

end Errand
