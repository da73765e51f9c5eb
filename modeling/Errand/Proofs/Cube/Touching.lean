/-
Touching: cubes that are one or share a face, as a sum of words tells them.

Whether two cubes touch is decided without a list of neighbours: the gaps along the axes are added up as words. A gap is
exact, also where it is too large for a word with a sign (`toNat_gap`). A sum of three may be too large for any word, and
stops at the largest one (`toNat_sum_gaps`); that is far beyond one step, so nothing is taken for near that is not
(`touches_iff_manhattan_le`). The list of neighbours is made by other means, one coordinate at a time, and comes to the
same (`touches_exact`).
-/
import Errand.Proofs.Cube.Adjacent

namespace Errand

namespace Cube

variable {a b : Cube} {x y : Int64}

/-! ## Words -/

/-- without its sign a coordinate is counted on from the words below zero -/
theorem natCast_toNat_toUInt64 (x : Int64) : (x.toUInt64.toNat : Int) = x.toInt % 2 ^ 64 := by
  have hlt := x.toUInt64.toNat_lt
  rw [← Int64.toInt_toBitVec, BitVec.toInt_eq_toNat_cond, Int64.toNat_toBitVec]
  omega

/-- the word from one coordinate up to another is exact, though either of them may be negative -/
theorem toNat_sub_toUInt64 (h : x.toInt ≤ y.toInt) : ((y.toUInt64 - x.toUInt64).toNat : Int) = y.toInt - x.toInt := by
  have hxcast := natCast_toNat_toUInt64 x
  have hycast := natCast_toNat_toUInt64 y
  have hx := x.le_toInt
  have hy := y.toInt_lt
  rw [UInt64.toNat_sub]
  omega

/-- **A gap is the exact difference of two coordinates** -/
theorem toNat_gap (x y : Int64) : (gap x y).toNat = (x.toInt - y.toInt).natAbs := by
  by_cases hle : x ≤ y
  · have hup := toNat_sub_toUInt64 (Int64.le_iff_toInt_le.1 hle)
    rw [gap, if_pos hle]
    omega
  · have hdown := toNat_sub_toUInt64 (le_of_not_ge (mt Int64.le_iff_toInt_le.2 hle))
    rw [gap, if_neg hle]
    omega

theorem toNat_saturatingAdd (u v : UInt64) : (saturatingAdd u v).toNat = min (u.toNat + v.toNat) (2 ^ 64 - 1) := by
  have hu := u.toNat_lt
  have hv := v.toNat_lt
  have hlargest : (UInt64.ofNat (UInt64.size - 1)).toNat = 2 ^ 64 - 1 := rfl
  -- a sum is below one of its summands just if it has wrapped
  have hwraps : u + v < u ↔ 2 ^ 64 ≤ u.toNat + v.toNat := by
    rw [UInt64.lt_iff_toNat_lt, UInt64.toNat_add]
    omega
  by_cases h : u + v < u
  · have hlarge := hwraps.1 h
    rw [saturatingAdd, if_pos h, hlargest]
    omega
  · have hsmall := mt hwraps.2 h
    rw [saturatingAdd, if_neg h, UInt64.toNat_add]
    omega

/-- the gaps add up to the distance along the axes, as far as words reach -/
theorem toNat_sum_gaps (a b : Cube) :
    (saturatingAdd (saturatingAdd (gap a.x b.x) (gap a.y b.y)) (gap a.z b.z)).toNat =
      min (a.manhattan b) (2 ^ 64 - 1) := by
  rw [toNat_saturatingAdd, toNat_saturatingAdd, toNat_gap, toNat_gap, toNat_gap, manhattan]
  omega

/-! ## Touching -/

theorem manhattan_comm (a b : Cube) : a.manhattan b = b.manhattan a := by
  unfold manhattan
  omega

theorem touches_iff_manhattan_le : a.touches b = true ↔ a.manhattan b ≤ 1 := by
  rw [touches, decide_eq_true_iff, UInt64.le_iff_toNat_le, toNat_sum_gaps, UInt64.toNat_one]
  omega

theorem touches_comm (a b : Cube) : a.touches b = b.touches a := by
  rw [Bool.eq_iff_iff, touches_iff_manhattan_le, touches_iff_manhattan_le, manhattan_comm]

theorem touches_iff_mem_adjacent : a.touches b = true ↔ a = b ∨ b ∈ a.adjacent := by
  rw [touches_iff_manhattan_le, Nat.le_one_iff_eq_zero_or_eq_one, manhattan_eq_zero, mem_adjacent]

/-- **Two cubes touch exactly if they are one or neighbours.** Both are the same as a distance of at most one step along
the axes, over the exact integers, and so are symmetric; this holds for all coordinates, also at the ends of the words.
The neighbours of a cube are listed once each and without the cube itself, and each lies one exact step across a face of
it, so that no coordinate has wrapped. -/
theorem touches_exact (a b : Cube) :
    (a.touches b = true ↔ a = b ∨ b ∈ a.adjacent) ∧ (a.touches b = true ↔ a.manhattan b ≤ 1) ∧
    a.touches b = b.touches a ∧
    a.adjacent.Nodup ∧ a ∉ a.adjacent ∧ ∀ n ∈ a.adjacent, ∃ step ∈ faces, n.place = a.place + step := by
  refine ⟨touches_iff_mem_adjacent, touches_iff_manhattan_le, touches_comm a b, a.nodup_adjacent, fun h => ?_,
    fun n hn => mem_adjacent_iff_place.1 hn⟩
  exact ne_of_mem_adjacent h rfl

/-- at a corner of the coordinates, with the opposite one further away than a word can tell, and one step back -/
theorem touches_exact_corner :
    let corner : Cube := ⟨Int64.maxValue, 0, Int64.minValue⟩
    let opposite : Cube := ⟨Int64.minValue, 0, Int64.maxValue⟩
    let back : Cube := ⟨Int64.maxValue - 1, 0, Int64.minValue⟩
    corner.manhattan opposite = 2 * (2 ^ 64 - 1) ∧ corner.touches opposite = false ∧ opposite ∉ corner.adjacent ∧
      back ∈ corner.adjacent ∧ ∃ step ∈ faces, back.place = corner.place + step := by
  intro corner opposite back
  obtain ⟨hlisted, hnear, -, -, -, hsteps⟩ := touches_exact corner opposite
  have hfar : corner.manhattan opposite = 2 * (2 ^ 64 - 1) := by decide
  have hapart : ¬ corner.touches opposite = true := by
    rw [hnear, hfar]
    decide
  have hback : back ∈ corner.adjacent := by decide
  exact ⟨hfar, Bool.eq_false_iff.2 hapart, fun h => hapart (hlisted.2 (.inr h)), hback, hsteps back hback⟩

end Cube

end Errand
