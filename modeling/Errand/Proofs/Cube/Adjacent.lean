/-
Neighbours: the cubes that share a face, measured over the exact integers.

A neighbour is only listed if its coordinate fits its word, and nothing wraps: in a grid without ends there are six places
next to a cube, and the list has the cubes at those of them that words can tell (`adjacent_eq`). So the neighbours of a
cube are exactly the cubes at a Manhattan distance of one (`mem_adjacent`), each listed once. Of a cube and its neighbour
the one that is nearer to a goal on the straight line is nearer along the axes too, by one step
(`squaredDistance_lt_iff`); and short of the goal there is always a neighbour that is nearer (`exists_nearer`).
-/
import Errand.Cube
import Errand.Width
import Mathlib.Tactic

namespace Errand

/-- an integer is held by the word that stands for it, if there is one -/
theorem toInt64?_eq_some {i : Int} {x : Int64} : toInt64? i = some x ↔ x.toInt = i := by
  have hle := x.le_toInt
  have hlt := x.toInt_lt
  simp only [toInt64?, fitsInt64, Int64.toInt_minValue, Int64.toInt_maxValue, Bool.and_eq_true, decide_eq_true_eq]
  split
  · rw [Option.some.injEq, ← Int64.toInt_inj, Int64.toInt_ofInt_of_le (by omega) (by omega), eq_comm]
  · exact iff_of_false nofun (by omega)

theorem toInt64?_toInt (x : Int64) : toInt64? x.toInt = some x := toInt64?_eq_some.2 rfl

namespace Cube

variable {c n p q : Cube} {x y : Int64}

/-! ## Coordinates -/

theorem ext_toInt {a b : Cube} : a = b ↔ a.x.toInt = b.x.toInt ∧ a.y.toInt = b.y.toInt ∧ a.z.toInt = b.z.toInt := by
  rw [Int64.toInt_inj, Int64.toInt_inj, Int64.toInt_inj, Cube.mk.injEq]

theorem below?_eq (x : Int64) : below? x = toInt64? (x.toInt - 1) := by
  ext y
  rw [toInt64?_eq_some]
  have hy := y.le_toInt
  by_cases hx : x = Int64.minValue
  · subst hx
    rw [below?, if_pos rfl, Int64.toInt_minValue]
    exact iff_of_false nofun (by omega)
  · have hlow : x.toInt ≠ -2 ^ 63 := fun h => hx (Int64.toInt_inj.1 (h.trans Int64.toInt_minValue.symm))
    have hle := x.le_toInt
    have hlt := x.toInt_lt
    have hexact : (x - 1).toInt = x.toInt - 1 := by
      rw [Int64.toInt_sub, Int64.toInt_one]
      exact Int.bmod_eq_of_le (by omega) (by omega)
    rw [below?, if_neg hx, Option.some.injEq, ← hexact, Int64.toInt_inj, eq_comm]

theorem above?_eq (x : Int64) : above? x = toInt64? (x.toInt + 1) := by
  ext y
  rw [toInt64?_eq_some]
  have hy := y.toInt_lt
  by_cases hx : x = Int64.maxValue
  · subst hx
    rw [above?, if_pos rfl, Int64.toInt_maxValue]
    exact iff_of_false nofun (by omega)
  · have hhigh : x.toInt ≠ 2 ^ 63 - 1 := fun h => hx (Int64.toInt_inj.1 (h.trans Int64.toInt_maxValue.symm))
    have hle := x.le_toInt
    have hlt := x.toInt_lt
    have hexact : (x + 1).toInt = x.toInt + 1 := by
      rw [Int64.toInt_add, Int64.toInt_one]
      exact Int.bmod_eq_of_le (by omega) (by omega)
    rw [above?, if_neg hx, Option.some.injEq, ← hexact, Int64.toInt_inj, eq_comm]

theorem manhattan_self (c : Cube) : c.manhattan c = 0 := by
  unfold manhattan
  omega

theorem manhattan_eq_zero : c.manhattan q = 0 ↔ c = q := by
  rw [ext_toInt]
  unfold manhattan
  omega

/-! ## Places -/

/-- where the cube is in a grid without ends -/
def place (c : Cube) : Int × Int × Int := (c.x.toInt, c.y.toInt, c.z.toInt)

/-- the cube at a place, if each of its coordinates fits its word -/
def at? : Int × Int × Int → Option Cube
  | (x, y, z) => do return ⟨← toInt64? x, ← toInt64? y, ← toInt64? z⟩

/-- the step across each of the six faces: down and up in x, then in y, then in z -/
def faces : List (Int × Int × Int) := [(-1, 0, 0), (1, 0, 0), (0, -1, 0), (0, 1, 0), (0, 0, -1), (0, 0, 1)]

theorem at?_eq_some {s : Int × Int × Int} : at? s = some c ↔ c.place = s := by
  obtain ⟨x, y, z⟩ := s
  obtain ⟨cx, cy, cz⟩ := c
  simp [at?, place, toInt64?_eq_some, Option.bind_eq_some_iff]

/-! ## Neighbours -/

/-- **The neighbours are the cubes at the six places next to this one**, in the order of the faces; a place beyond the
words is left out -/
theorem adjacent_eq (c : Cube) : c.adjacent = (faces.map (c.place + ·)).filterMap at? := by
  have hfaces : (faces.map (c.place + ·)).map at? =
      [(below? c.x).map ({ c with x := · }), (above? c.x).map ({ c with x := · }),
       (below? c.y).map ({ c with y := · }), (above? c.y).map ({ c with y := · }),
       (below? c.z).map ({ c with z := · }), (above? c.z).map ({ c with z := · })] := by
    simp only [faces, place, List.map_cons, List.map_nil, Prod.mk_add_mk, add_zero, at?, toInt64?_toInt, below?_eq,
      above?_eq, sub_eq_add_neg, Option.map_eq_bind]
    rfl
  rw [adjacent, ← hfaces, List.filterMap_map]
  rfl

/-- at the end of two axes a cube has four neighbours -/
example : (⟨Int64.maxValue, 0, Int64.minValue⟩ : Cube).adjacent =
    [⟨Int64.maxValue - 1, 0, Int64.minValue⟩, ⟨Int64.maxValue, -1, Int64.minValue⟩,
      ⟨Int64.maxValue, 1, Int64.minValue⟩, ⟨Int64.maxValue, 0, Int64.minValue + 1⟩] := by decide

theorem mem_adjacent_iff_place : n ∈ c.adjacent ↔ ∃ step ∈ faces, n.place = c.place + step := by
  simp only [adjacent_eq, List.mem_filterMap, List.mem_map, at?_eq_some, exists_exists_and_eq_and]

/-- **The neighbours of a cube are the cubes one step away**: all of them that there are, and no wrapped one -/
theorem mem_adjacent : n ∈ c.adjacent ↔ c.manhattan n = 1 := by
  simp only [mem_adjacent_iff_place, faces, place, List.mem_cons, List.not_mem_nil, or_false, exists_eq_or_imp,
    exists_eq_left, Prod.mk_add_mk, Prod.mk.injEq, add_zero, manhattan]
  constructor
  · rintro (h | h | h | h | h | h) <;> omega
  · -- the gaps add up to one, so two of them are nothing
    intro h
    by_cases hx : n.x.toInt = c.x.toInt
    · by_cases hy : n.y.toInt = c.y.toInt
      · have hz : n.z.toInt = c.z.toInt + -1 ∨ n.z.toInt = c.z.toInt + 1 := by omega
        rcases hz with hz | hz <;> simp [hx, hy, hz]
      · have hz : n.z.toInt = c.z.toInt := by omega
        have hy : n.y.toInt = c.y.toInt + -1 ∨ n.y.toInt = c.y.toInt + 1 := by omega
        rcases hy with hy | hy <;> simp [hx, hy, hz]
    · have hyz : n.y.toInt = c.y.toInt ∧ n.z.toInt = c.z.toInt := by omega
      have hx : n.x.toInt = c.x.toInt + -1 ∨ n.x.toInt = c.x.toInt + 1 := by omega
      rcases hx with hx | hx <;> simp [hyz, hx]

theorem ne_of_mem_adjacent (h : n ∈ c.adjacent) : n ≠ c := by
  rintro rfl
  rw [mem_adjacent, manhattan_self] at h
  cases h

theorem nodup_adjacent (c : Cube) : c.adjacent.Nodup := by
  rw [adjacent_eq]
  have hplaces : (faces.map (c.place + ·)).Nodup := List.Nodup.map (add_right_injective c.place) (by decide)
  refine List.Nodup.filterMap (fun s t n hs ht => ?_) hplaces
  exact (at?_eq_some.1 hs).symm.trans (at?_eq_some.1 ht)

theorem length_adjacent_le (c : Cube) : c.adjacent.length ≤ 6 := List.length_filterMap_le _ _

/-! ## Ways -/

theorem natAbs_triangle (a b c : Int) : (a - c).natAbs ≤ (a - b).natAbs + (b - c).natAbs := by omega

theorem manhattan_triangle (p c q : Cube) : p.manhattan q ≤ p.manhattan c + c.manhattan q := by
  have hx := natAbs_triangle p.x.toInt c.x.toInt q.x.toInt
  have hy := natAbs_triangle p.y.toInt c.y.toInt q.y.toInt
  have hz := natAbs_triangle p.z.toInt c.z.toInt q.z.toInt
  calc p.manhattan q ≤ _ := Nat.add_le_add (Nat.add_le_add hx hy) hz
    _ = p.manhattan c + c.manhattan q := by
      unfold manhattan
      ring

/-- the cube is on a shortest way from one cube to another -/
def Between (p c q : Cube) : Prop := p.manhattan c + c.manhattan q = p.manhattan q

/-- then it is so along every axis -/
theorem Between.axes (h : p.Between c q) :
    (p.x.toInt - c.x.toInt).natAbs + (c.x.toInt - q.x.toInt).natAbs = (p.x.toInt - q.x.toInt).natAbs ∧
    (p.y.toInt - c.y.toInt).natAbs + (c.y.toInt - q.y.toInt).natAbs = (p.y.toInt - q.y.toInt).natAbs ∧
    (p.z.toInt - c.z.toInt).natAbs + (c.z.toInt - q.z.toInt).natAbs = (p.z.toInt - q.z.toInt).natAbs := by
  have hx := natAbs_triangle p.x.toInt c.x.toInt q.x.toInt
  have hy := natAbs_triangle p.y.toInt c.y.toInt q.y.toInt
  have hz := natAbs_triangle p.z.toInt c.z.toInt q.z.toInt
  unfold Between manhattan at h
  omega

/-- a step that comes nearer to the goal leads on along a shortest way -/
theorem Between.next (h : p.Between c q) (hstep : c.manhattan n = 1) (hn : n.manhattan q + 1 = c.manhattan q) :
    p.Between n q ∧ p.manhattan n = p.manhattan c + 1 := by
  have hfar := manhattan_triangle p n q
  have hnear := manhattan_triangle p c n
  unfold Between at h ⊢
  omega

/-- a neighbour is nearer on the straight line just if it is so along the axes, and then by one -/
theorem squaredDistance_lt_iff (h : c.manhattan n = 1) :
    n.squaredDistance q < c.squaredDistance q ↔ n.manhattan q + 1 = c.manhattan q := by
  have hcases : (n.y = c.y ∧ n.z = c.z) ∨ (n.x = c.x ∧ n.z = c.z) ∨ (n.x = c.x ∧ n.y = c.y) := by
    simp only [← Int64.toInt_inj]
    unfold manhattan at h
    omega
  unfold manhattan at h ⊢
  unfold squaredDistance
  obtain ⟨hy, hz⟩ | ⟨hx, hz⟩ | ⟨hx, hy⟩ := hcases
  · rw [hy, hz] at h ⊢
    rw [Nat.add_lt_add_iff_right, Nat.add_lt_add_iff_right, Nat.mul_self_lt_mul_self_iff]
    omega
  · rw [hx, hz] at h ⊢
    rw [Nat.add_lt_add_iff_right, Nat.add_lt_add_iff_left, Nat.mul_self_lt_mul_self_iff]
    omega
  · rw [hx, hy] at h ⊢
    rw [Nat.add_lt_add_iff_left, Nat.mul_self_lt_mul_self_iff]
    omega

/-- a coordinate that is not yet the goal has a next one on the way there -/
theorem exists_toward (h : x ≠ y) : ∃ v : Int64, (x.toInt - v.toInt).natAbs = 1 ∧
    (v.toInt - y.toInt).natAbs + 1 = (x.toInt - y.toInt).natAbs := by
  have hne : x.toInt ≠ y.toInt := fun he => h (Int64.toInt_inj.1 he)
  have hxl := x.le_toInt
  have hxr := x.toInt_lt
  have hyl := y.le_toInt
  have hyr := y.toInt_lt
  obtain hlt | hgt := Int.lt_or_gt_of_ne hne
  · refine ⟨Int64.ofInt (x.toInt + 1), ?_⟩
    rw [Int64.toInt_ofInt_of_le (by omega) (by omega)]
    omega
  · refine ⟨Int64.ofInt (x.toInt - 1), ?_⟩
    rw [Int64.toInt_ofInt_of_le (by omega) (by omega)]
    omega

/-- as long as there is a way to go, a step can be made on a shortest way -/
theorem exists_nearer (h : c ≠ q) : ∃ n, c.manhattan n = 1 ∧ n.manhattan q + 1 = c.manhattan q := by
  unfold manhattan
  by_cases hx : c.x = q.x
  · by_cases hy : c.y = q.y
    · have hz : c.z ≠ q.z := fun hz => h (by cases c; cases q; simp_all)
      obtain ⟨v, hv⟩ := exists_toward hz
      exact ⟨{ c with z := v }, by simp only []; omega⟩
    · obtain ⟨v, hv⟩ := exists_toward hy
      exact ⟨{ c with y := v }, by simp only []; omega⟩
  · obtain ⟨v, hv⟩ := exists_toward hx
    exact ⟨{ c with x := v }, by simp only []; omega⟩

end Cube

end Errand
