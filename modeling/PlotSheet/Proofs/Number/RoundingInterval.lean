import PlotSheet.Number.Shortest
import PlotSheet.Proofs.Number.Packed

/-!
# Shortest decimals round to their number

The search for a shortest decimal compares natural numbers; what it compares are the decimal and the
ends of a rounding interval. It ends on some grid, since the grid of the last step is finer than a
quarter unit of the last place, and so has a point right below the number.

## Main definitions

* `RoundingInterval.Mem`: the real numbers of a rounding interval

## Main results

* `RoundingInterval.holds_iff`: the decimals that the search accepts
* `shortest_mem`: the shortest decimal of a number lies in its rounding interval
-/

namespace PlotSheet.Shortest

/-! ## Powers of two and of ten -/

theorem zpow_mul_pow_toNat {b : Rat} (hb : b ≠ 0) (z : Int) :
    b ^ z * b ^ (-z).toNat = b ^ z.toNat := by
  rw [← zpow_natCast b (-z).toNat, ← zpow_natCast b z.toNat, ← zpow_add₀ hb]
  congr 1
  omega

theorem ten_pow_le_two_pow {k j : Nat} (h : 10 * k ≤ 3 * j) : 10 ^ k ≤ 2 ^ j := by
  -- from 1000 ≤ 1024, by cubes
  apply (Nat.pow_le_pow_iff_left (n := 3) (by decide)).1
  calc (10 ^ k) ^ 3 = 1000 ^ k := by rw [← Nat.pow_mul, Nat.mul_comm, Nat.pow_mul]
    _ ≤ 1024 ^ k := Nat.pow_le_pow_left (by decide) k
    _ = 2 ^ (10 * k) := by rw [Nat.pow_mul]
    _ ≤ 2 ^ (3 * j) := Nat.pow_le_pow_right (by decide) h
    _ = (2 ^ j) ^ 3 := by rw [← Nat.pow_mul, Nat.mul_comm]

theorem two_pow_le_ten_pow {k j : Nat} (h : 28 * j ≤ 93 * k) : 2 ^ j ≤ 10 ^ k := by
  -- from 2 ^ 93 ≤ 10 ^ 28
  apply (Nat.pow_le_pow_iff_left (n := 28) (by decide)).1
  calc (2 ^ j) ^ 28 = 2 ^ (28 * j) := by rw [← Nat.pow_mul, Nat.mul_comm]
    _ ≤ 2 ^ (93 * k) := Nat.pow_le_pow_right (by decide) h
    _ = (2 ^ 93) ^ k := by rw [Nat.pow_mul]
    _ ≤ (10 ^ 28) ^ k := Nat.pow_le_pow_left (by decide) k
    _ = (10 ^ k) ^ 28 := by rw [← Nat.pow_mul, Nat.mul_comm, Nat.pow_mul]

namespace RoundingInterval

/-- The real numbers of a rounding interval. -/
def Mem (i : RoundingInterval) (x : Rat) : Prop :=
  if i.closed then i.lower * (2 : Rat) ^ i.exponent ≤ x ∧ x ≤ i.upper * (2 : Rat) ^ i.exponent
  else i.lower * (2 : Rat) ^ i.exponent < x ∧ x < i.upper * (2 : Rat) ^ i.exponent

theorem Mem.le {i : RoundingInterval} {x : Rat} (h : i.Mem x) :
    i.lower * (2 : Rat) ^ i.exponent ≤ x ∧ x ≤ i.upper * (2 : Rat) ^ i.exponent := by
  rw [Mem] at h
  split at h
  · exact h
  · exact ⟨h.1.le, h.2.le⟩

theorem Mem.of_lt {i : RoundingInterval} {x : Rat} (hlo : i.lower * (2 : Rat) ^ i.exponent < x)
    (hhi : x < i.upper * (2 : Rat) ^ i.exponent) : i.Mem x := by
  rw [Mem]
  split
  · exact ⟨hlo.le, hhi.le⟩
  · exact ⟨hlo, hhi⟩

theorem Mem.lt {i : RoundingInterval} {x : Rat} (h : i.Mem x) (hopen : ¬ i.closed = true) :
    i.lower * (2 : Rat) ^ i.exponent < x ∧ x < i.upper * (2 : Rat) ^ i.exponent := by
  rwa [Mem, if_neg hopen] at h

variable (i : RoundingInterval) (scale : Int)

/-- The units of the search are the two powers, multiplied by one number. -/
theorem exists_units_eq : ∃ k : Rat, 0 < k ∧ ((i.units scale).1 : Rat) = 2 ^ i.exponent * k ∧
    ((i.units scale).2 : Rat) = 10 ^ scale * k := by
  refine ⟨2 ^ (-i.exponent).toNat * 10 ^ (-scale).toNat, by positivity, ?_, ?_⟩
  · rw [← mul_assoc, zpow_mul_pow_toNat two_ne_zero]
    simp [units]
  · rw [mul_comm (2 ^ _), ← mul_assoc, zpow_mul_pow_toNat (by norm_num)]
    simp [units]

theorem mul_units_le_iff (a d : Nat) :
    a * (i.units scale).1 ≤ d * (i.units scale).2 ↔
      (a : Rat) * 2 ^ i.exponent ≤ d * 10 ^ scale := by
  obtain ⟨k, hk, htwo, hten⟩ := i.exists_units_eq scale
  rw [← Nat.cast_le (α := Rat), Nat.cast_mul, Nat.cast_mul, htwo, hten, ← mul_assoc, ← mul_assoc,
    mul_le_mul_iff_left₀ hk]

theorem units_mul_le_iff (a d : Nat) :
    d * (i.units scale).2 ≤ a * (i.units scale).1 ↔
      (d : Rat) * 10 ^ scale ≤ a * 2 ^ i.exponent := by
  obtain ⟨k, hk, htwo, hten⟩ := i.exists_units_eq scale
  rw [← Nat.cast_le (α := Rat), Nat.cast_mul, Nat.cast_mul, htwo, hten, ← mul_assoc, ← mul_assoc,
    mul_le_mul_iff_left₀ hk]

/-- The search accepts the decimals in the interval. -/
theorem holds_iff (digits : Nat) :
    i.holds scale digits = true ↔ i.Mem (digits * (10 : Rat) ^ scale) := by
  rw [holds, Mem]
  dsimp only
  split
  · rw [Bool.and_eq_true, decide_eq_true_eq, decide_eq_true_eq, mul_units_le_iff, units_mul_le_iff]
  · rw [Bool.and_eq_true, decide_eq_true_eq, decide_eq_true_eq, ← Nat.not_le, ← Nat.not_le,
      units_mul_le_iff, mul_units_le_iff, not_le, not_le]

/-! ## The search -/

variable {i scale}

theorem holds_of_nearestOnGrid? {digits : Nat} (h : i.nearestOnGrid? scale = some digits) :
    i.holds scale digits = true := by
  rw [nearestOnGrid?] at h
  dsimp only at h
  split at h
  · cases h
  · next hbelow _ => exact Option.some.inj h ▸ hbelow
  · next habove => exact Option.some.inj h ▸ habove
  · next hbelow habove =>
    split at h
    · exact Option.some.inj h ▸ hbelow
    · exact Option.some.inj h ▸ habove

/-- A grid that is finer than the distance of the value from the lower end has a point between the
two. -/
theorem nearestOnGrid?_isSome (hlower : i.lower + 1 ≤ i.value) (hupper : i.value < i.upper)
    (hfine : (i.units scale).2 ≤ (i.units scale).1) (hpos : 0 < (i.units scale).2) :
    (i.nearestOnGrid? scale).isSome = true := by
  have hholds : i.holds scale (i.value * (i.units scale).1 / (i.units scale).2) = true := by
    rw [holds]
    dsimp only
    have hvalue : (i.lower + 1) * (i.units scale).1 ≤ i.value * (i.units scale).1 :=
      Nat.mul_le_mul_right _ hlower
    have hunits : i.value * (i.units scale).1 < i.upper * (i.units scale).1 :=
      Nat.mul_lt_mul_of_pos_right hupper (Nat.lt_of_lt_of_le hpos hfine)
    generalize (i.units scale).1 = binary at *
    generalize (i.units scale).2 = decimal at *
    have hdiv := Nat.div_add_mod' (i.value * binary) decimal
    have hmod := Nat.mod_lt (i.value * binary) hpos
    rw [Nat.add_mul, Nat.one_mul] at hvalue
    generalize i.value * binary / decimal * decimal = point at *
    have hlo : i.lower * binary < point := by omega
    have hhi : point < i.upper * binary := by omega
    split
    · simp [Nat.le_of_lt hlo, Nat.le_of_lt hhi]
    · simp [hlo, hhi]
  rw [nearestOnGrid?]
  dsimp only
  rw [hholds]
  split
  · next h _ => cases h
  · rfl
  · rfl
  · split <;> rfl

/-- What the search finds is in the interval. -/
theorem holds_of_search {fuel digits : Nat} {found : Int}
    (h : i.search fuel scale = some (digits, found)) : i.holds found digits = true := by
  -- induction on the fuel: found on this grid, or on a finer one
  induction fuel generalizing scale with
  | zero => cases h
  | succ fuel ih =>
    rw [search] at h
    split at h
    · next hgrid =>
      obtain ⟨rfl, rfl⟩ := Prod.mk.inj (Option.some.inj h)
      exact holds_of_nearestOnGrid? hgrid
    · exact ih h

/-- The search ends on a grid if it does not run out before it. -/
theorem search_isSome {fuel k : Nat} (hk : k < fuel)
    (h : (i.nearestOnGrid? (scale - k)).isSome = true) : (i.search fuel scale).isSome = true := by
  induction fuel generalizing scale k with
  | zero => exact absurd hk (Nat.not_lt_zero k)
  | succ fuel ih =>
    rw [search]
    split
    · rfl
    · next hnone =>
      cases k with
      | zero =>
        rw [Int.natCast_zero, Int.sub_zero, hnone] at h
        cases h
      | succ k =>
        have hsub : scale - ((k + 1 : Nat) : Int) = scale - 1 - k := by omega
        rw [hsub] at h
        exact ih (Nat.lt_of_succ_lt_succ hk) h

end RoundingInterval

/-! ## The shortest decimal -/

/-- The grid of the last step is finer than a quarter unit of the last place. -/
theorem last_grid_fine {m : Nat} {e : Int} (h : Binary.IsCanonical m e) :
    ((RoundingInterval.around m e).units (scaleAbove m e - 21)).2 ≤
      ((RoundingInterval.around m e).units (scaleAbove m e - 21)).1 := by
  have hlog : m.log2 ≤ 52 := by
    have hlt : m < 2 ^ 53 := h.lt
    exact Nat.lt_succ_iff.1 ((Nat.log2_lt (Nat.pos_iff_ne_zero.1 h.pos)).2 hlt)
  have hleast := h.least
  have hgreatest := h.greatest
  simp only [Binary.leastExponent] at hleast
  have hscale : 100000 * (scaleAbove m e - 2) ≤ (m.log2 + 1 + e) * 30103 := by
    rw [scaleAbove]
    omega
  have hten : 10 ^ (scaleAbove m e - 21).toNat ≤ 2 ^ (e - 2).toNat :=
    ten_pow_le_two_pow (by omega)
  have htwo : 2 ^ (-(e - 2)).toNat ≤ 10 ^ (-(scaleAbove m e - 21)).toNat :=
    two_pow_le_ten_pow (by omega)
  exact Nat.mul_le_mul hten htwo

/-- The shortest decimal of a number lies in its rounding interval. -/
theorem shortest_mem {m : Nat} {e : Int} (h : Binary.IsCanonical m e) :
    (RoundingInterval.around m e).Mem ((shortest m e).1 * (10 : Rat) ^ (shortest m e).2) := by
  have hpos := h.pos
  have hlower : (RoundingInterval.around m e).lower + 1 ≤ (RoundingInterval.around m e).value := by
    simp only [RoundingInterval.around]
    split <;> omega
  have hupper : (RoundingInterval.around m e).value < (RoundingInterval.around m e).upper := by
    simp only [RoundingInterval.around]
    omega
  have hunit : 0 < ((RoundingInterval.around m e).units (scaleAbove m e - 21)).2 :=
    Nat.mul_pos (Nat.pow_pos (by decide)) (Nat.pow_pos (by decide))
  have hlast := RoundingInterval.nearestOnGrid?_isSome hlower hupper (last_grid_fine h) hunit
  have hfound := RoundingInterval.search_isSome (k := 21) (by decide : 21 < grids) hlast
  obtain ⟨⟨digits, scale⟩, hsearch⟩ := Option.isSome_iff_exists.1 hfound
  rw [shortest, hsearch, Option.getD_some, ← RoundingInterval.holds_iff]
  exact RoundingInterval.holds_of_search hsearch

end PlotSheet.Shortest
