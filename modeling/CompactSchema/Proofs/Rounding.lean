import CompactSchema.Number.Decimal

set_option autoImplicit false

/-!
# Rounding

A ratio between the midpoints around a finite number is rounded to that number. The shortest
decimal lies there, so that reading it gives the number back.
-/

namespace CompactSchema.Binary64

/-! ## Bits -/

theorem magnitude_ofMagnitude (negative : Bool) {m : Nat} (h : m < 2 ^ 63) :
    (ofMagnitude negative m).magnitude = m := by
  cases negative with
  | true =>
    simp only [magnitude, ofMagnitude, ↓reduceIte, UInt64.toNat_ofNat']
    omega
  | false =>
    simp only [magnitude, ofMagnitude, Bool.false_eq_true, ↓reduceIte, UInt64.toNat_ofNat']
    omega

theorem ofMagnitude_magnitude (x : Binary64) : ofMagnitude x.isNegative x.magnitude = x := by
  obtain ⟨bits⟩ := x
  have hbits := UInt64.toNat_lt bits
  have hsum : (if 2 ^ 63 ≤ bits.toNat then 2 ^ 63 else 0) + bits.toNat % 2 ^ 63 = bits.toNat := by
    split <;> omega
  simp only [ofMagnitude, isNegative, magnitude, decide_eq_true_eq]
  rw [hsum, UInt64.ofNat_toNat]

theorem isNaN_ofMagnitude (negative : Bool) {m : Nat} (h : m ≤ infinite) :
    (ofMagnitude negative m).isNaN = false := by
  have hm : infinite < 2 ^ 63 := by decide
  rw [isNaN, magnitude_ofMagnitude negative (by omega)]
  simpa using h

/-- Reading digits never gives what is not a number. -/
theorem isNaN_ofDecimal (negative : Bool) (coefficient : Nat) (exponent : Int) :
    (ofDecimal negative coefficient exponent).isNaN = false := by
  unfold ofDecimal
  split
  · exact isNaN_ofMagnitude negative (Nat.zero_le _)
  · split
    · exact isNaN_ofMagnitude negative (Nat.le_refl _)
    · split
      · exact isNaN_ofMagnitude negative (Nat.zero_le _)
      · exact isNaN_ofMagnitude negative (Nat.min_le_right _ _)

/-- Absolute value of a finite number in steps. -/
def mantissa (x : Binary64) : Nat :=
  if x.magnitude < 2 ^ 52 then x.magnitude % 2 ^ 52 else 2 ^ 52 + x.magnitude % 2 ^ 52

variable (x : Binary64)

theorem units_eq : x.units = x.mantissa * 2 ^ x.step := by
  unfold units mantissa
  split
  · next h =>
    have hstep : x.step = 0 := by
      unfold step
      omega
    rw [hstep, Nat.pow_zero, Nat.mul_one]
  · rfl

theorem magnitude_eq : x.magnitude = x.step * 2 ^ 52 + x.mantissa := by
  unfold mantissa step
  split <;> omega

theorem mantissa_lt : x.mantissa < 2 ^ 53 := by
  unfold mantissa
  split <;> omega

theorem mantissa_of_fraction (h : x.magnitude % 2 ^ 52 ≠ 0) (hs : x.step ≠ 0) :
    2 ^ 52 < x.mantissa := by
  unfold step at hs
  unfold mantissa
  split <;> omega

/-! ## Rounding to the nearest -/

/-- The whole number nearest to `n / d`, of two the even one. -/
def IsNearest (n d q : Nat) : Prop :=
  2 * (q * d) ≤ 2 * n + d ∧ 2 * n ≤ 2 * (q * d) + d ∧
    (q % 2 = 1 → 2 * (q * d) < 2 * n + d ∧ 2 * n < 2 * (q * d) + d)

theorem roundQuotient_eq {n d q : Nat} (hd : 0 < d) (h : IsNearest n d q) :
    roundQuotient n d = q := by
  obtain ⟨hlow, hhigh, hodd⟩ := h
  have hn := Nat.div_add_mod n d
  have hr := Nat.mod_lt n hd
  have hq : n / d = q ∨ n / d + 1 = q := by
    have hle : n / d < q + 1 := by
      refine Nat.lt_of_mul_lt_mul_right (a := d) ?_
      rw [Nat.add_mul, Nat.mul_comm (n / d)]
      omega
    have hge : q < n / d + 2 := by
      refine Nat.lt_of_mul_lt_mul_right (a := d) ?_
      rw [Nat.add_mul, Nat.mul_comm (n / d)]
      omega
    omega
  unfold roundQuotient
  generalize n / d = k at hn hq
  generalize n % d = r at hn hr
  rcases hq with rfl | rfl
  · rw [Nat.mul_comm] at hn
    dsimp only
    split
    · rfl
    · split <;> omega
  · rw [Nat.add_mul, ← Nat.mul_comm d k] at hlow hhigh hodd
    dsimp only
    split
    · omega
    · split <;> omega

theorem shift_eq {n d t : Nat} (hd : 0 < d) (hupper : n < 2 ^ 53 * (2 ^ t * d))
    (hlower : t = 0 ∨ 2 ^ 52 * (2 ^ t * d) ≤ n) : (n / d).log2 - 52 = t := by
  have hlt : n / d < 2 ^ (53 + t) := by
    rw [Nat.div_lt_iff_lt_mul hd, Nat.pow_add, Nat.mul_assoc]
    exact hupper
  by_cases hzero : n / d = 0
  · rcases hlower with rfl | hlower
    · rw [hzero, Nat.log2_zero]
    · have hge : 2 ^ (52 + t) ≤ n / d := by
        rw [Nat.le_div_iff_mul_le hd, Nat.pow_add, Nat.mul_assoc]
        exact hlower
      have hpos : 0 < 2 ^ (52 + t) := Nat.two_pow_pos _
      omega
  · have hlog : (n / d).log2 < 53 + t := (Nat.log2_lt hzero).mpr hlt
    rcases hlower with rfl | hlower
    · omega
    · have hge : 52 + t ≤ (n / d).log2 := by
        rw [Nat.le_log2 hzero, Nat.le_div_iff_mul_le hd, Nat.pow_add, Nat.mul_assoc]
        exact hlower
      omega

theorem ofRatio_eq (negative : Bool) {n d t q : Nat} (hd : 0 < d)
    (hupper : n * one < 2 ^ 53 * (2 ^ t * d)) (hlower : t = 0 ∨ 2 ^ 52 * (2 ^ t * d) ≤ n * one)
    (h : IsNearest (n * one) (2 ^ t * d) q) :
    ofRatio negative n d = ofMagnitude negative (min (t * 2 ^ 52 + q) infinite) := by
  have hgap : 0 < 2 ^ t * d := Nat.mul_pos (Nat.two_pow_pos t) hd
  have hround : roundQuotient (n * one) (2 ^ t * d) = q := roundQuotient_eq hgap h
  simp only [ofRatio]
  rw [shift_eq hd hupper hlower, Nat.mul_comm d, hround]

/-- `p / d` quarters of a unit lie between the midpoints around `x`; on them when the bits of `x`
    are even. -/
def Near (p d : Nat) : Prop :=
  (4 * x.units - x.gapBelow) * d ≤ p ∧ p ≤ (4 * x.units + 2 * 2 ^ x.step) * d ∧
    (x.magnitude % 2 = 1 →
      (4 * x.units - x.gapBelow) * d < p ∧ p < (4 * x.units + 2 * 2 ^ x.step) * d)

theorem top_eq (d : Nat) : (4 * x.units + 2 * 2 ^ x.step) * d =
    4 * (x.mantissa * (2 ^ x.step * d)) + 2 * (2 ^ x.step * d) := by
  rw [units_eq, Nat.add_mul, Nat.mul_assoc, Nat.mul_assoc, Nat.mul_assoc]

theorem bottom_eq (d : Nat) : (4 * x.units - x.gapBelow) * d =
    4 * (x.mantissa * (2 ^ x.step * d)) - x.gapBelow * d := by
  rw [units_eq, Nat.sub_mul, Nat.mul_assoc, Nat.mul_assoc]

variable {x}

/-- What lies between the midpoints, not below the least number with the step of `x`. -/
theorem ofRatio_of_inside {n d : Nat} (negative : Bool) (hd : 0 < d) (h : x.Near (4 * (n * one)) d)
    (hstep : x.step = 0 ∨ 2 ^ 52 * (2 ^ x.step * d) ≤ n * one) :
    ofRatio negative n d = ofMagnitude negative (min x.magnitude infinite) := by
  obtain ⟨hbelow, habove, hodd⟩ := h
  have hmant := mantissa_lt x
  have hpos : 0 < 2 ^ x.step * d := Nat.mul_pos (Nat.two_pow_pos _) hd
  have hwide : x.mantissa * (2 ^ x.step * d) ≤ (2 ^ 53 - 1) * (2 ^ x.step * d) :=
    Nat.mul_le_mul_right _ (by omega)
  have hgap : x.gapBelow * d ≤ 2 * (2 ^ x.step * d) := by
    rw [← Nat.mul_assoc]
    refine Nat.mul_le_mul_right d ?_
    unfold gapBelow
    split <;> omega
  have hparity : x.magnitude % 2 = x.mantissa % 2 := by
    rw [magnitude_eq]
    omega
  -- from here on all is linear in the quarters `2 ^ step * d` and `mantissa * (2 ^ step * d)`
  rw [top_eq] at habove hodd
  rw [bottom_eq] at hbelow hodd
  rw [magnitude_eq]
  rw [hparity] at hodd
  refine ofRatio_eq negative hd ?_ hstep ⟨?_, ?_, fun h => ?_⟩
  · omega
  · omega
  · omega
  · have hstrict := hodd h
    omega

theorem mantissa_of_below {n d : Nat} (hd : 0 < d) (h : x.Near (4 * (n * one)) d) (hstep : x.step ≠ 0)
    (hbelow : n * one < 2 ^ 52 * (2 ^ x.step * d)) :
    x.mantissa = 2 ^ 52 ∧ x.gapBelow = 2 ^ x.step := by
  have hpos : 0 < 2 ^ x.step * d := Nat.mul_pos (Nat.two_pow_pos _) hd
  have hlow := h.1
  rw [bottom_eq] at hlow
  by_cases hf : x.magnitude % 2 ^ 52 = 0
  · refine ⟨?_, if_pos ⟨hf, hstep⟩⟩
    unfold step at hstep
    unfold mantissa
    split <;> omega
  · have hgap : x.gapBelow = 2 * 2 ^ x.step := if_neg fun h => hf h.1
    have hmant := mantissa_of_fraction x hf hstep
    have hwide : (2 ^ 52 + 1) * (2 ^ x.step * d) ≤ x.mantissa * (2 ^ x.step * d) :=
      Nat.mul_le_mul_right _ hmant
    rw [hgap, Nat.mul_assoc] at hlow
    omega

/-- What lies between the midpoints and below the least number with the step of `x`, which is
    `x` then: the distance to the number below is half a step. -/
theorem ofRatio_of_below {n d t : Nat} (negative : Bool) (hd : 0 < d) (h : x.Near (4 * (n * one)) d)
    (hstep : x.step = t + 1) (hbelow : n * one < 2 ^ 52 * (2 ^ x.step * d)) :
    ofRatio negative n d = ofMagnitude negative (min x.magnitude infinite) := by
  obtain ⟨hmant, hgap⟩ := mantissa_of_below hd h (by omega) hbelow
  have hlow := h.1
  have hpos : 0 < 2 ^ t * d := Nat.mul_pos (Nat.two_pow_pos _) hd
  have hhalf : 2 ^ x.step * d = 2 * (2 ^ t * d) := by
    rw [hstep, Nat.pow_succ, Nat.mul_comm (2 ^ t), Nat.mul_assoc]
  rw [bottom_eq, hgap, hmant, hhalf] at hlow
  rw [hhalf] at hbelow
  have hmag : x.magnitude = t * 2 ^ 52 + 2 ^ 53 := by
    rw [magnitude_eq, hmant, hstep]
    omega
  rw [hmag]
  refine ofRatio_eq negative hd ?_ (.inr ?_) ⟨?_, ?_, fun h => absurd h (by decide)⟩
  · omega
  · omega
  · omega
  · omega

/-- What lies between the midpoints is rounded to the number. -/
theorem ofRatio_of_near {n d : Nat} (hx : x.isFinite = true) (hd : 0 < d)
    (h : x.Near (4 * (n * one)) d) : ofRatio x.isNegative n d = x := by
  have hfinite : x.magnitude < infinite := by simpa [isFinite] using hx
  have hmin : min x.magnitude infinite = x.magnitude := Nat.min_eq_left (Nat.le_of_lt hfinite)
  have hround : ofRatio x.isNegative n d = ofMagnitude x.isNegative (min x.magnitude infinite) := by
    by_cases hstep : x.step = 0
    · exact ofRatio_of_inside _ hd h (.inl hstep)
    · rcases Nat.lt_or_ge (n * one) (2 ^ 52 * (2 ^ x.step * d)) with hbelow | hinside
      · obtain ⟨t, ht⟩ := Nat.exists_eq_succ_of_ne_zero hstep
        exact ofRatio_of_below _ hd h ht hbelow
      · exact ofRatio_of_inside _ hd h (.inr hinside)
  rw [hround, hmin, ofMagnitude_magnitude]

/-! ## Decimals -/

theorem ofDecimal_of_near {coefficient : Nat} {exponent : Int} (hx : x.isFinite = true)
    (hc : coefficient ≠ 0) (hlow : -400 ≤ exponent) (hhigh : exponent ≤ 400)
    (h : x.Near (coefficient * (10 ^ exponent.toNat * (4 * one))) (10 ^ (-exponent).toNat)) :
    ofDecimal x.isNegative coefficient exponent = x := by
  have hquarters : coefficient * (10 ^ exponent.toNat * (4 * one)) =
      4 * (coefficient * 10 ^ exponent.toNat * one) := by
    rw [Nat.mul_assoc, Nat.mul_left_comm 4, Nat.mul_left_comm 4]
  rw [hquarters] at h
  unfold ofDecimal
  rw [if_neg hc, if_neg (by omega), if_neg (by omega)]
  exact ofRatio_of_near hx (Nat.pow_pos (by decide)) h

theorem ofDecimal_zero (exponent : Int) (h : x.units = 0) : ofDecimal x.isNegative 0 exponent = x := by
  have hzero : x.magnitude = 0 := by
    unfold units at h
    dsimp only at h
    split at h
    · omega
    · have hpos : 0 < (2 ^ 52 + x.magnitude % 2 ^ 52) * 2 ^ x.step :=
        Nat.mul_pos (by omega) (Nat.two_pow_pos _)
      omega
  unfold ofDecimal
  rw [if_pos rfl, ← hzero, ofMagnitude_magnitude]

theorem hits_iff {p scale : Nat} : x.hits scale p = true ↔ x.Near p scale := by
  simp only [hits, Near]
  split
  · next h =>
    rw [decide_eq_true_eq]
    constructor
    · rintro ⟨hlow, hhigh⟩
      exact ⟨hlow, hhigh, fun hodd => by omega⟩
    · rintro ⟨hlow, hhigh, -⟩
      exact ⟨hlow, hhigh⟩
  · next h =>
    rw [decide_eq_true_eq]
    constructor
    · rintro ⟨hlow, hhigh⟩
      exact ⟨Nat.le_of_lt hlow, Nat.le_of_lt hhigh, fun _ => ⟨hlow, hhigh⟩⟩
    · rintro ⟨-, -, hodd⟩
      exact hodd (by omega)

theorem nearestMultiple_eq (tie : Tie) (value grid : Nat) :
    nearestMultiple tie value grid = value / grid ∨
      nearestMultiple tie value grid = value / grid + 1 := by
  unfold nearestMultiple
  dsimp only
  split
  · exact .inl rfl
  · exact .inr rfl
  · split
    · exact .inr rfl
    · omega

theorem near_of_onGrid? {tie : Tie} {exponent : Int} {d : Decimal}
    (h : x.onGrid? tie exponent = some d) : d.exponent = exponent ∧
      x.Near (d.coefficient * (10 ^ exponent.toNat * (4 * one))) (10 ^ (-exponent).toNat) := by
  simp only [onGrid?] at h
  split at h
  · exact absurd h (by simp)
  · next hbelow _ =>
    obtain rfl := Option.some.inj h
    exact ⟨rfl, hits_iff.mp hbelow⟩
  · next _ habove =>
    obtain rfl := Option.some.inj h
    exact ⟨rfl, hits_iff.mp habove⟩
  · next hbelow habove =>
    obtain rfl := Option.some.inj h
    refine ⟨rfl, ?_⟩
    dsimp only
    rcases nearestMultiple_eq tie (4 * x.units * 10 ^ (-exponent).toNat)
      (10 ^ exponent.toNat * (4 * one)) with heq | heq
    · rw [heq]
      exact hits_iff.mp hbelow
    · rw [heq]
      exact hits_iff.mp habove

theorem one_pos : 0 < one := by
  unfold one
  generalize 1074 = n
  exact Nat.two_pow_pos n

theorem four_mul_one : ∃ k, k = 1076 ∧ 4 * one = 2 ^ k := by
  refine ⟨1074 + 2, rfl, ?_⟩
  unfold one
  generalize 1074 = n
  rw [Nat.pow_add, Nat.mul_comm]

/-- On a grid finer than half a step a point above `x` is read back. -/
theorem onGrid?_ne_none (tie : Tie) {exponent : Int}
    (h : 10 ^ exponent.toNat * (4 * one) < 2 * 2 ^ x.step * 10 ^ (-exponent).toNat) :
    x.onGrid? tie exponent ≠ none := by
  have hgrid : 0 < 10 ^ exponent.toNat * (4 * one) :=
    Nat.mul_pos (Nat.pow_pos (by decide)) (Nat.mul_pos (by decide) one_pos)
  simp only [onGrid?]
  generalize 10 ^ exponent.toNat * (4 * one) = grid at *
  generalize 10 ^ (-exponent).toNat = scale at *
  have hdiv := Nat.div_add_mod (4 * x.units * scale) grid
  have hmod := Nat.mod_lt (4 * x.units * scale) hgrid
  have hhit : x.hits scale ((4 * x.units * scale / grid + 1) * grid) = true := by
    rw [hits_iff]
    have hnext : (4 * x.units * scale / grid + 1) * grid =
        grid * (4 * x.units * scale / grid) + grid := by
      rw [Nat.add_mul, Nat.one_mul, Nat.mul_comm grid]
    have hlow : (4 * x.units - x.gapBelow) * scale ≤ 4 * x.units * scale :=
      Nat.mul_le_mul_right scale (Nat.sub_le _ _)
    have hhigh : (4 * x.units + 2 * 2 ^ x.step) * scale =
        4 * x.units * scale + 2 * 2 ^ x.step * scale := Nat.add_mul _ _ _
    rw [Near, hnext, hhigh]
    refine ⟨by omega, by omega, fun _ => ⟨by omega, by omega⟩⟩
  rw [hhit]
  split <;> simp_all

theorem coarsest_spec (tie : Tie) {n k : Nat} {exponent : Int} (hk : k < n)
    (h : x.onGrid? tie (exponent - k) ≠ none) :
    ∃ e, exponent - n < e ∧ e ≤ exponent ∧ x.onGrid? tie e = some (coarsest tie x n exponent) := by
  induction n generalizing k exponent with
  | zero => omega
  | succ n ih =>
    unfold coarsest
    cases hd : x.onGrid? tie exponent with
    | some d => exact ⟨exponent, by omega, by omega, hd⟩
    | none =>
      cases k with
      | zero => exact absurd (by simpa using hd) h
      | succ k =>
        have hnext : exponent - (k + 1 : Nat) = exponent - 1 - k := by omega
        rw [hnext] at h
        obtain ⟨e, hlow, hhigh, he⟩ := ih (by omega) h
        exact ⟨e, by omega, by omega, he⟩

/-- Ten is less than `2 ^ (10 / 3)`. -/
theorem ten_pow_mul_lt {e k s : Nat} (h : 10 * ((e + 2) / 3) + k < s) : 10 ^ e * 2 ^ k < 2 ^ s := by
  have hthousand : 10 ^ 3 ≤ 2 ^ 10 := by decide
  have hten : 10 ^ e ≤ 2 ^ (10 * ((e + 2) / 3)) := by
    calc 10 ^ e ≤ 10 ^ (3 * ((e + 2) / 3)) := Nat.pow_le_pow_right (by decide) (by omega)
      _ = (10 ^ 3) ^ ((e + 2) / 3) := Nat.pow_mul _ _ _
      _ ≤ (2 ^ 10) ^ ((e + 2) / 3) := Nat.pow_le_pow_left hthousand _
      _ = 2 ^ (10 * ((e + 2) / 3)) := (Nat.pow_mul _ _ _).symm
  calc 10 ^ e * 2 ^ k ≤ 2 ^ (10 * ((e + 2) / 3)) * 2 ^ k := Nat.mul_le_mul_right _ hten
    _ = 2 ^ (10 * ((e + 2) / 3) + k) := (Nat.pow_add _ _ _).symm
    _ < 2 ^ s := Nat.pow_lt_pow_right (by decide) h

/-- Ten is more than `2 ^ (33 / 10)`. -/
theorem lt_mul_ten_pow {e k s : Nat} (h : k < s + (33 * (e / 10) + 3 * (e % 10))) :
    2 ^ k < 2 ^ s * 10 ^ e := by
  have hlarge : 2 ^ 33 ≤ 10 ^ 10 := by decide
  have hsmall : 2 ^ 3 ≤ 10 := by decide
  have hten : 2 ^ (33 * (e / 10) + 3 * (e % 10)) ≤ 10 ^ e := by
    calc 2 ^ (33 * (e / 10) + 3 * (e % 10)) = (2 ^ 33) ^ (e / 10) * (2 ^ 3) ^ (e % 10) := by
          rw [Nat.pow_add, Nat.pow_mul, Nat.pow_mul]
      _ ≤ (10 ^ 10) ^ (e / 10) * 10 ^ (e % 10) :=
          Nat.mul_le_mul (Nat.pow_le_pow_left hlarge _) (Nat.pow_le_pow_left hsmall _)
      _ = 10 ^ (10 * (e / 10) + e % 10) := by rw [Nat.pow_add, Nat.pow_mul]
      _ = 10 ^ e := by rw [Nat.div_add_mod]
  calc 2 ^ k < 2 ^ (s + (33 * (e / 10) + 3 * (e % 10))) := Nat.pow_lt_pow_right (by decide) h
    _ = 2 ^ s * 2 ^ (33 * (e / 10) + 3 * (e % 10)) := Nat.pow_add _ _ _
    _ ≤ 2 ^ s * 10 ^ e := Nat.mul_le_mul_left _ hten

theorem log2_units_le (x : Binary64) : x.units.log2 ≤ 52 + x.step := by
  by_cases hzero : x.units = 0
  · rw [hzero, Nat.log2_zero]
    omega
  · have hlt : x.units < 2 ^ (53 + x.step) := by
      rw [units_eq, Nat.pow_add]
      exact Nat.mul_lt_mul_of_pos_right (mantissa_lt x) (Nat.two_pow_pos _)
    have hlog := (Nat.log2_lt hzero).mpr hlt
    omega

theorem step_le (hx : x.isFinite = true) : x.step ≤ 2045 := by
  simp only [isFinite, decide_eq_true_eq] at hx
  unfold infinite at hx
  unfold step
  omega

/-- Zero is no decimal for a number that has units. -/
theorem coefficient_ne_zero {c grid scale : Nat} (h : x.units ≠ 0)
    (hnear : x.Near (c * grid) (10 ^ scale)) : c ≠ 0 := by
  rintro rfl
  have hlow := hnear.1
  have hscale : 0 < 10 ^ scale := Nat.pow_pos (by decide)
  have hbottom : 0 < 4 * x.units - x.gapBelow := by
    have hunits := units_eq x
    have hpow : 0 < 2 ^ x.step := Nat.two_pow_pos _
    have hgap : x.gapBelow ≤ 2 * 2 ^ x.step := by
      unfold gapBelow
      split <;> omega
    have hmant : 2 ^ x.step ≤ x.units := by
      rw [hunits]
      refine Nat.le_mul_of_pos_left _ (Nat.pos_of_ne_zero fun hm => h ?_)
      rw [hunits, hm, Nat.zero_mul]
    omega
  have hpos := Nat.mul_pos hbottom hscale
  omega

/-- The last place that the search reaches is far behind the digits of `x`. -/
theorem fine_grid {exponent : Int} (hx : x.isFinite = true)
    (h : exponent = (((x.units.log2 : Int) - 1074 + 1) * 30103) / 100000 - 28) :
    10 ^ exponent.toNat * (4 * one) < 2 * 2 ^ x.step * 10 ^ (-exponent).toNat := by
  have hlog := log2_units_le x
  have hstep := step_le hx
  have hdouble : 2 * 2 ^ x.step = 2 ^ (x.step + 1) := by rw [Nat.pow_succ, Nat.mul_comm]
  obtain ⟨k, hk, hquarters⟩ := four_mul_one
  rw [hquarters, hdouble]
  rcases Int.lt_or_le exponent 0 with hneg | hpos
  · have hzero : exponent.toNat = 0 := by omega
    rw [hzero, Nat.pow_zero, Nat.one_mul]
    exact lt_mul_ten_pow (by omega)
  · have hzero : (-exponent).toNat = 0 := by omega
    rw [hzero, Nat.pow_zero, Nat.mul_one]
    exact ten_pow_mul_lt (by omega)

theorem shortest_onGrid? (tie : Tie) (hx : x.isFinite = true) (h : x.units ≠ 0) :
    ∃ e, -400 ≤ e ∧ e ≤ 400 ∧ x.onGrid? tie e = some (x.shortest tie) := by
  have hlog := log2_units_le x
  have hstep := step_le hx
  have hdiv : (((x.units.log2 : Int) - 1074 + 1) * 30103).fdiv 100000 =
      (((x.units.log2 : Int) - 1074 + 1) * 30103) / 100000 :=
    Int.fdiv_eq_ediv_of_nonneg _ (by decide)
  have hfine := onGrid?_ne_none tie (fine_grid hx rfl)
  simp only [shortest, if_neg h, hdiv]
  have hlast : ∀ e : Int, e - 28 = e + 1 - (29 : Nat) := by omega
  rw [hlast] at hfine
  obtain ⟨e, hlow, hhigh, he⟩ := coarsest_spec tie (by decide : 29 < 30) hfine
  exact ⟨e, by omega, by omega, he⟩

/-- A decimal number between the midpoints around `x`, of a size that is rounded at all. -/
structure Shows (x : Binary64) (d : Decimal) : Prop where
  coefficient_ne_zero : d.coefficient ≠ 0
  le_exponent : -400 ≤ d.exponent
  exponent_le : d.exponent ≤ 400
  near : x.Near (d.coefficient * (10 ^ d.exponent.toNat * (4 * one))) (10 ^ (-d.exponent).toNat)

theorem shows_shortest (tie : Tie) (hx : x.isFinite = true) (h : x.units ≠ 0) :
    x.Shows (x.shortest tie) := by
  obtain ⟨e, hlow, hhigh, he⟩ := shortest_onGrid? tie hx h
  obtain ⟨rfl, hnear⟩ := near_of_onGrid? he
  exact ⟨coefficient_ne_zero h hnear, hlow, hhigh, hnear⟩

theorem ofDecimal_of_shows {d : Decimal} (hx : x.isFinite = true) (h : x.Shows d) :
    ofDecimal x.isNegative d.coefficient d.exponent = x :=
  ofDecimal_of_near hx h.coefficient_ne_zero h.le_exponent h.exponent_le h.near

/-- The shortest decimal is read back as the number. -/
theorem ofDecimal_shortest (tie : Tie) (hx : x.isFinite = true) :
    ofDecimal x.isNegative (x.shortest tie).coefficient (x.shortest tie).exponent = x := by
  by_cases hzero : x.units = 0
  · rw [shortest, if_pos hzero]
    exact ofDecimal_zero 0 hzero
  · exact ofDecimal_of_shows hx (shows_shortest tie hx hzero)

/-- Zeros in place of a positive exponent do not matter. -/
theorem shows_of_zeros {d : Decimal} (h : x.Shows d) (he : 0 ≤ d.exponent) :
    x.Shows ⟨d.coefficient * 10 ^ d.exponent.toNat, 0⟩ := by
  have hzero : (-d.exponent).toNat = 0 := by omega
  have hnear := h.near
  rw [hzero, ← Nat.mul_assoc] at hnear
  refine ⟨?_, by simp, by simp, ?_⟩
  · exact Nat.mul_ne_zero h.coefficient_ne_zero (Nat.ne_of_gt (Nat.pow_pos (by decide)))
  · rw [Int.toNat_zero, Nat.pow_zero, Nat.one_mul]
    exact hnear

theorem near_self {scale : Nat} (h : x.units ≠ 0) (hscale : 0 < scale) :
    x.Near (4 * x.units * scale) scale := by
  have hpow : 0 < 2 ^ x.step := Nat.two_pow_pos _
  have hgap : 0 < x.gapBelow := by
    unfold gapBelow
    split <;> omega
  have hlow : (4 * x.units - x.gapBelow) * scale < 4 * x.units * scale :=
    Nat.mul_lt_mul_of_pos_right (by omega) hscale
  have hhigh : 4 * x.units * scale < (4 * x.units + 2 * 2 ^ x.step) * scale :=
    Nat.mul_lt_mul_of_pos_right (by omega) hscale
  exact ⟨Nat.le_of_lt hlow, Nat.le_of_lt hhigh, fun _ => ⟨hlow, hhigh⟩⟩

/-- A whole number with a zero behind its point is read back. -/
theorem ofDecimal_whole {w : Nat} (hx : x.isFinite = true) (h : x.units = w * one) :
    ofDecimal x.isNegative (10 * w) (-1) = x := by
  by_cases hzero : x.units = 0
  · have hw : w = 0 := by
      have hone := one_pos
      rcases Nat.mul_eq_zero.mp (h ▸ hzero) with hw | hw
      · exact hw
      · omega
    rw [hw]
    exact ofDecimal_zero (-1) hzero
  · have hw : w ≠ 0 := by
      rintro rfl
      exact hzero (by rw [h, Nat.zero_mul])
    have hten : 10 * w * (10 ^ (-1 : Int).toNat * (4 * one)) = 4 * x.units * 10 ^ 1 := by
      have hexponent : (-1 : Int).toNat = 0 := rfl
      rw [h, hexponent]
      generalize one = u
      rw [Nat.pow_zero, Nat.pow_one, Nat.one_mul]
      grind
    refine ofDecimal_of_near hx (by omega) (by decide) (by decide) ?_
    rw [hten]
    exact near_self hzero (by decide)

end CompactSchema.Binary64
