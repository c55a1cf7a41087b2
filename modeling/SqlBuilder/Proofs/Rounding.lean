import Mathlib.Tactic.Ring
import SqlBuilder.Number.Shortest

/-!
# Rounding of whole numbers

A whole number is read as the double nearest to it. The doubles above two to the
53 are whole numbers themselves, and the numbers that are read as one of them are
those around it up to half the way to its neighbours; the ends belong to it if its
significand is even. The reader finds the double from the number, and the test of
the printer the numbers from the double; here they are shown to agree.

* `BinaryFormat.roundHalfEven_eq_iff` — what a quotient is rounded to;
* `Finite64.IsNear` — the whole numbers around a double;
* `Finite64.readsBack_iff` — the test finds these;
* `Finite64.isNear_of_ofInt`, `Finite64.ofInt_of_isNear` — and these are read as the
  double;
* `Finite64.exists_ofInt` — the double that a number is read as.
-/

namespace SqlBuilder

namespace BinaryFormat

/-- A quotient is rounded to an integer that is at most one half away, and to an odd
one only if it is less. -/
theorem roundHalfEven_eq_iff {num den q : Nat} (hden : 0 < den) :
    roundHalfEven num den = q ↔
      2 * (q * den) ≤ 2 * num + den ∧ 2 * num ≤ 2 * (q * den) + den ∧
        (q % 2 = 1 → 2 * (q * den) ≠ 2 * num + den ∧ 2 * num ≠ 2 * (q * den) + den) := by
  have hnum : num / den * den + num % den = num := Nat.div_add_mod' num den
  have hrest : num % den < den := Nat.mod_lt num hden
  -- the multiple of the divisor next to that of the quotient, on either side
  have hsucc : (num / den + 1) * den = num / den * den + den := Nat.succ_mul _ _
  unfold roundHalfEven
  simp only
  generalize num / den = down at *
  generalize num % den = rest at *
  rcases Nat.lt_trichotomy q down with hq | rfl | hq
  · have hle : (q + 1) * den ≤ down * den := Nat.mul_le_mul_right den hq
    rw [Nat.succ_mul] at hle
    split <;> omega
  · split <;> omega
  · obtain rfl | hq : q = down + 1 ∨ down + 2 ≤ q := by omega
    · split <;> omega
    · have hle : (down + 2) * den ≤ q * den := Nat.mul_le_mul_right den hq
      rw [Nat.succ_mul, hsucc] at hle
      split <;> omega

/-- A common factor does not change the rounded quotient. -/
theorem roundHalfEven_mul_right {num den k : Nat} (hk : 0 < k) :
    roundHalfEven (num * k) (den * k) = roundHalfEven num den := by
  have hiff : ∀ a b : Nat,
      (2 * (a * k) < b * k ↔ 2 * a < b) ∧ (2 * (a * k) = b * k ↔ 2 * a = b) := by
    intro a b
    rw [← Nat.mul_assoc]
    exact ⟨Nat.mul_lt_mul_right hk, Nat.mul_left_inj hk.ne'⟩
  unfold roundHalfEven
  simp only [Nat.mul_div_mul_right _ _ hk, Nat.mul_mod_mul_right, (hiff _ _).1, (hiff _ _).2]

/-- The power of two of the first bit of a scaled number. -/
theorem log2_mul_two_pow {m : Nat} (hm : m ≠ 0) (k : Nat) : (m * 2 ^ k).log2 = m.log2 + k := by
  have hpow : 0 < 2 ^ k := Nat.two_pow_pos k
  obtain ⟨hlow, hhigh⟩ := (Nat.log2_eq_iff hm).mp rfl
  refine (Nat.log2_eq_iff (Nat.mul_ne_zero hm hpow.ne')).mpr ⟨?_, ?_⟩
  · rw [Nat.pow_add]
    exact Nat.mul_le_mul_right _ hlow
  · rw [Nat.add_right_comm, Nat.pow_add]
    exact Nat.mul_lt_mul_of_pos_right hhigh hpow

variable {f : BinaryFormat} {m u : Nat}

/-- A whole number with at least as many bits as a significand is rounded at the
bits behind these. If that gives one bit more, the scale takes it up. -/
theorem nearest_of_log2 (hm : m ≠ 0) (hlog : m.log2 + 1 = f.bits + u) :
    f.nearest m 1
      = if roundHalfEven m (2 ^ u) = 2 ^ f.bits then
          if f.unit + u + 1 ≤ f.mostScale then some (2 ^ (f.bits - 1), f.unit + u + 1) else none
        else if f.unit + u ≤ f.mostScale then some (roundHalfEven m (2 ^ u), f.unit + u)
        else none := by
  have hscale : m.log2 + f.unit + 1 - f.bits = f.unit + u := by omega
  have hround : roundHalfEven (m * 2 ^ f.unit) (1 * 2 ^ (f.unit + u))
      = roundHalfEven m (2 ^ u) := by
    rw [Nat.one_mul, Nat.pow_add, Nat.mul_comm (2 ^ f.unit) (2 ^ u)]
    exact roundHalfEven_mul_right (Nat.two_pow_pos f.unit)
  unfold nearest
  simp only [Nat.pow_eq, Nat.div_one, log2_mul_two_pow hm, hscale, hround]
  split <;> rfl

/-- A whole number with fewer bits has a scale below that of the numbers with more. -/
theorem scale_of_nearest (hunit : 0 < f.unit) (hm : m ≠ 0) (hlog : m.log2 + 1 < f.bits)
    {s scale : Nat} (h : f.nearest m 1 = some (s, scale)) : scale ≤ f.unit := by
  unfold nearest at h
  simp only [Nat.pow_eq, Nat.div_one, log2_mul_two_pow hm] at h
  split at h
  · split at h
    · obtain ⟨-, rfl⟩ := Prod.mk.inj (Option.some.inj h)
      omega
    · cases h
  · split at h
    · obtain ⟨-, rfl⟩ := Prod.mk.inj (Option.some.inj h)
      omega
    · cases h

end BinaryFormat

/-! ## Doubles from their parts -/

theorem Binary64.ofParts_eq_finite_iff {negative : Bool} {s scale : Nat} {x : Finite64} :
    ofParts negative s scale = .finite x ↔
      x.negative = negative ∧ x.significand = s ∧ x.scale = scale := by
  unfold ofParts
  constructor
  · intro h
    split at h
    · cases h
      exact ⟨rfl, rfl, rfl⟩
    · cases h
  · rintro ⟨rfl, rfl, rfl⟩
    rw [dif_pos ⟨x.significand_lt, x.scale_le, x.normal⟩]

/-- A natural number is read as the double with the parts to which it is rounded.
The numbers of more than 310 digits are not rounded at all. -/
theorem Binary64.ofInt_eq_finite_iff {m : Nat} (hm : m ≠ 0) {x : Finite64} :
    ofInt m = .finite x ↔ x.negative = false ∧ Decimal.width m ≤ 310 ∧
      BinaryFormat.double.nearest m 1 = some (x.significand, x.scale) := by
  have hsign : decide ((m : Int) < 0) = false := by simp
  have hplaces : ¬ (m = 0 ∨ (0 : Int) + (Decimal.width m : Nat) < -400) := by omega
  have hexponent : m * Nat.pow 10 (0 : Int).toNat = m ∧ Nat.pow 10 (-(0 : Int)).toNat = 1 :=
    ⟨Nat.mul_one m, rfl⟩
  unfold ofInt ofDecimal BinaryFormat.nearestDecimal
  simp only [hsign, Int.natAbs_natCast, if_neg hplaces, hexponent]
  by_cases hlarge : 310 < Decimal.width m
  · rw [if_pos (by omega)]
    constructor
    · intro h
      cases h
    · omega
  · rw [if_neg (by omega)]
    generalize BinaryFormat.double.nearest m 1 = rounded
    cases rounded with
    | none => simp
    | some parts =>
      obtain ⟨s, scale⟩ := parts
      refine ofParts_eq_finite_iff.trans ⟨?_, ?_⟩
      · rintro ⟨hnegative, rfl, rfl⟩
        exact ⟨hnegative, by omega, rfl⟩
      · rintro ⟨hnegative, -, hparts⟩
        obtain ⟨rfl, rfl⟩ := Prod.mk.inj (Option.some.inj hparts)
        exact ⟨hnegative, rfl, rfl⟩

namespace Finite64

/-! ## The numbers around a double -/

/-- A whole number is around `s` times `step`, a double whose neighbours are `step`
away, or half of this below where the step changes: it is at most half the way to
them, and less if the significand `s` is odd. -/
structure IsNear (s step m : Nat) : Prop where
  lower : 4 * (s * step) ≤ 4 * m + if s = 2 ^ 52 then step else 2 * step
  upper : 4 * m ≤ 4 * (s * step) + 2 * step
  inner : s % 2 = 1 → 4 * (s * step) ≠ 4 * m + 2 * step ∧ 4 * m ≠ 4 * (s * step) + 2 * step

/-- It is at most half a step below, where the step changes as well. -/
theorem IsNear.le_add {s step m : Nat} (h : IsNear s step m) :
    4 * (s * step) ≤ 4 * m + 2 * step := by
  have hlower := h.lower
  split at hlower <;> omega

variable {x : Finite64} {m t : Nat}

theorem le_significand (hscale : x.scale = 1074 + t) : 2 ^ 52 ≤ x.significand :=
  x.normal.resolve_left (by omega)

theorem two_pow_scale (t : Nat) : Nat.pow 2 (1074 + t) = 2 ^ t * unitsPerOne := by
  unfold unitsPerOne
  generalize 1074 = a
  rw [Nat.pow_eq, Nat.pow_eq, Nat.pow_add, Nat.mul_comm]

theorem unitsPerOne_pos : 0 < unitsPerOne := by
  unfold unitsPerOne
  generalize 1074 = a
  exact Nat.two_pow_pos a

/-- The value of a double above two to the 53 in units. -/
theorem units_eq (hscale : x.scale = 1074 + t) :
    x.units = x.significand * 2 ^ t * unitsPerOne := by
  rw [units, hscale, two_pow_scale, Nat.mul_assoc]

/-- The ends of the interval that is tested, in multiples of one. -/
theorem reachUp_eq (hscale : x.scale = 1074 + t) : x.reachUp = 2 * 2 ^ t * unitsPerOne := by
  rw [reachUp, hscale, two_pow_scale]
  ring

theorem reachDown_eq (hscale : x.scale = 1074 + t) : x.reachDown
    = (if x.significand = 2 ^ 52 then 2 ^ t else 2 * 2 ^ t) * unitsPerOne := by
  have hpow : Nat.pow 2 x.scale = 2 ^ t * unitsPerOne := by rw [hscale, two_pow_scale]
  have hne : x.scale ≠ 0 := by omega
  unfold reachDown
  rw [hpow]
  simp only [Nat.pow_eq, ne_eq, hne, not_false_eq_true, and_true]
  split <;> ring

/-- **The test of the printer finds the numbers around a double.** -/
theorem readsBack_iff (hscale : x.scale = 1074 + t) :
    x.readsBack m unitsPerOne 1 = true ↔ IsNear x.significand (2 ^ t) m := by
  have hlow : 2 ^ 52 * 2 ^ t ≤ x.significand * 2 ^ t :=
    Nat.mul_le_mul_right _ (le_significand hscale)
  -- one is a common factor of all that is compared, and the lower end is not cut off
  have hlower : (4 * x.units - x.reachDown) * 1 = (4 * (x.significand * 2 ^ t)
      - if x.significand = 2 ^ 52 then 2 ^ t else 2 * 2 ^ t) * unitsPerOne := by
    rw [reachDown_eq hscale, units_eq hscale, Nat.mul_one, ← Nat.mul_assoc, ← Nat.sub_mul]
  have hupper : (4 * x.units + x.reachUp) * 1
      = (4 * (x.significand * 2 ^ t) + 2 * 2 ^ t) * unitsPerOne := by
    rw [reachUp_eq hscale, units_eq hscale, Nat.mul_one, ← Nat.mul_assoc, ← Nat.add_mul]
  have hreach : (if x.significand = 2 ^ 52 then 2 ^ t else 2 * 2 ^ t)
      ≤ 4 * (x.significand * 2 ^ t) := by
    split <;> omega
  unfold readsBack
  simp only [hlower, hupper]
  split
  · next heven =>
    rw [Bool.and_eq_true, decide_eq_true_eq, decide_eq_true_eq,
      Nat.mul_le_mul_right_iff unitsPerOne_pos, Nat.mul_le_mul_right_iff unitsPerOne_pos]
    constructor
    · intro h
      exact ⟨by omega, by omega, by omega⟩
    · intro h
      exact ⟨by have := h.lower; omega, h.upper⟩
  · next hodd =>
    -- an odd significand is not the least one, so the step below it is the same
    have hsig : x.significand ≠ 2 ^ 52 := by omega
    rw [Bool.and_eq_true, decide_eq_true_eq, decide_eq_true_eq,
      Nat.mul_lt_mul_right unitsPerOne_pos, Nat.mul_lt_mul_right unitsPerOne_pos, if_neg hsig]
    constructor
    · intro h
      refine ⟨?_, by omega, by omega⟩
      rw [if_neg hsig]
      omega
    · intro h
      have hl := h.lower
      rw [if_neg hsig] at hl
      have hin := h.inner (by omega)
      have hu := h.upper
      omega

/-! ## Reading the numbers around a double -/

/-- The power of two of the first bit of a number with at least 53 bits. -/
theorem log2_eq_iff {m u : Nat} :
    m.log2 = 52 + u ↔ 2 ^ 52 * 2 ^ u ≤ m ∧ m < 2 ^ 53 * 2 ^ u := by
  rw [← Nat.pow_add, ← Nat.pow_add]
  by_cases hm : m = 0
  · subst hm
    have hpos : 0 < 2 ^ (52 + u) := Nat.two_pow_pos _
    rw [Nat.log2_zero]
    omega
  · rw [Nat.log2_eq_iff hm, Nat.add_right_comm]

/-- What a number of at least 53 bits is rounded to. -/
theorem nearest_eq_iff {u s scale : Nat} (hlog : m.log2 = 52 + u) (hscale : scale ≤ 2045) :
    BinaryFormat.double.nearest m 1 = some (s, scale) ↔
      BinaryFormat.roundHalfEven m (2 ^ u) = 2 ^ 53 ∧ s = 2 ^ 52 ∧ scale = 1074 + u + 1 ∨
      BinaryFormat.roundHalfEven m (2 ^ u) ≠ 2 ^ 53 ∧
        BinaryFormat.roundHalfEven m (2 ^ u) = s ∧ scale = 1074 + u := by
  have hm : m ≠ 0 := by
    rintro rfl
    rw [Nat.log2_zero] at hlog
    omega
  have hbits : m.log2 + 1 = BinaryFormat.double.bits + u := by
    show _ = 53 + u
    omega
  rw [BinaryFormat.nearest_of_log2 hm hbits]
  show (if BinaryFormat.roundHalfEven m (2 ^ u) = 2 ^ 53 then
      if 1074 + u + 1 ≤ 2045 then some (2 ^ 52, 1074 + u + 1) else none
    else if 1074 + u ≤ 2045 then some (BinaryFormat.roundHalfEven m (2 ^ u), 1074 + u)
    else none) = some (s, scale) ↔ _
  generalize BinaryFormat.roundHalfEven m (2 ^ u) = rounded
  split
  · split
    · simp only [Option.some.injEq, Prod.mk.injEq]
      omega
    · simp only [reduceCtorEq, false_iff]
      omega
  · split
    · simp only [Option.some.injEq, Prod.mk.injEq]
      omega
    · simp only [reduceCtorEq, false_iff]
      omega

/-- The numbers around a double with as many bits as it are rounded to its
significand. -/
theorem isNear_iff_round {s step : Nat} (hstep : 0 < step) (hlow : 2 ^ 52 * step ≤ m) :
    IsNear s step m ↔ BinaryFormat.roundHalfEven m step = s := by
  rw [BinaryFormat.roundHalfEven_eq_iff hstep]
  constructor
  · rintro ⟨hlower, hupper, hinner⟩
    split at hlower
    · next hsig =>
      subst hsig
      omega
    · exact ⟨by omega, by omega, fun hodd => by have := hinner hodd; omega⟩
  · rintro ⟨hlower, hupper, hinner⟩
    refine ⟨?_, by omega, fun hodd => by have := hinner hodd; omega⟩
    split
    · next hsig =>
      subst hsig
      omega
    · omega

/-- Those with one bit fewer have half the step, and are rounded up to a power of two. -/
theorem isNear_iff_round_half {half : Nat} (hhalf : 0 < half) (hhigh : m < 2 ^ 53 * half) :
    IsNear (2 ^ 52) (2 * half) m ↔ BinaryFormat.roundHalfEven m half = 2 ^ 53 := by
  rw [BinaryFormat.roundHalfEven_eq_iff hhalf]
  constructor
  · rintro ⟨hlower, -, -⟩
    rw [if_pos rfl] at hlower
    omega
  · intro h
    refine ⟨?_, by omega, by omega⟩
    rw [if_pos rfl]
    omega

/-- The numbers that are read as a double are around it. -/
theorem isNear_of_ofInt (hscale : x.scale = 1074 + t) (ht : 0 < t)
    (h : Binary64.ofInt m = .finite x) : IsNear x.significand (2 ^ t) m := by
  have hm : m ≠ 0 := by
    rintro rfl
    have hzero : Binary64.ofInt (0 : Nat) = .ofParts false 0 0 := rfl
    rw [hzero, Binary64.ofParts_eq_finite_iff] at h
    omega
  obtain ⟨-, -, hnearest⟩ := (Binary64.ofInt_eq_finite_iff hm).mp h
  -- a number of fewer bits would have a smaller scale
  have hbits : ¬ m.log2 + 1 < 53 := fun hlog => by
    have hle := BinaryFormat.scale_of_nearest (by decide) hm hlog hnearest
    have hunit : BinaryFormat.double.unit = 1074 := rfl
    omega
  obtain ⟨u, hu⟩ : ∃ u, m.log2 = 52 + u := ⟨m.log2 - 52, by omega⟩
  obtain ⟨hlow, hhigh⟩ := log2_eq_iff.mp hu
  rcases (nearest_eq_iff hu x.scale_le).mp hnearest with ⟨hround, hsig, hsc⟩ | ⟨-, hround, hsc⟩
  · -- a bit was added by rounding up
    obtain rfl : t = u + 1 := by omega
    have htwice : 2 ^ (u + 1) = 2 * 2 ^ u := Nat.pow_succ'
    rw [hsig, htwice]
    exact (isNear_iff_round_half (Nat.two_pow_pos u) hhigh).mpr hround
  · obtain rfl : t = u := by omega
    exact (isNear_iff_round (Nat.two_pow_pos t) hlow).mpr hround

/-- Only the least significand has numbers with one bit fewer around it. -/
theorem IsNear.significand_eq {s step : Nat} (h : IsNear s step m) (hs : 2 ^ 52 ≤ s)
    (hlow : m < 2 ^ 52 * step) : s = 2 ^ 52 := by
  by_contra hne
  have hlower := h.lower
  rw [if_neg hne] at hlower
  have hnext : (2 ^ 52 + 1) * step ≤ s * step := Nat.mul_le_mul_right _ (by omega)
  omega

/-- The numbers around a double are read as it. -/
theorem ofInt_of_isNear (hsign : x.negative = false) (hscale : x.scale = 1074 + t) (ht : 0 < t)
    (hwidth : Decimal.width m ≤ 310) (h : IsNear x.significand (2 ^ t) m) :
    Binary64.ofInt m = .finite x := by
  have hmost : x.significand < 2 ^ 53 := x.significand_lt
  have hleast : 2 ^ 52 * 2 ^ t ≤ x.significand * 2 ^ t :=
    Nat.mul_le_mul_right _ (le_significand hscale)
  have hgreatest : x.significand * 2 ^ t ≤ (2 ^ 53 - 1) * 2 ^ t :=
    Nat.mul_le_mul_right _ (by omega)
  have hstep : 0 < 2 ^ t := Nat.two_pow_pos t
  have hupper := h.upper
  have hreach := h.le_add
  refine (Binary64.ofInt_eq_finite_iff (by omega)).mpr ⟨hsign, hwidth, ?_⟩
  by_cases hlow : 2 ^ 52 * 2 ^ t ≤ m
  · have hlog : m.log2 = 52 + t := log2_eq_iff.mpr ⟨hlow, by omega⟩
    have hround := (isNear_iff_round hstep hlow).mp h
    exact (nearest_eq_iff hlog x.scale_le).mpr (.inr ⟨by omega, hround, hscale⟩)
  · -- the number is below the power of two, where the bits are half as far apart
    have hsig := h.significand_eq (le_significand hscale) (Nat.not_le.mp hlow)
    obtain ⟨u, rfl⟩ : ∃ u, t = u + 1 := ⟨t - 1, by omega⟩
    have htwice : 2 ^ (u + 1) = 2 * 2 ^ u := Nat.pow_succ'
    rw [hsig, htwice] at h hreach
    rw [htwice] at hlow
    have hlog : m.log2 = 52 + u := log2_eq_iff.mpr ⟨by omega, by omega⟩
    have hround := (isNear_iff_round_half (Nat.two_pow_pos u) (by omega)).mp h
    exact (nearest_eq_iff hlog x.scale_le).mpr (.inl ⟨hround, hsig, by omega⟩)

/-- A number of at least 53 bits is read as a double, with the step of its own bits or
the next one, unless it is too large. -/
theorem exists_ofInt {u : Nat} (hlog : m.log2 = 52 + u) (hu : u ≤ 970)
    (hwidth : Decimal.width m ≤ 310) :
    ∃ x : Finite64, Binary64.ofInt m = .finite x ∧ x.negative = false ∧
      (x.scale = 1074 + u ∨ x.scale = 1074 + (u + 1)) := by
  have hm : m ≠ 0 := by
    rintro rfl
    rw [Nat.log2_zero] at hlog
    omega
  obtain ⟨hlow, hhigh⟩ := log2_eq_iff.mp hlog
  -- the significand, before the scale takes up a bit that is added to it
  obtain ⟨r, hr⟩ : ∃ r, BinaryFormat.roundHalfEven m (2 ^ u) = r := ⟨_, rfl⟩
  obtain ⟨hdown, hup, -⟩ := (BinaryFormat.roundHalfEven_eq_iff (Nat.two_pow_pos u)).mp hr
  have hleast : 2 ^ 52 ≤ r := by
    by_contra hless
    have hle : r * 2 ^ u ≤ (2 ^ 52 - 1) * 2 ^ u := Nat.mul_le_mul_right _ (by omega)
    omega
  have hmost : r ≤ 2 ^ 53 := by
    by_contra hgreater
    have hle : (2 ^ 53 + 1) * 2 ^ u ≤ r * 2 ^ u := Nat.mul_le_mul_right _ (by omega)
    omega
  have hscaled : 1074 + u + 1 ≤ 2045 := by omega
  by_cases hcarry : r = 2 ^ 53
  · let x : Finite64 := ⟨false, 2 ^ 52, 1074 + u + 1, by decide, hscaled, .inr le_rfl⟩
    refine ⟨x, (Binary64.ofInt_eq_finite_iff hm).mpr ⟨rfl, hwidth, ?_⟩, rfl, .inr rfl⟩
    exact (nearest_eq_iff hlog hscaled).mpr (.inl ⟨hr.trans hcarry, rfl, rfl⟩)
  · have hlt : r < 2 ^ 53 := Nat.lt_of_le_of_ne hmost hcarry
    let x : Finite64 := ⟨false, r, 1074 + u, hlt, Nat.le_of_succ_le hscaled, .inr hleast⟩
    refine ⟨x, (Binary64.ofInt_eq_finite_iff hm).mpr ⟨rfl, hwidth, ?_⟩, rfl, .inl rfl⟩
    exact (nearest_eq_iff hlog x.scale_le).mpr (.inr ⟨hr ▸ hcarry, hr, rfl⟩)

end Finite64

end SqlBuilder
