import Mathlib.Data.Nat.Dist
import SqlBuilder.Number.FloatText
import SqlBuilder.Proofs.Rounding

/-!
# Shortest digits of whole doubles

A double above ten to the 16 is a whole number, and it is written as one: as the
roundest of all the numbers that are read as it, the one with most zeros at its
end, and of those with as many zeros as the one nearest to the double. The printer
looks for it on grids of multiples of powers of ten, from the coarsest on, next to
the double on either side.

* `Finite64.onGrid?_spec` — what is found on one grid;
* `Finite64.shortest_spec` — what is found on the first grid with a hit;
* `Finite64.IsRoundest` — the roundest number that is read as a double;
* `Finite64.exists_write` — it is what is written.
-/

namespace SqlBuilder

namespace Finite64

variable {x : Finite64} {s step t m : Nat}

/-! ## One grid -/

/-- The numbers between two that are around a double are around it. -/
theorem IsNear.of_le_of_le {a b c : Nat} (ha : IsNear s step a) (hb : IsNear s step b)
    (hac : a ≤ c) (hcb : c ≤ b) : IsNear s step c := by
  obtain ⟨hlower, -, hinnerLower⟩ := ha
  obtain ⟨-, hupper, hinnerUpper⟩ := hb
  refine ⟨by omega, by omega, fun hodd => ?_⟩
  have hlow := (hinnerLower hodd).1
  have hup := (hinnerUpper hodd).2
  split at hlower <;> omega

theorem isNear_self (hstep : 0 < step) : IsNear s step (s * step) := by
  refine ⟨by omega, by omega, by omega⟩

/-- A number lies between two multiples, the second one step above the first. -/
theorem between_multiples {grid : Nat} (hgrid : 0 < grid) (value : Nat) :
    value / grid * grid + value % grid = value ∧ value % grid < grid ∧
      (value / grid + 1) * grid = value / grid * grid + grid :=
  ⟨Nat.div_add_mod' _ _, Nat.mod_lt _ hgrid, Nat.succ_mul _ _⟩

/-- The multiple of a power of ten that is written if it is a shortest one: of those
around a double the nearest to it, and of two equally near ones the greater. -/
structure IsNearestOn (s step grid m : Nat) : Prop where
  dvd : grid ∣ m
  near : IsNear s step m
  nearest : ∀ m', grid ∣ m' → IsNear s step m' →
    Nat.dist (s * step) m ≤ Nat.dist (s * step) m' ∧
      (Nat.dist (s * step) m = Nat.dist (s * step) m' → m' ≤ m)

/-- Of the multiples around a double one is next to it, if there are any. -/
theorem neighbour_of_isNear {grid i : Nat} (hstep : 0 < step) (hgrid : 0 < grid)
    (h : IsNear s step (i * grid)) :
    i ≤ s * step / grid ∧ IsNear s step (s * step / grid * grid) ∨
      s * step / grid + 1 ≤ i ∧ IsNear s step ((s * step / grid + 1) * grid) := by
  obtain ⟨hvalue, hrest, hsucc⟩ := between_multiples hgrid (s * step)
  rcases Nat.lt_or_ge (s * step / grid) i with hi | hi
  · have hle : (s * step / grid + 1) * grid ≤ i * grid := Nat.mul_le_mul_right grid hi
    exact .inr ⟨hi, (isNear_self hstep).of_le_of_le h (by omega) hle⟩
  · have hle : i * grid ≤ s * step / grid * grid := Nat.mul_le_mul_right grid hi
    exact .inl ⟨hi, h.of_le_of_le (isNear_self hstep) hle (by omega)⟩

/-- A grid of multiples is tested by the multiples. -/
theorem readsBack_grid (x : Finite64) (c grid : Nat) :
    x.readsBack c (unitsPerOne * grid) 1 = x.readsBack (c * grid) unitsPerOne 1 := by
  have hpoint : 4 * c * (unitsPerOne * grid) = 4 * (c * grid) * unitsPerOne := by ring
  unfold readsBack
  rw [hpoint]

/-- The nearer one of the two next to the double is nearest among all. -/
theorem isNearestOn_neighbour {grid c : Nat} (hstep : 0 < step) (hgrid : 0 < grid)
    (hnear : IsNear s step (c * grid))
    (hc : c = s * step / grid ∧
        (IsNear s step ((s * step / grid + 1) * grid) → 2 * (s * step % grid) < grid) ∨
      c = s * step / grid + 1 ∧
        (IsNear s step (s * step / grid * grid) → grid ≤ 2 * (s * step % grid))) :
    IsNearestOn s step grid (c * grid) := by
  refine ⟨Nat.dvd_mul_left grid c, hnear, ?_⟩
  rintro m' ⟨i, rfl⟩ hnear'
  rw [Nat.mul_comm grid i] at hnear' ⊢
  have hside := neighbour_of_isNear hstep hgrid hnear'
  obtain ⟨hvalue, hrest, hsucc⟩ := between_multiples hgrid (s * step)
  generalize s * step = value at *
  unfold Nat.dist
  rcases hside with ⟨hi, hdown⟩ | ⟨hi, hup⟩
  · have hle : i * grid ≤ value / grid * grid := Nat.mul_le_mul_right grid hi
    rcases hc with ⟨rfl, -⟩ | ⟨rfl, htie⟩
    · omega
    · have := htie hdown
      omega
  · have hle : (value / grid + 1) * grid ≤ i * grid := Nat.mul_le_mul_right grid hi
    rcases hc with ⟨rfl, htie⟩ | ⟨rfl, -⟩
    · have := htie hup
      omega
    · omega

/-- The upper neighbour is taken from the middle on. -/
theorem upward_iff {rest grid : Nat} :
    (unitsPerOne * grid < 2 * (rest * unitsPerOne) ∨
      2 * (rest * unitsPerOne) = unitsPerOne * grid) ↔ grid ≤ 2 * rest := by
  rw [← Nat.mul_assoc, Nat.mul_comm unitsPerOne, Nat.mul_lt_mul_right unitsPerOne_pos,
    Nat.mul_left_inj unitsPerOne_pos.ne']
  omega

/-- Ten steps are told as one step of the next grid. -/
theorem IsNearestOn.exists_exponent {e c : Nat} (h : IsNearestOn s step (10 ^ e) (c * 10 ^ e)) :
    ∃ k : Nat, (if c = 10 then (⟨1, e + 1⟩ : Decimal) else ⟨c, e⟩).exponent = k ∧
      IsNearestOn s step (10 ^ e)
        ((if c = 10 then (⟨1, e + 1⟩ : Decimal) else ⟨c, e⟩).digits * 10 ^ k) := by
  split
  · next hten =>
    refine ⟨e + 1, rfl, ?_⟩
    rwa [hten, ← Nat.pow_succ', ← Nat.one_mul (10 ^ (e + 1))] at h
  · exact ⟨e, rfl, h⟩

/-- **What is found on one grid** is nearest among the multiples of its step; nothing is
found only if no multiple is around the double. -/
theorem onGrid?_spec (hscale : x.scale = 1074 + t) (lead : Int) (places : Nat) {e : Nat}
    (he : lead - (places - 1 : Nat) = e) :
    match x.onGrid? .up lead places with
    | none => ∀ m, 10 ^ e ∣ m → ¬ IsNear x.significand (2 ^ t) m
    | some d => ∃ k : Nat, d.exponent = k ∧
        IsNearestOn x.significand (2 ^ t) (10 ^ e) (d.digits * 10 ^ k) := by
  have hstep : 0 < 2 ^ t := Nat.two_pow_pos t
  have hgrid : 0 < 10 ^ e := Nat.pow_pos (by decide)
  have hexponent : (-(e : Int)).toNat = 0 := by omega
  -- everything is measured in whole numbers
  have hdiv : x.units * 1 / (unitsPerOne * 10 ^ e) = x.significand * 2 ^ t / 10 ^ e := by
    rw [units_eq hscale, Nat.mul_one, Nat.mul_comm unitsPerOne]
    exact Nat.mul_div_mul_right _ _ unitsPerOne_pos
  have hmod : x.units * 1 % (unitsPerOne * 10 ^ e)
      = x.significand * 2 ^ t % 10 ^ e * unitsPerOne := by
    rw [units_eq hscale, Nat.mul_one, Nat.mul_comm unitsPerOne, Nat.mul_mod_mul_right]
  unfold onGrid?
  simp only [he, Int.toNat_natCast, hexponent, Nat.pow_eq, Nat.pow_zero, hdiv, hmod,
    readsBack_grid, true_or, and_true, upward_iff]
  -- the two tests, told by the numbers around the double
  have hdown := readsBack_iff (m := x.significand * 2 ^ t / 10 ^ e * 10 ^ e) hscale
  have hover := readsBack_iff (m := (x.significand * 2 ^ t / 10 ^ e + 1) * 10 ^ e) hscale
  generalize x.readsBack (x.significand * 2 ^ t / 10 ^ e * 10 ^ e) unitsPerOne 1 = below at *
  generalize x.readsBack ((x.significand * 2 ^ t / 10 ^ e + 1) * 10 ^ e) unitsPerOne 1 = above at *
  match below, above with
  | true, true =>
    refine IsNearestOn.exists_exponent ?_
    split
    · next hupward =>
      exact isNearestOn_neighbour hstep hgrid (hover.mp rfl) (.inr ⟨rfl, fun _ => hupward⟩)
    · next hupward =>
      exact isNearestOn_neighbour hstep hgrid (hdown.mp rfl) (.inl ⟨rfl, fun _ => by omega⟩)
  | true, false =>
    have hnearest := isNearestOn_neighbour hstep hgrid (hdown.mp rfl)
      (.inl ⟨rfl, fun h => nomatch hover.mpr h⟩)
    exact hnearest.exists_exponent
  | false, true =>
    have hnearest := isNearestOn_neighbour hstep hgrid (hover.mp rfl)
      (.inr ⟨rfl, fun h => nomatch hdown.mpr h⟩)
    exact hnearest.exists_exponent
  | false, false =>
    rintro m ⟨i, rfl⟩ hnear
    rw [Nat.mul_comm] at hnear
    rcases neighbour_of_isNear hstep hgrid hnear with ⟨-, h⟩ | ⟨-, h⟩
    · cases hdown.mpr h
    · cases hover.mpr h

/-! ## The first grid with a hit -/

/-- The power of ten of the first digit of a large whole double. -/
theorem leadingExponent_units (hscale : x.scale = 1074 + t)
    (hlarge : 10 ^ 16 ≤ x.significand * 2 ^ t) :
    ∃ lead : Nat, leadingExponent x.units unitsPerOne = lead ∧ 16 ≤ lead ∧
      10 ^ lead ≤ x.significand * 2 ^ t ∧ x.significand * 2 ^ t < 10 ^ (lead + 1) := by
  have hunits := units_eq hscale
  generalize x.significand * 2 ^ t = value at *
  have hbelow : ∀ {k}, 0 < k → ((Nat.toDigits 10 value).length ≤ k ↔ value < 10 ^ k) :=
    Nat.length_toDigits_le_iff (by decide)
  have hwidth : 16 < (Nat.toDigits 10 value).length := by
    rw [← Nat.not_le, hbelow (by decide)]
    omega
  have hone : unitsPerOne ≤ x.units := by
    rw [hunits]
    exact Nat.le_mul_of_pos_left _ (by omega)
  refine ⟨(Nat.toDigits 10 value).length - 1, ?_, by omega, ?_, ?_⟩
  · rw [leadingExponent, if_pos hone, hunits, Nat.mul_div_cancel _ unitsPerOne_pos, Decimal.width]
    omega
  · rw [← Nat.not_lt, ← hbelow (by omega)]
    omega
  · rw [← hbelow (by omega)]
    omega

/-- Two multiples around one double are the same if the grid is coarser than the
doubles are apart. -/
theorem IsNear.eq_of_dvd {a b grid : Nat} (ha : IsNear s step a) (hb : IsNear s step b)
    (hgrid : step < grid) (hda : grid ∣ a) (hdb : grid ∣ b) : a = b := by
  have hla := ha.le_add
  have hlb := hb.le_add
  have hua := ha.upper
  have hub := hb.upper
  obtain ⟨i, rfl⟩ := hda
  obtain ⟨k, rfl⟩ := hdb
  rcases Nat.lt_trichotomy i k with h | rfl | h
  · have hle : grid * (i + 1) ≤ grid * k := Nat.mul_le_mul_left grid h
    rw [Nat.mul_succ] at hle
    omega
  · rfl
  · have hle : grid * (k + 1) ≤ grid * i := Nat.mul_le_mul_left grid h
    rw [Nat.mul_succ] at hle
    omega

/-- The next multiple above a double is around it on a grid that is fine enough. -/
theorem isNear_above {grid : Nat} (hgrid : 0 < grid) (hfine : 2 * grid < step) :
    IsNear s step ((s * step / grid + 1) * grid) := by
  obtain ⟨hvalue, hrest, hsucc⟩ := between_multiples hgrid (s * step)
  refine ⟨?_, by omega, by omega⟩
  split <;> omega

/-- Seventeen digits are enough: on a grid that is that fine there is a multiple
around every double. -/
theorem exists_isNear_of_fine {grid : Nat} (hstep : 0 < step) (hgrid : 0 < grid)
    (hs : s < 2 ^ 53) (hfine : 10 ^ 16 * grid ≤ s * step) :
    ∃ m, grid ∣ m ∧ IsNear s step m := by
  obtain ⟨hvalue, hrest, hsucc⟩ := between_multiples hgrid (s * step)
  have hmost : s * step ≤ (2 ^ 53 - 1) * step := Nat.mul_le_mul_right step (by omega)
  by_cases hover : IsNear s step ((s * step / grid + 1) * grid)
  · exact ⟨_, Nat.dvd_mul_left _ _, hover⟩
  · refine ⟨s * step / grid * grid, Nat.dvd_mul_left _ _, ?_⟩
    -- the multiple above is too far away, and so the one below is not
    have hfar : step ≤ 2 * (grid - s * step % grid) := by
      by_contra hnot
      refine hover ⟨?_, by omega, by omega⟩
      split <;> omega
    have hsig : s ≠ 2 ^ 52 := by
      rintro rfl
      omega
    refine ⟨?_, by omega, by omega⟩
    rw [if_neg hsig]
    omega

/-- A search in order stops at the first hit. -/
theorem findSome?_range {α : Type} {f : Nat → Option α} {n j : Nat} {a : α} (hj : j < n)
    (ha : f j = some a) (hfirst : ∀ l < j, f l = none) : (List.range n).findSome? f = some a := by
  obtain ⟨k, rfl⟩ : ∃ k, n = j + (k + 1) := ⟨n - j - 1, by omega⟩
  have hnone : (List.range j).findSome? f = none :=
    List.findSome?_eq_none_iff.mpr fun l hl => hfirst l (List.mem_range.mp hl)
  rw [List.range_add, List.findSome?_append, hnone, Option.none_or, List.range_succ_eq_map,
    List.map_cons, Nat.add_zero, List.findSome?_cons, ha]

/-- The shortest digits are those of the first grid with a hit, among the grids of
one digit up to seventeen. -/
theorem exists_firstGrid (hscale : x.scale = 1074 + t) {lead : Nat}
    (hlead : leadingExponent x.units unitsPerOne = lead) (hplaces : 16 ≤ lead)
    (hlow : 10 ^ lead ≤ x.significand * 2 ^ t) :
    ∃ n ≤ 16, x.onGrid? .up lead (n + 1) = some (x.shortest .up) ∧
      ∀ i < n, x.onGrid? .up lead (i + 1) = none := by
  have hmost : x.significand < 2 ^ 53 := x.significand_lt
  have hleast := le_significand hscale
  have hzero : x.significand ≠ 0 := by omega
  -- the last grid has a hit
  have hlast : x.onGrid? .up lead (16 + 1) ≠ none := by
    intro hnone
    have hspec := onGrid?_spec (e := lead - 16) hscale lead (16 + 1) (by omega)
    rw [hnone] at hspec
    have hfine : 10 ^ 16 * 10 ^ (lead - 16) ≤ x.significand * 2 ^ t := by
      rwa [← Nat.pow_add, Nat.add_sub_cancel' hplaces]
    obtain ⟨m, hdvd, hnear⟩ :=
      exists_isNear_of_fine (Nat.two_pow_pos t) (Nat.pow_pos (by decide)) hmost hfine
    exact hspec m hdvd hnear
  have hhit : ∃ n, x.onGrid? .up lead (n + 1) ≠ none := ⟨16, hlast⟩
  have hn : Nat.find hhit ≤ 16 := Nat.find_min' hhit hlast
  have hfirst : ∀ i < Nat.find hhit, x.onGrid? .up lead (i + 1) = none :=
    fun i hi => not_not.mp (Nat.find_min hhit hi)
  obtain ⟨d, hd⟩ := Option.ne_none_iff_exists'.mp (Nat.find_spec hhit)
  have hfound : (List.range 17).findSome? (fun n => x.onGrid? .up lead (n + 1)) = some d :=
    findSome?_range (by omega) hd hfirst
  have hshortest : x.shortest .up = d := by
    unfold shortest
    simp only [if_neg hzero, hlead, hfound, Option.getD_some]
  rw [hshortest]
  exact ⟨_, hn, hd, hfirst⟩

/-- **The shortest digits** of a large whole double are those of a number around it: it
is the nearest one on its grid, and no number around the double has more zeros. -/
theorem shortest_spec (hscale : x.scale = 1074 + t) (hlarge : 10 ^ 16 ≤ x.significand * 2 ^ t) :
    ∃ e k : Nat, (x.shortest .up).exponent = k ∧
      IsNearestOn x.significand (2 ^ t) (10 ^ e) ((x.shortest .up).digits * 10 ^ k) ∧
      ∀ l m, IsNear x.significand (2 ^ t) m → 10 ^ l ∣ m →
        10 ^ l ∣ (x.shortest .up).digits * 10 ^ k := by
  obtain ⟨lead, hlead, hplaces, hlow, hhigh⟩ := leadingExponent_units hscale hlarge
  obtain ⟨n, hn, hhit, hfirst⟩ := exists_firstGrid hscale hlead hplaces hlow
  have hspec := onGrid?_spec (e := lead - n) hscale lead (n + 1) (by omega)
  rw [hhit] at hspec
  obtain ⟨k, hk, hnearest⟩ := hspec
  -- none of the coarser grids has a multiple around the double
  have hcoarser : ∀ i < n, ∀ m, 10 ^ (lead - i) ∣ m → ¬ IsNear x.significand (2 ^ t) m := by
    intro i hi
    have hspec := onGrid?_spec (e := lead - i) hscale lead (i + 1) (by omega)
    rwa [hfirst i hi] at hspec
  refine ⟨lead - n, k, hk, hnearest, fun l m hnear hdvd => ?_⟩
  -- zeros that the grid has are zeros of all its multiples
  rcases le_or_gt l (lead - n) with hl | hl
  · exact (Nat.pow_dvd_pow 10 hl).trans hnearest.dvd
  have hcoarse : 10 ^ (lead - n) ∣ m := (Nat.pow_dvd_pow 10 hl.le).trans hdvd
  cases n with
  | zero =>
    -- the first grid is so coarse that it has one multiple at most around the double
    have hone : 2 ^ t < 10 ^ (lead - 0) := by
      have hscaled : 2 ^ 52 * 2 ^ t ≤ x.significand * 2 ^ t :=
        Nat.mul_le_mul_right _ (le_significand hscale)
      have hstep : 0 < 2 ^ t := Nat.two_pow_pos t
      rw [Nat.pow_succ] at hhigh
      rw [Nat.sub_zero]
      omega
    rwa [hnearest.near.eq_of_dvd hnear hone hnearest.dvd hcoarse]
  | succ n =>
    -- its zeros would have been found on a grid before
    have hgridded : ∃ i < n + 1, 10 ^ (lead - i) ∣ m := by
      rcases le_or_gt l lead with hle | hlt
      · refine ⟨lead - l, by omega, ?_⟩
        rwa [Nat.sub_sub_self hle]
      · exact ⟨0, by omega, (Nat.pow_dvd_pow 10 (by omega)).trans hdvd⟩
    obtain ⟨i, hi, hdvdi⟩ := hgridded
    exact absurd hnear (hcoarser i hi m hdvdi)

/-! ## The roundest number -/

/-- The number with most zeros at its end of those that are read as a double; among
equally round ones the nearest to the double, and of two equally near ones the greater. -/
structure IsRoundest (x : Finite64) (m : Nat) : Prop where
  reads : Binary64.ofInt m = .finite x
  round : ∀ k (m' : Nat), Binary64.ofInt m' = .finite x → 10 ^ k ∣ m' → 10 ^ k ∣ m
  nearest : ∀ m' : Nat, Binary64.ofInt m' = .finite x → (∀ k, 10 ^ k ∣ m → 10 ^ k ∣ m') →
    Nat.dist x.units (m * unitsPerOne) ≤ Nat.dist x.units (m' * unitsPerOne) ∧
      (Nat.dist x.units (m * unitsPerOne) = Nat.dist x.units (m' * unitsPerOne) → m' ≤ m)

/-- There is one roundest number at most. -/
theorem IsRoundest.unique {m' : Nat} (h : x.IsRoundest m) (h' : x.IsRoundest m') : m = m' := by
  obtain ⟨hle, htie⟩ := h.nearest m' h'.reads fun k => h'.round k m h.reads
  obtain ⟨hle', htie'⟩ := h'.nearest m h.reads fun k => h.round k m' h'.reads
  have hsame := le_antisymm hle hle'
  exact le_antisymm (htie' hsame.symm) (htie hsame)

/-- A double of at least ten to the 16 is a whole number of steps above one. -/
theorem exists_scale (hlarge : 10 ^ 16 * unitsPerOne ≤ x.units) :
    ∃ t, 0 < t ∧ x.scale = 1074 + t ∧ 10 ^ 16 ≤ x.significand * 2 ^ t := by
  have hmost : x.significand < 2 ^ 53 := x.significand_lt
  have hscale : 1074 < x.scale := by
    by_contra hsmall
    have hpow : Nat.pow 2 x.scale ≤ unitsPerOne := by
      unfold unitsPerOne
      generalize 1074 = least at hsmall ⊢
      exact Nat.pow_le_pow_right (by decide) (Nat.not_lt.mp hsmall)
    have hunits : x.units ≤ (2 ^ 53 - 1) * unitsPerOne :=
      Nat.mul_le_mul (by omega) hpow
    have hone := unitsPerOne_pos
    omega
  obtain ⟨t, ht⟩ : ∃ t, x.scale = 1074 + t := ⟨x.scale - 1074, by omega⟩
  rw [units_eq ht, Nat.mul_le_mul_right_iff unitsPerOne_pos] at hlarge
  exact ⟨t, by omega, ht, hlarge⟩

/-- The numbers around a double have no more digits than are read. -/
theorem width_le_of_isNear (hscale : x.scale = 1074 + t) (h : IsNear x.significand (2 ^ t) m) :
    Decimal.width m ≤ 310 := by
  have hmost : x.significand * 2 ^ t ≤ (2 ^ 53 - 1) * 2 ^ t :=
    Nat.mul_le_mul_right _ (Nat.le_pred_of_lt x.significand_lt)
  have hstep : 0 < 2 ^ t := Nat.two_pow_pos t
  have hupper := h.upper
  -- two to the 93 is below ten to the 28, and there are eleven times as many bits
  obtain ⟨k, hk⟩ : ∃ k, k = 11 := ⟨_, rfl⟩
  have hbits : 53 + t ≤ 93 * k + 1 := by
    have hscaled : x.scale ≤ 2045 := x.scale_le
    omega
  have hdigits : Decimal.width m ≤ 28 * k + 1 ↔ m < 10 ^ (28 * k + 1) :=
    Nat.length_toDigits_le_iff (by decide) (by omega)
  refine (hdigits.mpr ?_).trans (by omega)
  calc m < 2 ^ 53 * 2 ^ t := by omega
    _ = 2 ^ (53 + t) := (Nat.pow_add 2 53 t).symm
    _ ≤ 2 ^ (93 * k + 1) := Nat.pow_le_pow_right (by decide) hbits
    _ = (2 ^ 93) ^ k * 2 := by rw [Nat.pow_succ, Nat.pow_mul]
    _ ≤ (10 ^ 28) ^ k * 10 := Nat.mul_le_mul (Nat.pow_le_pow_left (by decide) k) (by decide)
    _ = 10 ^ (28 * k + 1) := by rw [← Nat.pow_mul, ← Nat.pow_succ]

/-- Zeros at the end of a number are zeros at the end of its digits. -/
theorem toDigits_mul_ten_pow {c : Nat} (hc : 0 < c) (k : Nat) :
    Nat.toDigits 10 (c * 10 ^ k) = Nat.toDigits 10 c ++ FloatStyle.zeros k := by
  induction k with
  | zero => simp [FloatStyle.zeros]
  | succ k ih =>
    have hpos : 0 < c * 10 ^ k := Nat.mul_pos hc (Nat.pow_pos (by decide))
    have hlast : Nat.toDigits 10 0 = ['0'] := rfl
    have hnext : c * 10 ^ (k + 1) = 10 * (c * 10 ^ k) + 0 := by ring
    rw [hnext, ← Nat.toDigits_append_toDigits (by decide) hpos (by decide), ih, hlast,
      FloatStyle.zeros, FloatStyle.zeros, List.replicate_succ', List.append_assoc]

/-- A shortest number without places behind the point is written in its digits. -/
theorem write_plain (hsign : x.negative = false) {k : Nat}
    (hexponent : (x.shortest .up).exponent = k) (hdigits : 0 < (x.shortest .up).digits) :
    FloatStyle.plain.write x = toString ((x.shortest .up).digits * 10 ^ k) := by
  have htext : FloatStyle.plain.positionalText (Nat.toDigits 10 (x.shortest .up).digits) k
      = Nat.toDigits 10 ((x.shortest .up).digits * 10 ^ k) := by
    rw [toDigits_mul_ten_pow hdigits]
    unfold FloatStyle.positionalText
    rw [if_pos (Int.natCast_nonneg k)]
    exact List.append_nil _
  unfold FloatStyle.write
  show String.ofList (if x.negative then _ else
    FloatStyle.plain.positionalText _ (x.shortest .up).exponent) = _
  rw [hsign, hexponent, if_neg Bool.false_ne_true]
  exact congrArg String.ofList htext

/-- **A large whole double is written as the roundest number that is read as it.** -/
theorem exists_write (hsign : x.negative = false) (hlarge : 10 ^ 16 * unitsPerOne ≤ x.units) :
    ∃ m, x.IsRoundest m ∧ FloatStyle.plain.write x = toString m := by
  obtain ⟨t, ht, hscale, hlarge⟩ := exists_scale hlarge
  obtain ⟨e, k, hexponent, hnearest, hround⟩ := shortest_spec hscale hlarge
  have hread : ∀ m : Nat, Binary64.ofInt m = .finite x ↔ IsNear x.significand (2 ^ t) m := by
    intro m
    exact ⟨isNear_of_ofInt hscale ht, fun h =>
      ofInt_of_isNear hsign hscale ht (width_le_of_isNear hscale h) h⟩
  have hdist : ∀ m, Nat.dist x.units (m * unitsPerOne)
      = Nat.dist (x.significand * 2 ^ t) m * unitsPerOne := by
    intro m
    rw [units_eq hscale, Nat.dist_mul_right]
  have hdigits : 0 < (x.shortest .up).digits := by
    by_contra hnone
    have hlower := hnearest.near.le_add
    rw [Nat.eq_zero_of_not_pos hnone, Nat.zero_mul] at hlower
    have hleast : 2 ^ 52 * 2 ^ t ≤ x.significand * 2 ^ t :=
      Nat.mul_le_mul_right _ (le_significand hscale)
    have hstep : 0 < 2 ^ t := Nat.two_pow_pos t
    omega
  refine ⟨(x.shortest .up).digits * 10 ^ k, ⟨?_, ?_, ?_⟩, write_plain hsign hexponent hdigits⟩
  · exact (hread _).mpr hnearest.near
  · intro l m hm hdvd
    exact hround l m ((hread m).mp hm) hdvd
  · intro m hm hrounder
    obtain ⟨hle, htie⟩ := hnearest.nearest m (hrounder e hnearest.dvd) ((hread m).mp hm)
    rw [hdist, hdist, Nat.mul_left_inj unitsPerOne_pos.ne']
    exact ⟨Nat.mul_le_mul_right _ hle, htie⟩

end Finite64

end SqlBuilder
