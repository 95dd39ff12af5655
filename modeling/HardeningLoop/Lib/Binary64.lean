import Mathlib.Algebra.Order.Field.Power
import Mathlib.Algebra.Order.BigOperators.Group.List
import Mathlib.Algebra.Order.Floor.Ring
import Mathlib.Data.Rat.Floor
import Mathlib.Tactic.Linarith
import Mathlib.Tactic.NormNum

/-!
# Doubles

The arithmetic of doubles, on the numbers they stand for: a result is rounded to the nearest number of 53 significant
bits, between two to the one whose last bit is even. The exponent has no bounds: a number beyond the largest double
stands for infinity, and sums and differences of doubles do not underflow.

- `abs_round_sub_le`: a rounding is off by one part in `2 ^ 53` at most;
- `Near n x y`: `x` is `y` but for `n` roundings, each off by a few such parts; it passes through sums, maxima and
  roundings;
- `near_sum`: the compensated sum of numbers that are not negative is near the exact one.
-/

namespace Binary64

/-! ## Rounding -/

/-- `2 ^ k`. -/
def pow2 (k : Int) : Rat := if 0 ≤ k then (2 ^ k.toNat : Nat) else 1 / (2 ^ (-k).toNat : Nat)

/-- The nearest integer, ties to the even one. -/
def nearestEven (q : Rat) : Int :=
  let f := q.floor
  let d := q - f
  if d < 1 / 2 then f else if 1 / 2 < d then f + 1 else if f % 2 = 0 then f else f + 1

/-- The place of the first bit of a number that is not zero. -/
def exponent (q : Rat) : Int :=
  let e := (q.num.natAbs.log2 : Int) - q.den.log2
  if pow2 e ≤ |q| then e else e - 1

/-- The distance of the doubles around a number. -/
def spacing (q : Rat) : Rat := pow2 (exponent q - 52)

/-- The double nearest to a number. -/
def round (q : Rat) : Rat := if q = 0 then 0 else nearestEven (q / spacing q) * spacing q

def add (x y : Rat) : Rat := round (x + y)

def sub (x y : Rat) : Rat := round (x - y)

def mul (x y : Rat) : Rat := round (x * y)

/-- One addend of a compensated sum: the sum so far, and what its roundings have lost. -/
def sumStep (acc : Rat × Rat) (x : Rat) : Rat × Rat :=
  let t := add acc.1 x
  (t, add acc.2 (if |x| ≤ |acc.1| then add (sub acc.1 t) x else add (sub x t) acc.1))

/-- The compensated sum of a list, from the left. -/
def sum : List Rat → Rat
  | [] => 0
  | x :: xs =>
    let (s, c) := xs.foldl sumStep (x, 0)
    if c = 0 then s else add s c

/-- A small addend is lost; a compensated sum keeps account of it. -/
example : add (1 / 2 ^ 60) 20 = 20 ∧ sum [1, 2 ^ 60, -2 ^ 60] = 1 := by decide +kernel

section Rounding

variable {q x y : Rat}

theorem pow2_eq (k : Int) : pow2 k = (2 : Rat) ^ k := by
  unfold pow2
  split
  · rename_i hk
    obtain ⟨n, rfl⟩ := Int.eq_ofNat_of_zero_le hk
    simp
  · rename_i hk
    obtain ⟨n, hn⟩ := Int.eq_ofNat_of_zero_le (show 0 ≤ -k by omega)
    rw [hn, Int.toNat_natCast, show k = -(n : Int) by omega, zpow_neg, zpow_natCast]
    simp

theorem pow2_pos (k : Int) : 0 < pow2 k := by
  rw [pow2_eq]
  exact zpow_pos (by norm_num) k

theorem abs_nearestEven_sub_le (q : Rat) : |(nearestEven q : Rat) - q| ≤ 1 / 2 := by
  have hfloor : (q.floor : Rat) ≤ q := Rat.floor_le q
  have hnext : q < q.floor + 1 := by exact_mod_cast Rat.lt_floor_add_one q
  unfold nearestEven
  dsimp only
  rw [abs_le]
  split
  · constructor <;> linarith
  · split
    · push_cast
      constructor <;> linarith
    · split
      · constructor <;> linarith
      · push_cast
        constructor <;> linarith

theorem pow2_exponent_le (h : q ≠ 0) : pow2 (exponent q) ≤ |q| := by
  unfold exponent
  dsimp only
  split
  · assumption
  · have hnum : (2 : Rat) ^ q.num.natAbs.log2 ≤ q.num.natAbs := by
      exact_mod_cast Nat.log2_self_le (Int.natAbs_ne_zero.mpr (Rat.num_ne_zero.mpr h))
    have hden : (q.den : Rat) ≤ 2 ^ (q.den.log2 + 1) := by exact_mod_cast (Nat.lt_log2_self (n := q.den)).le
    have hpos : (0 : Rat) < q.den := by exact_mod_cast q.den_pos
    have habs : |q| = q.num.natAbs / q.den := by
      rw [← abs_of_pos hpos, Nat.cast_natAbs, Int.cast_abs, ← abs_div, Rat.num_div_den]
    rw [pow2_eq, habs, le_div_iff₀ hpos]
    calc (2 : Rat) ^ ((q.num.natAbs.log2 : Int) - q.den.log2 - 1) * q.den
        ≤ (2 : Rat) ^ ((q.num.natAbs.log2 : Int) - q.den.log2 - 1) * 2 ^ (q.den.log2 + 1) :=
          mul_le_mul_of_nonneg_left hden (zpow_nonneg (by norm_num) _)
      _ = 2 ^ q.num.natAbs.log2 := by
          rw [← zpow_natCast, ← zpow_natCast, ← zpow_add₀ (by norm_num : (2 : Rat) ≠ 0)]
          congr 1
          push_cast
          ring
      _ ≤ q.num.natAbs := hnum

/-- **One rounding.** -/
theorem abs_round_sub_le (q : Rat) : |round q - q| ≤ 1 / 2 ^ 53 * |q| := by
  unfold round
  split
  · rename_i h
    simp [h]
  · rename_i h
    have hpos : 0 < spacing q := pow2_pos _
    have hspacing : spacing q = 1 / 2 ^ 52 * pow2 (exponent q) := by
      rw [spacing, pow2_eq, pow2_eq, zpow_sub₀ (by norm_num : (2 : Rat) ≠ 0)]
      norm_num
      ring
    have herror := abs_nearestEven_sub_le (q / spacing q)
    have hexponent := pow2_exponent_le h
    have hsplit : (nearestEven (q / spacing q) : Rat) * spacing q - q =
        ((nearestEven (q / spacing q) : Rat) - q / spacing q) * spacing q := by
      rw [sub_mul, div_mul_cancel₀ _ hpos.ne']
    rw [hsplit, abs_mul, abs_of_pos hpos]
    have hhalf := mul_le_mul_of_nonneg_right herror hpos.le
    linarith

end Rounding

/-! ## What roundings add up to -/

/-- The factor by which one rounding, and what it causes, is off at most. -/
def growth : Rat := 1 + 1 / 2 ^ 50

/-- The part of a number by which `n` roundings are off at most. -/
def slack (n : Nat) : Rat := growth ^ n - 1

/-- `x` is `y`, but for `n` roundings. -/
def Near (n : Nat) (x y : Rat) : Prop := |x - y| ≤ slack n * y

section Near

variable {n m : Nat} {x y x' y' : Rat}

theorem one_le_growth_pow (n : Nat) : 1 ≤ growth ^ n := one_le_pow₀ (by norm_num [growth])

theorem slack_nonneg (n : Nat) : 0 ≤ slack n := sub_nonneg.mpr (one_le_growth_pow n)

theorem slack_succ (n : Nat) : slack (n + 1) = slack n + 1 / 2 ^ 50 * growth ^ n := by
  rw [slack, slack, pow_succ, growth]
  ring

theorem slack_mono (h : n ≤ m) : slack n ≤ slack m :=
  sub_le_sub_right (pow_le_pow_right₀ (by norm_num [growth]) h) 1

theorem Near.refl (hy : 0 ≤ y) : Near n y y := by
  rw [Near, sub_self, abs_zero]
  exact mul_nonneg (slack_nonneg n) hy

theorem Near.mono (h : Near n x y) (hnm : n ≤ m) (hy : 0 ≤ y) : Near m x y :=
  le_trans h (mul_le_mul_of_nonneg_right (slack_mono hnm) hy)

theorem Near.add (h : Near n x y) (h' : Near n x' y') : Near n (x + x') (y + y') := by
  have hsum := (abs_add_le (x - y) (x' - y')).trans (add_le_add h h')
  rwa [sub_add_sub_comm, ← mul_add] at hsum

theorem Near.trans (h : Near n x x') (h' : Near m x' y) : Near (n + m) x y := by
  have hbetween := abs_sub_le x x' y
  have hupper : x' ≤ growth ^ m * y := by
    have := (abs_le.mp h').2
    rw [slack] at this
    linarith
  have hscaled := mul_le_mul_of_nonneg_left hupper (slack_nonneg n)
  have htotal : slack n * (growth ^ m * y) + slack m * y = slack (n + m) * y := by
    rw [slack, slack, slack, pow_add]
    ring
  unfold Near at h h' ⊢
  linarith

theorem Near.round (h : Near n x y) (hy : 0 ≤ y) : Near (n + 1) (round x) y := by
  have herror := abs_round_sub_le x
  have hbetween := abs_sub_le (Binary64.round x) x y
  have habs : |x| ≤ growth ^ n * y := by
    have := abs_sub_abs_le_abs_sub x y
    rw [abs_of_nonneg hy] at this
    unfold Near at h
    rw [slack] at h
    linarith
  have hpos : 0 ≤ growth ^ n * y := mul_nonneg (le_trans zero_le_one (one_le_growth_pow n)) hy
  unfold Near at h ⊢
  rw [slack_succ]
  linarith

/-- A difference that counts only when it is not negative. -/
theorem near_max_sub (x y : Rat) : Near 1 (max 0 (sub x y)) (max 0 (x - y)) := by
  have herror := abs_round_sub_le (x - y)
  unfold Near sub
  rw [abs_le] at herror ⊢
  have hslack : slack 1 = 1 / 2 ^ 50 := by norm_num [slack, growth]
  rw [hslack]
  rcases le_total 0 (x - y) with hsign | hsign
  · rw [abs_of_nonneg hsign] at herror
    rw [max_eq_right hsign, max_eq_right (by linarith)]
    constructor <;> linarith
  · rw [abs_of_nonpos hsign] at herror
    rw [max_eq_left hsign, max_eq_left (by linarith)]
    simp

/-- What holds of the addends holds of their sum. -/
theorem Near.sum_map {ι : Type*} {f g : ι → Rat} {l : List ι} (h : ∀ i ∈ l, Near n (f i) (g i)) :
    Near n (l.map f).sum (l.map g).sum := by
  induction l with
  | nil => exact Near.refl le_rfl
  | cons i l ih =>
    rw [List.map_cons, List.map_cons, List.sum_cons, List.sum_cons]
    exact (h i List.mem_cons_self).add (ih fun j hj => h j (List.mem_cons_of_mem _ hj))

end Near

/-! ## Compensated sums -/

/-- A compensated sum of numbers whose exact sum is `p`, after `n` addends. -/
structure Compensated (n : Nat) (p : Rat) (acc : Rat × Rat) : Prop where
  nonneg : 0 ≤ acc.1
  upper : acc.1 ≤ growth ^ n * p
  lost : |acc.2| ≤ slack n * p
  near : Near n (acc.1 + acc.2) p

section Sums

variable {n : Nat} {p x f c : Rat} {xs : List Rat}

/-- What the rounding of a sum loses is recovered but for a part of the second order. -/
theorem recovered_near {s : Rat} (hf : 0 ≤ f) (hx : 0 ≤ x) (hs : f + x ≤ s) :
    |add (sub f (add f x)) x - (f + x - add f x)| ≤ 2 / 2 ^ 53 * s ∧ |add (sub f (add f x)) x| ≤ 3 / 2 ^ 53 * s := by
  have ht := abs_round_sub_le (f + x)
  rw [abs_of_nonneg (add_nonneg hf hx)] at ht
  rw [← add] at ht
  generalize add f x = t at ht ⊢
  have hfirst := abs_round_sub_le (f - t)
  rw [← sub] at hfirst
  generalize sub f t = z at hfirst ⊢
  have hsecond := abs_round_sub_le (z + x)
  rw [← add] at hsecond
  generalize add z x = r at hsecond ⊢
  -- the exact error, the first difference and the sum of both are small
  have hloss : |f + x - t| ≤ 1 / 2 ^ 53 * s := by
    rw [abs_sub_comm]
    linarith
  have hdiff : |f - t| ≤ s + 1 / 2 ^ 53 * s := by
    have := abs_add_le (f + x - t) (-x)
    rw [abs_neg, abs_of_nonneg hx, show f + x - t + -x = f - t by ring] at this
    linarith
  have hrest : |z + x| ≤ |f + x - t| + |z - (f - t)| := by
    have := abs_add_le (f + x - t) (z - (f - t))
    rwa [show f + x - t + (z - (f - t)) = z + x by ring] at this
  have hoff : |r - (f + x - t)| ≤ |r - (z + x)| + |z - (f - t)| := by
    have := abs_add_le (r - (z + x)) (z - (f - t))
    rwa [show r - (z + x) + (z - (f - t)) = r - (f + x - t) by ring] at this
  have hall : |r| ≤ |r - (f + x - t)| + |f + x - t| := by
    have := abs_add_le (r - (f + x - t)) (f + x - t)
    rwa [sub_add_cancel] at this
  constructor <;> linarith

theorem sumStep_corrects {s : Rat} (c : Rat) (hf : 0 ≤ f) (hx : 0 ≤ x) (hs : f + x ≤ s) :
    ∃ z, sumStep (f, c) x = (add f x, add c z) ∧ |z - (f + x - add f x)| ≤ 2 / 2 ^ 53 * s ∧ |z| ≤ 3 / 2 ^ 53 * s := by
  unfold sumStep
  dsimp only
  split
  · exact ⟨_, rfl, recovered_near hf hx hs⟩
  · refine ⟨_, rfl, ?_⟩
    have hcomm : add f x = add x f := by rw [add, add, add_comm]
    rw [hcomm, add_comm f x]
    exact recovered_near hx hf (by rwa [add_comm])

/-- **One addend.** -/
theorem Compensated.step {acc : Rat × Rat} (h : Compensated n p acc) (hp : 0 ≤ p) (hx : 0 ≤ x) :
    Compensated (n + 1) (p + x) (sumStep acc x) := by
  obtain ⟨f, c⟩ := acc
  obtain ⟨hf, hupper, hlost, hnear⟩ := h
  dsimp only at hf hupper hlost hnear
  have hone := one_le_growth_pow n
  have hgx : x ≤ growth ^ n * x := le_mul_of_one_le_left hx hone
  have hs : f + x ≤ growth ^ n * (p + x) := by
    rw [mul_add]
    linarith
  obtain ⟨z, heq, hoff, hz⟩ := sumStep_corrects c hf hx hs
  have ht := abs_round_sub_le (f + x)
  rw [abs_of_nonneg (add_nonneg hf hx)] at ht
  rw [← add] at ht
  have hc := abs_round_sub_le (c + z)
  rw [← add] at hc
  have hcz := abs_add_le c z
  have hslack : slack n * p ≤ slack n * (p + x) := mul_le_mul_of_nonneg_left (by linarith) (slack_nonneg n)
  have hsplit : slack n * (p + x) = growth ^ n * (p + x) - (p + x) := by rw [slack, sub_mul, one_mul]
  have hnext : slack (n + 1) * (p + x) = slack n * (p + x) + 1 / 2 ^ 50 * (growth ^ n * (p + x)) := by
    rw [slack_succ, add_mul, mul_assoc]
  have hgrow : growth ^ (n + 1) * (p + x) = growth ^ n * (p + x) + 1 / 2 ^ 50 * (growth ^ n * (p + x)) := by
    rw [pow_succ, growth]
    ring
  rw [heq]
  generalize growth ^ n * (p + x) = s at *
  rw [abs_le] at ht
  constructor
  case nonneg =>
    dsimp only
    linarith
  case upper =>
    dsimp only
    linarith
  case lost =>
    dsimp only
    have := abs_add_le (add c z - (c + z)) (c + z)
    rw [sub_add_cancel] at this
    linarith
  case near =>
    unfold Near at hnear ⊢
    dsimp only
    have hfirst := abs_add_le (f + c - p) (z - (f + x - add f x))
    have hsecond := abs_add_le (f + c - p + (z - (f + x - add f x))) (add c z - (c + z))
    rw [show f + c - p + (z - (f + x - add f x)) + (add c z - (c + z)) = add f x + add c z - (p + x) by ring] at hsecond
    linarith

theorem Compensated.foldl {acc : Rat × Rat} (h : Compensated n p acc) (hp : 0 ≤ p) (hxs : ∀ x ∈ xs, 0 ≤ x) :
    Compensated (n + xs.length) (p + xs.sum) (xs.foldl sumStep acc) := by
  induction xs generalizing n p acc with
  | nil => simpa using h
  | cons x xs ih =>
    have hx := hxs x List.mem_cons_self
    have hrest := ih (h.step hp hx) (add_nonneg hp hx) fun y hy => hxs y (List.mem_cons_of_mem _ hy)
    rw [List.length_cons, List.sum_cons, List.foldl_cons, ← add_assoc p, Nat.add_comm xs.length 1, ← Nat.add_assoc]
    exact hrest

/-- **The compensated sum.** -/
theorem near_sum (hxs : ∀ x ∈ xs, 0 ≤ x) : Near (xs.length + 1) (sum xs) xs.sum := by
  have hsum : 0 ≤ xs.sum := List.sum_nonneg hxs
  cases xs with
  | nil => exact Near.refl le_rfl
  | cons x xs =>
    have hx := hxs x List.mem_cons_self
    have hstart : Compensated 0 x (x, 0) := ⟨hx, by simp, by simp [slack], by simp [Near, slack]⟩
    have hfold := (@Compensated.foldl 0 x xs (x, 0) hstart hx fun y hy => hxs y (List.mem_cons_of_mem _ hy)).near
    rw [← List.sum_cons, Nat.zero_add] at hfold
    unfold sum
    dsimp only
    split
    · rename_i hzero
      rw [hzero, add_zero] at hfold
      refine hfold.mono ?_ hsum
      rw [List.length_cons]
      omega
    · refine (hfold.round hsum).mono ?_ hsum
      rw [List.length_cons]
      omega

end Sums

end Binary64
