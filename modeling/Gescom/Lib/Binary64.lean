import Mathlib.Algebra.Order.BigOperators.Group.List
import Mathlib.Data.Int.Log
import Mathlib.Data.List.Induction
import Mathlib.Data.Rat.Floor
import Mathlib.Tactic.Linarith

/-!
# Numbers of 53 bits

An operation on binary64 numbers gives the number nearest to its exact result, and of two nearest
ones the even one (`nearest`). An integer result stays an integer, and up to 2^53 it stays what it
is: a sum is then the exact sum, in whatever order it is made (`foldl_exact`).
-/

namespace Binary64

/-! ## Rounding -/

/-- The nearest integer, the even one of two. -/
def roundEven (x : ℚ) : Int :=
  let k := ⌊x⌋
  if x - k < 1 / 2 then k
  else if 1 / 2 < x - k then k + 1
  else k + k % 2

@[simp] theorem roundEven_intCast (k : Int) : roundEven k = k := by simp [roundEven]

theorem roundEven_nonpos {x : ℚ} (h : x ≤ 0) : roundEven x ≤ 0 := by
  have hfloor : ⌊x⌋ ≤ 0 := by
    have hlower := Int.floor_le x
    exact_mod_cast hlower.trans h
  by_cases hzero : ⌊x⌋ = 0
  · have hx : x = 0 := le_antisymm h (by simpa [hzero] using Int.floor_le x)
    simp [hx, roundEven]
  · unfold roundEven
    dsimp only
    split_ifs
    · exact hfloor
    · omega
    · omega

/-- The exponent of the last bit: 53 bits, fewer near zero. -/
def ulpExponent (x : ℚ) : Int := max (Int.log 2 |x| - 52) (-1074)

/-- The nearest number, the range of the exponents aside. -/
def nearest (x : ℚ) : ℚ := roundEven (x / 2 ^ ulpExponent x) * 2 ^ ulpExponent x

theorem two_zpow_pos (e : Int) : (0 : ℚ) < 2 ^ e := zpow_pos (by norm_num) e

/-- A multiple of its last bit is a number. -/
theorem nearest_of_multiple {x : ℚ} {m : Int} (h : x = m * 2 ^ ulpExponent x) : nearest x = x := by
  have hquotient : x / 2 ^ ulpExponent x = m := by
    rw [div_eq_iff (two_zpow_pos _).ne']
    exact h
  rw [nearest, hquotient, roundEven_intCast]
  exact h.symm

theorem nearest_nonpos {x : ℚ} (h : x ≤ 0) : nearest x ≤ 0 := by
  have hround : roundEven (x / 2 ^ ulpExponent x) ≤ 0 :=
    roundEven_nonpos (div_nonpos_of_nonpos_of_nonneg h (two_zpow_pos _).le)
  exact mul_nonpos_of_nonpos_of_nonneg (by exact_mod_cast hround) (two_zpow_pos _).le

/-! ## Integers -/

theorem nearest_of_ulpExponent_nonpos {n : Int} (h : ulpExponent (n : ℚ) ≤ 0) :
    nearest (n : ℚ) = n := by
  obtain ⟨k, hk⟩ := Int.exists_eq_neg_ofNat h
  refine nearest_of_multiple (m := n * 2 ^ k) ?_
  rw [hk, Int.cast_mul, Int.cast_pow, Int.cast_ofNat, zpow_neg, zpow_natCast, mul_assoc,
    mul_inv_cancel₀ (pow_ne_zero k two_ne_zero), mul_one]

theorem nearest_intCast {n : Int} (h : |n| ≤ 2 ^ 53) : nearest (n : ℚ) = n := by
  rcases h.lt_or_eq with hlt | heq
  · refine nearest_of_ulpExponent_nonpos ?_
    have hlog : Int.log 2 |(n : ℚ)| < 53 := by
      by_cases hzero : n = 0
      · simp [hzero]
      · refine (Int.lt_zpow_iff_log_lt one_lt_two (by simpa using hzero)).1 ?_
        exact_mod_cast hlt
    exact max_le (by omega) (by omega)
  · -- the least number whose last bit is worth two
    rcases eq_or_eq_neg_of_abs_eq heq with rfl | rfl
    · decide +kernel
    · decide +kernel

/-- An integer result is rounded to an integer. -/
theorem nearest_integral (n : Int) : ∃ m : Int, nearest (n : ℚ) = m := by
  by_cases hexponent : ulpExponent (n : ℚ) ≤ 0
  · exact ⟨n, nearest_of_ulpExponent_nonpos hexponent⟩
  · obtain ⟨k, hk⟩ := Int.eq_ofNat_of_zero_le (not_le.1 hexponent).le
    refine ⟨roundEven ((n : ℚ) / 2 ^ k) * 2 ^ k, ?_⟩
    rw [nearest, hk, zpow_natCast]
    push_cast
    rfl

/-! ## Sums -/

/-- A loop that adds integers up to a bound without error gives their sum. -/
theorem foldl_exact {S : Type} (value : Int → S) {add : S → Int → S} {bound : Int}
    (hadd : ∀ s n, |n| ≤ bound → |s + n| ≤ bound → add (value s) n = value (s + n))
    (ns : List Int) (s : Int) (h : |s| + (ns.map fun n => |n|).sum ≤ bound) :
    ns.foldl add (value s) = value (s + ns.sum) := by
  induction ns generalizing s with
  | nil => simp
  | cons n ns ih =>
    rw [List.map_cons, List.sum_cons] at h
    have hrest : 0 ≤ (ns.map fun n => |n|).sum :=
      List.sum_nonneg fun x hx => by
        obtain ⟨n, -, rfl⟩ := List.mem_map.1 hx
        exact abs_nonneg n
    have hstep : |s + n| ≤ |s| + |n| := abs_add_le s n
    have hs : 0 ≤ |s| := abs_nonneg s
    rw [List.foldl_cons, hadd s n (by omega) (by omega), ih (s + n) (by omega), List.sum_cons,
      Int.add_assoc]

/-- How an arithmetic rounds its results. -/
structure Rounding where
  round : ℚ → ℚ
  integral : ∀ n : Int, ∃ m : Int, round n = m

namespace Rounding

def exact : Rounding := ⟨id, fun n => ⟨n, rfl⟩⟩

def binary64 : Rounding := ⟨nearest, nearest_integral⟩

/-- An integer result. -/
def int (R : Rounding) (n : Int) : Int := ⌊R.round n⌋

theorem cast_int (R : Rounding) (n : Int) : (R.int n : ℚ) = R.round n := by
  obtain ⟨m, hm⟩ := R.integral n
  rw [int, hm, Int.floor_intCast]

@[simp] theorem exact_round (x : ℚ) : exact.round x = x := rfl

@[simp] theorem exact_int (n : Int) : exact.int n = n := Int.floor_intCast n

theorem binary64_int {n : Int} (h : |n| ≤ 2 ^ 53) : binary64.int n = n := by
  have hround : binary64.round n = n := nearest_intCast h
  exact_mod_cast (binary64.cast_int n).trans hround

/-- The sum of a loop. -/
def sum (R : Rounding) (ns : List Int) : Int := ns.foldl (fun s n => R.int (s + n)) 0

theorem sum_concat (R : Rounding) (ns : List Int) (n : Int) :
    R.sum (ns ++ [n]) = R.int (R.sum ns + n) := by
  simp [sum]

theorem exact_sum (ns : List Int) : exact.sum ns = ns.sum := by
  induction ns using List.reverseRecOn with
  | nil => rfl
  | append_singleton ns n ih => rw [sum_concat, ih, exact_int, List.sum_append, List.sum_singleton]

theorem binary64_sum {ns : List Int} (h : (ns.map fun n => |n|).sum ≤ 2 ^ 53) :
    binary64.sum ns = ns.sum := by
  have hfold : binary64.sum ns = 0 + ns.sum :=
    foldl_exact (fun s => s) (fun _ _ _ hsum => binary64_int hsum) ns 0 (by simpa using h)
  rw [hfold, Int.zero_add]

/-- 2^53 + 1 is no number. -/
example : binary64.int (2 ^ 53 + 1) = 2 ^ 53 := by decide +kernel

end Rounding

/-! ## Numbers -/

/-- A binary64 number, up to the sign of zero. -/
inductive Number where
  | nan
  | infinite (negative : Bool)
  | finite (value : ℚ)
  deriving DecidableEq, Repr

namespace Number

/-- The number an exact result is rounded to: from 2^1024 on, an infinity. -/
def ofExact (x : ℚ) : Number :=
  if |nearest x| < 2 ^ 1024 then .finite (nearest x) else .infinite (decide (x < 0))

def add : Number → Number → Number
  | .finite x, .finite y => ofExact (x + y)
  | .infinite s, .infinite s' => if s = s' then .infinite s else .nan
  | .infinite s, .finite _ | .finite _, .infinite s => .infinite s
  | .nan, _ | _, .nan => .nan

/-- `===`. -/
def equal : Number → Number → Bool
  | .finite x, .finite y => decide (x = y)
  | .infinite s, .infinite s' => decide (s = s')
  | _, _ => false

/-- `> 0`. -/
def positive : Number → Bool
  | .finite x => decide (0 < x)
  | .infinite negative => !negative
  | .nan => false

/-- `<= 0`. -/
def nonpositive : Number → Bool
  | .finite x => decide (x ≤ 0)
  | .infinite negative => negative
  | .nan => false

theorem equal_iff {a b : Number} : a.equal b = true ↔ a = b ∧ a ≠ .nan := by
  cases a <;> cases b <;> simp [equal]

theorem nonpositive_eq {a : Number} (h : a ≠ .nan) : a.nonpositive = !a.positive := by
  cases a with
  | nan => exact absurd rfl h
  | infinite negative => simp [nonpositive, positive]
  | finite x => simp [nonpositive, positive, ← decide_not, not_lt]

/-- `reduce((sum, n) => sum + n, 0)`. -/
def sum (ns : List Int) : Number :=
  ns.foldl (fun (s : Number) (n : Int) => s.add (ofExact n)) (.finite 0)

theorem ofExact_intCast {n : Int} (h : |n| ≤ 2 ^ 53) : ofExact n = .finite n := by
  have hsmall : |(n : ℚ)| < 2 ^ 1024 := by
    have hbound : |(n : ℚ)| ≤ 2 ^ 53 := by exact_mod_cast h
    exact hbound.trans_lt (pow_lt_pow_right₀ one_lt_two (by decide))
  rw [ofExact, nearest_intCast h, if_pos hsmall]

/-- Small integers add up to their sum. -/
theorem sum_exact {ns : List Int} (h : (ns.map fun n => |n|).sum ≤ 2 ^ 53) :
    sum ns = .finite ns.sum := by
  have hadd : ∀ s n : Int, |n| ≤ 2 ^ 53 → |s + n| ≤ 2 ^ 53 →
      (Number.finite s).add (ofExact n) = .finite ((s + n : Int) : ℚ) := by
    intro s n hn hsum
    rw [ofExact_intCast hn, add, ← Int.cast_add, ofExact_intCast hsum]
  have hfold : sum ns = .finite ((0 + ns.sum : Int) : ℚ) :=
    foldl_exact (fun s => Number.finite s) hadd ns 0 (by simpa using h)
  rw [hfold, Int.zero_add]

theorem ofExact_nonpos {x : ℚ} (h : x ≤ 0) : (ofExact x).positive = false := by
  unfold ofExact
  split
  · simpa [positive] using nearest_nonpos h
  · rename_i hlarge
    have hx : x ≠ 0 := by
      rintro rfl
      exact hlarge (by decide +kernel)
    simpa [positive] using lt_of_le_of_ne h hx

/-- The sum of one integer has its sign. -/
theorem pos_of_positive_sum {n : Int} (h : (sum [n]).positive = true) : 0 < n := by
  by_contra hn
  have hnonpos : (n : ℚ) ≤ 0 := by exact_mod_cast not_lt.1 hn
  have hterm := ofExact_nonpos hnonpos
  have hsum : (sum [n]).positive = false := by
    rw [sum, List.foldl_cons, List.foldl_nil]
    cases hvalue : ofExact (n : ℚ) with
    | nan => rfl
    | infinite negative =>
      rw [hvalue] at hterm
      exact hterm
    | finite v =>
      rw [hvalue] at hterm
      refine ofExact_nonpos ?_
      simpa [positive] using hterm
  rw [hsum] at h
  cases h

end Number

end Binary64
