import Mathlib.Algebra.Order.Archimedean.Basic
import Mathlib.Data.Int.Log
import Mathlib.Data.Rat.Floor
import Mathlib.Tactic.FieldSimp
import Mathlib.Tactic.Linarith
import Mathlib.Tactic.Positivity
import Mathlib.Tactic.NormNum
import Mathlib.Tactic.Ring

/-! Double-precision numbers that are not negative, as the rationals they stand for: 53
significant bits, rounded to the nearest and from the middle to the even neighbour. The range of
the exponents is left open. -/
namespace Lib.Double

/-- The nearest integer; half-way between two, the even one. -/
def nearest (q : ℚ) : ℤ :=
  let up := ⌊q + 1 / 2⌋
  if (up : ℚ) = q + 1 / 2 ∧ up % 2 = 1 then up - 1 else up

/-- The distance of neighbours in the binade of a number. -/
def ulp (q : ℚ) : ℚ := 2 ^ (Int.log 2 q - 52)

def round (q : ℚ) : ℚ := nearest (q / ulp q) * ulp q

/-- A multiple of a power of two by at most 53 bits. -/
def IsDouble (q : ℚ) : Prop := ∃ (m : ℕ) (e : ℤ), m < 2 ^ 53 ∧ q = m * 2 ^ e

section Nearest

variable {p q : ℚ}

theorem nearest_error (q : ℚ) : |nearest q - q| ≤ 1 / 2 := by
  have below := Int.floor_le (q + 1 / 2)
  have above := Int.lt_floor_add_one (q + 1 / 2)
  unfold nearest
  dsimp only
  rw [abs_le]
  split
  next tie =>
    push_cast
    constructor <;> linarith [tie.1]
  next => constructor <;> linarith

theorem nearest_intCast (n : ℤ) : nearest n = n := by
  have up : ⌊(n : ℚ) + 1 / 2⌋ = n := Int.floor_eq_iff.mpr ⟨by linarith, by linarith⟩
  unfold nearest
  dsimp only
  rw [up, if_neg]
  rintro ⟨half, -⟩
  linarith

theorem nearest_mono (le : p ≤ q) : nearest p ≤ nearest q := by
  have floors : ⌊p + 1 / 2⌋ ≤ ⌊q + 1 / 2⌋ := Int.floor_le_floor (by linarith)
  unfold nearest
  dsimp only
  split
  · split <;> omega
  next untied =>
    split
    next tie =>
      -- a smaller number that rounds up as far would be the same one
      rcases floors.lt_or_eq with less | same
      · omega
      · have reached := Int.floor_le (p + 1 / 2)
        rw [same, tie.1] at reached
        obtain rfl : p = q := by linarith
        exact absurd tie untied
    next => exact floors

theorem nearest_nonneg (nonneg : 0 ≤ q) : 0 ≤ nearest q := by
  simpa using (nearest_intCast 0).symm.le.trans (nearest_mono (p := ((0 : ℤ) : ℚ)) (by simpa using nonneg))

/-- Of a number that is not negative nothing is left up to the middle. -/
theorem nearest_eq_zero_iff (nonneg : 0 ≤ q) : nearest q = 0 ↔ q ≤ 1 / 2 := by
  constructor
  · intro zero
    have error := (abs_le.mp (nearest_error q)).1
    rw [zero, Int.cast_zero] at error
    linarith
  · intro small
    refine le_antisymm ?_ (nearest_nonneg nonneg)
    have half : nearest (1 / 2) = 0 := by
      have up : ⌊(1 / 2 : ℚ) + 1 / 2⌋ = 1 := by norm_num
      unfold nearest
      dsimp only
      rw [up]
      norm_num
    exact (nearest_mono small).trans half.le

end Nearest

section Binade

variable {q : ℚ} {e : ℤ}

theorem two_zpow_pos (e : ℤ) : (0 : ℚ) < 2 ^ e := zpow_pos (by norm_num) e

theorem two_zpow_le {e f : ℤ} (le : e ≤ f) : (2 : ℚ) ^ e ≤ 2 ^ f :=
  zpow_le_zpow_right₀ (by norm_num) le

theorem ulp_pos (q : ℚ) : 0 < ulp q := two_zpow_pos _

theorem ulp_mul (q : ℚ) (k : ℕ) : 2 ^ k * ulp q = 2 ^ (Int.log 2 q - 52 + k) := by
  rw [ulp, zpow_add₀ (by norm_num : (2 : ℚ) ≠ 0), zpow_natCast, mul_comm]

theorem binade_le (positive : 0 < q) : 2 ^ 52 * ulp q ≤ q := by
  rw [ulp_mul]
  simpa using Int.zpow_log_le_self (b := 2) (by norm_num) positive

theorem lt_binade (q : ℚ) : q < 2 ^ 53 * ulp q := by
  rw [ulp_mul, show Int.log 2 q - 52 + (53 : ℕ) = Int.log 2 q + 1 by push_cast; ring]
  exact_mod_cast Int.lt_zpow_succ_log_self (b := 2) (by norm_num) q

end Binade

section Round

variable {p q : ℚ}

@[simp] theorem round_zero : round 0 = 0 := by
  have none : nearest 0 = 0 := by exact_mod_cast nearest_intCast 0
  simp [round, none]

/-- Half an ulp, and so half of the last bit. -/
theorem round_error (positive : 0 < q) : |round q - q| ≤ q / 2 ^ 53 := by
  have pos := ulp_pos q
  have scaled : round q - q = (nearest (q / ulp q) - q / ulp q) * ulp q := by
    rw [round, sub_mul, div_mul_cancel₀ _ pos.ne']
  calc |round q - q| = |nearest (q / ulp q) - q / ulp q| * ulp q := by
        rw [scaled, abs_mul, abs_of_pos pos]
    _ ≤ 1 / 2 * ulp q := mul_le_mul_of_nonneg_right (nearest_error _) pos.le
    _ ≤ q / 2 ^ 53 := by
        have low := binade_le positive
        rw [le_div_iff₀ (by positivity)]
        linarith

theorem round_le_binade (q : ℚ) : round q ≤ 2 ^ 53 * ulp q := by
  have small : q / ulp q ≤ ((2 ^ 53 : ℤ) : ℚ) := by
    rw [div_le_iff₀ (ulp_pos q)]
    push_cast
    exact (lt_binade q).le
  have bound := nearest_mono small
  rw [nearest_intCast] at bound
  exact mul_le_mul_of_nonneg_right (by exact_mod_cast bound) (ulp_pos q).le

theorem binade_le_round (positive : 0 < q) : 2 ^ 52 * ulp q ≤ round q := by
  have large : ((2 ^ 52 : ℤ) : ℚ) ≤ q / ulp q := by
    rw [le_div_iff₀ (ulp_pos q)]
    push_cast
    exact binade_le positive
  have bound := nearest_mono large
  rw [nearest_intCast] at bound
  exact mul_le_mul_of_nonneg_right (by exact_mod_cast bound) (ulp_pos q).le

theorem round_nonneg (nonneg : 0 ≤ q) : 0 ≤ round q := by
  rcases nonneg.eq_or_lt with rfl | positive
  · rw [round_zero]
  · exact (mul_nonneg (by norm_num) (ulp_pos q).le).trans (binade_le_round positive)

theorem round_mono (nonneg : 0 ≤ p) (le : p ≤ q) : round p ≤ round q := by
  rcases nonneg.eq_or_lt with rfl | positive
  · rw [round_zero]
    exact round_nonneg le
  · have binades := Int.log_mono_right (b := 2) positive le
    rcases binades.lt_or_eq with less | same
    · -- the power of two between the binades is a double
      calc round p ≤ 2 ^ 53 * ulp p := round_le_binade _
        _ ≤ 2 ^ 52 * ulp q := by
            rw [ulp_mul, ulp_mul]
            exact two_zpow_le (by push_cast; omega)
        _ ≤ round q := binade_le_round (positive.trans_le le)
    · have units : ulp p = ulp q := by rw [ulp, ulp, same]
      rw [round, round, units]
      refine mul_le_mul_of_nonneg_right ?_ (ulp_pos q).le
      exact_mod_cast nearest_mono (div_le_div_of_nonneg_right le (ulp_pos q).le)

theorem round_eq_self (double : IsDouble q) : round q = q := by
  obtain ⟨m, e, bits, rfl⟩ := double
  rcases Nat.eq_zero_or_pos m with rfl | nonzero
  · simp
  · have positive : (0 : ℚ) < m * 2 ^ e := mul_pos (by exact_mod_cast nonzero) (two_zpow_pos e)
    have high : (m : ℚ) * 2 ^ e < 2 ^ (53 + e) := by
      rw [zpow_add₀ (by norm_num)]
      exact mul_lt_mul_of_pos_right (by exact_mod_cast bits) (two_zpow_pos e)
    have log : Int.log 2 ((m : ℚ) * 2 ^ e) < 53 + e :=
      (Int.lt_zpow_iff_log_lt (b := 2) (by norm_num) positive).mp (by exact_mod_cast high)
    -- the ulp divides the power of two
    obtain ⟨k, gap⟩ := Int.eq_ofNat_of_zero_le (a := e - (Int.log 2 ((m : ℚ) * 2 ^ e) - 52)) (by omega)
    have whole : (m : ℚ) * 2 ^ e / ulp (m * 2 ^ e) = ((m * 2 ^ k : ℕ) : ℤ) := by
      rw [div_eq_iff (ulp_pos _).ne']
      push_cast
      rw [mul_assoc, ulp_mul]
      congr 2
      omega
    rw [round, whole, nearest_intCast, ← whole, div_mul_cancel₀ _ (ulp_pos _).ne']

theorem isDouble_natCast {n : ℕ} (small : n < 2 ^ 53) : IsDouble n := ⟨n, 0, small, by simp⟩

theorem isDouble_round (nonneg : 0 ≤ q) : IsDouble (round q) := by
  rcases nonneg.eq_or_lt with rfl | positive
  · exact ⟨0, 0, by norm_num, by simp⟩
  · have low : 0 ≤ nearest (q / ulp q) := by
      have bound := nearest_mono (div_nonneg nonneg (ulp_pos q).le)
      rwa [show nearest 0 = 0 by exact_mod_cast nearest_intCast 0] at bound
    obtain ⟨m, mantissa⟩ := Int.eq_ofNat_of_zero_le low
    have value : round q = m * ulp q := by
      rw [round, mantissa]
      simp
    have bound := round_le_binade q
    rw [value] at bound
    have bits : m ≤ 2 ^ 53 := by exact_mod_cast le_of_mul_le_mul_right bound (ulp_pos q)
    rcases bits.lt_or_eq with less | carried
    · exact ⟨m, _, less, value⟩
    · refine ⟨1, 53 + (Int.log 2 q - 52), by norm_num, ?_⟩
      rw [value, carried, zpow_add₀ (by norm_num), ulp]
      norm_num

@[simp] theorem round_round (nonneg : 0 ≤ q) : round (round q) = round q :=
  round_eq_self (isDouble_round nonneg)

end Round
end Lib.Double
