import Tether.Backoff
import Tether.Proofs.Rounding

/-!
# No delay is longer than the cap

The cap is compared with the computed delay as a binary number, and may be rounded up for that. A
computed delay below the rounded cap is rounded once more, to whole nanoseconds. Neither lets it
pass the cap itself: a number of the format that is below the rounded cap is below the cap too,
since otherwise the cap would have been rounded to that number or below it; and the cap is a whole
number, so that rounding to whole numbers does not lead beyond it.
-/

namespace Tether

namespace Binary64

theorem value_of_positive (m : ℕ) (q : ℤ) : value (finite false m q) = m * 2 ^ q := one_mul _

/-- What is below a whole number after that was rounded is below it before. -/
theorem value_lt_of_lt_ofNat {m n : ℕ} {q : ℤ} (hm : Canonical m q)
    (h : (ofNat n).le (finite false m q) = false) : value (finite false m q) < n := by
  have hself := Covers.self m q
  rw [value_of_positive]
  rcases nearest_cases false n one_pos 0 with ⟨k, r, hk, hcanonical, hcovers⟩ | ⟨-, hbig⟩
  · by_contra hle
    have hcovers : Covers k r n := by simpa using hcovers
    -- Rounding is monotone, and the number below rounds to itself.
    have hrounded := hcovers.le_of_le hcanonical hm hself (not_lt.mp hle)
    have htrue : (ofNat n).le (finite false m q) = true := by
      rw [show ofNat n = finite false k r from hk, le_finite_iff, value_of_positive,
        value_of_positive]
      exact hrounded
    rw [h] at htrue
    cases htrue
  · have hbig : overflowBound ≤ n := by simpa using hbig
    exact (hself.lt_overflowBound hm).trans_le hbig

/-- Rounding to a whole number does not lead beyond a whole number. -/
theorem toWord_le_of_value_lt {m n : ℕ} {q : ℤ} (h : value (finite false m q) < n) :
    (finite false m q).toWord ≤ n := by
  rw [value_of_positive, zpow_eq_div, mul_div_assoc', div_lt_iff₀ (by positivity)] at h
  have h : m * 2 ^ q.toNat < n * 2 ^ (-q).toNat := by exact_mod_cast h
  by_cases hq : 0 ≤ q
  · have hword : (finite false m q).toWord = min (m * 2 ^ q.toNat) (2 ^ 64 - 1) := by
      simp [toWord, hq]
    rw [hword]
    rw [show (-q).toNat = 0 by omega, pow_zero, mul_one] at h
    omega
  · have hword : (finite false m q).toWord =
        min ((2 * m + 2 ^ (-q).toNat) / (2 * 2 ^ (-q).toNat)) (2 ^ 64 - 1) := by
      simp [toWord, hq]
    rw [hword]
    rw [show q.toNat = 0 by omega, pow_zero, mul_one] at h
    have hunit : 0 < 2 ^ (-q).toNat := Nat.two_pow_pos _
    generalize 2 ^ (-q).toNat = unit at h hunit ⊢
    have hdiv : (2 * m + unit) / (2 * unit) ≤ n := by
      refine Nat.le_of_lt_succ ((Nat.div_lt_iff_lt_mul (Nat.mul_pos two_pos hunit)).mpr ?_)
      linarith
    omega

end Binary64

namespace Curve

open Binary64

/-- The delay that comes of a computed number of nanoseconds. -/
def capped (c : Curve) (nanos : Binary64) : Duration :=
  if nanos.isFinite && !(c.cap.toBinary.le nanos) then ⟨nanos.toWord⟩ else c.cap

/-- The computed number of nanoseconds after so many failures. -/
def product (c : Curve) (failures : Nat) : Binary64 :=
  c.base.toBinary.mul (c.multiplier.power (min failures exponentMax))

theorem delay_eq_capped (c : Curve) (failures : Nat) :
    c.delay failures = c.capped (c.product failures) := rfl

/-- Whatever number is computed, the delay that comes of it is not longer than the cap. -/
theorem capped_le (c : Curve) {nanos : Binary64} (h : nanos.WellFormed) :
    (c.capped nanos).nanos ≤ c.cap.nanos := by
  unfold capped
  split
  · next hbelow =>
    obtain ⟨hfinite, hbelow⟩ := Bool.and_eq_true_iff.mp hbelow
    have hbelow : c.cap.toBinary.le nanos = false := by simpa using hbelow
    cases nanos with
    | nan | infinite => cases hfinite
    | finite negative m q =>
      cases negative with
      | true => exact Nat.zero_le _
      | false => exact toWord_le_of_value_lt (value_lt_of_lt_ofNat h hbelow)
  · exact Nat.le_refl _

/-- No delay is longer than the cap, whatever the base, the multiplier and the number of failures.
The bound does not depend on the product that is computed: it holds for what is made of any number
of the format, infinities and the value that is no number included. -/
theorem delay_le_cap (c : Curve) :
    (∀ failures, (c.delay failures).nanos ≤ c.cap.nanos) ∧
    (∀ failures, c.delay failures = c.capped (c.product failures)) ∧
    ∀ nanos : Binary64, nanos.WellFormed → (c.capped nanos).nanos ≤ c.cap.nanos := by
  refine ⟨fun failures => ?_, c.delay_eq_capped, fun nanos => c.capped_le⟩
  rw [delay_eq_capped]
  exact c.capped_le (wellFormed_mul _ _)

/-- The cap is rounded up by one nanosecond, and the delay is the longest below that. -/
example :
    let c : Curve := ⟨⟨9007199254740994⟩, one, ⟨9007199254740995⟩⟩
    c.cap.toBinary.toWord = 9007199254740996 ∧ (c.delay 7).nanos = 9007199254740994 := by
  decide +kernel

end Curve

end Tether
