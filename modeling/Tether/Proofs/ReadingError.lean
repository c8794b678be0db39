import Tether.Json.Number
import Tether.Proofs.Rounding

/-!
# How far a decimal is missed when it is read

A decimal `N * 10 ^ power` is read in three roundings: its digits `N` and the power of ten become
binary numbers, and so does their product or quotient. Small powers of ten are exact, so a quotient
has only two roundings to bear. If the decimal rounds to `m * 2 ^ q`, what is read lies within two
units of the last place of it, `shiftPoint_near`; and where the digits are exact as well, it is
`m * 2 ^ q` itself, `shiftPoint_exact`.
-/

namespace Tether.Json

open Binary64 (Covers Canonical overflowBound two_zpow_pos two_zpow_le nearest_cases
  nearest_of_covers)

/-! ## Whole numbers -/

theorem nearest_natural {n : ℕ} (hn : (n : ℚ) < overflowBound) :
    ∃ a i, Binary64.nearest false n 1 0 = .finite false a i ∧ Canonical a i ∧ Covers a i n := by
  have hvalue : (n : ℚ) / (1 : ℕ) * 2 ^ (0 : ℤ) = n := by simp
  rcases nearest_cases false n one_pos 0 with ⟨a, i, heq, ha, hcovers⟩ | ⟨-, hbig⟩
  · rw [hvalue] at hcovers
    exact ⟨a, i, heq, ha, hcovers⟩
  · rw [hvalue] at hbig
    exact absurd hbig (not_le_of_gt hn)

/-- A whole number is moved by at most one part in `2 ^ 53` of the power of two below it. -/
theorem abs_sub_le_log2 {n a : ℕ} {i : ℤ} (ha : Canonical a i) (h : Covers a i n) :
    |(n : ℚ) - a * 2 ^ i| ≤ 2 ^ n.log2 / 2 ^ 53 := by
  have hlt : (n : ℚ) < 2 ^ 53 * 2 ^ ((n.log2 : ℤ) - 52) := by
    have hlt : (n : ℚ) < 2 ^ (n.log2 + 1) := by exact_mod_cast Nat.lt_log2_self
    rw [zpow_sub₀ two_ne_zero, zpow_natCast]
    norm_num
    rw [pow_succ] at hlt
    linarith
  have hleast : Binary64.minExponent ≤ (n.log2 : ℤ) - 52 := by
    unfold Binary64.minExponent
    omega
  have hle := h.abs_sub_le_of_lt ha hleast hlt
  have hunit : (2 : ℚ) ^ ((n.log2 : ℤ) - 52) / 2 = 2 ^ n.log2 / 2 ^ 53 := by
    rw [zpow_sub₀ two_ne_zero, zpow_natCast]
    norm_num
    ring
  rwa [hunit] at hle

/-- A whole number with a short odd part is a number of the format. -/
theorem nearest_natural_exact {k j n : ℕ} (hk : k < 2 ^ 53) (hj : j ≤ 900) (hn : n = k * 2 ^ j) :
    ∃ a i, Binary64.nearest false n 1 0 = .finite false a i ∧ Canonical a i ∧
      (a : ℚ) * 2 ^ i = n := by
  obtain ⟨a, i, ha, heq⟩ := Canonical.exists_eq hk
    (by unfold Binary64.minExponent; omega : Binary64.minExponent ≤ (j : ℤ))
    (by unfold Binary64.maxExponent; omega)
  have hvalue : (a : ℚ) * 2 ^ i = n := by
    rw [heq, hn]
    push_cast
    rw [zpow_natCast]
  refine ⟨a, i, nearest_of_covers ha false n one_pos 0 ?_, ha, hvalue⟩
  have hself := Covers.self a i
  rw [hvalue] at hself
  simpa using hself

theorem powerOfTen_exact {k : ℕ} (hk : k ≤ 22) :
    ∃ b j, powerOfTen k = .finite false b j ∧ Canonical b j ∧ (b : ℚ) * 2 ^ j = 10 ^ k := by
  have hfive : 5 ^ k < 2 ^ 53 :=
    calc 5 ^ k ≤ 5 ^ 22 := Nat.pow_le_pow_right (by decide) hk
      _ < 2 ^ 53 := by norm_num
  have hten : Nat.pow 10 k = 5 ^ k * 2 ^ k := by
    rw [Nat.pow_eq, ← Nat.mul_pow]
  obtain ⟨b, j, heq, hb, hvalue⟩ := nearest_natural_exact hfive (by omega) hten
  refine ⟨b, j, heq, hb, ?_⟩
  rw [hvalue, Nat.pow_eq]
  push_cast
  rfl

theorem ten_pow_lt_overflowBound {k : ℕ} (hk : k ≤ 308) :
    ((Nat.pow 10 k : ℕ) : ℚ) < overflowBound := by
  have hmono : ∀ l b, k ≤ l → Nat.pow 10 l ≤ b → Nat.pow 10 k ≤ b :=
    fun _ _ hkl hlb => (Nat.pow_le_pow_right (by decide) hkl).trans hlb
  have hle : Nat.pow 10 k ≤ (2 ^ 53 - 1) * 2 ^ 971 := hmono 308 _ hk (by decide +kernel)
  have hle : ((Nat.pow 10 k : ℕ) : ℚ) ≤ ((2 ^ 53 - 1 : ℕ) : ℚ) * 2 ^ 971 := by
    exact_mod_cast hle
  apply hle.trans_lt
  rw [overflowBound, show Binary64.maxExponent = ((971 : ℕ) : ℤ) from rfl, zpow_natCast]
  apply mul_lt_mul_of_pos_right _ (by positivity)
  norm_num

/-! ## Products and quotients -/

/-- The error of a product of two approximations. -/
theorem abs_mul_sub_mul_le {x y a b δ ε : ℚ} (hx : 0 ≤ x) (hy : 0 ≤ y) (ha : |x - a| ≤ δ)
    (hb : |y - b| ≤ ε) : |x * y - a * b| ≤ δ * y + ε * x + δ * ε := by
  have hδ : 0 ≤ δ := (abs_nonneg _).trans ha
  have heq : x * y - a * b = (x - a) * y + (y - b) * x - (x - a) * (y - b) := by ring
  have hfirst : |(x - a) * y| ≤ δ * y := by
    rw [abs_mul, abs_of_nonneg hy]
    exact mul_le_mul_of_nonneg_right ha hy
  have hsecond : |(y - b) * x| ≤ ε * x := by
    rw [abs_mul, abs_of_nonneg hx]
    exact mul_le_mul_of_nonneg_right hb hx
  have hthird : |(x - a) * (y - b)| ≤ δ * ε := by
    rw [abs_mul]
    exact mul_le_mul ha hb (abs_nonneg _) hδ
  rw [heq]
  calc |(x - a) * y + (y - b) * x - (x - a) * (y - b)|
      ≤ |(x - a) * y + (y - b) * x| + |(x - a) * (y - b)| := abs_sub _ _
    _ ≤ |(x - a) * y| + |(y - b) * x| + |(x - a) * (y - b)| := by
        linarith [abs_add_le ((x - a) * y) ((y - b) * x)]
    _ ≤ δ * y + ε * x + δ * ε := by linarith

/-- The product of two rounded whole numbers misses what their product rounds to by two units. -/
theorem mul_near {n t a b m : ℕ} {i j q : ℤ} (hn : 0 < n) (ht : 0 < t) (ha : Canonical a i)
    (hna : Covers a i n) (hb : Canonical b j) (htb : Covers b j t) (hm : Canonical m q)
    (h : Covers m q (n * t)) : |(a : ℚ) * 2 ^ i * (b * 2 ^ j) - m * 2 ^ q| ≤ 2 * 2 ^ q := by
  have hq := two_zpow_pos q
  have hna := abs_sub_le_log2 ha hna
  have htb := abs_sub_le_log2 hb htb
  have hnlow : (2 : ℚ) ^ n.log2 ≤ n := by exact_mod_cast Nat.log2_self_le hn.ne'
  have hnhigh : (n : ℚ) ≤ 2 * 2 ^ n.log2 := by
    rw [← pow_succ']
    exact_mod_cast (Nat.lt_log2_self).le
  have htlow : (2 : ℚ) ^ t.log2 ≤ t := by exact_mod_cast Nat.log2_self_le ht.ne'
  have hthigh : (t : ℚ) ≤ 2 * 2 ^ t.log2 := by
    rw [← pow_succ']
    exact_mod_cast (Nat.lt_log2_self).le
  have htop := h.lt_top hm
  have herror := abs_mul_sub_mul_le n.cast_nonneg t.cast_nonneg hna htb
  -- The two leading bits add up to the leading bit of the product, or fall short of it by one.
  have hunits : (2 : ℚ) ^ n.log2 * 2 ^ t.log2 = 2 ^ ((n.log2 : ℤ) + t.log2) := by
    rw [zpow_add₀ two_ne_zero, zpow_natCast, zpow_natCast]
  have hprod : (2 : ℚ) ^ n.log2 * 2 ^ t.log2 ≤ n * t :=
    mul_le_mul hnlow htlow (by positivity) n.cast_nonneg
  have hbits : (n.log2 : ℤ) + t.log2 < q + 53 := by
    apply (zpow_lt_zpow_iff_right₀ (one_lt_two : (1 : ℚ) < 2)).mp
    rw [← hunits, zpow_add₀ two_ne_zero, show (53 : ℤ) = ((53 : ℕ) : ℤ) from rfl, zpow_natCast]
    linarith
  have hcross : (2 : ℚ) ^ n.log2 * t + 2 ^ t.log2 * n ≤ 2 ^ n.log2 * 2 ^ t.log2 + n * t := by
    linarith [mul_nonneg (sub_nonneg.mpr hnlow) (sub_nonneg.mpr htlow)]
  have hfirst : (2 : ℚ) ^ n.log2 * t ≤ 2 * (2 ^ n.log2 * 2 ^ t.log2) := by
    linarith [mul_le_mul_of_nonneg_left hthigh (by positivity : (0 : ℚ) ≤ 2 ^ n.log2)]
  have hsecond : (2 : ℚ) ^ t.log2 * n ≤ 2 * (2 ^ n.log2 * 2 ^ t.log2) := by
    linarith [mul_le_mul_of_nonneg_left hnhigh (by positivity : (0 : ℚ) ≤ 2 ^ t.log2)]
  have hproduct : |(n : ℚ) * t - a * 2 ^ i * (b * 2 ^ j)| ≤ 3 / 2 * 2 ^ q := by
    rcases Int.lt_or_eq_of_le (by omega : (n.log2 : ℤ) + t.log2 ≤ q + 52) with hless | heq
    · have hle : (2 : ℚ) ^ n.log2 * 2 ^ t.log2 ≤ 2 ^ 51 * 2 ^ q := by
        rw [hunits, ← Binary64.two_zpow_add]
        exact two_zpow_le (by push_cast; omega)
      linarith
    · have hle : (2 : ℚ) ^ n.log2 * 2 ^ t.log2 = 2 ^ 52 * 2 ^ q := by
        rw [hunits, ← Binary64.two_zpow_add, heq]
        norm_num
      linarith
  have hround := h.abs_sub_le
  rw [abs_le] at *
  exact ⟨by linarith, by linarith⟩

/-- The quotient of a rounded whole number by an exact one misses what the quotient rounds to by
less than two units. -/
theorem div_near {n a m : ℕ} {i q : ℤ} {t : ℚ} (hn : 0 < n) (ht : 0 < t) (ha : Canonical a i)
    (hna : Covers a i n) (hm : Canonical m q) (h : Covers m q (n / t)) :
    |(a : ℚ) * 2 ^ i / t - m * 2 ^ q| ≤ 2 * 2 ^ q := by
  have hq := two_zpow_pos q
  have hnlow : (2 : ℚ) ^ n.log2 ≤ n := by exact_mod_cast Nat.log2_self_le hn.ne'
  have hquotient : |(n : ℚ) / t - a * 2 ^ i / t| ≤ 2 ^ q :=
    calc |(n : ℚ) / t - a * 2 ^ i / t| = |(n : ℚ) - a * 2 ^ i| / t := by
          rw [← sub_div, abs_div, abs_of_pos ht]
      _ ≤ n / 2 ^ 53 / t := by
          apply div_le_div_of_nonneg_right _ ht.le
          exact (abs_sub_le_log2 ha hna).trans (div_le_div_of_nonneg_right hnlow (by positivity))
      _ = n / t / 2 ^ 53 := by ring
      _ ≤ 2 ^ q := by
          rw [div_le_iff₀ (by positivity)]
          linarith [h.lt_top hm]
  have hround := h.abs_sub_le
  rw [abs_le] at *
  exact ⟨by linarith, by linarith⟩

/-! ## The last rounding -/

/-- A power of two takes everything up to the end of its interval. -/
theorem covers_power_end (q : ℤ) : Covers (2 ^ 52) (q + 1) ((2 ^ 53 + 1) * 2 ^ q) := by
  have hq := two_zpow_pos q
  have hself := Covers.self (2 ^ 52) (q + 1)
  rw [zpow_add_one₀ two_ne_zero] at hself
  refine ⟨hself.low.trans ?_, ?_, fun hodd => absurd hodd (by norm_num)⟩
  · push_cast
    linarith
  · rw [zpow_add_one₀ two_ne_zero]
    push_cast
    linarith

/-- A value within two units of a number is rounded to a number within two units of it. -/
theorem near_of_near {m n : ℕ} {q r : ℤ} {z : ℚ} (hm : Canonical m q) (htwo : 2 ≤ m)
    (hn : Canonical n r) (hz : Covers n r z) (h : |z - m * 2 ^ q| ≤ 2 * 2 ^ q) :
    |(n : ℚ) * 2 ^ r - m * 2 ^ q| ≤ 2 * 2 ^ q := by
  have hq := two_zpow_pos q
  rw [abs_le] at h ⊢
  have hlow : ((m - 2 : ℕ) : ℚ) * 2 ^ q ≤ n * 2 ^ r := by
    obtain ⟨a, i, ha, heq⟩ := Canonical.exists_eq (by have := hm.bound; omega : m - 2 < 2 ^ 53)
      hm.least hm.most
    rw [← heq]
    apply (Covers.self a i).le_of_le ha hn hz
    rw [heq, Nat.cast_sub htwo]
    push_cast
    linarith
  have hhigh : (n : ℚ) * 2 ^ r ≤ (m + 2) * 2 ^ q := by
    by_cases hshort : m + 2 < 2 ^ 53
    · obtain ⟨a, i, ha, heq⟩ := Canonical.exists_eq hshort hm.least hm.most
      push_cast at heq
      rw [← heq]
      apply hz.le_of_le hn ha (Covers.self a i)
      rw [heq]
      linarith
    · have hlong : (2 : ℚ) ^ 53 ≤ m + 2 := by exact_mod_cast not_lt.mp hshort
      have hbound : (m : ℚ) + 1 ≤ 2 ^ 53 := by exact_mod_cast hm.bound
      rcases hm.most.lt_or_eq with hless | rfl
      · -- The value is at most the end of the interval of the next power of two.
        have hleast := hm.least
        have hpower : Canonical (2 ^ 52) (q + 1) := ⟨by norm_num, by omega, by omega, .inr le_rfl⟩
        have hupper : ((m : ℚ) + 2) * 2 ^ q ≤ (2 ^ 53 + 1) * 2 ^ q :=
          mul_le_mul_of_nonneg_right (by linarith) hq.le
        have hlower : (2 : ℚ) ^ 53 * 2 ^ q ≤ (m + 2) * 2 ^ q :=
          mul_le_mul_of_nonneg_right hlong hq.le
        have hle := hz.le_of_le hn hpower (covers_power_end q) (by linarith)
        rw [zpow_add_one₀ two_ne_zero] at hle
        push_cast at hle
        linarith
      · have hn53 : (n : ℚ) + 1 ≤ 2 ^ 53 := by exact_mod_cast hn.bound
        exact mul_le_mul (by linarith) (two_zpow_le hn.most) (two_zpow_pos r).le (by linarith)
  rw [Nat.cast_sub htwo] at hlow
  push_cast at hlow
  exact ⟨by linarith, by linarith⟩

/-- The number one. -/
theorem canonical_one : Canonical (2 ^ 52) (-52) := ⟨by norm_num, by decide, by decide, .inr le_rfl⟩

theorem one_le_of_covers {n : ℕ} {r : ℤ} {z : ℚ} (hn : Canonical n r) (h : Covers n r z)
    (hz : 1 ≤ z) : (1 : ℚ) ≤ n * 2 ^ r := by
  have hone : ((2 ^ 52 : ℕ) : ℚ) * 2 ^ (-52 : ℤ) = 1 := by norm_num
  have hle := (Covers.self (2 ^ 52) (-52)).le_of_le canonical_one hn h (by rw [hone]; exact hz)
  rwa [hone] at hle

/-- A value near to a number is rounded to a finite number near to it, except next to the largest
numbers of the format. -/
theorem nearest_near {m : ℕ} {q : ℤ} (hm : Canonical m q) (htwo : 2 ≤ m)
    (hfit : q < Binary64.maxExponent ∨ m + 2 < 2 ^ 53) (num : ℕ) {den : ℕ} (hden : 0 < den)
    (scale : ℤ) (h : |(num : ℚ) / den * 2 ^ scale - m * 2 ^ q| ≤ 2 * 2 ^ q)
    (hone : (1 : ℚ) ≤ num / den * 2 ^ scale) :
    ∃ n r, Binary64.nearest false num den scale = .finite false n r ∧ Canonical n r ∧
      1 ≤ (n : ℚ) * 2 ^ r ∧ |(n : ℚ) * 2 ^ r - m * 2 ^ q| ≤ 2 * 2 ^ q := by
  rcases nearest_cases false num hden scale with ⟨n, r, heq, hn, hcovers⟩ | ⟨-, hbig⟩
  · exact ⟨n, r, heq, hn, one_le_of_covers hn hcovers hone, near_of_near hm htwo hn hcovers h⟩
  · exfalso
    have hq := two_zpow_pos q
    have hle : overflowBound ≤ (m + 2) * 2 ^ q := by
      rw [abs_le] at h
      linarith
    rcases hfit with hless | hshort
    · have hbound : (m : ℚ) + 1 ≤ 2 ^ 53 := by exact_mod_cast hm.bound
      have hunit : (2 : ℚ) ^ q * 2 ≤ 2 ^ Binary64.maxExponent := by
        rw [← zpow_add_one₀ two_ne_zero]
        exact two_zpow_le hless
      have hupper : ((m : ℚ) + 2) * 2 ^ q ≤ (2 ^ 53 + 1) * 2 ^ q :=
        mul_le_mul_of_nonneg_right (by linarith) hq.le
      rw [overflowBound] at hle
      linarith
    · have hbound : (m : ℚ) + 3 ≤ 2 ^ 53 := by exact_mod_cast hshort
      have hunit := two_zpow_le hm.most
      have hupper : ((m : ℚ) + 2) * 2 ^ q ≤ (2 ^ 53 - 1) * 2 ^ Binary64.maxExponent :=
        mul_le_mul (by linarith) hunit hq.le (by norm_num)
      have hmax := two_zpow_pos Binary64.maxExponent
      rw [overflowBound] at hle
      linarith

/-! ## Moving the decimal point -/

theorem shiftPoint_of_nonneg {power : ℤ} (hpower : 0 ≤ power) (hle : power ≤ 308) (fuel : ℕ)
    {a b : ℕ} {i j : ℤ} (hb : powerOfTen power.natAbs = .finite false b j) :
    shiftPoint (fuel + 1) (.finite false a i) power =
      (if (Binary64.nearest false (a * b) 1 (i + j)).isFinite then
        some (Binary64.nearest false (a * b) 1 (i + j)) else none) := by
  rw [shiftPoint, if_pos (by omega : power.natAbs ≤ 308), if_pos hpower, hb]
  rfl

theorem shiftPoint_of_neg {power : ℤ} (hpower : power < 0) (hle : -308 ≤ power) (fuel : ℕ)
    {a b : ℕ} {i j : ℤ} (hb : powerOfTen power.natAbs = .finite false b j) (hpos : 0 < b) :
    shiftPoint (fuel + 1) (.finite false a i) power =
      some (Binary64.nearest false a b (i - j)) := by
  rw [shiftPoint, if_pos (by omega : power.natAbs ≤ 308), if_neg (by omega), hb]
  simp only [Binary64.div]
  rw [if_neg hpos.ne']
  rfl

/-- The product of two numbers, as the value that is rounded. -/
theorem product_eq (a b : ℕ) (i j : ℤ) :
    ((a * b : ℕ) : ℚ) / (1 : ℕ) * 2 ^ (i + j) = a * 2 ^ i * (b * 2 ^ j) := by
  rw [zpow_add₀ two_ne_zero]
  push_cast
  ring

/-- The quotient of two numbers, as the value that is rounded. -/
theorem quotient_eq (a b : ℕ) (i j : ℤ) :
    (a : ℚ) / b * 2 ^ (i - j) = a * 2 ^ i / (b * 2 ^ j) := by
  rw [zpow_sub₀ two_ne_zero]
  ring

theorem ten_zpow_of_nonneg {power : ℤ} (h : 0 ≤ power) :
    (10 : ℚ) ^ power = (Nat.pow 10 power.natAbs : ℕ) := by
  obtain ⟨k, rfl⟩ := Int.eq_ofNat_of_zero_le h
  rw [zpow_natCast, Int.natAbs_natCast, Nat.pow_eq]
  push_cast
  rfl

theorem ten_zpow_of_neg {power : ℤ} (h : power < 0) :
    (10 : ℚ) ^ power = 1 / 10 ^ power.natAbs := by
  obtain ⟨k, hk⟩ := Int.eq_ofNat_of_zero_le (neg_nonneg.mpr h.le)
  obtain rfl : power = -(k : ℤ) := by omega
  rw [zpow_neg, zpow_natCast, Int.natAbs_neg, Int.natAbs_natCast, one_div]

/-- A decimal that rounds to a number is read as a number within two units of it. -/
theorem shiftPoint_near {n m : ℕ} {q power : ℤ} (hn : 0 < n) (hword : n ≤ wordMax)
    (hlow : -22 ≤ power) (hhigh : power ≤ 308) (hm : Canonical m q) (htwo : 2 ≤ m)
    (hfit : q < Binary64.maxExponent ∨ m + 2 < 2 ^ 53) (h : Covers m q (n * 10 ^ power))
    (hone : (1 : ℚ) ≤ n * 10 ^ power) (fuel : ℕ) :
    ∃ k r, shiftPoint (fuel + 1) (Binary64.ofNat n) power = some (.finite false k r) ∧
      Canonical k r ∧ 1 ≤ (k : ℚ) * 2 ^ r ∧ |(k : ℚ) * 2 ^ r - m * 2 ^ q| ≤ 2 * 2 ^ q := by
  have hnbig : (n : ℚ) < overflowBound := by
    have hle : n ≤ Nat.pow 10 20 := hword.trans (by decide)
    have hle : (n : ℚ) ≤ (Nat.pow 10 20 : ℕ) := by exact_mod_cast hle
    exact hle.trans_lt (ten_pow_lt_overflowBound (by decide))
  obtain ⟨a, i, hofNat, ha, hna⟩ := nearest_natural hnbig
  rw [show Binary64.ofNat n = Binary64.nearest false n 1 0 from rfl, hofNat]
  rcases le_or_gt 0 power with hnonneg | hneg
  · obtain ⟨b, j, hten, hb, htb⟩ :=
      nearest_natural (ten_pow_lt_overflowBound (by omega : power.natAbs ≤ 308))
    have htpos : 0 < Nat.pow 10 power.natAbs := Nat.pow_pos (by decide)
    rw [ten_zpow_of_nonneg hnonneg] at h
    have hnear := mul_near hn htpos ha hna hb htb hm h
    have hage : (1 : ℚ) ≤ a * 2 ^ i := one_le_of_covers ha hna (by exact_mod_cast hn)
    have hbge : (1 : ℚ) ≤ b * 2 ^ j := one_le_of_covers hb htb (by exact_mod_cast htpos)
    obtain ⟨k, r, heq, hk, hkone, hknear⟩ := nearest_near hm htwo hfit (a * b) one_pos (i + j)
      (by rw [product_eq]; exact hnear)
      (by rw [product_eq]; exact one_le_mul_of_one_le_of_one_le hage hbge)
    refine ⟨k, r, ?_, hk, hkone, hknear⟩
    rw [shiftPoint_of_nonneg hnonneg hhigh fuel hten, heq]
    rfl
  · obtain ⟨b, j, hten, hb, hvalue⟩ := powerOfTen_exact (by omega : power.natAbs ≤ 22)
    rw [ten_zpow_of_neg hneg, mul_one_div, ← hvalue] at h hone
    have htpos : (0 : ℚ) < b * 2 ^ j := by
      rw [hvalue]
      positivity
    have hbpos : 0 < b := by exact_mod_cast pos_of_mul_pos_left htpos (two_zpow_pos j).le
    have hnear := div_near hn htpos ha hna hm h
    have hage : (b : ℚ) * 2 ^ j ≤ a * 2 ^ i := by
      rw [one_le_div htpos] at hone
      exact (Covers.self b j).le_of_le hb ha hna hone
    obtain ⟨k, r, heq, hk, hkone, hknear⟩ := nearest_near hm htwo hfit a hbpos (i - j)
      (by rw [quotient_eq]; exact hnear) (by rw [quotient_eq]; exact (one_le_div htpos).mpr hage)
    refine ⟨k, r, ?_, hk, hkone, hknear⟩
    rw [shiftPoint_of_neg hneg (by omega) fuel hten hbpos, heq]

/-- A decimal is read as the number it rounds to if its digits and its power of ten are numbers of
the format. -/
theorem shiftPoint_exact {n c m : ℕ} {e : ℕ} {q power : ℤ} (hc : c < 2 ^ 53) (he : e ≤ 900)
    (hn : n = c * 2 ^ e) (hpower : power.natAbs ≤ 22) (hm : Canonical m q)
    (h : Covers m q (n * 10 ^ power)) (fuel : ℕ) :
    shiftPoint (fuel + 1) (Binary64.ofNat n) power = some (.finite false m q) := by
  obtain ⟨a, i, hofNat, ha, hna⟩ := nearest_natural_exact hc he hn
  obtain ⟨b, j, hten, hb, hvalue⟩ := powerOfTen_exact hpower
  rw [show Binary64.ofNat n = Binary64.nearest false n 1 0 from rfl, hofNat]
  rcases le_or_gt 0 power with hnonneg | hneg
  · have heq : (n : ℚ) * 10 ^ power = (a * b : ℕ) / (1 : ℕ) * 2 ^ (i + j) := by
      rw [product_eq, hna, hvalue, ten_zpow_of_nonneg hnonneg, Nat.pow_eq]
      push_cast
      rfl
    rw [shiftPoint_of_nonneg hnonneg (by omega) fuel hten,
      nearest_of_covers hm false (a * b) one_pos (i + j) (heq ▸ h)]
    rfl
  · have hbpos : 0 < b := by
      have htpos : (0 : ℚ) < b * 2 ^ j := by
        rw [hvalue]
        positivity
      exact_mod_cast pos_of_mul_pos_left htpos (two_zpow_pos j).le
    have heq : (n : ℚ) * 10 ^ power = a / b * 2 ^ (i - j) := by
      rw [quotient_eq, hna, hvalue, ten_zpow_of_neg hneg, mul_one_div]
    rw [shiftPoint_of_neg hneg (by omega) fuel hten hbpos,
      nearest_of_covers hm false a hbpos (i - j) (heq ▸ h)]

end Tether.Json
