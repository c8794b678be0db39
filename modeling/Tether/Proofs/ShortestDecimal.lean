import Tether.Decimal.Shortest
import Tether.Proofs.Rounding

/-!
# Decimals that identify a binary number

A decimal identifies a binary number if it rounds to it. The search for the shortest one tries the
two neighbours of the number on a decimal grid, and the interval of what rounds to the number has
no holes: so a grid is passed over only if none of its points would do. A grid that is finer than
half a unit of the last place always has a point that does, and such a grid is reached within
twenty steps, which `shortest_spec` says for every number of the format.
-/

namespace Tether.Decimal

open Binary64 (Covers Canonical gapBelow two_zpow_pos two_zpow_le)

/-- The value of a decimal number. -/
def Scientific.value (s : Scientific) : ℚ := s.digits * 10 ^ s.power

theorem ten_zpow_pos (n : ℤ) : (0 : ℚ) < 10 ^ n := zpow_pos (by norm_num) n

namespace Interval

/-! ## The interval of a number -/

/-- An end of the interval, which is given in quarters of the last place. -/
theorem end_eq (quarters : ℕ) (q : ℤ) {den : ℕ} (hden : 0 < den) :
    ((quarters * Nat.pow 2 (q - 2).toNat * den : ℕ) : ℚ) /
      (den * Nat.pow 2 (2 - q).toNat : ℕ) = quarters / 4 * 2 ^ q := by
  have hd : (den : ℚ) ≠ 0 := by exact_mod_cast hden.ne'
  have hz := Binary64.zpow_eq_div 2 (q - 2)
  rw [neg_sub, zpow_sub₀ two_ne_zero] at hz
  have hq : (2 : ℚ) ^ q = 4 * (2 ^ (q - 2).toNat / 2 ^ (2 - q).toNat) := by
    rw [← hz]
    norm_num
    ring
  rw [hq, Nat.pow_eq, Nat.pow_eq]
  push_cast
  field_simp

/-- The interval holds what rounds to the number. -/
theorem contains_iff {m : ℕ} (hm : 0 < m) (q : ℤ) (num : ℕ) {den : ℕ} (hden : 0 < den) :
    (Interval.of m q).contains num den = true ↔
      Covers m q (num / (den * (Interval.of m q).den : ℕ)) := by
  have hpos : (0 : ℚ) < (den * Nat.pow 2 (2 - q).toNat : ℕ) := by
    exact_mod_cast Nat.mul_pos hden (Nat.pow_pos two_pos)
  have hhigh : ((m : ℚ) + 1 / 2) * 2 ^ q = (4 * m + 2 : ℕ) / 4 * 2 ^ q := by
    push_cast
    ring
  have hlow : ((m : ℚ) - gapBelow m q) * 2 ^ q =
      (4 * m - (if m = Nat.pow 2 52 ∧ Binary64.minExponent < q then 1 else 2) : ℕ) / 4 * 2 ^ q := by
    by_cases h : m = 2 ^ 52 ∧ Binary64.minExponent < q
    · rw [gapBelow, if_pos h, Nat.pow_eq, if_pos h, Nat.cast_sub (by omega)]
      push_cast
      ring
    · rw [gapBelow, if_neg h, Nat.pow_eq, if_neg h, Nat.cast_sub (by omega)]
      push_cast
      ring
  have hle : ∀ a b : ℕ, a ≤ b ↔ (a : ℚ) / (den * Nat.pow 2 (2 - q).toNat : ℕ) ≤
      b / (den * Nat.pow 2 (2 - q).toNat : ℕ) := by
    intro a b
    rw [div_le_div_iff_of_pos_right hpos]
    exact_mod_cast Iff.rfl
  have hlt : ∀ a b : ℕ, a < b ↔ (a : ℚ) / (den * Nat.pow 2 (2 - q).toNat : ℕ) <
      b / (den * Nat.pow 2 (2 - q).toNat : ℕ) := by
    intro a b
    rw [div_lt_div_iff_of_pos_right hpos]
    exact_mod_cast Iff.rfl
  unfold contains
  by_cases heven : m % 2 = 0
  · rw [if_pos (by simpa [Interval.of] using heven), Bool.and_eq_true, decide_eq_true_iff,
      decide_eq_true_iff, hle, hle]
    simp only [Interval.of, end_eq _ q hden]
    rw [← hlow, ← hhigh]
    exact ⟨fun h => ⟨h.1, h.2, fun hodd => absurd hodd (by omega)⟩, fun h => ⟨h.low, h.high⟩⟩
  · rw [if_neg (by simpa [Interval.of] using heven), Bool.and_eq_true, decide_eq_true_iff,
      decide_eq_true_iff, hlt, hlt]
    simp only [Interval.of, end_eq _ q hden]
    rw [← hlow, ← hhigh]
    exact ⟨fun h => ⟨h.1.le, h.2.le, fun _ => h⟩, fun h => h.odd (by omega)⟩

/-- A point of a decimal grid is tried by cross multiplication. -/
theorem contains_mul_iff {m : ℕ} (hm : 0 < m) (q power : ℤ) (c : ℕ) :
    (Interval.of m q).contains (c * (Nat.pow 10 power.toNat * (Interval.of m q).den))
      (Nat.pow 10 (-power).toNat) = true ↔ Covers m q (c * 10 ^ power) := by
  have hdown : 0 < Nat.pow 10 (-power).toNat := Nat.pow_pos (by decide)
  have hden : (0 : ℚ) < (Interval.of m q).den := by
    exact_mod_cast (Nat.pow_pos two_pos : 0 < Nat.pow 2 (2 - q).toNat)
  have heq : ((c * (Nat.pow 10 power.toNat * (Interval.of m q).den) : ℕ) : ℚ) /
      (Nat.pow 10 (-power).toNat * (Interval.of m q).den : ℕ) = c * 10 ^ power := by
    rw [Binary64.zpow_eq_div 10 power, Nat.pow_eq, Nat.pow_eq]
    push_cast
    field_simp
  rw [contains_iff hm q _ hdown, heq]

/-- The point of a decimal grid next to a number on the lower side. -/
def floor (m : ℕ) (q power : ℤ) : ℕ :=
  (Interval.of m q).value * Nat.pow 10 (-power).toNat /
    (Nat.pow 10 power.toNat * (Interval.of m q).den)

theorem floor_spec (m : ℕ) (q power : ℤ) :
    (floor m q power : ℚ) * 10 ^ power ≤ m * 2 ^ q ∧
      (m : ℚ) * 2 ^ q < (floor m q power + 1 : ℕ) * 10 ^ power := by
  have hup : 0 < Nat.pow 10 power.toNat * (Interval.of m q).den :=
    Nat.mul_pos (Nat.pow_pos (by decide)) (Nat.pow_pos two_pos : 0 < Nat.pow 2 (2 - q).toNat)
  have hupq : (0 : ℚ) < (Nat.pow 10 power.toNat * (Interval.of m q).den : ℕ) := by
    exact_mod_cast hup
  have hvalue : ((Interval.of m q).value : ℚ) / (Interval.of m q).den = m * 2 ^ q := by
    have h := end_eq (4 * m) q one_pos
    rw [mul_one, one_mul] at h
    rw [show (Interval.of m q).value = 4 * m * Nat.pow 2 (q - 2).toNat from rfl,
      show (Interval.of m q).den = Nat.pow 2 (2 - q).toNat from rfl, h]
    push_cast
    ring
  -- The number is the quotient of which the grid point is the whole part.
  have hquot : (m : ℚ) * 2 ^ q = ((Interval.of m q).value * Nat.pow 10 (-power).toNat : ℕ) /
      (Nat.pow 10 power.toNat * (Interval.of m q).den : ℕ) * 10 ^ power := by
    rw [← hvalue, Binary64.zpow_eq_div 10 power, Nat.pow_eq, Nat.pow_eq]
    push_cast
    field_simp
  rw [hquot]
  refine ⟨mul_le_mul_of_nonneg_right ?_ (ten_zpow_pos power).le,
    mul_lt_mul_of_pos_right ?_ (ten_zpow_pos power)⟩
  · rw [le_div_iff₀ hupq]
    exact_mod_cast Nat.div_mul_le_self _ _
  · rw [div_lt_iff₀ hupq]
    exact_mod_cast Nat.lt_mul_of_div_lt (Nat.lt_succ_self _) hup

/-- A decimal that is found identifies the number and is one of its two neighbours; none is found
only if neither of them does. -/
theorem candidate_spec {m : ℕ} (hm : 0 < m) (q power : ℤ) (tie : Tie) :
    match (Interval.of m q).candidate tie power with
    | some d => Covers m q (d * 10 ^ power) ∧ d ≤ floor m q power + 1
    | none => ¬ Covers m q (floor m q power * 10 ^ power) ∧
        ¬ Covers m q ((floor m q power + 1 : ℕ) * 10 ^ power) := by
  have hlow := contains_mul_iff hm q power (floor m q power)
  have hhigh := contains_mul_iff hm q power (floor m q power + 1)
  unfold candidate
  simp only
  rw [← floor]
  generalize (Interval.of m q).contains
    (floor m q power * (Nat.pow 10 power.toNat * (Interval.of m q).den))
    (Nat.pow 10 (-power).toNat) = a at *
  generalize (Interval.of m q).contains
    ((floor m q power + 1) * (Nat.pow 10 power.toNat * (Interval.of m q).den))
    (Nat.pow 10 (-power).toNat) = b at *
  generalize floor m q power = below at *
  cases a <;> cases b
  · exact ⟨fun h => absurd (hlow.mpr h) Bool.false_ne_true,
      fun h => absurd (hhigh.mpr h) Bool.false_ne_true⟩
  · exact ⟨hhigh.mp rfl, le_rfl⟩
  · exact ⟨hlow.mp rfl, Nat.le_succ _⟩
  · -- Both would do, and whichever is chosen is one of the two.
    have hboth : ∀ d, d = below ∨ d = below + 1 → Covers m q (d * 10 ^ power) ∧ d ≤ below + 1 := by
      rintro d (rfl | rfl)
      · exact ⟨hlow.mp rfl, Nat.le_succ _⟩
      · exact ⟨hhigh.mp rfl, le_rfl⟩
    simp only
    generalize (Interval.of m q).value * _ - below * _ = left
    generalize (below + 1) * _ - (Interval.of m q).value * _ = right
    by_cases hleft : left < right
    · rw [if_pos hleft]
      exact hboth _ (.inl rfl)
    · by_cases hright : right < left
      · rw [if_neg hleft, if_pos hright]
        exact hboth _ (.inr rfl)
      · rw [if_neg hleft, if_neg hright]
        cases tie
        · exact hboth _ (.inr rfl)
        · exact hboth _ (by omega)

/-- A grid is passed over only if none of its points identifies the number. -/
theorem candidate_ne_none {m : ℕ} (hm : 0 < m) {q power : ℤ} (tie : Tie) {c : ℕ}
    (h : Covers m q (c * 10 ^ power)) : (Interval.of m q).candidate tie power ≠ none := by
  intro hnone
  have hspec := candidate_spec hm q power tie
  rw [hnone] at hspec
  obtain ⟨hbelow, habove⟩ := floor_spec m q power
  have hpos := ten_zpow_pos power
  have hself := Covers.self m q
  rcases Nat.lt_or_ge (floor m q power) c with hlt | hge
  · have hle : ((floor m q power + 1 : ℕ) : ℚ) * 10 ^ power ≤ c * 10 ^ power :=
      mul_le_mul_of_nonneg_right (by exact_mod_cast hlt) hpos.le
    exact hspec.2 (hself.of_mem h habove.le hle)
  · have hle : (c : ℚ) * 10 ^ power ≤ floor m q power * 10 ^ power :=
      mul_le_mul_of_nonneg_right (by exact_mod_cast hge) hpos.le
    exact hspec.1 (h.of_mem hself hle hbelow)

/-! ## The search -/

/-- If one of the grids that are tried has a point that identifies the number, the search ends at
such a point, on this grid or on a coarser one. -/
theorem search_spec {m : ℕ} (hm : 0 < m) {q power : ℤ} (tie : Tie) {c : ℕ}
    (h : Covers m q (c * 10 ^ power)) (fuel : ℕ) (start : ℤ) (hstart : power ≤ start)
    (hfuel : start - fuel < power) :
    let s := (Interval.of m q).search tie fuel start
    Covers m q s.value ∧ s.value ≤ m * 2 ^ q + 10 ^ s.power ∧
      power ≤ s.power ∧ s.power ≤ start := by
  induction fuel generalizing start with
  | zero => omega
  | succ fuel ih =>
    intro s
    have hspec := candidate_spec hm q start tie
    cases hc : (Interval.of m q).candidate tie start with
    | some d =>
      have hs : s = ⟨d, start⟩ := by
        simp only [s, search, hc]
      rw [hc] at hspec
      rw [hs]
      refine ⟨hspec.1, ?_, hstart, le_rfl⟩
      have hpos := ten_zpow_pos start
      have hle : (d : ℚ) * 10 ^ start ≤ (floor m q start + 1 : ℕ) * 10 ^ start :=
        mul_le_mul_of_nonneg_right (by exact_mod_cast hspec.2) hpos.le
      have hbelow := (floor_spec m q start).1
      push_cast at hle
      show (d : ℚ) * 10 ^ start ≤ m * 2 ^ q + 10 ^ start
      linarith
    | none =>
      have hs : s = (Interval.of m q).search tie fuel (start - 1) := by
        simp only [s, search, hc]
      have hne : power ≠ start := by
        rintro rfl
        exact candidate_ne_none hm tie h hc
      obtain ⟨hcovers, hvalue, hpower, hle⟩ := ih (start - 1) (by omega) (by omega)
      rw [hs]
      exact ⟨hcovers, hvalue, hpower, by omega⟩

end Interval

/-! ## Where the search starts and ends -/

/-- A power of ten whose exponent is proportional to that of a power of two. -/
theorem ten_zpow_mul_bounds {n k : ℕ} (hlow : 2 ^ k ≤ 10 ^ n) (hhigh : 10 ^ n ≤ 2 ^ (k + 1)) {b : ℤ}
    (hb : |b| ≤ k) :
    (10 : ℚ) ^ (b * n) ≤ 2 ^ k * 2 ^ (b * k) ∧ (2 : ℚ) ^ (b * k) ≤ 2 ^ k * 10 ^ (b * n) := by
  have hlow : (2 : ℚ) ^ k ≤ 10 ^ n := by exact_mod_cast hlow
  have hhigh : (10 : ℚ) ^ n ≤ 2 * 2 ^ k := by
    rw [← pow_succ']
    exact_mod_cast hhigh
  have hten : (10 : ℚ) ^ (b * n) = (10 ^ n) ^ b := by rw [mul_comm, zpow_mul, zpow_natCast]
  have htwo : (2 : ℚ) ^ (b * k) = (2 ^ k) ^ b := by rw [mul_comm, zpow_mul, zpow_natCast]
  rw [hten, htwo]
  have hU : (0 : ℚ) < 2 ^ k := by positivity
  have hT : (0 : ℚ) < 10 ^ n := by positivity
  have hone : (1 : ℚ) ≤ 2 ^ k := one_le_pow₀ one_le_two
  rw [abs_le] at hb
  rcases le_total 0 b with hnonneg | hneg
  · obtain ⟨j, rfl⟩ := Int.eq_ofNat_of_zero_le hnonneg
    have hjk : (2 : ℚ) ^ j ≤ 2 ^ k := pow_le_pow_right₀ one_le_two (by omega)
    rw [zpow_natCast, zpow_natCast]
    generalize (2 : ℚ) ^ k = U at *
    generalize (10 : ℚ) ^ n = T at *
    constructor
    · calc T ^ j ≤ (2 * U) ^ j := pow_le_pow_left₀ hT.le hhigh j
        _ = 2 ^ j * U ^ j := mul_pow 2 U j
        _ ≤ U * U ^ j := mul_le_mul_of_nonneg_right hjk (by positivity)
    · calc U ^ j ≤ T ^ j := pow_le_pow_left₀ hU.le hlow j
        _ ≤ U * T ^ j := le_mul_of_one_le_left (by positivity) hone
  · obtain ⟨j, hj⟩ := Int.eq_ofNat_of_zero_le (neg_nonneg.mpr hneg)
    obtain rfl : b = -(j : ℤ) := by omega
    have hjk : (2 : ℚ) ^ j ≤ 2 ^ k := pow_le_pow_right₀ one_le_two (by omega)
    rw [zpow_neg, zpow_neg, zpow_natCast, zpow_natCast]
    generalize (2 : ℚ) ^ k = U at *
    generalize (10 : ℚ) ^ n = T at *
    constructor
    · calc (T ^ j)⁻¹ ≤ (U ^ j)⁻¹ := inv_anti₀ (by positivity) (pow_le_pow_left₀ hU.le hlow j)
        _ ≤ U * (U ^ j)⁻¹ := le_mul_of_one_le_left (by positivity) hone
    · rw [inv_eq_one_div, inv_eq_one_div, mul_one_div,
        div_le_div_iff₀ (by positivity) (by positivity), one_mul]
      calc T ^ j ≤ (2 * U) ^ j := pow_le_pow_left₀ hT.le hhigh j
        _ = 2 ^ j * U ^ j := mul_pow 2 U j
        _ ≤ U * U ^ j := mul_le_mul_of_nonneg_right hjk (by positivity)

/-- A power of two lies between neighbouring powers of ten, up to a factor of two. -/
theorem ten_zpow_div_bounds {n k : ℕ} (hk : 0 < k) (hlow : 2 ^ k ≤ 10 ^ n)
    (hhigh : 10 ^ n ≤ 2 ^ (k + 1)) {b : ℤ} (hb : |b| ≤ k) :
    (10 : ℚ) ^ (b * n / k) ≤ 2 * 2 ^ b ∧ (2 : ℚ) ^ b ≤ 2 * 10 ^ (b * n / k + 1) := by
  obtain ⟨hten, htwo⟩ := ten_zpow_mul_bounds hlow hhigh hb
  have hkz : (0 : ℤ) < k := by exact_mod_cast hk
  have hfloor : b * n / k * k ≤ b * n := Int.ediv_mul_le _ hkz.ne'
  have hceil : b * n < (b * n / k + 1) * k := Int.lt_ediv_add_one_mul_self _ hkz
  constructor
  · apply le_of_pow_le_pow_left₀ hk.ne' (by positivity)
    rw [mul_pow, ← zpow_natCast ((10 : ℚ) ^ _), ← zpow_mul, ← zpow_natCast ((2 : ℚ) ^ b),
      ← zpow_mul]
    exact (zpow_le_zpow_right₀ (by norm_num) hfloor).trans hten
  · apply le_of_pow_le_pow_left₀ hk.ne' (by positivity)
    rw [mul_pow, ← zpow_natCast ((10 : ℚ) ^ _), ← zpow_mul, ← zpow_natCast ((2 : ℚ) ^ b),
      ← zpow_mul]
    apply htwo.trans
    apply mul_le_mul_of_nonneg_left _ (by positivity)
    exact zpow_le_zpow_right₀ (by norm_num) hceil.le

theorem pow_bounds : 2 ^ 100000 ≤ 10 ^ 30103 ∧ 10 ^ 30103 ≤ 2 ^ (100000 + 1) := by
  decide +kernel

/-- The power of ten at which the search for the shortest decimal starts. -/
def startPower (m : ℕ) (q : ℤ) : ℤ := ((m.log2 : ℤ) + q) * 30103 / 100000 + 1

/-- The search starts above what rounds to the number, and eighteen steps lead to a grid that is
finer than half a unit of the last place. -/
theorem startPower_bounds {m : ℕ} {q : ℤ} (hm : 0 < m) (hc : Canonical m q) :
    (m + 1 / 2) * 2 ^ q < 4 * (10 : ℚ) ^ startPower m q ∧
      (10 : ℚ) ^ (startPower m q - 18) < 2 ^ q / 2 := by
  have hq := two_zpow_pos q
  have hlog : m.log2 < 53 := (Nat.log2_lt hm.ne').mpr hc.bound
  have hleast := hc.least
  have hmost := hc.most
  unfold Binary64.minExponent at hleast
  unfold Binary64.maxExponent at hmost
  obtain ⟨hten, htwo⟩ := ten_zpow_div_bounds (by decide) pow_bounds.1 pow_bounds.2
    (by rw [abs_le]; push_cast; omega : |(m.log2 : ℤ) + q| ≤ (100000 : ℕ))
  push_cast at hten htwo
  rw [zpow_add₀ two_ne_zero, zpow_natCast] at hten htwo
  refine ⟨?_, ?_⟩
  · have hlt : m + 1 ≤ 2 ^ (m.log2 + 1) := Nat.lt_log2_self
    have hlt : (m : ℚ) + 1 ≤ 2 ^ (m.log2 + 1) := by exact_mod_cast hlt
    calc ((m : ℚ) + 1 / 2) * 2 ^ q < 2 ^ (m.log2 + 1) * 2 ^ q := by
          apply mul_lt_mul_of_pos_right _ hq
          linarith
      _ = 2 * (2 ^ m.log2 * 2 ^ q) := by ring
      _ ≤ 4 * (10 : ℚ) ^ startPower m q := by
          unfold startPower
          linarith
  · have hpow : (2 : ℚ) ^ m.log2 ≤ 2 ^ 52 := pow_le_pow_right₀ one_le_two (by omega)
    have hstart : (10 : ℚ) ^ (startPower m q - 18) =
        10 ^ (((m.log2 : ℤ) + q) * 30103 / 100000) / 10 ^ 17 := by
      rw [startPower, add_sub_assoc, zpow_add₀ (by norm_num)]
      norm_num
      ring
    have hle : (2 : ℚ) ^ m.log2 * 2 ^ q ≤ 2 ^ 52 * 2 ^ q := mul_le_mul_of_nonneg_right hpow hq.le
    rw [hstart, div_lt_iff₀ (by norm_num)]
    linarith

/-- A grid that is fine enough has a point that identifies the number. -/
theorem covers_of_fine {m : ℕ} {q power : ℤ} (h : (10 : ℚ) ^ power < 2 ^ q / 2) :
    Covers m q ((Interval.floor m q power + 1 : ℕ) * 10 ^ power) := by
  obtain ⟨hbelow, habove⟩ := Interval.floor_spec m q power
  have hself := Covers.self m q
  have hhigh : ((Interval.floor m q power + 1 : ℕ) : ℚ) * 10 ^ power < (m + 1 / 2) * 2 ^ q := by
    push_cast
    linarith
  exact ⟨hself.low.trans habove.le, hhigh.le, fun hodd => ⟨(hself.odd hodd).1.trans habove, hhigh⟩⟩

/-- The shortest decimal identifies the number, no coarser grid has one that does, and it is a
neighbour of the number on its grid. -/
theorem shortest_spec {m : ℕ} {q : ℤ} (hm : 0 < m) (hc : Canonical m q) (tie : Tie) :
    let s := shortest tie m q
    Covers m q s.value ∧ s.value ≤ m * 2 ^ q + 10 ^ s.power ∧
      startPower m q - 18 ≤ s.power ∧ s.power ≤ startPower m q ∧
      ∀ (c : ℕ) (power : ℤ), Covers m q (c * 10 ^ power) → power ≤ s.power := by
  obtain ⟨hstart, hfine⟩ := startPower_bounds hm hc
  have hs : shortest tie m q = (Interval.of m q).search tie 20 (startPower m q) := by
    rw [shortest, if_neg hm.ne', startPower]
  rw [hs]
  have hsearch := Interval.search_spec hm tie (covers_of_fine hfine) 20 (startPower m q) (by omega)
    (by push_cast; omega)
  refine ⟨hsearch.1, hsearch.2.1, hsearch.2.2.1, hsearch.2.2.2, ?_⟩
  intro c power hcovers
  by_cases hlow : power ≤ startPower m q - 18
  · exact hlow.trans hsearch.2.2.1
  · by_cases hhigh : power ≤ startPower m q
    · exact (Interval.search_spec hm tie hcovers 20 (startPower m q) hhigh
        (by push_cast; omega)).2.2.1
    · -- A larger power of ten exceeds everything that rounds to the number.
      have hpos := hcovers.pos hm
      have hc : (1 : ℚ) ≤ c := by
        rcases Nat.eq_zero_or_pos c with rfl | hc
        · simp at hpos
        · exact_mod_cast hc
      have hle : (10 : ℚ) ^ (startPower m q + 1) ≤ c * 10 ^ power :=
        calc (10 : ℚ) ^ (startPower m q + 1) ≤ 10 ^ power :=
              zpow_le_zpow_right₀ (by norm_num) (by omega)
          _ ≤ c * 10 ^ power := le_mul_of_one_le_left (ten_zpow_pos power).le hc
      rw [zpow_add_one₀ (by norm_num)] at hle
      have hten := ten_zpow_pos (startPower m q)
      have hhigh := hcovers.high
      linarith

/-- The digits of the shortest decimal fit into a machine word. -/
theorem shortest_digits {m : ℕ} {q : ℤ} (hm : 0 < m) (hc : Canonical m q) (tie : Tie) :
    0 < (shortest tie m q).digits ∧ (shortest tie m q).digits ≤ 4 * 10 ^ 18 := by
  obtain ⟨hcovers, hvalue, hpower, -, -⟩ := shortest_spec hm hc tie
  obtain ⟨hstart, -⟩ := startPower_bounds hm hc
  generalize shortest tie m q = s at *
  have hten := ten_zpow_pos s.power
  refine ⟨?_, ?_⟩
  · have hpos := hcovers.pos hm
    rw [Scientific.value] at hpos
    exact_mod_cast pos_of_mul_pos_left hpos hten.le
  · have hq := two_zpow_pos q
    have hle : (10 : ℚ) ^ startPower m q ≤ 10 ^ 18 * 10 ^ s.power := by
      rw [← zpow_natCast (10 : ℚ) 18, ← zpow_add₀ (by norm_num)]
      exact zpow_le_zpow_right₀ (by norm_num) (by push_cast; omega)
    have hlt : (s.digits : ℚ) * 10 ^ s.power < ((4 * 10 ^ 18 + 1 : ℕ) : ℚ) * 10 ^ s.power := by
      rw [Scientific.value] at hvalue
      push_cast
      linarith
    have hlt := lt_of_mul_lt_mul_right hlt hten.le
    exact Nat.lt_succ_iff.mp (by exact_mod_cast hlt)

/-- The shortest decimal of a number that is not below one has at most seventeen places after the
point. -/
theorem shortest_power {m : ℕ} {q : ℤ} (hc : Canonical m q) (hone : (1 : ℚ) ≤ m * 2 ^ q)
    (tie : Tie) : -17 ≤ (shortest tie m q).power ∧ (shortest tie m q).power ≤ 308 := by
  have hm : 0 < m := by
    rcases Nat.eq_zero_or_pos m with rfl | hm
    · norm_num at hone
    · exact hm
  obtain ⟨-, -, hlow, hhigh, -⟩ := shortest_spec hm hc tie
  have hlog : m.log2 < 53 := (Nat.log2_lt hm.ne').mpr hc.bound
  have hmost := hc.most
  unfold Binary64.maxExponent at hmost
  have hbits : 0 ≤ (m.log2 : ℤ) + q := by
    have hlt : (m : ℚ) < 2 ^ (m.log2 + 1) := by exact_mod_cast Nat.lt_log2_self
    have hlt : (1 : ℚ) < 2 ^ ((m.log2 : ℤ) + 1 + q) :=
      calc (1 : ℚ) ≤ m * 2 ^ q := hone
        _ < 2 ^ (m.log2 + 1) * 2 ^ q := mul_lt_mul_of_pos_right hlt (two_zpow_pos q)
        _ = 2 ^ ((m.log2 : ℤ) + 1 + q) := by
            rw [zpow_add₀ two_ne_zero ((m.log2 : ℤ) + 1)]
            norm_cast
    have hlt := (one_lt_zpow_iff_right₀ one_lt_two).mp hlt
    omega
  unfold startPower at hlow hhigh
  omega

end Tether.Decimal
