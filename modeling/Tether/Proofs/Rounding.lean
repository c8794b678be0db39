import Mathlib.Algebra.Order.Field.Power
import Mathlib.Algebra.Order.Field.Rat
import Mathlib.Data.Nat.Log
import Mathlib.Tactic.FieldSimp
import Mathlib.Tactic.Linarith
import Mathlib.Tactic.NormNum
import Mathlib.Tactic.Positivity
import Mathlib.Tactic.Ring
import Tether.Binary64

/-!
# Rounding to binary numbers

Every number that is not negative and of the format is `m * 2 ^ q` for one `Canonical` pair. The
rational numbers that round to it form an interval around it, `Covers m q`, with its ends included
if `m` is even. `nearest_cases` says that `nearest` gives the pair whose interval holds the value,
or an infinity if the value is beyond all of them. What else is known about rounding follows from
this and from the order of the intervals, `Covers.le_of_le`.
-/

namespace Tether.Binary64

/-! ## Whole numbers of bits -/

theorem zpow_eq_div (b : ℚ) (n : ℤ) : b ^ n = b ^ n.toNat / b ^ (-n).toNat := by
  rcases le_total 0 n with hn | hn
  · obtain ⟨k, rfl⟩ := Int.eq_ofNat_of_zero_le hn
    simp
  · obtain ⟨k, hk⟩ := Int.eq_ofNat_of_zero_le (neg_nonneg.mpr hn)
    obtain rfl : n = -(k : ℤ) := by omega
    simp

theorem two_zpow_pos (n : ℤ) : (0 : ℚ) < 2 ^ n := zpow_pos two_pos n

theorem two_zpow_add (n : ℤ) (k : ℕ) : (2 : ℚ) ^ (n + k) = 2 ^ k * 2 ^ n := by
  rw [zpow_add₀ two_ne_zero, zpow_natCast, mul_comm]

theorem two_zpow_le {m n : ℤ} (h : m ≤ n) : (2 : ℚ) ^ m ≤ 2 ^ n :=
  zpow_le_zpow_right₀ one_le_two h

/-- The leading bit of a quotient. -/
theorem leadingBit_spec {num den : ℕ} (hnum : 0 < num) (hden : 0 < den) :
    (2 : ℚ) ^ leadingBit num den ≤ num / den ∧ (num : ℚ) / den < 2 ^ (leadingBit num den + 1) := by
  have hd : (0 : ℚ) < den := by exact_mod_cast hden
  have hlow : (2 : ℚ) ^ num.log2 ≤ num := by exact_mod_cast Nat.log2_self_le hnum.ne'
  have hhigh : (num : ℚ) < 2 ^ (num.log2 + 1) := by exact_mod_cast Nat.lt_log2_self
  have hdlow : (2 : ℚ) ^ den.log2 ≤ den := by exact_mod_cast Nat.log2_self_le hden.ne'
  have hdhigh : (den : ℚ) < 2 ^ (den.log2 + 1) := by exact_mod_cast Nat.lt_log2_self
  unfold leadingBit
  simp only
  generalize hg : (num.log2 : ℤ) - (den.log2 : ℤ) = guess
  have hguess : (2 : ℚ) ^ guess = 2 ^ num.log2 / 2 ^ den.log2 := by
    rw [← hg, zpow_sub₀ two_ne_zero, zpow_natCast, zpow_natCast]
  have hiff : den * Nat.pow 2 guess.toNat ≤ num * Nat.pow 2 (-guess).toNat ↔
      (2 : ℚ) ^ guess ≤ num / den := by
    rw [zpow_eq_div, div_le_div_iff₀ (by positivity) hd, mul_comm den]
    exact_mod_cast Iff.rfl
  split
  · rename_i h
    refine ⟨hiff.mp h, ?_⟩
    calc (num : ℚ) / den < 2 ^ (num.log2 + 1) / 2 ^ den.log2 :=
          div_lt_div₀ hhigh hdlow (by positivity) (by positivity)
      _ = 2 ^ (guess + 1) := by rw [zpow_add_one₀ two_ne_zero, hguess]; ring
  · rename_i h
    refine ⟨?_, ?_⟩
    · calc (2 : ℚ) ^ (guess - 1) = 2 ^ num.log2 / 2 ^ (den.log2 + 1) := by
            rw [zpow_sub_one₀ two_ne_zero, hguess, pow_succ]; field_simp
        _ ≤ num / den := div_le_div₀ (by positivity) hlow hd hdhigh.le
    · rw [sub_add_cancel]
      exact lt_of_not_ge fun hle => h (hiff.mpr hle)

theorem roundEven_bounds (num : ℕ) {den : ℕ} (hden : 0 < den) :
    2 * (roundEven num den * den) ≤ 2 * num + den ∧ 2 * num ≤ 2 * (roundEven num den * den) + den ∧
      (roundEven num den % 2 = 1 →
        2 * (roundEven num den * den) < 2 * num + den ∧
          2 * num < 2 * (roundEven num den * den) + den) := by
  have hnum : num / den * den + num % den = num := Nat.div_add_mod' num den
  have hrem := Nat.mod_lt num hden
  unfold roundEven
  simp only
  generalize num / den = quotient at *
  split_ifs with hmore hless
  · rw [Nat.add_one_mul quotient den]
    omega
  · omega
  · -- On a tie the quotient is moved to the even side.
    rcases Nat.mod_two_eq_zero_or_one quotient with heven | hodd
    · rw [heven, Nat.add_zero]
      omega
    · rw [hodd, Nat.add_one_mul quotient den]
      omega

/-- Rounding a quotient moves it by a half at most, and by less than that to an odd number. -/
theorem roundEven_spec (num : ℕ) {den : ℕ} (hden : 0 < den) :
    (roundEven num den : ℚ) - 1 / 2 ≤ num / den ∧ (num : ℚ) / den ≤ roundEven num den + 1 / 2 ∧
      (roundEven num den % 2 = 1 →
        (roundEven num den : ℚ) - 1 / 2 < num / den ∧
          (num : ℚ) / den < roundEven num den + 1 / 2) := by
  have hd : (0 : ℚ) < den := by exact_mod_cast hden
  obtain ⟨hlow, hhigh, hodd⟩ := roundEven_bounds num hden
  rw [le_div_iff₀ hd, div_le_iff₀ hd, lt_div_iff₀ hd, div_lt_iff₀ hd]
  have hlow : 2 * ((roundEven num den : ℚ) * den) ≤ 2 * num + den := by exact_mod_cast hlow
  have hhigh : 2 * (num : ℚ) ≤ 2 * (roundEven num den * den) + den := by exact_mod_cast hhigh
  refine ⟨by linarith, by linarith, fun h => ?_⟩
  obtain ⟨hlt, hgt⟩ := hodd h
  have hlt : 2 * ((roundEven num den : ℚ) * den) < 2 * num + den := by exact_mod_cast hlt
  have hgt : 2 * (num : ℚ) < 2 * (roundEven num den * den) + den := by exact_mod_cast hgt
  exact ⟨by linarith, by linarith⟩

/-! ## The numbers of the format and what rounds to them -/

/-- The significand and the exponent of a finite number, in the one way in which the format has
it. -/
structure Canonical (m : ℕ) (q : ℤ) : Prop where
  bound : m < 2 ^ 53
  least : minExponent ≤ q
  most : q ≤ maxExponent
  normal : q = minExponent ∨ 2 ^ 52 ≤ m

/-- How far down the numbers reach that round to `m * 2 ^ q`, in units of `2 ^ q`. Below a power of
two the next number is only half as far away. -/
def gapBelow (m : ℕ) (q : ℤ) : ℚ := if m = 2 ^ 52 ∧ minExponent < q then 1 / 4 else 1 / 2

/-- The rational numbers that round to `m * 2 ^ q`. -/
structure Covers (m : ℕ) (q : ℤ) (v : ℚ) : Prop where
  low : (m - gapBelow m q) * 2 ^ q ≤ v
  high : v ≤ (m + 1 / 2) * 2 ^ q
  odd : m % 2 = 1 → (m - gapBelow m q) * 2 ^ q < v ∧ v < (m + 1 / 2) * 2 ^ q

theorem gapBelow_pos (m : ℕ) (q : ℤ) : 0 < gapBelow m q := by
  unfold gapBelow
  split_ifs <;> norm_num

theorem gapBelow_le (m : ℕ) (q : ℤ) : gapBelow m q ≤ 1 / 2 := by
  unfold gapBelow
  split_ifs <;> norm_num

theorem gapBelow_eq {m : ℕ} {q : ℤ} (h : m ≠ 2 ^ 52 ∨ q ≤ minExponent) : gapBelow m q = 1 / 2 :=
  if_neg fun ⟨hm, hq⟩ => h.elim (· hm) (not_le_of_gt hq)

theorem gapBelow_power {q : ℤ} (h : minExponent < q) : gapBelow (2 ^ 52) q = 1 / 4 :=
  if_pos ⟨rfl, h⟩

theorem Covers.self (m : ℕ) (q : ℤ) : Covers m q (m * 2 ^ q) := by
  have hq := two_zpow_pos q
  have hg := gapBelow_pos m q
  have hlow : (m - gapBelow m q) * 2 ^ q < m * 2 ^ q := by
    apply mul_lt_mul_of_pos_right _ hq
    linarith
  have hhigh : (m : ℚ) * 2 ^ q < (m + 1 / 2) * 2 ^ q := by
    apply mul_lt_mul_of_pos_right _ hq
    linarith
  exact ⟨hlow.le, hhigh.le, fun _ => ⟨hlow, hhigh⟩⟩

theorem Covers.pos {m : ℕ} {q : ℤ} {v : ℚ} (hm : 0 < m) (h : Covers m q v) : 0 < v := by
  have hone : (1 : ℚ) ≤ m := by exact_mod_cast hm
  have hgap := gapBelow_le m q
  exact lt_of_lt_of_le (mul_pos (by linarith) (two_zpow_pos q)) h.low

/-- Rounding moves a value by half a unit of the last place at most. -/
theorem Covers.abs_sub_le {m : ℕ} {q : ℤ} {v : ℚ} (h : Covers m q v) :
    |v - m * 2 ^ q| ≤ 2 ^ q / 2 := by
  have hq := two_zpow_pos q
  have hgap : gapBelow m q * 2 ^ q ≤ 1 / 2 * 2 ^ q :=
    mul_le_mul_of_nonneg_right (gapBelow_le m q) hq.le
  have hlow := h.low
  have hhigh := h.high
  rw [sub_mul] at hlow
  rw [add_mul] at hhigh
  rw [abs_le]
  exact ⟨by linarith, by linarith⟩

/-- All values between two that round to a number do so too. -/
theorem Covers.of_mem {m : ℕ} {q : ℤ} {a v b : ℚ} (ha : Covers m q a) (hb : Covers m q b)
    (hav : a ≤ v) (hvb : v ≤ b) : Covers m q v :=
  ⟨ha.low.trans hav, hvb.trans hb.high,
    fun h => ⟨(ha.odd h).1.trans_le hav, hvb.trans_lt (hb.odd h).2⟩⟩

/-- What rounds to a number of some exponent stays below the middle between the largest of these
numbers and the next one, because the largest significand is odd. -/
theorem Covers.lt_top {m : ℕ} {q : ℤ} {v : ℚ} (hm : Canonical m q) (h : Covers m q v) :
    v < (2 ^ 53 - 1 / 2) * 2 ^ q := by
  have hq := two_zpow_pos q
  rcases Nat.mod_two_eq_zero_or_one m with heven | hodd
  · have hle : m + 2 ≤ 2 ^ 53 := by
      have := hm.bound
      omega
    have hle : (m : ℚ) + 2 ≤ 2 ^ 53 := by exact_mod_cast hle
    apply h.high.trans_lt
    apply mul_lt_mul_of_pos_right _ hq
    linarith
  · have hle : m + 1 ≤ 2 ^ 53 := hm.bound
    have hle : (m : ℚ) + 1 ≤ 2 ^ 53 := by exact_mod_cast hle
    apply (h.odd hodd).2.trans_le
    apply mul_le_mul_of_nonneg_right _ hq.le
    linarith

/-- What rounds to a number of a larger exponent does not lie below that middle. -/
theorem Covers.top_le {n : ℕ} {q r : ℤ} {w : ℚ} (hn : Canonical n r) (h : Covers n r w)
    (hq : minExponent ≤ q) (hqr : q < r) : (2 ^ 53 - 1 / 2) * 2 ^ q ≤ w := by
  have hleast : (2 : ℚ) ^ 52 - 1 / 4 ≤ n - gapBelow n r := by
    rcases hn.normal with hr | hge
    · omega
    · rcases hge.lt_or_eq with hgt | rfl
      · rw [gapBelow_eq (.inl hgt.ne')]
        have hgt : (2 : ℚ) ^ 52 + 1 ≤ n := by exact_mod_cast hgt
        linarith
      · rw [gapBelow_power (by omega)]
        push_cast
        exact le_rfl
  calc ((2 : ℚ) ^ 53 - 1 / 2) * 2 ^ q = (2 ^ 52 - 1 / 4) * 2 ^ (q + 1) := by
        rw [zpow_add_one₀ two_ne_zero]
        ring
    _ ≤ (n - gapBelow n r) * 2 ^ r :=
        mul_le_mul hleast (two_zpow_le hqr) (two_zpow_pos _).le (by linarith)
    _ ≤ w := h.low

/-- Rounding is monotone. -/
theorem Covers.le_of_le {m n : ℕ} {q r : ℤ} {v w : ℚ} (hm : Canonical m q) (hn : Canonical n r)
    (hv : Covers m q v) (hw : Covers n r w) (h : v ≤ w) : (m : ℚ) * 2 ^ q ≤ n * 2 ^ r := by
  rcases lt_trichotomy q r with hlt | rfl | hgt
  · have hself := (Covers.self m q).lt_top hm
    exact (hself.trans_le ((Covers.self n r).top_le hn hm.least hlt)).le
  · have hq := two_zpow_pos q
    apply mul_le_mul_of_nonneg_right _ hq.le
    by_contra hlt
    have hlt : n < m := by exact_mod_cast not_le.mp hlt
    have hgap : gapBelow m q = 1 / 2 := by
      apply gapBelow_eq
      rcases hn.normal with hmin | hge
      · exact .inr hmin.le
      · exact .inl (by omega)
    have hlow := hv.low
    have hhigh := hw.high
    rw [hgap] at hlow
    -- Neighbours touch in one value, and one of the two is odd.
    have hsucc : (m : ℚ) ≤ n + 1 := by
      have hle : ((m : ℚ) - 1 / 2) * 2 ^ q ≤ (n + 1 / 2) * 2 ^ q := hlow.trans (h.trans hhigh)
      have hle := le_of_mul_le_mul_right hle hq
      linarith
    have hsucc : m = n + 1 := by
      have hsucc : m ≤ n + 1 := by exact_mod_cast hsucc
      omega
    have hmid : ((m : ℚ) - 1 / 2) * 2 ^ q = (n + 1 / 2) * 2 ^ q := by
      rw [hsucc]
      push_cast
      ring
    rcases Nat.mod_two_eq_zero_or_one n with heven | hodd
    · have hstrict := (hv.odd (by omega)).1
      rw [hgap] at hstrict
      linarith
    · have hstrict := (hw.odd hodd).2
      linarith
  · exact absurd h (not_le_of_gt ((hw.lt_top hn).trans_le (hv.top_le hm hn.least hgt)))

/-- A number is given by its value. -/
theorem Canonical.eq_of_mul_eq {m n : ℕ} {q r : ℤ} (hm : Canonical m q) (hn : Canonical n r)
    (h : (m : ℚ) * 2 ^ q = n * 2 ^ r) : m = n ∧ q = r := by
  have hself := Covers.self m q
  have hself' := Covers.self n r
  rcases lt_trichotomy q r with hlt | rfl | hgt
  · exact absurd h ((hself.lt_top hm).trans_le (hself'.top_le hn hm.least hlt)).ne
  · refine ⟨?_, rfl⟩
    exact_mod_cast mul_right_cancel₀ (two_zpow_pos q).ne' h
  · exact absurd h ((hself'.lt_top hn).trans_le (hself.top_le hm hn.least hgt)).ne'

/-- A value rounds to one number. -/
theorem Covers.unique {m n : ℕ} {q r : ℤ} {v : ℚ} (hm : Canonical m q) (hn : Canonical n r)
    (hv : Covers m q v) (hw : Covers n r v) : m = n ∧ q = r :=
  hm.eq_of_mul_eq hn (le_antisymm (hv.le_of_le hm hn hw le_rfl) (hw.le_of_le hn hm hv le_rfl))

/-! ## The nearest number -/

/-- The values that are too large for the format. -/
def overflowBound : ℚ := (2 ^ 53 - 1 / 2) * 2 ^ maxExponent

/-- The exponent with which a value is rounded leaves it fewer than 54 bits before the point, and 53
unless the exponent is the smallest one. -/
theorem exponent_spec {num den : ℕ} (hnum : 0 < num) (hden : 0 < den) (scale : ℤ) :
    let e := max (leadingBit num den + scale - 52) minExponent
    (num : ℚ) / den * 2 ^ scale < 2 ^ 53 * 2 ^ e ∧
      (e = minExponent ∨ 2 ^ 52 * 2 ^ e ≤ (num : ℚ) / den * 2 ^ scale) := by
  intro e
  obtain ⟨hlow, hhigh⟩ := leadingBit_spec hnum hden
  have hscale := two_zpow_pos scale
  refine ⟨?_, ?_⟩
  · calc (num : ℚ) / den * 2 ^ scale < 2 ^ (leadingBit num den + 1) * 2 ^ scale :=
          mul_lt_mul_of_pos_right hhigh hscale
      _ = 2 ^ (leadingBit num den + 1 + scale) := (zpow_add₀ two_ne_zero _ _).symm
      _ ≤ 2 ^ (e + 53) := two_zpow_le (by omega)
      _ = 2 ^ 53 * 2 ^ e := two_zpow_add e 53
  · rcases le_total (leadingBit num den + scale - 52) minExponent with hle | hge
    · exact .inl (max_eq_right hle)
    · right
      have he : e = leadingBit num den + scale - 52 := max_eq_left hge
      calc (2 : ℚ) ^ 52 * 2 ^ e = 2 ^ (e + 52) := (two_zpow_add e 52).symm
        _ = 2 ^ leadingBit num den * 2 ^ scale := by
            rw [he, sub_add_cancel, zpow_add₀ two_ne_zero]
        _ ≤ (num : ℚ) / den * 2 ^ scale := mul_le_mul_of_nonneg_right hlow hscale.le

/-- The quotient that is rounded is the value in units of the last place. -/
theorem rescale_eq (num : ℕ) {den : ℕ} (hden : 0 < den) (scale e : ℤ) :
    ((num * Nat.pow 2 (scale - e).toNat : ℕ) : ℚ) / (den * Nat.pow 2 (e - scale).toNat : ℕ) =
      num / den * 2 ^ scale / 2 ^ e := by
  have hd : (den : ℚ) ≠ 0 := by exact_mod_cast hden.ne'
  have hz := zpow_eq_div 2 (scale - e)
  rw [neg_sub] at hz
  rw [mul_div_assoc, ← zpow_sub₀ two_ne_zero, hz, Nat.pow_eq, Nat.pow_eq]
  push_cast
  field_simp

/-- A significand with its exponent, after a carry into one more bit. -/
theorem nearest_eq {num : ℕ} (hnum : 0 < num) (negative : Bool) (den : ℕ) (scale : ℤ) :
    let e := max (leadingBit num den + scale - 52) minExponent
    let s := roundEven (num * Nat.pow 2 (scale - e).toNat) (den * Nat.pow 2 (e - scale).toNat)
    nearest negative num den scale =
      if s = 2 ^ 53 then
        if maxExponent < e + 1 then .infinite negative else .finite negative (2 ^ 52) (e + 1)
      else if maxExponent < e then .infinite negative else .finite negative s e := by
  intro e s
  let carried := if s = 2 ^ 53 then (2 ^ 52, e + 1) else (s, e)
  have hcarry : nearest negative num den scale =
      if maxExponent < carried.2 then .infinite negative
      else .finite negative carried.1 carried.2 := by
    unfold nearest
    rw [if_neg hnum.ne']
    rfl
  rw [hcarry]
  by_cases hs : s = 2 ^ 53
  · rw [if_pos hs, show carried = (2 ^ 52, e + 1) from if_pos hs]
  · rw [if_neg hs, show carried = (s, e) from if_neg hs]

/-- A value that is rounded without a carry. -/
theorem covers_round {s : ℕ} {e : ℤ} {v : ℚ} (hlow : ((s : ℚ) - 1 / 2) * 2 ^ e ≤ v)
    (hhigh : v ≤ (s + 1 / 2) * 2 ^ e)
    (hodd : s % 2 = 1 → ((s : ℚ) - 1 / 2) * 2 ^ e < v ∧ v < (s + 1 / 2) * 2 ^ e)
    (hbottom : e = minExponent ∨ 2 ^ 52 * 2 ^ e ≤ v) : Covers s e v := by
  by_cases hpower : s = 2 ^ 52 ∧ minExponent < e
  · obtain ⟨rfl, he⟩ := hpower
    have hvalue := hbottom.resolve_left he.ne'
    have hpos := two_zpow_pos e
    refine ⟨?_, hhigh, fun h => absurd h (by norm_num)⟩
    rw [gapBelow_power he]
    apply le_trans _ hvalue
    apply mul_le_mul_of_nonneg_right _ hpos.le
    norm_num
  · have hgap : gapBelow s e = 1 / 2 := if_neg hpower
    exact ⟨by rwa [hgap], hhigh, fun h => by rw [hgap]; exact hodd h⟩

/-- A value that is rounded up to a power of two and therefore to one more bit. -/
theorem covers_carry {e : ℤ} {v : ℚ} (he : minExponent ≤ e)
    (hlow : ((2 : ℚ) ^ 53 - 1 / 2) * 2 ^ e ≤ v) (hhigh : v ≤ 2 ^ 53 * 2 ^ e) :
    Covers (2 ^ 52) (e + 1) v := by
  have hpos := two_zpow_pos e
  refine ⟨?_, ?_, fun h => absurd h (by norm_num)⟩
  · rw [gapBelow_power (by omega), zpow_add_one₀ two_ne_zero]
    push_cast
    linarith
  · rw [zpow_add_one₀ two_ne_zero]
    push_cast
    linarith

theorem overflowBound_le {e : ℤ} (he : maxExponent < e) : overflowBound ≤ 2 ^ 52 * 2 ^ e :=
  calc overflowBound ≤ 2 ^ 52 * 2 ^ (maxExponent + 1) := by
        rw [overflowBound, zpow_add_one₀ two_ne_zero, mul_comm ((2 : ℚ) ^ maxExponent), ← mul_assoc]
        exact mul_le_mul_of_nonneg_right (by norm_num) (two_zpow_pos _).le
    _ ≤ 2 ^ 52 * 2 ^ e := mul_le_mul_of_nonneg_left (two_zpow_le (by omega)) (by norm_num)

/-- The nearest number is the one that a value rounds to, unless the value is too large. -/
theorem nearest_cases (negative : Bool) (num : ℕ) {den : ℕ} (hden : 0 < den) (scale : ℤ) :
    (∃ m q, nearest negative num den scale = .finite negative m q ∧ Canonical m q ∧
      Covers m q (num / den * 2 ^ scale)) ∨
    nearest negative num den scale = .infinite negative ∧
      overflowBound ≤ num / den * 2 ^ scale := by
  rcases Nat.eq_zero_or_pos num with rfl | hnum
  · refine .inl ⟨0, minExponent, rfl, ⟨by norm_num, le_rfl, by decide, .inl rfl⟩, ?_⟩
    simpa using Covers.self 0 minExponent
  obtain ⟨htop, hbottom⟩ := exponent_spec hnum hden scale
  have hnearest := nearest_eq hnum negative den scale
  simp only at hnearest
  have hleast : minExponent ≤ max (leadingBit num den + scale - 52) minExponent := le_max_right _ _
  generalize max (leadingBit num den + scale - 52) minExponent = e at *
  have hround := roundEven_spec (num * Nat.pow 2 (scale - e).toNat)
    (Nat.mul_pos hden (Nat.pow_pos two_pos) : 0 < den * Nat.pow 2 (e - scale).toNat)
  rw [rescale_eq num hden] at hround
  generalize roundEven (num * Nat.pow 2 (scale - e).toNat)
    (den * Nat.pow 2 (e - scale).toNat) = s at *
  generalize (num : ℚ) / den * 2 ^ scale = v at *
  have he := two_zpow_pos e
  obtain ⟨hlow, hhigh, hodd⟩ := hround
  rw [le_div_iff₀ he] at hlow
  rw [div_le_iff₀ he] at hhigh
  rw [lt_div_iff₀ he, div_lt_iff₀ he] at hodd
  have hs : s ≤ 2 ^ 53 := by
    have hlt := lt_of_mul_lt_mul_right (hlow.trans_lt htop) he.le
    have hlt : (s : ℚ) < (2 ^ 53 + 1 : ℕ) := by
      push_cast
      linarith
    exact Nat.lt_succ_iff.mp (by exact_mod_cast hlt)
  by_cases hcarry : s = 2 ^ 53
  · rw [if_pos hcarry] at hnearest
    rw [hcarry] at hlow
    push_cast at hlow
    by_cases hbig : maxExponent < e + 1
    · rw [if_pos hbig] at hnearest
      refine .inr ⟨hnearest, le_trans ?_ hlow⟩
      exact mul_le_mul_of_nonneg_left (two_zpow_le (by omega)) (by norm_num)
    · rw [if_neg hbig] at hnearest
      exact .inl ⟨_, _, hnearest, ⟨by norm_num, by omega, by omega, .inr le_rfl⟩,
        covers_carry hleast hlow htop.le⟩
  · rw [if_neg hcarry] at hnearest
    by_cases hbig : maxExponent < e
    · rw [if_pos hbig] at hnearest
      have hmin : minExponent < maxExponent := by decide
      have hvalue := hbottom.resolve_left (by omega)
      exact .inr ⟨hnearest, (overflowBound_le hbig).trans hvalue⟩
    · rw [if_neg hbig] at hnearest
      refine .inl ⟨_, _, hnearest, ⟨by omega, hleast, by omega, ?_⟩,
        covers_round hlow hhigh hodd hbottom⟩
      refine hbottom.imp_right fun hvalue => ?_
      have hle := le_of_mul_le_mul_right (hvalue.trans hhigh) he
      have hlt : ((2 ^ 52 : ℕ) : ℚ) < (s + 1 : ℕ) := by
        push_cast
        linarith
      exact Nat.lt_succ_iff.mp (by exact_mod_cast hlt)

theorem Covers.lt_overflowBound {m : ℕ} {q : ℤ} {v : ℚ} (hm : Canonical m q) (h : Covers m q v) :
    v < overflowBound := by
  apply (h.lt_top hm).trans_le
  exact mul_le_mul_of_nonneg_left (two_zpow_le hm.most) (by norm_num)

/-- Whatever rounds to a number has it for its nearest one. -/
theorem nearest_of_covers {m : ℕ} {q : ℤ} (hm : Canonical m q) (negative : Bool) (num : ℕ) {den : ℕ}
    (hden : 0 < den) (scale : ℤ) (h : Covers m q (num / den * 2 ^ scale)) :
    nearest negative num den scale = .finite negative m q := by
  rcases nearest_cases negative num hden scale with ⟨n, r, hn, hcanonical, hcovers⟩ | ⟨-, hbig⟩
  · obtain ⟨rfl, rfl⟩ := h.unique hm hcanonical hcovers
    exact hn
  · exact absurd hbig (not_le_of_gt (h.lt_overflowBound hm))

/-- Every product of a short whole number and a power of two is a number of the format. -/
theorem Canonical.exists_eq {k : ℕ} {j : ℤ} (hk : k < 2 ^ 53) (hleast : minExponent ≤ j)
    (hmost : j ≤ maxExponent) : ∃ m q, Canonical m q ∧ (m : ℚ) * 2 ^ q = k * 2 ^ j := by
  -- The significand is doubled until it is long enough or the exponent cannot become smaller.
  obtain ⟨n, hn⟩ := Int.eq_ofNat_of_zero_le (sub_nonneg.mpr hleast)
  induction n generalizing k j with
  | zero => exact ⟨k, j, ⟨hk, hleast, hmost, .inl (by omega)⟩, rfl⟩
  | succ n ih =>
    rcases le_or_gt (2 ^ 52) k with hlong | hshort
    · exact ⟨k, j, ⟨hk, hleast, hmost, .inr hlong⟩, rfl⟩
    · obtain ⟨m, q, hm, heq⟩ := @ih (2 * k) (j - 1) (by omega) (by omega) (by omega) (by omega)
      refine ⟨m, q, hm, heq.trans ?_⟩
      rw [zpow_sub_one₀ two_ne_zero]
      push_cast
      field_simp

/-- A value below a power of two is moved by at most half a unit that belongs to that power. -/
theorem Covers.abs_sub_le_of_lt {m : ℕ} {q e : ℤ} {v : ℚ} (hm : Canonical m q) (h : Covers m q v)
    (he : minExponent ≤ e) (hv : v < 2 ^ 53 * 2 ^ e) : |v - m * 2 ^ q| ≤ 2 ^ e / 2 := by
  rcases le_or_gt q e with hle | hlt
  · have hunit := two_zpow_le hle
    exact h.abs_sub_le.trans (by linarith)
  · -- The value is rounded up to the power itself.
    have hmost := hm.most
    have htop := h.top_le hm he hlt
    have hpower : Canonical (2 ^ 52) (e + 1) := ⟨by norm_num, by omega, by omega, .inr le_rfl⟩
    have heq : ((2 ^ 52 : ℕ) : ℚ) * 2 ^ (e + 1) = 2 ^ 53 * 2 ^ e := by
      rw [zpow_add_one₀ two_ne_zero]
      push_cast
      ring
    have hle : (m : ℚ) * 2 ^ q ≤ 2 ^ 53 * 2 ^ e := by
      rw [← heq]
      exact h.le_of_le hm hpower (Covers.self _ _) (by rw [heq]; exact hv.le)
    have hge : (2 : ℚ) ^ 53 * 2 ^ e ≤ m * 2 ^ q := by
      rw [← heq]
      exact (covers_carry he htop hv.le).le_of_le hpower hm h le_rfl
    rw [abs_le]
    constructor <;> linarith

/-! ## Numbers that the format has -/

/-- The number is one of the format. -/
def WellFormed : Binary64 → Prop
  | nan | infinite _ => True
  | finite _ m q => Canonical m q

theorem wellFormed_zero (negative : Bool) : (zero negative).WellFormed :=
  ⟨by norm_num, le_rfl, by decide, .inl rfl⟩

theorem wellFormed_nearest (negative : Bool) (num : ℕ) {den : ℕ} (hden : 0 < den) (scale : ℤ) :
    (nearest negative num den scale).WellFormed := by
  rcases nearest_cases negative num hden scale with ⟨m, q, heq, hm, -⟩ | ⟨heq, -⟩
  · rw [heq]
    exact hm
  · rw [heq]
    trivial

theorem WellFormed.neg {x : Binary64} (h : x.WellFormed) : x.neg.WellFormed := by
  cases x <;> exact h

theorem wellFormed_mul (x y : Binary64) : (x.mul y).WellFormed := by
  unfold mul
  split
  · trivial
  · trivial
  · trivial
  · split <;> trivial
  · split <;> trivial
  · exact wellFormed_nearest _ _ one_pos _

theorem wellFormed_div (x y : Binary64) : (x.div y).WellFormed := by
  unfold div
  split
  · trivial
  · trivial
  · trivial
  · trivial
  · exact wellFormed_zero _
  · split
    · split <;> trivial
    · rename_i hn
      exact wellFormed_nearest _ _ (Nat.pos_of_ne_zero hn) _

/-! ## Order -/

/-- The value of a finite number. -/
def value : Binary64 → ℚ
  | finite negative m q => (if negative then -1 else 1) * (m * 2 ^ q)
  | _ => 0

/-- The unit of the last place of a finite number. -/
def unit : Binary64 → ℚ
  | finite _ _ q => 2 ^ q
  | _ => 0

theorem scaled_mul {q least : ℤ} (h : least ≤ q) (negative : Bool) (m : ℕ) :
    (scaled negative m q least : ℚ) * 2 ^ least = value (finite negative m q) := by
  obtain ⟨k, hk⟩ := Int.eq_ofNat_of_zero_le (sub_nonneg.mpr h)
  obtain rfl : q = least + k := by omega
  have hpow := two_zpow_add least k
  cases negative <;> simp [scaled, value, hpow] <;> ring

theorem le_finite_iff (s t : Bool) (m n : ℕ) (q r : ℤ) :
    le (finite s m q) (finite t n r) = true ↔ value (finite s m q) ≤ value (finite t n r) := by
  have hpos := two_zpow_pos (min q r)
  rw [← scaled_mul (min_le_left q r), ← scaled_mul (min_le_right q r), mul_le_mul_iff_left₀ hpos]
  simp [le]

end Tether.Binary64
