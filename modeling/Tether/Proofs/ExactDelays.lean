import Tether.Proofs.DelayCap

/-!
# Delays of whole multipliers

Up to `2 ^ 53` every whole number is one of the format, and products of whole numbers are exact
there. Beyond it they are rounded, but never back below it, and never to something that has no
value. So a computed product either is the true one or lies, like the true one, at `2 ^ 53` or
above: `Tracks`. Products keep this, hence repeated squaring does, whatever is rounded or becomes
infinite on its way; and a cap that is not above `2 ^ 53` cannot tell the two apart.
-/

namespace Tether

namespace Binary64

/-- The number is what the arithmetic may make of the whole number `n`. -/
inductive Tracks (n : ℕ) : Binary64 → Prop
  | exact {m : ℕ} {q : ℤ} (h : (m : ℚ) * 2 ^ q = n) : Tracks n (finite false m q)
  | beyond {m : ℕ} {q : ℤ} (hn : 2 ^ 53 ≤ n) (h : (2 : ℚ) ^ 53 ≤ m * 2 ^ q) :
    Tracks n (finite false m q)
  | infinite (hn : 2 ^ 53 ≤ n) : Tracks n (infinite false)

theorem canonical_bound : Canonical (2 ^ 52) 1 :=
  ⟨by norm_num, by decide, by decide, .inr le_rfl⟩

theorem canonical_bound_mul : ((2 ^ 52 : ℕ) : ℚ) * 2 ^ (1 : ℤ) = 2 ^ 53 := by norm_num

/-- Rounding does not lead back below `2 ^ 53`. -/
theorem tracks_nearest_of_le {n num : ℕ} {scale : ℤ} (hn : 2 ^ 53 ≤ n)
    (h : (2 : ℚ) ^ 53 ≤ num * 2 ^ scale) : Tracks n (nearest false num 1 scale) := by
  rcases nearest_cases false num one_pos scale with ⟨m, q, heq, hm, hcovers⟩ | ⟨heq, -⟩
  · rw [heq]
    rw [Nat.cast_one, div_one] at hcovers
    have hself := Covers.self (2 ^ 52) 1
    rw [canonical_bound_mul] at hself
    have hle := hself.le_of_le canonical_bound hm hcovers h
    rw [canonical_bound_mul] at hle
    exact .beyond hn hle
  · rw [heq]
    exact .infinite hn

/-- Whole numbers are not rounded up to `2 ^ 53`, itself included. -/
theorem exists_nearest_eq {n num : ℕ} {scale : ℤ} (hn : n ≤ 2 ^ 53)
    (h : (num : ℚ) * 2 ^ scale = n) :
    ∃ m q, nearest false num 1 scale = finite false m q ∧ (m : ℚ) * 2 ^ q = n := by
  have hcanonical : ∃ m q, Canonical m q ∧ (m : ℚ) * 2 ^ q = n := by
    rcases hn.lt_or_eq with hlt | rfl
    · obtain ⟨m, q, hm, heq⟩ := Canonical.exists_eq hlt (by decide : minExponent ≤ 0) (by decide)
      rw [zpow_zero, mul_one] at heq
      exact ⟨m, q, hm, heq⟩
    · refine ⟨2 ^ 52, 1, canonical_bound, ?_⟩
      rw [canonical_bound_mul]
      push_cast
      rfl
  obtain ⟨m, q, hm, heq⟩ := hcanonical
  refine ⟨m, q, nearest_of_covers hm false num one_pos scale ?_, heq⟩
  rw [Nat.cast_one, div_one, h, ← heq]
  exact Covers.self m q

theorem tracks_nearest_of_eq {n num : ℕ} {scale : ℤ} (h : (num : ℚ) * 2 ^ scale = n) :
    Tracks n (nearest false num 1 scale) := by
  rcases le_total n (2 ^ 53) with hle | hge
  · obtain ⟨m, q, hnearest, heq⟩ := exists_nearest_eq hle h
    rw [hnearest]
    exact .exact heq
  · refine tracks_nearest_of_le hge ?_
    rw [h]
    exact_mod_cast hge

theorem tracks_ofNat (n : ℕ) : Tracks n (ofNat n) :=
  tracks_nearest_of_eq (by rw [zpow_zero, mul_one])

/-- A finite number that stands for a whole one is at least one, like that. -/
theorem Tracks.one_le {n m : ℕ} {q : ℤ} (hn : 0 < n) (h : Tracks n (finite false m q)) :
    (1 : ℚ) ≤ m * 2 ^ q := by
  cases h with
  | exact h =>
    rw [h]
    exact_mod_cast hn
  | beyond _ h => exact le_trans (by norm_num) h

theorem le_mul_of_le_left {n k : ℕ} (hn : 2 ^ 53 ≤ n) (hk : 0 < k) : 2 ^ 53 ≤ n * k :=
  hn.trans (Nat.le_mul_of_pos_right n hk)

theorem le_mul_of_le_right {n k : ℕ} (hn : 0 < n) (hk : 2 ^ 53 ≤ k) : 2 ^ 53 ≤ n * k :=
  hk.trans (Nat.le_mul_of_pos_left k hn)

theorem mul_infinite_of_one_le {m : ℕ} {q : ℤ} (h : (1 : ℚ) ≤ m * 2 ^ q) :
    (finite false m q).mul (.infinite false) = .infinite false ∧
      (Binary64.infinite false).mul (finite false m q) = .infinite false := by
  have hm : m ≠ 0 := by
    rintro rfl
    norm_num at h
  constructor <;> (rw [mul, if_neg hm]; rfl)

/-- The step of every computation with whole numbers. -/
theorem Tracks.mul_finite {n k m m' : ℕ} {q q' : ℤ} (hn : 0 < n) (hk : 0 < k)
    (hx : Tracks n (finite false m q)) (hy : Tracks k (finite false m' q')) :
    Tracks (n * k) (nearest false (m * m') 1 (q + q')) := by
  have hone := hx.one_le hn
  have hone' := hy.one_le hk
  have hvalue : ((m * m' : ℕ) : ℚ) * 2 ^ (q + q') = m * 2 ^ q * (m' * 2 ^ q') := by
    rw [zpow_add₀ two_ne_zero]
    push_cast
    ring
  cases hx with
  | exact hx =>
    cases hy with
    | exact hy =>
      refine tracks_nearest_of_eq ?_
      rw [hvalue, hx, hy]
      push_cast
      rfl
    | beyond hlarge hy =>
      refine tracks_nearest_of_le (le_mul_of_le_right hn hlarge) ?_
      rw [hvalue]
      exact hy.trans (le_mul_of_one_le_left (by linarith) hone)
  | beyond hlarge hx =>
    refine tracks_nearest_of_le (le_mul_of_le_left hlarge hk) ?_
    rw [hvalue]
    exact hx.trans (le_mul_of_one_le_right (by linarith) hone')

theorem Tracks.mul {n k : ℕ} {x y : Binary64} (hn : 0 < n) (hk : 0 < k) (hx : Tracks n x)
    (hy : Tracks k y) : Tracks (n * k) (x.mul y) := by
  cases x with
  | nan => cases hx
  | infinite s =>
    cases hx with
    | infinite hlarge =>
      have hprod := le_mul_of_le_left hlarge hk
      cases y with
      | nan => cases hy
      | infinite t =>
        cases hy
        exact .infinite hprod
      | finite t m q =>
        obtain rfl : t = false := by cases hy <;> rfl
        rw [(mul_infinite_of_one_le (hy.one_le hk)).2]
        exact .infinite hprod
  | finite s m q =>
    obtain rfl : s = false := by cases hx <;> rfl
    cases y with
    | nan => cases hy
    | infinite t =>
      cases hy with
      | infinite hlarge =>
        rw [(mul_infinite_of_one_le (hx.one_le hn)).1]
        exact .infinite (le_mul_of_le_right hn hlarge)
    | finite t m' q' =>
      obtain rfl : t = false := by cases hy <;> rfl
      exact hx.mul_finite hn hk hy

/-- Repeated squaring, by induction on the bits of the exponent. -/
theorem Tracks.powerLoop {n k e fuel : ℕ} {r a : Binary64} (hn : 0 < n) (hk : 0 < k)
    (hr : Tracks n r) (ha : Tracks k a) (hfuel : e < 2 ^ fuel) :
    Tracks (n * k ^ e) (powerLoop fuel r e a) := by
  induction fuel generalizing n k e r a with
  | zero =>
    obtain rfl : e = 0 := by omega
    rw [pow_zero, mul_one]
    exact hr
  | succ fuel ih =>
    -- The lowest bit decides whether the result takes the present power.
    have hbit : 0 < n * k ^ (e % 2) ∧
        Tracks (n * k ^ (e % 2)) (if e % 2 = 1 then r.mul a else r) := by
      by_cases hodd : e % 2 = 1
      · rw [if_pos hodd, hodd, pow_one]
        exact ⟨Nat.mul_pos hn hk, hr.mul hn hk ha⟩
      · rw [if_neg hodd, show e % 2 = 0 by omega, pow_zero, mul_one]
        exact ⟨hn, hr⟩
    have hsplit : n * k ^ e = n * k ^ (e % 2) * (k * k) ^ (e / 2) := by
      conv_lhs => rw [← Nat.mod_add_div e 2]
      rw [pow_add, pow_mul, pow_two, mul_assoc]
    rw [Binary64.powerLoop]
    by_cases hlast : e / 2 = 0
    · rw [hlast, pow_zero, mul_one] at hsplit
      rw [hsplit]
      simp only [hlast, if_true]
      exact hbit.2
    · rw [hsplit]
      simp only [hlast, if_false]
      rw [pow_succ] at hfuel
      exact ih hbit.1 (Nat.mul_pos hk hk) hbit.2 (ha.mul hk hk ha) (by omega)

theorem Tracks.power {k : ℕ} {a : Binary64} (hk : 0 < k) (ha : Tracks k a) (e : ℕ) :
    Tracks (k ^ e) (a.power e) := by
  have h := (tracks_ofNat 1).powerLoop one_pos hk ha (Nat.lt_log2_self (n := e))
  rwa [one_mul] at h

/-- A number that is whole already is not moved by rounding to whole numbers. -/
theorem toWord_of_eq {m n : ℕ} {q : ℤ} (h : (m : ℚ) * 2 ^ q = n) (hn : n < 2 ^ 64) :
    (finite false m q).toWord = n := by
  rw [zpow_eq_div, mul_div_assoc', div_eq_iff (by positivity)] at h
  have h : m * 2 ^ q.toNat = n * 2 ^ (-q).toNat := by exact_mod_cast h
  by_cases hq : 0 ≤ q
  · rw [show (-q).toNat = 0 by omega, pow_zero, mul_one] at h
    have hword : (finite false m q).toWord = min n (2 ^ 64 - 1) := by
      simp [toWord, hq, h]
    rw [hword]
    omega
  · rw [show q.toNat = 0 by omega, pow_zero, mul_one] at h
    have hunit : 0 < 2 ^ (-q).toNat := Nat.two_pow_pos _
    have hword : (finite false m q).toWord =
        min ((2 * m + 2 ^ (-q).toNat) / (2 * 2 ^ (-q).toNat)) (2 ^ 64 - 1) := by
      simp [toWord, hq]
    rw [hword, h]
    generalize 2 ^ (-q).toNat = unit at hunit ⊢
    have hdiv : (2 * (n * unit) + unit) / (2 * unit) = n := by
      refine Nat.div_eq_of_lt_le ?_ ?_ <;> nlinarith
    rw [hdiv]
    omega

end Binary64

namespace Curve

open Binary64

/-- A cap of at most `2 ^ 53` nanoseconds makes the same of the computed number as of the true
one. -/
theorem capped_of_tracks {c : Curve} {n : ℕ} {x : Binary64} (hcap : c.cap.nanos ≤ 2 ^ 53)
    (h : Tracks n x) : c.capped x = ⟨min n c.cap.nanos⟩ := by
  have hwhole : (c.cap.nanos : ℚ) * 2 ^ (0 : ℤ) = c.cap.nanos := by rw [zpow_zero, mul_one]
  obtain ⟨k, r, hbinary, hvalue⟩ := exists_nearest_eq hcap hwhole
  have hle : ∀ (m : ℕ) (q : ℤ), c.cap.toBinary.le (finite false m q) = true ↔
      (c.cap.nanos : ℚ) ≤ m * 2 ^ q := by
    intro m q
    rw [show c.cap.toBinary = finite false k r from hbinary, le_finite_iff, value_of_positive,
      value_of_positive, hvalue]
  -- Both branches for a number that reaches the cap, computed and true.
  have hreached : ∀ (m : ℕ) (q : ℤ), (c.cap.nanos : ℚ) ≤ m * 2 ^ q → c.cap.nanos ≤ n →
      c.capped (finite false m q) = ⟨min n c.cap.nanos⟩ := by
    intro m q hm hn
    rw [capped, (hle m q).mpr hm, min_eq_right hn]
    rfl
  cases h with
  | infinite hn =>
    rw [min_eq_right (hcap.trans hn)]
    rfl
  | beyond hn h =>
    refine hreached _ _ (le_trans ?_ h) (hcap.trans hn)
    exact_mod_cast hcap
  | exact h =>
    rename_i m q
    rcases le_or_gt c.cap.nanos n with hge | hlt
    · refine hreached _ _ ?_ hge
      rw [h]
      exact_mod_cast hge
    · have hbelow : c.cap.toBinary.le (finite false m q) = false := by
        rw [Bool.eq_false_iff, ne_eq, hle, h, not_le]
        exact_mod_cast hlt
      rw [capped, hbelow, toWord_of_eq h (by omega), min_eq_left hlt.le]
      rfl

/-- The delay after `n` failures as the formula with whole numbers gives it. -/
def formula (c : Curve) (m n : ℕ) : Duration := ⟨min (c.base.nanos * m ^ n) c.cap.nanos⟩

/-- Where numbers of failures are cut off, either nothing grows or everything is beyond any cap. -/
theorem formula_cut {c : Curve} {m cut : ℕ} (hbase : 0 < c.base.nanos) (hm : 0 < m)
    (hcap : c.cap.nanos ≤ 2 ^ 53) (hcut : 53 ≤ cut) (n : ℕ) :
    c.formula m (min n cut) = c.formula m n := by
  rcases le_total n cut with hle | hge
  · rw [min_eq_left hle]
  · rw [min_eq_right hge, formula, formula]
    obtain rfl | htwo : m = 1 ∨ 2 ≤ m := by omega
    · rw [one_pow, one_pow]
    · have hlarge : ∀ e, 53 ≤ e → c.cap.nanos ≤ c.base.nanos * m ^ e := by
        intro e he
        calc c.cap.nanos ≤ 2 ^ 53 := hcap
          _ ≤ 2 ^ e := Nat.pow_le_pow_right two_pos he
          _ ≤ m ^ e := Nat.pow_le_pow_left htwo e
          _ ≤ c.base.nanos * m ^ e := Nat.le_mul_of_pos_left _ hbase
      rw [min_eq_right (hlarge cut hcut), min_eq_right (hlarge n (hcut.trans hge))]

theorem delay_eq_formula {c : Curve} {m : ℕ} (hbase : 0 < c.base.nanos) (hm : 0 < m)
    (hmultiplier : c.multiplier = .ofNat m) (hcap : c.cap.nanos ≤ 2 ^ 53) (n : ℕ) :
    c.delay n = c.formula m n := by
  have hpower : Tracks (m ^ min n exponentMax) (c.multiplier.power (min n exponentMax)) := by
    rw [hmultiplier]
    exact (tracks_ofNat m).power hm _
  have hproduct : Tracks (c.base.nanos * m ^ min n exponentMax) (c.product n) :=
    (tracks_ofNat c.base.nanos).mul hbase (Nat.pow_pos hm) hpower
  have hcut : 53 ≤ exponentMax := by decide
  rw [delay_eq_capped, capped_of_tracks hcap hproduct, ← formula_cut hbase hm hcap hcut n]
  rfl

end Curve

namespace Backoff

/-- The delays of `n` failures in a row, the first one first. -/
def delays : ℕ → Backoff → List Duration
  | 0, _ => []
  | n + 1, b => b.peek :: delays n b.fail

/-- The count stands still at its largest value, so `f` must not tell larger counts apart. -/
theorem delays_eq_map {c : Curve} {f : ℕ → Duration} (hdelay : ∀ n, c.delay n = f n)
    (hcut : ∀ n, f (min n Curve.countMax) = f n) (n k : ℕ) :
    delays n ⟨c, min k Curve.countMax⟩ = (List.range' k n).map f := by
  induction n generalizing k with
  | zero => rfl
  | succ n ih =>
    have hfail : min (min k Curve.countMax + 1) Curve.countMax = min (k + 1) Curve.countMax := by
      omega
    rw [delays, peek, fail, hdelay, hcut, hfail, ih, List.range'_succ, List.map_cons]

end Backoff

/-- For a whole multiplier the delays are those of the formula, to the nanosecond, if the cap is at
most `2 ^ 53` nanoseconds. This holds for every number of failures, beyond the largest exponent and
the largest count too, and it needs no bound on the multiplier or the base. -/
theorem Curve.delays_match_formula {c : Curve} {m : ℕ} (hbase : 0 < c.base.nanos) (hm : 1 ≤ m)
    (hmultiplier : c.multiplier = .ofNat m) (hcap : c.cap.nanos ≤ 2 ^ 53) :
    (∀ n, (c.delay n).nanos = min (c.base.nanos * m ^ n) c.cap.nanos) ∧
    (∀ k n, k ≤ n → (c.delay k).nanos ≤ (c.delay n).nanos) ∧
    (∀ n, Backoff.delays n { curve := c } = (List.range n).map (c.formula m)) ∧
    ∀ b : Backoff, b.curve = c → ∀ n, b.reset.delays n = (List.range n).map (c.formula m) := by
  have hdelay := delay_eq_formula hbase hm hmultiplier hcap
  have hfresh : ∀ n, Backoff.delays n ⟨c, 0⟩ = (List.range n).map (c.formula m) := by
    intro n
    have h := Backoff.delays_eq_map hdelay (formula_cut hbase hm hcap (by decide)) n 0
    rwa [Nat.zero_min, ← List.range_eq_range'] at h
  refine ⟨fun n => congrArg Duration.nanos (hdelay n), ?_, hfresh, ?_⟩
  · intro k n hkn
    rw [hdelay, hdelay]
    have hpow : m ^ k ≤ m ^ n := Nat.pow_le_pow_right hm hkn
    exact min_le_min_right _ (Nat.mul_le_mul_left _ hpow)
  · intro b hb n
    rw [Backoff.reset, hb]
    exact hfresh n

/-- A multiplier of 53 bits gives one nanosecond less than the cap after one failure, and the cap
from the second failure on to as many as can be counted. -/
theorem Curve.steep_delays_match :
    let c : Curve := ⟨⟨1⟩, .ofNat (2 ^ 53 - 1), ⟨2 ^ 53⟩⟩
    (c.delay 1).nanos = 2 ^ 53 - 1 ∧ (c.delay 2).nanos = 2 ^ 53 ∧
      (c.delay countMax).nanos = 2 ^ 53 := by
  intro c
  obtain ⟨hdelay, hmono, -⟩ := Curve.delays_match_formula (c := c) (m := 2 ^ 53 - 1) (by decide)
    (by decide) rfl le_rfl
  have hone : (c.delay 1).nanos = 2 ^ 53 - 1 := (hdelay 1).trans (by norm_num [c])
  have htwo : (c.delay 2).nanos = 2 ^ 53 := (hdelay 2).trans (by norm_num [c])
  refine ⟨hone, htwo, le_antisymm ?_ ?_⟩
  · exact (hdelay countMax).trans_le (min_le_right _ _)
  · exact htwo.ge.trans (hmono 2 countMax (by decide))

end Tether
