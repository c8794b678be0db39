import Tether.Json.Write
import Tether.Proofs.Preliminaries
import Tether.Proofs.ReadingError
import Tether.Proofs.ShortestDecimal

/-!
# Numbers that were written are read

The text of a number is digits, possibly with a point among them and an exponent behind them. What
reading finds in it is the decimal that was written, with the digit that follows the point of a
whole number as a further digit: `Scientific.spelled`. So a whole number is read as itself, and a
binary number that is not below one is read as a number within two units of it.
-/

namespace Tether.Decimal.Scientific

/-- The power of ten of the first digit. -/
def leading (s : Scientific) : ℤ := s.power + (Nat.toDigits 10 s.digits).length - 1

/-- The decimal as reading finds it: a whole number that is written out has one more digit, the zero
behind its point. -/
def spelled (s : Scientific) : Scientific :=
  if s.leading < 16 ∧ 0 ≤ s.power then ⟨s.digits * 10 ^ (s.power.toNat + 1), -1⟩ else s

theorem digits_lt (s : Scientific) : s.digits < 10 ^ (Nat.toDigits 10 s.digits).length :=
  (Nat.length_toDigits_le_iff (by decide) Nat.length_toDigits_pos).mp le_rfl

theorem value_spelled (s : Scientific) : s.spelled.value = s.value := by
  unfold spelled
  split_ifs with h
  · obtain ⟨k, hk⟩ := Int.eq_ofNat_of_zero_le h.2
    rw [value, value, hk, Int.toNat_natCast, zpow_natCast, pow_succ]
    push_cast
    rw [zpow_neg_one]
    field_simp
  · rfl

/-- A decimal that is not below one has its first digit before the point. -/
theorem leading_nonneg {s : Scientific} (h : 1 ≤ s.value) : 0 ≤ s.leading := by
  have hlt : (s.digits : ℚ) < 10 ^ (Nat.toDigits 10 s.digits).length := by
    exact_mod_cast s.digits_lt
  have hlt : (1 : ℚ) < 10 ^ (((Nat.toDigits 10 s.digits).length : ℤ) + s.power) :=
    calc (1 : ℚ) ≤ s.digits * 10 ^ s.power := h
      _ < 10 ^ (Nat.toDigits 10 s.digits).length * 10 ^ s.power :=
          mul_lt_mul_of_pos_right hlt (ten_zpow_pos _)
      _ = 10 ^ (((Nat.toDigits 10 s.digits).length : ℤ) + s.power) := by
          rw [zpow_add₀ (by norm_num), zpow_natCast]
  have hlt := (one_lt_zpow_iff_right₀ (by norm_num)).mp hlt
  unfold leading
  omega

/-- Positional digits of a whole number fit into a word. -/
theorem spelled_digits_lt {s : Scientific} (hs : s.leading < 16) (hp : 0 ≤ s.power) :
    s.digits * 10 ^ (s.power.toNat + 1) < 10 ^ 17 := by
  unfold leading at hs
  calc s.digits * 10 ^ (s.power.toNat + 1)
      < 10 ^ (Nat.toDigits 10 s.digits).length * 10 ^ (s.power.toNat + 1) :=
        Nat.mul_lt_mul_of_pos_right s.digits_lt (Nat.pow_pos (by decide))
    _ = 10 ^ ((Nat.toDigits 10 s.digits).length + (s.power.toNat + 1)) := (pow_add _ _ _).symm
    _ ≤ 10 ^ 17 := Nat.pow_le_pow_right (by decide) (by omega)

end Tether.Decimal.Scientific

namespace Tether.Json

open Binary64 (Canonical Covers)
open Decimal (Scientific shortest)

/-! ## Digits -/

/-- A text that does not go on with a number: no digit, point or exponent follows. -/
def Stops (text : List Char) : Prop :=
  ∀ c ∈ text.head?, c.isDigit = false ∧ c ≠ '.' ∧ c ≠ 'e' ∧ c ≠ 'E'

/-- Digits whose number fits into a word are all gathered. -/
theorem gather_eq (digits : List Char) (n : ℕ) (h : Nat.ofDigitChars 10 digits n ≤ wordMax) :
    gather n digits = (Nat.ofDigitChars 10 digits n, []) := by
  induction digits generalizing n with
  | nil => rfl
  | cons c digits ih =>
    rw [Nat.ofDigitChars_cons] at h ⊢
    have hnext : n * 10 + Decimal.digitValue c = 10 * n + (c.toNat - '0'.toNat) := by
      rw [Nat.mul_comm, Decimal.digitValue]
    have hle := (Nat.le_ofDigitChars digits (10 * n + (c.toNat - '0'.toNat))).trans h
    rw [gather, hnext, if_neg (not_lt_of_ge hle), ih _ h]

theorem exponentDigits_eq {digits text : List Char} (hdigits : ∀ c ∈ digits, c.isDigit = true)
    (htext : ∀ c ∈ text.head?, c.isDigit = false) (n : ℕ)
    (h : Nat.ofDigitChars 10 digits n ≤ exponentMax) :
    exponentDigits n (digits ++ text) = (some (Nat.ofDigitChars 10 digits n), text) := by
  induction digits generalizing n with
  | nil =>
    cases text with
    | nil => rfl
    | cons c text =>
      have hc := htext c rfl
      simp [exponentDigits, hc]
  | cons c digits ih =>
    have hc := hdigits c List.mem_cons_self
    rw [Nat.ofDigitChars_cons] at h ⊢
    have hnext : n * 10 + Decimal.digitValue c = 10 * n + (c.toNat - '0'.toNat) := by
      rw [Nat.mul_comm, Decimal.digitValue]
    have hle := (Nat.le_ofDigitChars digits (10 * n + (c.toNat - '0'.toNat))).trans h
    rw [List.cons_append, exponentDigits, if_pos hc]
    simp only
    rw [hnext, if_neg (not_lt_of_ge hle)]
    exact ih (fun c hmem => hdigits c (List.mem_cons_of_mem _ hmem)) _ h

/-! ## Numbers after their digits -/

/-- A number that does not start with a zero is gathered up to what follows its digits. -/
theorem number_digits {positive : Bool} {digits text : List Char} (hne : digits ≠ [])
    (hzero : digits.head? ≠ some '0')
    (hdigits : ∀ c ∈ digits, c.isDigit = true) (htext : ∀ c ∈ text.head?, c.isDigit = false)
    (hword : Nat.ofDigitChars 10 digits 0 ≤ wordMax) :
    number positive (digits ++ text) =
      afterWhole positive (Nat.ofDigitChars 10 digits 0) 0 text := by
  obtain ⟨htake, hdrop⟩ := List.takeWhile_dropWhile_append hdigits htext
  cases digits with
  | nil => exact absurd rfl hne
  | cons c digits =>
    have hc := hdigits c List.mem_cons_self
    have hc0 : c ≠ '0' := fun h => hzero (by rw [h]; rfl)
    rw [List.cons_append] at htake hdrop ⊢
    rw [number, if_neg hc0, if_pos hc, htake, hdrop, gather_eq _ _ hword]
    rfl

/-- Digits behind a point move it to the left. -/
theorem fraction_digits {digits text : List Char} (hne : digits ≠ [])
    (hdigits : ∀ c ∈ digits, c.isDigit = true) (htext : ∀ c ∈ text.head?, c.isDigit = false) (n : ℕ)
    (hword : Nat.ofDigitChars 10 digits n ≤ wordMax) :
    fraction true n 0 (digits ++ text) =
      afterDigits true (Nat.ofDigitChars 10 digits n) (-digits.length) text := by
  obtain ⟨htake, hdrop⟩ := List.takeWhile_dropWhile_append hdigits htext
  rw [fraction, htake, hdrop, gather_eq _ _ hword]
  simp only
  rw [if_neg (by simpa using hne)]
  simp

theorem assemble_of_some {n : ℕ} {power : ℤ} {x : Binary64}
    (h : shiftPoint 5 (Binary64.ofNat n) power = some x) (text : List Char) :
    assemble true n power text = .ok (x, text) := by
  rw [assemble, h]
  rfl

/-- Without an exponent a number ends after its digits. -/
theorem afterDigits_stop {n : ℕ} {power : ℤ} {text : List Char} (htext : Stops text) {x : Binary64}
    (h : shiftPoint 5 (Binary64.ofNat n) power = some x) :
    afterDigits true n power text = .ok (x, text) := by
  unfold afterDigits
  split
  · exact absurd rfl (htext _ rfl).2.2.1
  · exact absurd rfl (htext _ rfl).2.2.2
  · exact assemble_of_some h text

/-- An exponent moves the point to the right. -/
theorem afterDigits_exponent {n e : ℕ} {power : ℤ} {text : List Char}
    (htext : ∀ c ∈ text.head?, c.isDigit = false) (he : e ≤ exponentMax) {x : Binary64}
    (h : shiftPoint 5 (Binary64.ofNat n) (power + e) = some x) :
    afterDigits true n power ('e' :: '+' :: (Nat.toDigits 10 e ++ text)) = .ok (x, text) := by
  have hdigits := Nat.toDigits_isDigit e
  have hvalue : Nat.ofDigitChars 10 (Nat.toDigits 10 e) 0 = e := Nat.ofDigitChars_ten_toDigits
  cases hd : Nat.toDigits 10 e with
  | nil => exact absurd hd Nat.toDigits_ne_nil
  | cons c digits =>
    rw [hd] at hdigits hvalue
    rw [Nat.ofDigitChars_cons, Nat.mul_zero, Nat.zero_add, ← Decimal.digitValue] at hvalue
    have hrest := exponentDigits_eq (fun c hmem => hdigits c (List.mem_cons_of_mem _ hmem)) htext
      (Decimal.digitValue c) (by rwa [hvalue])
    have hc := hdigits c List.mem_cons_self
    simp only [afterDigits, exponent, List.cons_append, hc, hrest, hvalue]
    exact assemble_of_some h text

/-! ## The text of a number -/

theorem afterWhole_point {n : ℕ} {text after : List Char} {x : Binary64}
    (h : fraction true n 0 text = .ok (x, after)) :
    afterWhole true n 0 ('.' :: text) = .ok (.floating x, after) := by
  simp only [afterWhole, Nat.cast_zero, h]
  rfl

theorem afterWhole_exponent {n : ℕ} {text after : List Char} {x : Binary64}
    (h : afterDigits true n 0 ('e' :: text) = .ok (x, after)) :
    afterWhole true n 0 ('e' :: text) = .ok (.floating x, after) := by
  simp only [afterWhole, Nat.cast_zero, h]
  rfl

/-- Digits with a point among them. -/
theorem number_point {whole places text : List Char} (hne : whole ≠ [])
    (hzero : whole.head? ≠ some '0') (hplaces : places ≠ [])
    (hwhole : ∀ c ∈ whole, c.isDigit = true) (hdigits : ∀ c ∈ places, c.isDigit = true)
    (htext : ∀ c ∈ text.head?, c.isDigit = false)
    (hword : Nat.ofDigitChars 10 (whole ++ places) 0 ≤ wordMax) {x : Binary64} {after : List Char}
    (h : afterDigits true (Nat.ofDigitChars 10 (whole ++ places) 0) (-places.length) text =
      .ok (x, after)) :
    number true (whole ++ '.' :: (places ++ text)) = .ok (.floating x, after) := by
  rw [Nat.ofDigitChars_append] at hword h
  have hfirst : Nat.ofDigitChars 10 whole 0 ≤ wordMax := (Nat.le_ofDigitChars places _).trans hword
  rw [number_digits hne hzero hwhole (by rintro _ ⟨⟩; rfl) hfirst]
  apply afterWhole_point
  rw [fraction_digits hplaces hdigits htext _ hword, h]

/-- A whole number that is written out. -/
theorem number_positional_whole {d : ℕ} {power : ℤ} (hd : 0 < d) (hpower : 0 ≤ power)
    (hword : d * 10 ^ (power.toNat + 1) ≤ wordMax) {text : List Char} (htext : Stops text)
    {x : Binary64} (h : shiftPoint 5 (Binary64.ofNat (d * 10 ^ (power.toNat + 1))) (-1) = some x) :
    number true ((Decimal.Layout.document.positional (Nat.toDigits 10 d) power).toList ++ text) =
      .ok (.floating x, text) := by
  have hlist : (Decimal.Layout.document.positional (Nat.toDigits 10 d) power).toList ++ text =
      (Nat.toDigits 10 d ++ List.replicate power.toNat '0') ++ '.' :: (['0'] ++ text) := by
    rw [Decimal.Layout.positional, if_pos hpower, String.toList_append, String.toList_ofList,
      List.append_assoc]
    rfl
  have hvalue :
      Nat.ofDigitChars 10 (Nat.toDigits 10 d ++ List.replicate power.toNat '0' ++ ['0']) 0 =
        d * 10 ^ (power.toNat + 1) := by
    rw [List.append_assoc, show ['0'] = List.replicate 1 '0' from rfl,
      List.replicate_append_replicate, Nat.ofDigitChars_append, Nat.ofDigitChars_replicate_zero,
      Nat.ofDigitChars_ten_toDigits, Nat.mul_comm]
  rw [hlist]
  have hne : Nat.toDigits 10 d ≠ [] := Nat.toDigits_ne_nil
  apply number_point
  · simp [hne]
  · rw [List.head?_append_of_ne_nil _ hne]
    exact Nat.head?_toDigits hd
  · simp
  · intro c hc
    rcases List.mem_append.mp hc with hc | hc
    · exact Nat.toDigits_isDigit d c hc
    · rw [List.eq_of_mem_replicate hc]
      rfl
  · intro c hc
    rw [List.mem_singleton.mp hc]
    rfl
  · exact fun c hc => (htext c hc).1
  · rwa [hvalue]
  · rw [hvalue]
    exact afterDigits_stop htext h

/-- A number with digits behind the point. -/
theorem number_positional_places {d : ℕ} {power : ℤ} (hd : 0 < d) (hpower : power < 0)
    (hplaces : 0 < (Nat.toDigits 10 d).length + power) (hword : d ≤ wordMax) {text : List Char}
    (htext : Stops text) {x : Binary64} (h : shiftPoint 5 (Binary64.ofNat d) power = some x) :
    number true ((Decimal.Layout.document.positional (Nat.toDigits 10 d) power).toList ++ text) =
      .ok (.floating x, text) := by
  generalize hdigits : Nat.toDigits 10 d = digits at *
  have hvalue : Nat.ofDigitChars 10 digits 0 = d := by
    rw [← hdigits]
    exact Nat.ofDigitChars_ten_toDigits
  have hall := Nat.toDigits_isDigit d
  have hzero := Nat.head?_toDigits hd
  rw [hdigits] at hall hzero
  -- No zeros are put in front, because the first digit stands before the point.
  have hpad : (-power).toNat + 1 - digits.length = 0 := by omega
  have hlist : (Decimal.Layout.document.positional digits power).toList ++ text =
      digits.take (digits.length - (-power).toNat) ++
        '.' :: (digits.drop (digits.length - (-power).toNat) ++ text) := by
    rw [Decimal.Layout.positional, if_neg (by omega)]
    simp only [hpad, List.replicate_zero, List.nil_append, String.toList_ofList, List.append_assoc,
      List.cons_append]
  have hlength : ((digits.drop (digits.length - (-power).toNat)).length : ℤ) = -power := by
    rw [List.length_drop]
    omega
  rw [hlist]
  apply number_point
  · intro hnil
    have := congrArg List.length hnil
    rw [List.length_take, List.length_nil] at this
    omega
  · rwa [List.head?_take, if_neg (by omega)]
  · intro hnil
    rw [hnil] at hlength
    simp at hlength
    omega
  · exact fun c hc => hall c (List.mem_of_mem_take hc)
  · exact fun c hc => hall c (List.mem_of_mem_drop hc)
  · exact fun c hc => (htext c hc).1
  · rwa [List.take_append_drop, hvalue]
  · rw [List.take_append_drop, hvalue, hlength, neg_neg]
    exact afterDigits_stop htext h

theorem toList_exponential {leading : ℤ} (hnonneg : 0 ≤ leading) (c : Char) (rest : List Char) :
    (Decimal.Layout.document.exponential (c :: rest) leading).toList =
      [c] ++ ((if rest = [] then [] else '.' :: rest) ++
        'e' :: '+' :: Nat.toDigits 10 leading.natAbs) := by
  rw [Decimal.Layout.exponential, if_neg (not_lt.mpr hnonneg), String.toList_append,
    String.toList_append, String.toList_ofList, Nat.toString_eq_ofList_toDigits,
    String.toList_ofList]
  cases rest <;> rfl

/-- A number with an exponent. -/
theorem number_exponential {d : ℕ} {power leading : ℤ} (hd : 0 < d)
    (hleading : leading = power + (Nat.toDigits 10 d).length - 1) (hnonneg : 0 ≤ leading)
    (hmax : leading ≤ exponentMax) (hword : d ≤ wordMax) {text : List Char} (htext : Stops text)
    {x : Binary64} (h : shiftPoint 5 (Binary64.ofNat d) power = some x) :
    number true ((Decimal.Layout.document.exponential (Nat.toDigits 10 d) leading).toList ++ text) =
      .ok (.floating x, text) := by
  generalize hdigits : Nat.toDigits 10 d = digits at *
  have hvalue : Nat.ofDigitChars 10 digits 0 = d := by
    rw [← hdigits]
    exact Nat.ofDigitChars_ten_toDigits
  have hall := Nat.toDigits_isDigit d
  have hzero := Nat.head?_toDigits hd
  have hne : digits ≠ [] := hdigits ▸ Nat.toDigits_ne_nil
  rw [hdigits] at hall hzero
  have hnodigit : ∀ c ∈ text.head?, c.isDigit = false := fun c hc => (htext c hc).1
  have hmark : ∀ c ∈ ('e' :: '+' :: (Nat.toDigits 10 leading.natAbs ++ text)).head?,
      c.isDigit = false := by
    rintro _ ⟨⟩
    rfl
  have hexponent : ∀ places : ℕ, digits.length = places + 1 →
      afterDigits true d (-places) ('e' :: '+' :: (Nat.toDigits 10 leading.natAbs ++ text)) =
        .ok (x, text) := by
    intro places hplaces
    apply afterDigits_exponent hnodigit (by omega)
    rwa [show -(places : ℤ) + leading.natAbs = power by omega]
  cases digits with
  | nil => exact absurd rfl hne
  | cons c rest =>
    rw [toList_exponential hnonneg, List.append_assoc, List.append_assoc]
    cases rest with
    | nil =>
      show number true ([c] ++ 'e' :: '+' :: (_ ++ _)) = _
      rw [number_digits (by simp) hzero hall hmark (by rwa [hvalue]), hvalue]
      exact afterWhole_exponent (hexponent 0 rfl)
    | cons c' rest =>
      have hmem : ∀ b ∈ c' :: rest, b.isDigit = true :=
        fun b hb => hall b (List.mem_cons_of_mem _ hb)
      have happend : [c] ++ (c' :: rest) = c :: c' :: rest := rfl
      show number true ([c] ++ '.' :: ((c' :: rest) ++ _)) = _
      have hfirst : [c].head? ≠ some '0' := hzero
      apply number_point (by simp) hfirst (by simp) (fun b hb => ?_) hmem hmark
      · rwa [happend, hvalue]
      · rw [happend, hvalue]
        exact hexponent _ rfl
      · rw [List.mem_singleton.mp hb]
        exact hall c List.mem_cons_self

/-- The text of a number is read as its decimal says. -/
theorem number_magnitude {m : ℕ} {q : ℤ} (hm : 0 < m) {s : Scientific}
    (hs : shortest .even m q = s) (hone : 1 ≤ s.value) (hdigits : 0 < s.digits)
    (hword : s.digits ≤ wordMax) (hpower : s.power ≤ 308) {text : List Char} (htext : Stops text)
    {x : Binary64} (h : shiftPoint 5 (Binary64.ofNat s.spelled.digits) s.spelled.power = some x) :
    number true ((Decimal.Layout.document.magnitude m q).toList ++ text) =
      .ok (.floating x, text) := by
  have hleading := Scientific.leading_nonneg hone
  have hmagnitude : Decimal.Layout.document.magnitude m q =
      if s.leading < 16 then Decimal.Layout.document.positional (Nat.toDigits 10 s.digits) s.power
      else Decimal.Layout.document.exponential (Nat.toDigits 10 s.digits) s.leading := by
    have hpositional : (decide (m = 0) || Decimal.Layout.document.isPositional s.leading) =
        decide (s.leading < 16) := by
      have hfrom : (-5 : ℤ) ≤ s.leading := by omega
      simp [hm.ne', Decimal.Layout.isPositional, Decimal.Layout.document, hfrom]
    rw [Decimal.Layout.magnitude, show Decimal.Layout.document.tie = .even from rfl, hs,
      ← Scientific.leading, hpositional]
    simp only [decide_eq_true_eq]
  rw [hmagnitude]
  by_cases hlarge : s.leading < 16
  · rw [if_pos hlarge]
    rcases le_or_gt 0 s.power with hnonneg | hneg
    · have hfit := Scientific.spelled_digits_lt hlarge hnonneg
      rw [Scientific.spelled, if_pos ⟨hlarge, hnonneg⟩] at h
      exact number_positional_whole hdigits hnonneg (hfit.le.trans (by decide)) htext h
    · rw [Scientific.spelled, if_neg (fun hboth => absurd hboth.2 (not_le_of_gt hneg))] at h
      exact number_positional_places hdigits hneg (by unfold Scientific.leading at hleading; omega)
        hword htext h
  · rw [if_neg hlarge]
    rw [Scientific.spelled, if_neg (fun hboth => hlarge hboth.1)] at h
    have hlength : (Nat.toDigits 10 s.digits).length ≤ 20 :=
      (Nat.length_toDigits_le_iff (by decide) (by decide)).mpr
        (lt_of_le_of_lt hword (by decide))
    refine number_exponential hdigits rfl hleading ?_ hword htext h
    rw [show (exponentMax : ℤ) = 2147483647 from rfl]
    omega

/-! ## Numbers that are not below one -/

theorem normal_of_one_le {m : ℕ} {q : ℤ} (hc : Canonical m q) (hone : (1 : ℚ) ≤ m * 2 ^ q) :
    2 ^ 52 ≤ m := by
  rcases hc.normal with rfl | hnormal
  · exfalso
    have hm : (m : ℚ) ≤ 2 ^ 53 := by exact_mod_cast hc.bound.le
    have hunit : (2 : ℚ) ^ Binary64.minExponent ≤ 2 ^ (-54 : ℤ) := Binary64.two_zpow_le (by decide)
    have hle : (m : ℚ) * 2 ^ Binary64.minExponent ≤ 2 ^ 53 * 2 ^ (-54 : ℤ) :=
      mul_le_mul hm hunit (Binary64.two_zpow_pos _).le (by norm_num)
    norm_num at hle
    linarith
  · exact hnormal

/-- The shortest decimal of a number is not below one unless the number is. -/
theorem one_le_shortest {m : ℕ} {q : ℤ} (hc : Canonical m q) (hone : (1 : ℚ) ≤ m * 2 ^ q) :
    1 ≤ (shortest .even m q).value := by
  have hm : 0 < m := lt_of_lt_of_le (by norm_num) (normal_of_one_le hc hone)
  have hvalue : ((2 ^ 52 : ℕ) : ℚ) * 2 ^ (-52 : ℤ) = 1 := by norm_num
  by_contra hlt
  have hcovers := (Decimal.shortest_spec hm hc .even).1
  have hle := hcovers.le_of_le hc canonical_one (Covers.self _ _) (by rw [hvalue]; linarith)
  obtain ⟨rfl, rfl⟩ := hc.eq_of_mul_eq canonical_one (by linarith)
  have hshortest : shortest .even (2 ^ 52) (-52) = ⟨1, 0⟩ := by decide +kernel
  rw [hshortest] at hlt
  simp [Scientific.value] at hlt

/-- What reading finds in the text of a number. -/
theorem spelled_spec {m : ℕ} {q : ℤ} (hc : Canonical m q) (hone : (1 : ℚ) ≤ m * 2 ^ q) :
    let s := (shortest .even m q).spelled
    Covers m q (s.digits * 10 ^ s.power) ∧ 1 ≤ (s.digits : ℚ) * 10 ^ s.power ∧ 0 < s.digits ∧
      s.digits ≤ wordMax ∧ -22 ≤ s.power ∧ s.power ≤ 308 := by
  intro s
  have hm : 0 < m := lt_of_lt_of_le (by norm_num) (normal_of_one_le hc hone)
  have hvalue : (s.digits : ℚ) * 10 ^ s.power = (shortest .even m q).value :=
    Scientific.value_spelled _
  obtain ⟨hpos, hdigits⟩ := Decimal.shortest_digits hm hc .even
  obtain ⟨hlow, hhigh⟩ := Decimal.shortest_power hc hone .even
  rw [hvalue]
  refine ⟨(Decimal.shortest_spec hm hc .even).1, one_le_shortest hc hone, ?_⟩
  by_cases hwhole : (shortest .even m q).leading < 16 ∧ 0 ≤ (shortest .even m q).power
  · have hs : s = ⟨_, -1⟩ := if_pos hwhole
    rw [hs]
    have hfit := Scientific.spelled_digits_lt hwhole.1 hwhole.2
    exact ⟨Nat.mul_pos hpos (Nat.pow_pos (by decide)), hfit.le.trans (by decide),
      (by decide : (-22 : ℤ) ≤ -1), (by decide : (-1 : ℤ) ≤ 308)⟩
  · have hs : s = shortest .even m q := if_neg hwhole
    rw [hs]
    exact ⟨hpos, hdigits.trans (by decide), by omega, hhigh⟩

/-- The decimal that is written for a number is read as a number within two units of it. -/
theorem shiftPoint_spelled {m : ℕ} {q : ℤ} (hc : Canonical m q)
    (hone : (1 : ℚ) ≤ m * 2 ^ q) : ∃ k r, Canonical k r ∧ 1 ≤ (k : ℚ) * 2 ^ r ∧
      |(k : ℚ) * 2 ^ r - m * 2 ^ q| ≤ 2 * 2 ^ q ∧
      shiftPoint 5 (Binary64.ofNat (shortest .even m q).spelled.digits)
        (shortest .even m q).spelled.power = some (.finite false k r) := by
  have hnormal := normal_of_one_le hc hone
  obtain ⟨hcovers, hvalue, hpos, hword, hlow, hhigh⟩ := spelled_spec hc hone
  by_cases hfit : q < Binary64.maxExponent ∨ m + 2 < 2 ^ 53
  · obtain ⟨k, r, heq, hk, hkone, hnear⟩ := shiftPoint_near hpos hword hlow hhigh hc
      (le_trans (by norm_num) hnormal) hfit hcovers hvalue 4
    exact ⟨k, r, hk, hkone, hnear, heq⟩
  · -- The two largest numbers are both read as the largest one.
    rw [not_or, not_lt, not_lt] at hfit
    obtain rfl : q = Binary64.maxExponent := le_antisymm hc.most hfit.1
    have hback : ∀ d, d < 2 → shiftPoint 5
        (Binary64.ofNat (shortest .even (2 ^ 53 - 2 + d) Binary64.maxExponent).spelled.digits)
        (shortest .even (2 ^ 53 - 2 + d) Binary64.maxExponent).spelled.power =
          some (.finite false (2 ^ 53 - 1) Binary64.maxExponent) := by
      decide +kernel
    have hbound := hc.bound
    obtain ⟨d, rfl⟩ : ∃ d, m = 2 ^ 53 - 2 + d := ⟨m - (2 ^ 53 - 2), by omega⟩
    have hunit := Binary64.two_zpow_pos Binary64.maxExponent
    have hle : ((2 ^ 53 - 2 + d : ℕ) : ℚ) ≤ (2 ^ 53 - 1 : ℕ) := by exact_mod_cast (by omega)
    have hge : ((2 ^ 53 - 1 : ℕ) : ℚ) ≤ (2 ^ 53 - 2 + d : ℕ) + 1 := by exact_mod_cast (by omega)
    refine ⟨_, _, ⟨by norm_num, hc.least, hc.most, .inr (by norm_num)⟩, ?_, ?_,
      hback d (by omega)⟩
    · exact hone.trans (mul_le_mul_of_nonneg_right hle hunit.le)
    · rw [← sub_mul, abs_mul, abs_of_pos hunit]
      apply mul_le_mul_of_nonneg_right _ hunit.le
      rw [abs_le]
      exact ⟨by linarith, by linarith⟩

/-- The shortest decimal of a number is hardly larger than any other decimal that identifies it. -/
theorem shortest_value_le {m : ℕ} {q : ℤ} (hc : Canonical m q) (hone : (1 : ℚ) ≤ m * 2 ^ q) {v : ℚ}
    (h : Covers m q v) : (shortest .even m q).value ≤ 11 / 10 * v := by
  have hnormal := normal_of_one_le hc hone
  have hm : (100 : ℚ) ≤ m := by exact_mod_cast le_trans (by norm_num) hnormal
  have hhigh := (Decimal.shortest_spec (lt_of_lt_of_le (by norm_num) hnormal) hc .even).1.high
  have hlow : ((m : ℚ) - 1 / 2) * 2 ^ q ≤ v := by
    apply le_trans _ h.low
    apply mul_le_mul_of_nonneg_right _ (Binary64.two_zpow_pos q).le
    linarith [Binary64.gapBelow_le m q]
  have hratio : ((m : ℚ) + 1 / 2) * 2 ^ q ≤ 11 / 10 * ((m - 1 / 2) * 2 ^ q) := by
    rw [← mul_assoc]
    apply mul_le_mul_of_nonneg_right _ (Binary64.two_zpow_pos q).le
    linarith
  linarith

/-- What is written for a number that a short decimal rounds to is short as well. -/
theorem shortest_short {m : ℕ} {q : ℤ} (hc : Canonical m q) (hone : (1 : ℚ) ≤ m * 2 ^ q) {n j : ℕ}
    (hn : n < 10 ^ 15) (h : Covers m q (n * 10 ^ (-(j : ℤ)))) :
    let s := shortest .even m q
    s.value ≤ 11 / 10 * 10 ^ 15 ∧ s.digits ≤ 2 * 10 ^ 15 ∧ s.power ≤ 22 := by
  intro s
  have hm : 0 < m := lt_of_lt_of_le (by norm_num) (normal_of_one_le hc hone)
  have hle : s.value ≤ _ := shortest_value_le hc hone h
  have hcoarse : _ ≤ s.power := (Decimal.shortest_spec hm hc .even).2.2.2.2 n _ h
  obtain ⟨hpos, -⟩ : 0 < s.digits ∧ _ := Decimal.shortest_digits hm hc .even
  have hten := Decimal.ten_zpow_pos s.power
  have hnq : (n : ℚ) ≤ 10 ^ 15 := by exact_mod_cast hn.le
  rw [Scientific.value] at hle ⊢
  have hvalue : (s.digits : ℚ) * 10 ^ s.power ≤ 11 / 10 * 10 ^ 15 := by
    have hplaces : (10 : ℚ) ^ (-(j : ℤ)) ≤ 1 := zpow_le_one_of_nonpos₀ (by norm_num) (by omega)
    have hle' : (n : ℚ) * 10 ^ (-(j : ℤ)) ≤ 10 ^ 15 * 1 :=
      mul_le_mul hnq hplaces (Decimal.ten_zpow_pos _).le (by norm_num)
    linarith
  have hdigits : s.digits ≤ 2 * 10 ^ 15 := by
    have hplaces : (10 : ℚ) ^ (-(j : ℤ)) ≤ 10 ^ s.power := zpow_le_zpow_right₀ (by norm_num) hcoarse
    have hle' : (n : ℚ) * 10 ^ (-(j : ℤ)) ≤ 10 ^ 15 * 10 ^ s.power :=
      mul_le_mul hnq hplaces (Decimal.ten_zpow_pos _).le (by norm_num)
    have hmul : (s.digits : ℚ) * 10 ^ s.power ≤ ((2 * 10 ^ 15 : ℕ) : ℚ) * 10 ^ s.power := by
      push_cast
      linarith
    exact_mod_cast le_of_mul_le_mul_right hmul hten
  have hpower : s.power ≤ 22 := by
    by_contra hgt
    have hpow : (10 : ℚ) ^ (22 : ℤ) ≤ 10 ^ s.power := zpow_le_zpow_right₀ (by norm_num) (by omega)
    have hd : (1 : ℚ) ≤ s.digits := by exact_mod_cast hpos
    have hmul : (10 : ℚ) ^ s.power ≤ s.digits * 10 ^ s.power := le_mul_of_one_le_left hten.le hd
    norm_num at hpow
    linarith
  exact ⟨hvalue, hdigits, hpower⟩

/-- A number that a short decimal rounds to is read back as it is. -/
theorem shiftPoint_spelled_short {m : ℕ} {q : ℤ} (hc : Canonical m q)
    (hone : (1 : ℚ) ≤ m * 2 ^ q) {n j : ℕ} (hn : n < 10 ^ 15)
    (h : Covers m q (n * 10 ^ (-(j : ℤ)))) :
    shiftPoint 5 (Binary64.ofNat (shortest .even m q).spelled.digits)
      (shortest .even m q).spelled.power = some (.finite false m q) := by
  obtain ⟨hcovers, -⟩ := spelled_spec hc hone
  obtain ⟨hvalue, hdigits, hpower⟩ := shortest_short hc hone hn h
  obtain ⟨hlow, -⟩ := Decimal.shortest_power hc hone .even
  generalize shortest .even m q = s at *
  rw [Scientific.value] at hvalue
  by_cases hwhole : s.leading < 16 ∧ 0 ≤ s.power
  · have hs : s.spelled = ⟨s.digits * 10 ^ (s.power.toNat + 1), -1⟩ := if_pos hwhole
    rw [hs] at hcovers ⊢
    obtain ⟨p, hp⟩ := Int.eq_ofNat_of_zero_le hwhole.2
    rw [hp, zpow_natCast] at hvalue
    rw [hp, Int.toNat_natCast] at hcovers ⊢
    have hvalue : s.digits * 10 ^ p ≤ 11 * 10 ^ 14 := by
      have hvalue : (s.digits : ℚ) * 10 ^ p ≤ 11 * 10 ^ 14 := hvalue.trans (by norm_num)
      exact_mod_cast hvalue
    -- The digits are a power of two times a number that is short enough.
    have hshort : s.digits * 5 ^ (p + 1) < 2 ^ 53 :=
      calc s.digits * 5 ^ (p + 1) = 5 * (s.digits * 5 ^ p) := by ring
        _ ≤ 5 * (s.digits * 10 ^ p) :=
            Nat.mul_le_mul_left _ (Nat.mul_le_mul_left _ (Nat.pow_le_pow_left (by decide) p))
        _ ≤ 5 * (11 * 10 ^ 14) := Nat.mul_le_mul_left _ hvalue
        _ < 2 ^ 53 := by norm_num
    have hsplit : s.digits * 10 ^ (p + 1) = s.digits * 5 ^ (p + 1) * 2 ^ (p + 1) := by
      rw [show 10 = 5 * 2 from rfl, mul_pow, mul_assoc]
    exact shiftPoint_exact hshort (by omega) hsplit (by decide : (-1 : ℤ).natAbs ≤ 22) hc hcovers 4
  · have hs : s.spelled = s := if_neg hwhole
    rw [hs] at hcovers ⊢
    exact shiftPoint_exact (lt_of_le_of_lt hdigits (by norm_num)) (Nat.zero_le _) (mul_one _).symm
      (by omega) hc hcovers 4

/-- A number that is not below one is written and read back within two units of it, and exactly if
a decimal of at most fifteen digits rounds to it. -/
theorem exists_number_writeBinary {m : ℕ} {q : ℤ} (hc : Canonical m q)
    (hone : (1 : ℚ) ≤ m * 2 ^ q) : ∃ k r, Canonical k r ∧ 1 ≤ (k : ℚ) * 2 ^ r ∧
      |(k : ℚ) * 2 ^ r - m * 2 ^ q| ≤ 2 * 2 ^ q ∧
      (∀ n j : ℕ, n < 10 ^ 15 → Covers m q (n * 10 ^ (-(j : ℤ))) → k = m ∧ r = q) ∧
      ∀ text, Stops text → number true (writeBinary (.finite false m q) ++ text) =
        .ok (.floating (.finite false k r), text) := by
  have hm : 0 < m := lt_of_lt_of_le (by norm_num) (normal_of_one_le hc hone)
  obtain ⟨k, r, hk, hkone, hnear, hshift⟩ := shiftPoint_spelled hc hone
  refine ⟨k, r, hk, hkone, hnear, ?_, ?_⟩
  · intro n j hn hcovers
    have hexact := shiftPoint_spelled_short hc hone hn hcovers
    rw [hshift] at hexact
    simpa using hexact
  · intro text htext
    obtain ⟨hpos, hdigits⟩ := Decimal.shortest_digits hm hc .even
    have hwrite : writeBinary (.finite false m q) =
        (Decimal.Layout.document.magnitude m q).toList := by
      simp [writeBinary, Binary64.isFinite, Decimal.Layout.write]
    rw [hwrite]
    exact number_magnitude hm rfl (one_le_shortest hc hone) hpos (hdigits.trans (by decide))
      (Decimal.shortest_power hc hone .even).2 htext hshift

theorem afterWhole_of_head (positive : Bool) (significand dropped : ℕ) {text : List Char}
    (hpoint : text.head? ≠ some '.') :
    afterWhole positive significand dropped text =
      if dropped = 0 && !(text.head? == some 'e' || text.head? == some 'E') then
        .ok (whole positive significand, text)
      else (afterDigits positive significand dropped text).map
        fun found => (.floating found.1, found.2) := by
  unfold afterWhole
  split
  · exact absurd rfl hpoint
  · split_ifs
    · rfl
    · cases afterDigits positive significand dropped text <;> rfl

theorem afterWhole_stop (positive : Bool) (n : ℕ) {text : List Char} (htext : Stops text) :
    afterWhole positive n 0 text = .ok (whole positive n, text) := by
  have hpoint : text.head? ≠ some '.' := fun hhead => (htext '.' hhead).2.1 rfl
  have he : text.head? ≠ some 'e' := fun hhead => (htext 'e' hhead).2.2.1 rfl
  have hE : text.head? ≠ some 'E' := fun hhead => (htext 'E' hhead).2.2.2 rfl
  rw [afterWhole_of_head _ _ _ hpoint]
  simp [he, hE]

/-- A whole number is read as itself. -/
theorem number_writeNat {positive : Bool} {n : ℕ} (hn : n ≤ wordMax) {text : List Char}
    (htext : Stops text) : number positive (writeNat n ++ text) = .ok (whole positive n, text) := by
  have hnodigit : ∀ c ∈ text.head?, c.isDigit = false := fun c hc => (htext c hc).1
  rcases Nat.eq_zero_or_pos n with rfl | hpos
  · have hhead := (Option.any_eq_false _ _).mpr hnodigit
    show number positive ('0' :: text) = _
    rw [number, if_pos rfl, hhead]
    exact afterWhole_stop positive 0 htext
  · have hvalue : Nat.ofDigitChars 10 (Nat.toDigits 10 n) 0 = n := Nat.ofDigitChars_ten_toDigits
    rw [writeNat, number_digits Nat.toDigits_ne_nil (Nat.head?_toDigits hpos)
      (Nat.toDigits_isDigit n) hnodigit (by rwa [hvalue]), hvalue]
    exact afterWhole_stop positive n htext

end Tether.Json
