import Mathlib.Data.List.Infix

/-!
# Lists, digits and results

Facts that have nothing to do with connections: how a list is cut and joined, what the digits of a
number are, and where a result comes from.
-/

namespace List

variable {α β : Type}

/-! ## Cutting and joining -/

/-- An element of two joined lists stands in the first or in the second. -/
theorem append_eq_append_cons {xs ys before after : List α} {a : α}
    (h : xs ++ ys = before ++ a :: after) :
    (∃ mid, xs = before ++ a :: mid ∧ after = mid ++ ys) ∨
      ∃ mid, before = xs ++ mid ∧ ys = mid ++ a :: after := by
  rcases List.append_eq_append_iff.mp h with hlater | ⟨mid, rfl, hmid⟩
  · exact Or.inr hlater
  · cases mid with
    | nil => exact Or.inr ⟨[], by simp, hmid.symm⟩
    | cons a' mid =>
      obtain ⟨rfl, rfl⟩ := List.cons.inj hmid
      exact Or.inl ⟨mid, rfl, rfl⟩

theorem append_singleton_eq_append_cons {xs before after : List α} {a b : α}
    (h : xs ++ [b] = before ++ a :: after) :
    (∃ mid, xs = before ++ a :: mid) ∨ before = xs ∧ a = b := by
  rcases append_eq_append_cons h with ⟨mid, hmid, -⟩ | ⟨mid, rfl, hmid⟩
  · exact Or.inl ⟨mid, hmid⟩
  · cases mid with
    | nil => exact Or.inr ⟨List.append_nil xs, (List.cons.inj hmid).1.symm⟩
    | cons c mid => simp at hmid

/-- A list is cut where the test fails for the first time. -/
theorem takeWhile_dropWhile_append {p : α → Bool} {front back : List α}
    (hfront : ∀ a ∈ front, p a = true) (hback : ∀ a ∈ back.head?, p a = false) :
    (front ++ back).takeWhile p = front ∧ (front ++ back).dropWhile p = back := by
  rw [List.takeWhile_append_of_pos hfront, List.dropWhile_append_of_pos hfront]
  cases back with
  | nil => exact ⟨List.append_nil _, rfl⟩
  | cons a back =>
    have ha := hback a rfl
    simp [ha]

theorem dropWhile_of_forall {p : α → Bool} {xs : List α} (h : ∀ a ∈ xs, p a = false) :
    xs.dropWhile p = xs := by
  cases xs with
  | nil => rfl
  | cons a xs => simp [h a List.mem_cons_self]

/-- A list begins with its first run of an element. -/
theorem replicate_append_drop_takeWhile [BEq α] [LawfulBEq α] (a : α) (xs : List α) :
    List.replicate (xs.takeWhile (· == a)).length a ++ xs.drop (xs.takeWhile (· == a)).length =
      xs := by
  have hall : xs.takeWhile (· == a) = List.replicate (xs.takeWhile (· == a)).length a := by
    have hall := List.all_takeWhile (p := (· == a)) (l := xs)
    rw [List.all_eq_true] at hall
    exact List.eq_replicate_iff.mpr ⟨rfl, fun b hb => by simpa using hall b hb⟩
  rw [← hall]
  exact (List.prefix_append_drop (List.takeWhile_prefix (· == a))).symm

theorem exists_intercalate_cons (mark a : α) (part : List α) (parts : List (List α)) :
    ∃ rest, List.intercalate [mark] ((a :: part) :: parts) = a :: rest := by
  cases parts with
  | nil => exact ⟨part, List.intercalate_singleton⟩
  | cons next parts => exact ⟨_, List.intercalate_cons_cons⟩

theorem forall_mem_intercalate {P : α → Prop} {mark : α} {parts : List (List α)} (hmark : P mark)
    (h : ∀ part ∈ parts, ∀ a ∈ part, P a) : ∀ a ∈ List.intercalate [mark] parts, P a := by
  induction parts with
  | nil => simp
  | cons part parts ih =>
    obtain ⟨hpart, hparts⟩ := List.forall_mem_cons.mp h
    cases parts with
    | nil =>
      rw [List.intercalate_singleton]
      exact hpart
    | cons next parts =>
      rw [List.intercalate_cons_cons]
      refine List.forall_mem_append.mpr ⟨List.forall_mem_append.mpr ⟨hpart, ?_⟩, ih hparts⟩
      simpa using hmark

/-! ## Elements that stand once -/

theorem not_mem_of_count_le_one [BEq α] [LawfulBEq α] {xs ys : List α} {a : α}
    (h : (xs ++ a :: ys).count a ≤ 1) : a ∉ xs := by
  intro hmem
  have hpos := List.count_pos_iff.mpr hmem
  rw [List.count_append, List.count_cons_self] at h
  omega

/-! ## Maps that can fail -/

theorem mapM_map_eq {f : α → β} {g : β → Option α} {xs : List α}
    (h : ∀ x ∈ xs, g (f x) = some x) : (xs.map f).mapM g = some xs := by
  induction xs with
  | nil => rfl
  | cons x xs ih =>
    obtain ⟨hx, hxs⟩ := List.forall_mem_cons.mp h
    rw [List.map_cons, List.mapM_cons, hx, ih hxs]
    rfl

theorem forall_of_mapM {f : α → Option β} {P : β → Prop} (hf : ∀ a b, f a = some b → P b)
    {as : List α} {bs : List β} (h : as.mapM f = some bs) : ∀ b ∈ bs, P b := by
  induction as generalizing bs with
  | nil =>
    cases h
    simp
  | cons a as ih =>
    rw [List.mapM_cons] at h
    obtain ⟨b, hb, h⟩ := Option.bind_eq_some_iff.mp h
    obtain ⟨rest, hrest, h⟩ := Option.bind_eq_some_iff.mp h
    cases h
    exact List.forall_mem_cons.mpr ⟨hf a b hb, ih hrest⟩

end List

/-! ## Digits -/

namespace Nat

theorem toDigits_isDigit (n : ℕ) : ∀ c ∈ Nat.toDigits 10 n, c.isDigit = true :=
  fun _ hc => Nat.isDigit_of_mem_toDigits (by decide) (by decide) hc

/-- The first digit of a number is not a zero. -/
theorem head?_toDigits {n : ℕ} (hn : 0 < n) : (Nat.toDigits 10 n).head? ≠ some '0' := by
  induction n using Nat.strongRecOn with
  | ind n ih =>
    rw [Nat.toDigits_eq_if (by decide)]
    by_cases hlt : n < 10
    · rw [if_pos hlt]
      intro hzero
      have hzero : n.digitChar = '0' := by simpa using hzero
      rw [Nat.digitChar_eq_zero] at hzero
      omega
    · rw [if_neg hlt, List.head?_append_of_ne_nil _ Nat.toDigits_ne_nil]
      exact ih (n / 10) (by omega) (by omega)

theorem mem_toDigits {base n : ℕ} {c : Char} (hone : 1 < base) (h : c ∈ Nat.toDigits base n) :
    ∃ d, d < base ∧ c = Nat.digitChar d := by
  induction n using Nat.strongRecOn with
  | ind n ih =>
    rcases Nat.lt_or_ge n base with hlt | hge
    · rw [Nat.toDigits_of_lt_base hlt, List.mem_singleton] at h
      exact ⟨n, hlt, h⟩
    · rw [Nat.toDigits_of_base_le hone hge, List.mem_append, List.mem_singleton] at h
      rcases h with h | h
      · exact ih _ (Nat.div_lt_self (by omega) hone) h
      · exact ⟨_, Nat.mod_lt _ (by omega), h⟩

theorem forall_mem_toDigits {base : ℕ} (hone : 1 < base) {P : Char → Prop}
    (h : ∀ d, d < base → P (Nat.digitChar d)) (n : ℕ) : ∀ c ∈ Nat.toDigits base n, P c := by
  intro c hc
  obtain ⟨d, hd, rfl⟩ := mem_toDigits hone hc
  exact h d hd

theorem not_mem_toDigits {base : ℕ} (hone : 1 < base) {mark : Char}
    (h : ∀ d, d < base → Nat.digitChar d ≠ mark) (n : ℕ) : mark ∉ Nat.toDigits base n :=
  fun hmem => forall_mem_toDigits (P := (· ≠ mark)) hone h n mark hmem rfl

theorem le_ofDigitChars (digits : List Char) (n : ℕ) : n ≤ Nat.ofDigitChars 10 digits n := by
  induction digits generalizing n with
  | nil => exact Nat.le_refl _
  | cons c digits ih =>
    rw [Nat.ofDigitChars_cons]
    exact Nat.le_trans (by omega) (ih _)

end Nat

namespace Char

theorem ne_of_isDigit {c d : Char} (hc : c.isDigit = true) (hd : d.isDigit = false) : c ≠ d := by
  rintro rfl
  rw [hc] at hd
  cases hd

theorem toLower_of_not {c : Char} (h : ¬ (c.val ≥ 'A'.val ∧ c.val ≤ 'Z'.val)) : c.toLower = c :=
  dif_neg h

theorem toLower_toLower (c : Char) : c.toLower.toLower = c.toLower := by
  by_cases h : c.val ≥ 'A'.val ∧ c.val ≤ 'Z'.val
  · have hval : c.toLower.val = c.val + ('a'.val - 'A'.val) := congrArg Char.val (dif_pos h)
    refine toLower_of_not ?_
    simp only [hval, ge_iff_le, UInt32.le_iff_toNat_le, UInt32.toNat_add, Char.reduceVal,
      UInt32.reduceSub, UInt32.reduceToNat] at h ⊢
    omega
  · rw [toLower_of_not h, toLower_of_not h]

end Char

/-! ## Results -/

/-- Two steps succeed only if both of them do. -/
theorem Except.bind_eq_ok {ε α β : Type} {x : Except ε α} {f : α → Except ε β} {b : β}
    (h : x >>= f = .ok b) : ∃ a, x = .ok a ∧ f a = .ok b := by
  cases x with
  | error e => cases h
  | ok a => exact ⟨a, rfl, h⟩
