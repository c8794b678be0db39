import Tether.Json.Record
import Tether.Proofs.Preliminaries
import Tether.Proofs.Rounding

/-!
# What a document can give

Whatever the text, a whole number that is read fits into a word and a binary number is one of the
format. A record keeps a property that its default has if reading a field keeps it: no other way
leads to a record, `readRecord_invariant`.
-/

namespace Tether.Json

/-! ## Numbers -/

theorem gather_le (digits : List Char) {n : ℕ} (hn : n ≤ wordMax) :
    (gather n digits).1 ≤ wordMax := by
  induction digits generalizing n with
  | nil => exact hn
  | cons c digits ih =>
    rw [gather]
    split
    · exact hn
    · rename_i hle
      exact ih (not_lt.mp hle)

theorem wellFormed_shiftPoint (fuel : ℕ) {x y : Binary64} {power : ℤ} (hx : x.WellFormed)
    (h : shiftPoint fuel x power = some y) : y.WellFormed := by
  induction fuel generalizing x power with
  | zero =>
    cases h
    exact hx
  | succ fuel ih =>
    rw [shiftPoint] at h
    split at h
    · split at h
      · simp only at h
        split at h
        · cases h
          exact Binary64.wellFormed_mul _ _
        · cases h
      · cases h
        exact Binary64.wellFormed_div _ _
    · split at h
      · cases h
        exact hx
      · split at h
        · cases h
        · exact ih (Binary64.wellFormed_div _ _) h

theorem wellFormed_assemble {positive : Bool} {n : ℕ} {power : ℤ} {text after : List Char}
    {x : Binary64} (h : assemble positive n power text = .ok (x, after)) : x.WellFormed := by
  unfold assemble at h
  split at h
  · rename_i y hy
    have hwell := wellFormed_shiftPoint 5 (Binary64.wellFormed_nearest false n one_pos 0) hy
    cases positive
    · cases h
      exact hwell.neg
    · cases h
      exact hwell
  · cases h

theorem wellFormed_exponent {positive : Bool} {n : ℕ} {power : ℤ} {text after : List Char}
    {x : Binary64} (h : exponent positive n power text = .ok (x, after)) : x.WellFormed := by
  unfold exponent at h
  simp only at h
  split at h
  · cases h
  · split at h
    · cases h
    · split at h
      · exact wellFormed_assemble h
      · split_ifs at h
        cases h
        exact Binary64.wellFormed_zero _

theorem wellFormed_afterDigits {positive : Bool} {n : ℕ} {power : ℤ} {text after : List Char}
    {x : Binary64} (h : afterDigits positive n power text = .ok (x, after)) : x.WellFormed := by
  unfold afterDigits at h
  split at h
  · exact wellFormed_exponent h
  · exact wellFormed_exponent h
  · exact wellFormed_assemble h

theorem wellFormed_fraction {positive : Bool} {n : ℕ} {power : ℤ} {text after : List Char}
    {x : Binary64} (h : fraction positive n power text = .ok (x, after)) : x.WellFormed := by
  unfold fraction at h
  simp only at h
  split at h
  · cases h
  · exact wellFormed_afterDigits h

/-- A number that can stand in a document: whole numbers that are not negative fit into a word. -/
def Number.InRange : Number → Prop
  | natural n => n ≤ wordMax
  | negative _ => True
  | floating x => x.WellFormed

theorem inRange_whole (positive : Bool) {n : ℕ} (hn : n ≤ wordMax) :
    (whole positive n).InRange := by
  unfold whole
  split
  · exact hn
  · split
    · exact Binary64.wellFormed_nearest _ _ one_pos _
    · trivial

theorem inRange_afterWhole {positive : Bool} {n dropped : ℕ} (hn : n ≤ wordMax)
    {text after : List Char} {x : Number}
    (h : afterWhole positive n dropped text = .ok (x, after)) : x.InRange := by
  unfold afterWhole at h
  split at h
  · obtain ⟨⟨y, rest⟩, hy, h⟩ := Except.bind_eq_ok h
    cases h
    exact wellFormed_fraction hy
  · split at h
    · cases h
      exact inRange_whole positive hn
    · obtain ⟨⟨y, rest⟩, hy, h⟩ := Except.bind_eq_ok h
      cases h
      exact wellFormed_afterDigits hy

theorem inRange_number {positive : Bool} {text after : List Char} {x : Number}
    (h : number positive text = .ok (x, after)) : x.InRange := by
  unfold number at h
  split at h
  · cases h
  · split at h
    · split at h
      · cases h
      · exact inRange_afterWhole (Nat.zero_le _) h
    · split at h
      · exact inRange_afterWhole (gather_le _ (Nat.zero_le _)) h
      · cases h

/-! ## Values of one type -/

theorem unexpected_ne_ok {α : Type} (expected : String) (text : List Char) (r : α × List Char) :
    unexpected expected text ≠ .ok r := by
  intro h
  unfold unexpected at h
  split at h
  · cases h
  · split at h
    · cases h
    · obtain ⟨_, -, h⟩ := Except.bind_eq_ok h
      cases h
    · obtain ⟨_, -, h⟩ := Except.bind_eq_ok h
      cases h
    · obtain ⟨_, -, h⟩ := Except.bind_eq_ok h
      cases h
    · obtain ⟨_, -, h⟩ := Except.bind_eq_ok h
      cases h
    · cases h
    · cases h

theorem inRange_readNumber {expected : String} {text after : List Char} {x : Number}
    (h : readNumber expected text = .ok (x, after)) : x.InRange := by
  unfold readNumber at h
  split at h
  · cases h
  · split at h
    · exact inRange_number h
    · split at h
      · exact inRange_number h
      · exact absurd h (unexpected_ne_ok _ _ _)

theorem le_of_readWord {expected : String} {text after : List Char} {n : ℕ}
    (h : readWord expected text = .ok (n, after)) : n ≤ wordMax := by
  obtain ⟨⟨x, rest⟩, hx, h⟩ := Except.bind_eq_ok h
  have hrange := inRange_readNumber hx
  cases x with
  | natural k =>
    cases h
    exact hrange
  | negative k => cases h
  | floating x => cases h

theorem wellFormed_of_readBinary {text after : List Char} {x : Binary64}
    (h : readBinary text = .ok (x, after)) : x.WellFormed := by
  obtain ⟨⟨n, rest⟩, hn, h⟩ := Except.bind_eq_ok h
  have hrange := inRange_readNumber hn
  cases h
  cases n with
  | natural k => exact Binary64.wellFormed_nearest _ _ one_pos _
  | negative k => exact Binary64.wellFormed_nearest _ _ one_pos _
  | floating x => exact hrange

/-! ## Records -/

variable {σ : Type}

/-- Reading the field keeps a property of the record. -/
def Field.Keeps (field : Field σ) (P : σ → Prop) : Prop :=
  ∀ record text record' after, P record → field.read record text = .ok (record', after) → P record'

theorem Field.keeps_of {α : Type} {name : String} {reader : List Char → Reading (α × List Char)}
    {put : σ → α → σ} {P : σ → Prop}
    (h : ∀ record text a after, P record → reader text = .ok (a, after) → P (put record a)) :
    (Field.of name reader put).Keeps P := by
  intro record text record' after hrecord hread
  cases hr : reader text with
  | error f =>
    simp only [Field.of, hr] at hread
    cases hread
  | ok r =>
    simp only [Field.of, hr] at hread
    cases hread
    exact h record text r.1 r.2 hrecord hr

theorem readMembers_invariant {fields : List (Field σ)} {P : σ → Prop}
    (hfields : ∀ field ∈ fields, field.Keeps P) (bound : List Char) {seen : List String}
    {record : σ} {first : Bool} {text : List Char} {record' : σ} {after : List Char}
    (hrecord : P record)
    (h : readMembers fields bound seen record first text = .ok (record', after)) : P record' := by
  induction bound generalizing seen record first text with
  | nil => cases h
  | cons b bound ih =>
    rw [readMembers] at h
    obtain ⟨next, -, h⟩ := Except.bind_eq_ok h
    cases next with
    | none =>
      cases h
      exact hrecord
    | some rest =>
      obtain ⟨⟨key, keyRest⟩, -, h⟩ := Except.bind_eq_ok h
      simp only at h
      split at h
      · obtain ⟨value, -, h⟩ := Except.bind_eq_ok h
        obtain ⟨valueRest, -, h⟩ := Except.bind_eq_ok h
        exact ih hrecord h
      · rename_i field hfind
        split at h
        · cases h
        · obtain ⟨value, -, h⟩ := Except.bind_eq_ok h
          obtain ⟨⟨next, nextRest⟩, hread, h⟩ := Except.bind_eq_ok h
          exact ih (hfields field (List.mem_of_find?_eq_some hfind) _ _ _ _ hrecord hread) h

theorem readElements_invariant {fields : List (Field σ)} {P : σ → Prop}
    (hfields : ∀ field ∈ fields, field.Keeps P) {record : σ} {first : Bool} {text : List Char}
    {record' : σ} {after : List Char} (hrecord : P record)
    (h : readElements fields record first text = .ok (record', after)) : P record' := by
  induction fields generalizing record first text with
  | nil =>
    rw [readElements] at h
    cases he : endOfList text with
    | error f =>
      rw [he] at h
      cases h
    | ok rest =>
      rw [he] at h
      cases h
      exact hrecord
  | cons field fields ih =>
    rw [readElements] at h
    obtain ⟨next, -, h⟩ := Except.bind_eq_ok h
    cases next with
    | none =>
      obtain ⟨rest, -, h⟩ := Except.bind_eq_ok h
      cases h
      exact hrecord
    | some rest =>
      obtain ⟨⟨record₁, rest₁⟩, hread, h⟩ := Except.bind_eq_ok h
      exact ih (fun f hf => hfields f (List.mem_cons_of_mem _ hf))
        (hfields field List.mem_cons_self _ _ _ _ hrecord hread) h

/-- A record that is read has every property that its default has and its fields keep. -/
theorem readRecord_invariant {fields : List (Field σ)} {P : σ → Prop}
    (hfields : ∀ field ∈ fields, field.Keeps P) {expected : String} {default : σ}
    (hdefault : P default) {text : List Char} {record : σ} {after : List Char}
    (h : readRecord expected fields default text = .ok (record, after)) : P record := by
  unfold readRecord at h
  split at h
  · cases h
  · exact readElements_invariant hfields hdefault h
  · exact readMembers_invariant hfields _ hdefault h
  · exact absurd h (unexpected_ne_ok _ _ _)

end Tether.Json
