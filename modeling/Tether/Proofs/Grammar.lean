import Tether.Json.Record
import Tether.Proofs.NumberText

/-!
# The grammar of documents

Which texts are values, told without any reader: strings with the ways to write each character,
numbers of any length, lists and objects with blanks wherever the format allows them. `Value` nests
without limit, and the names in an object may be repeated.

A value that nobody asked for is passed over with its brackets on a stack. `Skips` says what one
value does to the loop that does this, whatever is open around it; a list or an object does it if
what stands in it does, so every value does.
-/

namespace Tether.Json

/-! ## Strings -/

/-- A hexadecimal digit, in upper or lower case. -/
def IsHex (c : Char) (n : ℕ) : Prop :=
  n < 16 ∧ (c = Nat.digitChar n ∨ c = (Nat.digitChar n).toUpper)

instance (c : Char) (n : ℕ) : Decidable (IsHex c n) := inferInstanceAs (Decidable (_ ∧ _))

/-- Numbers as four hexadecimal digits. -/
inductive HexCode : ℕ → List Char → Prop
  | mk {a b c d : Char} {x y z w : ℕ} (ha : IsHex a x) (hb : IsHex b y) (hc : IsHex c z)
    (hd : IsHex d w) : HexCode (((x * 16 + y) * 16 + z) * 16 + w) [a, b, c, d]

/-- The letters of the short escapes, with the characters they stand for. -/
def shortEscapes : List (Char × Char) :=
  [('"', '"'), ('\\', '\\'), ('/', '/'), ('b', '\x08'), ('f', '\x0c'), ('n', '\n'), ('r', '\r'),
    ('t', '\t')]

/-- Characters that stand for themselves in a string. -/
def IsPlain (c : Char) : Prop := 0x20 ≤ c.toNat ∧ c ≠ '"' ∧ c ≠ '\\'

instance (c : Char) : Decidable (IsPlain c) := inferInstanceAs (Decidable (_ ∧ _))

/-- The ways to write a character in a string: as it is, as a short escape, by its code, or by the
two codes of a surrogate pair. -/
inductive Spelling (c : Char) : List Char → Prop
  | plain (h : IsPlain c) : Spelling c [c]
  | short {letter : Char} (h : (letter, c) ∈ shortEscapes) : Spelling c ['\\', letter]
  | code {digits : List Char} (h : HexCode c.toNat digits) : Spelling c ('\\' :: 'u' :: digits)
  | pair {m n : ℕ} {first second : List Char} (hm : m < 0x400) (hn : n < 0x400)
    (hc : c.toNat = 0x10000 + m * 0x400 + n) (hfirst : HexCode (0xD800 + m) first)
    (hsecond : HexCode (0xDC00 + n) second) :
    Spelling c ('\\' :: 'u' :: (first ++ '\\' :: 'u' :: second))

/-- The ways to write characters between quotation marks. -/
inductive Spelled : List Char → List Char → Prop
  | nil : Spelled [] []
  | cons {c : Char} {cs piece text : List Char} (hc : Spelling c piece) (h : Spelled cs text) :
    Spelled (c :: cs) (piece ++ text)

/-- What may stand between quotation marks. It need not denote characters: a code may be half of a
surrogate pair. -/
inductive Contents : List Char → Prop
  | nil : Contents []
  | plain {c : Char} {text : List Char} (hc : IsPlain c) (h : Contents text) : Contents (c :: text)
  | short {letter c : Char} {text : List Char} (hc : (letter, c) ∈ shortEscapes)
    (h : Contents text) : Contents ('\\' :: letter :: text)
  | code {n : ℕ} {digits text : List Char} (hn : HexCode n digits) (h : Contents text) :
    Contents ('\\' :: 'u' :: (digits ++ text))

theorem hexDigit?_of_isHex {c : Char} {n : ℕ} (h : IsHex c n) : hexDigit? c = some n := by
  have hall : ∀ n, n < 16 → hexDigit? (Nat.digitChar n) = some n ∧
      hexDigit? (Nat.digitChar n).toUpper = some n := by decide
  obtain ⟨hn, rfl | rfl⟩ := h
  · exact (hall n hn).1
  · exact (hall n hn).2

theorem hexEscape_of_hexCode {n : ℕ} {digits : List Char} (h : HexCode n digits)
    (rest : List Char) : hexEscape (digits ++ rest) = .ok (n, rest) := by
  cases h with
  | mk ha hb hc hd =>
    simp [hexEscape, hexValue?, hexDigit?_of_isHex ha, hexDigit?_of_isHex hb,
      hexDigit?_of_isHex hc, hexDigit?_of_isHex hd]

theorem shortEscape?_of_mem {letter c : Char} (h : (letter, c) ∈ shortEscapes) :
    shortEscape? letter = some c ∧ letter ≠ 'u' := by
  have hall : ∀ pair ∈ shortEscapes, shortEscape? pair.1 = some pair.2 ∧ pair.1 ≠ 'u' := by decide
  exact hall _ h

theorem escape_short {letter c : Char} (h : (letter, c) ∈ shortEscapes) (rest : List Char) :
    escape (letter :: rest) = .ok (c, rest) ∧ skipEscape (letter :: rest) = .ok rest := by
  obtain ⟨hshort, hne⟩ := shortEscape?_of_mem h
  constructor
  · unfold escape
    split
    · rename_i heq
      cases heq
    · rename_i heq
      cases heq
      exact absurd rfl hne
    · rename_i heq
      cases heq
      rw [hshort]
  · unfold skipEscape
    split
    · rename_i heq
      cases heq
    · rename_i heq
      cases heq
      exact absurd rfl hne
    · rename_i heq
      cases heq
      rw [hshort]

theorem toNat_not_surrogate (c : Char) :
    isTrailing c.toNat = false ∧ isLeading c.toNat = false := by
  have hvalid := c.valid
  have hval : c.toNat = c.val.toNat := rfl
  simp only [isTrailing, isLeading, Bool.and_eq_false_iff, decide_eq_false_iff_not, not_le]
  rcases hvalid with h | ⟨h, -⟩ <;> omega

theorem escape_code {c : Char} {digits : List Char} (h : HexCode c.toNat digits)
    (rest : List Char) : escape ('u' :: (digits ++ rest)) = .ok (c, rest) := by
  obtain ⟨htrailing, hleading⟩ := toNat_not_surrogate c
  show unicodeEscape (digits ++ rest) = _
  simp only [unicodeEscape, hexEscape_of_hexCode h, bind, Except.bind, htrailing, hleading,
    Char.ofNat_toNat]
  rfl

theorem escape_pair {c : Char} {m n : ℕ} {first second : List Char} (hm : m < 0x400)
    (hn : n < 0x400) (hc : c.toNat = 0x10000 + m * 0x400 + n)
    (hfirst : HexCode (0xD800 + m) first) (hsecond : HexCode (0xDC00 + n) second)
    (rest : List Char) :
    escape ('u' :: (first ++ '\\' :: 'u' :: (second ++ rest))) = .ok (c, rest) := by
  have hleading : isTrailing (0xD800 + m) = false ∧ isLeading (0xD800 + m) = true := by
    simp only [isTrailing, isLeading, Bool.and_eq_false_iff, Bool.and_eq_true,
      decide_eq_false_iff_not, decide_eq_true_eq, not_le]
    omega
  have htrailing : isTrailing (0xDC00 + n) = true := by
    simp only [isTrailing, Bool.and_eq_true, decide_eq_true_eq]
    omega
  have hjoin : joinSurrogates (0xD800 + m) (0xDC00 + n) = c := by
    rw [joinSurrogates, Nat.add_sub_cancel_left, Nat.add_sub_cancel_left, ← hc, Char.ofNat_toNat]
  show unicodeEscape _ = _
  simp only [unicodeEscape, hexEscape_of_hexCode hfirst, bind, Except.bind, hleading,
    secondSurrogate, hexEscape_of_hexCode hsecond, htrailing, hjoin]
  rfl

theorem stringLoop_plain {c : Char} (h : IsPlain c) (b : Char) (bound done text : List Char) :
    stringLoop (b :: bound) done (c :: text) = stringLoop bound (c :: done) text := by
  obtain ⟨hcontrol, hquote, hbackslash⟩ := h
  conv_lhs => unfold stringLoop
  split
  · rename_i heq
    cases heq
  · rename_i heq
    cases heq
    exact absurd rfl hquote
  · rename_i heq
    cases heq
    exact absurd rfl hbackslash
  · rename_i heq
    cases heq
    rw [if_neg (by omega)]

theorem stringLoop_spelling {c : Char} {piece : List Char} (h : Spelling c piece) (b : Char)
    (bound done text : List Char) :
    stringLoop (b :: bound) done (piece ++ text) = stringLoop bound (c :: done) text := by
  cases h with
  | plain h => exact stringLoop_plain h b bound done text
  | short h =>
    simp only [List.cons_append, List.nil_append, stringLoop, (escape_short h text).1, bind,
      Except.bind]
  | code h => simp only [List.cons_append, stringLoop, escape_code h text, bind, Except.bind]
  | pair hm hn hc hfirst hsecond =>
    simp only [List.cons_append, List.append_assoc, stringLoop,
      escape_pair hm hn hc hfirst hsecond text, bind, Except.bind]

theorem Spelling.ne_nil {c : Char} {piece : List Char} (h : Spelling c piece) : piece ≠ [] := by
  cases h <;> simp

theorem stringLoop_spelled {cs text : List Char} (h : Spelled cs text) (bound done rest : List Char)
    (hbound : text.length < bound.length) :
    stringLoop bound done (text ++ '"' :: rest) =
      .ok (String.ofList (done.reverse ++ cs), rest) := by
  induction h generalizing bound done with
  | nil =>
    obtain ⟨b, bound, rfl⟩ := List.exists_cons_of_length_pos (Nat.zero_lt_of_lt hbound)
    rw [List.append_nil]
    rfl
  | @cons c cs piece text hc _ ih =>
    obtain ⟨b, bound, rfl⟩ := List.exists_cons_of_length_pos (Nat.zero_lt_of_lt hbound)
    have hpiece : 0 < piece.length := List.length_pos_of_ne_nil hc.ne_nil
    rw [List.length_append, List.length_cons] at hbound
    rw [List.append_assoc, stringLoop_spelling hc, ih bound (c :: done) (by omega)]
    simp

/-- A string is read into what it denotes, however it is written. -/
theorem string_of_spelled {s : String} {text : List Char} (h : Spelled s.toList text)
    (rest : List Char) : string (text ++ '"' :: rest) = .ok (s, rest) := by
  rw [string, stringLoop_spelled h]
  · rw [List.reverse_nil, List.nil_append, String.ofList_toList]
  · rw [List.length_append, List.length_cons]
    omega

theorem skipStringLoop_of_contents {text : List Char} (h : Contents text) (bound rest : List Char)
    (hbound : text.length < bound.length) :
    skipStringLoop bound (text ++ '"' :: rest) = .ok rest := by
  induction h generalizing bound with
  | nil =>
    obtain ⟨b, bound, rfl⟩ := List.exists_cons_of_length_pos (Nat.zero_lt_of_lt hbound)
    rfl
  | @plain c text hc _ ih =>
    obtain ⟨b, bound, rfl⟩ := List.exists_cons_of_length_pos (Nat.zero_lt_of_lt hbound)
    obtain ⟨hcontrol, hquote, hbackslash⟩ := hc
    rw [List.cons_append]
    conv_lhs => unfold skipStringLoop
    split
    · rename_i heq
      cases heq
    · rename_i heq
      cases heq
      exact absurd rfl hquote
    · rename_i heq
      cases heq
      exact absurd rfl hbackslash
    · rename_i heq
      cases heq
      rw [if_neg (by omega)]
      exact ih bound (Nat.lt_of_succ_lt_succ hbound)
  | @short letter c text hc _ ih =>
    obtain ⟨b, bound, rfl⟩ := List.exists_cons_of_length_pos (Nat.zero_lt_of_lt hbound)
    simp only [List.length_cons] at hbound
    simp only [List.cons_append, skipStringLoop, (escape_short hc _).2, bind, Except.bind]
    exact ih bound (by omega)
  | @code n digits text hn _ ih =>
    obtain ⟨b, bound, rfl⟩ := List.exists_cons_of_length_pos (Nat.zero_lt_of_lt hbound)
    simp only [List.length_cons, List.length_append] at hbound
    simp only [List.cons_append, List.append_assoc, skipStringLoop, skipEscape,
      hexEscape_of_hexCode hn, Except.map, bind, Except.bind]
    exact ih bound (by omega)

theorem skipString_of_contents {text : List Char} (h : Contents text) (rest : List Char) :
    skipString (text ++ '"' :: rest) = .ok rest := by
  refine skipStringLoop_of_contents h _ rest ?_
  rw [List.length_append, List.length_cons]
  omega

/-! ## Numbers -/

/-- Digits, at least one. -/
def Digits (text : List Char) : Prop := text ≠ [] ∧ ∀ c ∈ text, c.isDigit = true

instance (text : List Char) : Decidable (Digits text) :=
  @instDecidableAnd _ _ inferInstance (List.decidableBAll _ _)

/-- The digits before the point: no zero in front of others. -/
inductive WholePart : List Char → Prop
  | zero : WholePart ['0']
  | digits {text : List Char} (h : Digits text) (hzero : text.head? ≠ some '0') : WholePart text

/-- The point and the digits after it, if there are any. -/
inductive FractionPart : List Char → Prop
  | none : FractionPart []
  | digits {text : List Char} (h : Digits text) : FractionPart ('.' :: text)

/-- The exponent with its mark, if there is one. -/
inductive ExponentPart : List Char → Prop
  | none : ExponentPart []
  | digits {mark : Char} {sign text : List Char} (hmark : mark = 'e' ∨ mark = 'E')
    (hsign : sign = [] ∨ sign = ['+'] ∨ sign = ['-']) (h : Digits text) :
    ExponentPart (mark :: (sign ++ text))

/-- Numbers after their sign. -/
inductive Magnitude : List Char → Prop
  | mk {whole fraction exponent : List Char} (hwhole : WholePart whole)
    (hfraction : FractionPart fraction) (hexponent : ExponentPart exponent) :
    Magnitude (whole ++ (fraction ++ exponent))

/-- Numbers, of any size and length. -/
inductive Numeral : List Char → Prop
  | positive {text : List Char} (h : Magnitude text) : Numeral text
  | negative {text : List Char} (h : Magnitude text) : Numeral ('-' :: text)

theorem Digits.exists_cons {text : List Char} (h : Digits text) :
    ∃ c more, text = c :: more ∧ c.isDigit = true ∧ ∀ d ∈ more, d.isDigit = true := by
  obtain ⟨c, more, rfl⟩ := List.exists_cons_of_ne_nil h.1
  exact ⟨c, more, rfl, List.forall_mem_cons.mp h.2⟩

theorem Stops.not_isDigit {text : List Char} (h : Stops text) :
    ∀ c ∈ text.head?, c.isDigit = false := fun c hc => (h c hc).1

/-- What follows the digits after the point: no digit. -/
theorem ExponentPart.not_isDigit {text rest : List Char} (h : ExponentPart text)
    (hrest : Stops rest) : ∀ c ∈ (text ++ rest).head?, c.isDigit = false := by
  cases h with
  | none => exact hrest.not_isDigit
  | digits hmark _ _ =>
    rintro c ⟨⟩
    rcases hmark with rfl | rfl <;> rfl

theorem skipExponent_of_digits {sign text rest : List Char}
    (hsign : sign = [] ∨ sign = ['+'] ∨ sign = ['-']) (h : Digits text) (hrest : Stops rest) :
    skipExponent (sign ++ (text ++ rest)) = .ok rest := by
  obtain ⟨c, more, rfl, hc, hmore⟩ := h.exists_cons
  have hdrop := (List.takeWhile_dropWhile_append hmore hrest.not_isDigit).2
  rcases hsign with rfl | rfl | rfl
  · have hplus : c ≠ '+' := Char.ne_of_isDigit hc rfl
    have hminus : c ≠ '-' := Char.ne_of_isDigit hc rfl
    simp [skipExponent, hplus, hminus, hc, hdrop]
  · simp [skipExponent, hc, hdrop]
  · simp [skipExponent, hc, hdrop]

theorem skipFraction_of_stops {text : List Char} (h : Stops text) :
    skipFraction text = .ok text := by
  cases text with
  | nil => rfl
  | cons c text =>
    obtain ⟨-, hpoint, he, hE⟩ := h c rfl
    simp [skipFraction, hpoint, he, hE]

theorem skipFraction_of {fraction exponent rest : List Char} (hfraction : FractionPart fraction)
    (hexponent : ExponentPart exponent) (hrest : Stops rest) :
    skipFraction (fraction ++ (exponent ++ rest)) = .ok rest := by
  cases hfraction with
  | none =>
    cases hexponent with
    | none => exact skipFraction_of_stops hrest
    | digits hmark hsign h =>
      have hskip := skipExponent_of_digits hsign h hrest
      rcases hmark with rfl | rfl <;> simpa [skipFraction] using hskip
  | @digits text hdigits =>
    obtain ⟨htake, hdrop⟩ := List.takeWhile_dropWhile_append hdigits.2 (hexponent.not_isDigit hrest)
    have hempty : text.isEmpty = false := by simpa using hdigits.1
    rw [List.cons_append]
    simp only [skipFraction, htake, hdrop, hempty, Bool.false_eq_true, if_false]
    cases hexponent with
    | none =>
      cases rest with
      | nil => rfl
      | cons c rest =>
        obtain ⟨-, -, he, hE⟩ := hrest c rfl
        simp [he, hE]
    | digits hmark hsign h =>
      have hskip := skipExponent_of_digits hsign h hrest
      rcases hmark with rfl | rfl <;> simpa using hskip

theorem not_isDigit_of_parts {fraction exponent rest : List Char}
    (hfraction : FractionPart fraction) (hexponent : ExponentPart exponent) (hrest : Stops rest) :
    ∀ c ∈ (fraction ++ (exponent ++ rest)).head?, c.isDigit = false := by
  cases hfraction with
  | none => exact hexponent.not_isDigit hrest
  | digits _ =>
    rintro c ⟨⟩
    rfl

theorem skipNumber_of_magnitude {text rest : List Char} (h : Magnitude text) (hrest : Stops rest) :
    skipNumber (text ++ rest) = .ok rest := by
  cases h with
  | @mk whole fraction exponent hwhole hfraction hexponent =>
    have hskip := skipFraction_of hfraction hexponent hrest
    have hdigit := not_isDigit_of_parts hfraction hexponent hrest
    rw [List.append_assoc, List.append_assoc]
    cases hwhole with
    | zero =>
      have hany := (Option.any_eq_false _ _).mpr hdigit
      simp only [List.singleton_append, skipNumber, if_true, hany, Bool.false_eq_true, if_false,
        hskip]
    | digits hdigits hzero =>
      obtain ⟨c, more, rfl, hc, hmore⟩ := hdigits.exists_cons
      have hdrop := (List.takeWhile_dropWhile_append hmore hdigit).2
      have hne : c ≠ '0' := by
        rintro rfl
        exact hzero rfl
      simp [skipNumber, hne, hc, hdrop, hskip]

/-! ## Lists and objects -/

/-- Blanks and nothing else. -/
def Blanks (text : List Char) : Prop := ∀ c ∈ text, isBlank c = true

instance (text : List Char) : Decidable (Blanks text) := List.decidableBAll _ _

/-- Parts one after another with commas between them, at least one. -/
inductive Row {α : Type} (Part : α → List Char → Prop) : List α → List Char → Prop
  | last {a : α} {text : List Char} (h : Part a text) : Row Part [a] text
  | cons {a : α} {as : List α} {text more : List Char} (h : Part a text)
    (hmore : Row Part as more) : Row Part (a :: as) (text ++ ',' :: more)

/-- Any number of parts between two brackets. -/
inductive Enclosed {α : Type} (opening closing : Char) (Part : α → List Char → Prop) :
    List α → List Char → Prop
  | empty {blanks : List Char} (h : Blanks blanks) :
    Enclosed opening closing Part [] (opening :: (blanks ++ [closing]))
  | row {as : List α} {text : List Char} (h : Row Part as text) :
    Enclosed opening closing Part as (opening :: (text ++ [closing]))

/-- A text with blanks around it. -/
inductive Padded (text : List Char) : List Char → Prop
  | mk {before after : List Char} (hbefore : Blanks before) (hafter : Blanks after) :
    Padded text (before ++ (text ++ after))

/-- A member of an object: its key and the text of its value. -/
inductive Member {κ : Type} (Key : κ → List Char → Prop) (member : κ × List Char) :
    List Char → Prop
  | mk {before key after value : List Char} (hbefore : Blanks before)
    (hkey : Key member.1 key) (hafter : Blanks after) (hvalue : Padded member.2 value) :
    Member Key member (before ++ '"' :: (key ++ '"' :: (after ++ ':' :: value)))

theorem padded_self (text : List Char) : Padded text text := by
  have h : Padded text ([] ++ (text ++ [])) := .mk nofun nofun
  rwa [List.nil_append, List.append_nil] at h

/-- A member without blanks. -/
theorem member_self {κ : Type} {Key : κ → List Char → Prop} {member : κ × List Char}
    {key : List Char} (h : Key member.1 key) :
    Member Key member ('"' :: (key ++ '"' :: ':' :: member.2)) :=
  @Member.mk κ Key member [] key [] member.2 nofun h nofun (padded_self member.2)

/-- Lists, with the texts of their elements. -/
def ListOf : List (List Char) → List Char → Prop := Enclosed '[' ']' Padded

/-- Objects, with the keys of their members and the texts of their values. -/
def ObjectOf {κ : Type} (Key : κ → List Char → Prop) :
    List (κ × List Char) → List Char → Prop := Enclosed '\x7b' '\x7d' (Member Key)

/-- The texts of values. -/
inductive Value : List Char → Prop
  | literal {text : List Char} (h : text ∈ ["null".toList, "true".toList, "false".toList]) :
    Value text
  | number {text : List Char} (h : Numeral text) : Value text
  | string {text : List Char} (h : Contents text) : Value ('"' :: (text ++ ['"']))
  | list {elements : List (List Char)} {text : List Char} (h : ListOf elements text)
    (helements : ∀ element ∈ elements, Value element) : Value text
  | object {members : List (Unit × List Char)} {text : List Char}
    (h : ObjectOf (fun _ => Contents) members text) (hmembers : ∀ m ∈ members, Value m.2) :
    Value text

/-! ## Blanks -/

theorem skipBlanks_blanks {blanks : List Char} (h : Blanks blanks) (text : List Char) :
    skipBlanks (blanks ++ text) = skipBlanks text :=
  List.dropWhile_append_of_pos h

theorem skipBlanks_of_not_isBlank {c : Char} (hc : isBlank c = false) (text : List Char) :
    skipBlanks (c :: text) = c :: text := by
  rw [skipBlanks, List.dropWhile_cons, hc]
  rfl

theorem skipBlanks_cons {blanks : List Char} (h : Blanks blanks) {c : Char}
    (hc : isBlank c = false) (text : List Char) : skipBlanks (blanks ++ c :: text) = c :: text := by
  rw [skipBlanks_blanks h, skipBlanks_of_not_isBlank hc]

/-- Blanks and what may follow a value do not go on with a number. -/
theorem stops_blanks {blanks rest : List Char} (h : Blanks blanks) (hrest : Stops rest) :
    Stops (blanks ++ rest) := by
  cases blanks with
  | nil => exact hrest
  | cons b blanks =>
    rintro c ⟨⟩
    have hb := h b List.mem_cons_self
    refine ⟨?_, ?_, ?_, ?_⟩
    · by_contra hdigit
      rw [Bool.not_eq_false] at hdigit
      have hne : b ≠ ' ' ∧ b ≠ '\n' ∧ b ≠ '\t' ∧ b ≠ '\r' :=
        ⟨Char.ne_of_isDigit hdigit rfl, Char.ne_of_isDigit hdigit rfl,
          Char.ne_of_isDigit hdigit rfl, Char.ne_of_isDigit hdigit rfl⟩
      simp [isBlank, hne] at hb
    all_goals rintro rfl; cases hb

theorem not_isBlank_of_lead {c : Char} (h : (Lead.of? c).isSome = true) : isBlank c = false := by
  by_contra hblank
  simp only [isBlank, Bool.not_eq_false, Bool.or_eq_true, beq_iff_eq] at hblank
  rcases hblank with ((rfl | rfl) | rfl) | rfl <;> cases h

/-! ## Passing over values -/

/-- Goes on inside the brackets `outer` when a value or an opening bracket was passed over. -/
def resume (bound : List Char) (outer : List Bracket) (comma : Bool) (text : List Char) :
    Except Fault (List Char) :=
  skipClosing outer comma text >>= fun next =>
    if next.1.isEmpty then .ok next.2 else skipLoop bound next.1 next.2

/-- Goes to the next value inside brackets of a kind: in objects it has a key. -/
def enter (kind : Bracket) (text : List Char) : Except Fault (List Char) :=
  if kind = .list then .ok text else skipKey text

theorem skipLoop_cons (b : Char) (bound : List Char) (outer : List Bracket) (text : List Char) :
    skipLoop (b :: bound) outer text = skipLead text >>= fun lead =>
      resume bound (lead.1.toList ++ outer) lead.1.isNone lead.2 := by
  rw [skipLoop]
  cases skipLead text with
  | error fault => rfl
  | ok lead =>
    obtain ⟨bracket, rest⟩ := lead
    simp only [bind, Except.bind, resume]
    cases skipClosing (bracket.toList ++ outer) bracket.isNone rest with
    | error fault => rfl
    | ok next =>
      obtain ⟨inner, after⟩ := next
      cases inner <;> rfl

theorem skipLoop_blanks {blanks : List Char} (h : Blanks blanks) (bound : List Char)
    (outer : List Bracket) (text : List Char) (hbound : bound ≠ []) :
    skipLoop bound outer (blanks ++ text) = skipLoop bound outer text := by
  obtain ⟨b, bound, rfl⟩ := List.exists_cons_of_ne_nil hbound
  rw [skipLoop_cons, skipLoop_cons, skipLead, skipLead, skipBlanks_blanks h]

theorem resume_nil (bound : List Char) (comma : Bool) (text : List Char) :
    resume bound [] comma text = .ok text := rfl

theorem resume_of_skipSeparator {kind : Bracket} {comma closed : Bool} {text rest : List Char}
    (h : skipSeparator kind comma text = .ok (closed, rest)) (bound : List Char)
    (outer : List Bracket) :
    resume bound (kind :: outer) comma text =
      if closed then resume bound outer true rest else skipLoop bound (kind :: outer) rest := by
  cases closed <;> simp [resume, skipClosing, h, bind, Except.bind, pure, Except.pure]

theorem resume_close (bound : List Char) (kind : Bracket) (outer : List Bracket) (comma : Bool)
    {blanks : List Char} (h : Blanks blanks) (rest : List Char) :
    resume bound (kind :: outer) comma (blanks ++ kind.close :: rest) =
      resume bound outer true rest := by
  have hseparator : skipSeparator kind comma (blanks ++ kind.close :: rest) = .ok (true, rest) := by
    cases kind <;> cases comma <;>
      simp [skipSeparator, Bracket.close, skipBlanks_cons h, isBlank]
  rw [resume_of_skipSeparator hseparator, if_pos rfl]

theorem resume_enter {kind : Bracket} {comma : Bool} {text rest : List Char}
    (h : skipSeparator kind comma text = (enter kind rest).map ((false, ·))) (bound : List Char)
    (outer : List Bracket) :
    resume bound (kind :: outer) comma text =
      enter kind rest >>= skipLoop bound (kind :: outer) := by
  cases henter : enter kind rest with
  | error fault =>
    rw [henter] at h
    simp only [resume, skipClosing, h]
    rfl
  | ok after =>
    rw [henter] at h
    rw [resume_of_skipSeparator h, if_neg (by decide)]
    rfl

theorem resume_comma (bound : List Char) (kind : Bracket) (outer : List Bracket)
    {blanks : List Char} (h : Blanks blanks) (rest : List Char) :
    resume bound (kind :: outer) true (blanks ++ ',' :: rest) =
      enter kind rest >>= skipLoop bound (kind :: outer) := by
  refine resume_enter ?_ bound outer
  cases kind
  · simp [skipSeparator, skipBlanks_cons h, isBlank, enter, Except.map]
  · simp [skipSeparator, skipBlanks_cons h, isBlank, enter]

theorem skipKey_blanks {blanks : List Char} (h : Blanks blanks) (text : List Char) :
    skipKey (blanks ++ text) = skipKey text := by
  rw [skipKey, skipKey, skipBlanks_blanks h]

theorem resume_first (bound : List Char) (kind : Bracket) (outer : List Bracket)
    {blanks : List Char} (h : Blanks blanks) {c : Char} (hblank : isBlank c = false)
    (hclose : c ≠ kind.close) (rest : List Char) (hbound : bound ≠ []) :
    resume bound (kind :: outer) false (blanks ++ c :: rest) =
      enter kind (blanks ++ c :: rest) >>= skipLoop bound (kind :: outer) := by
  have hseparator : skipSeparator kind false (blanks ++ c :: rest) =
      (enter kind (c :: rest)).map ((false, ·)) := by
    cases kind
    · simp [skipSeparator, skipBlanks_cons h hblank, hclose, enter, Except.map]
    · simp [skipSeparator, skipBlanks_cons h hblank, hclose, enter]
  rw [resume_enter hseparator]
  cases kind with
  | list => exact (skipLoop_blanks h bound _ _ hbound).symm
  | object =>
    show skipKey (c :: rest) >>= _ = skipKey (blanks ++ c :: rest) >>= _
    rw [skipKey_blanks h]

/-- The loop passes over a text in some rounds and goes on behind it. -/
def Skips (text : List Char) : Prop :=
  ∃ k, 0 < k ∧ k ≤ text.length ∧ ∀ bound outer rest, k ≤ bound.length → Stops rest →
    skipLoop bound outer (text ++ rest) = resume (bound.drop k) outer true rest

theorem skips_of_skipLead {text : List Char} (hne : text ≠ [])
    (h : ∀ rest, Stops rest → skipLead (text ++ rest) = .ok (none, rest)) : Skips text := by
  refine ⟨1, one_pos, List.length_pos_of_ne_nil hne, fun bound outer rest hbound hrest => ?_⟩
  obtain ⟨b, bound, rfl⟩ := List.exists_cons_of_length_pos hbound
  rw [skipLoop_cons, h rest hrest]
  rfl

/-- What stands between brackets of a kind leads to one value and may have blanks around it. -/
structure Holds (kind : Bracket) (text : List Char) : Prop where
  starts : ∃ blanks c more, text = blanks ++ c :: more ∧ Blanks blanks ∧ isBlank c = false ∧
    c ≠ kind.close
  leads : ∃ before value after, Blanks before ∧ Blanks after ∧ Skips value ∧
    value.length ≤ text.length ∧
    ∀ rest, enter kind (text ++ rest) = .ok (before ++ (value ++ (after ++ rest)))

theorem stops_cons {c : Char} (h : c.isDigit = false ∧ c ≠ '.' ∧ c ≠ 'e' ∧ c ≠ 'E')
    (text : List Char) : Stops (c :: text) := by
  rintro d ⟨⟩
  exact h

theorem stops_close (kind : Bracket) (text : List Char) : Stops (kind.close :: text) := by
  cases kind <;> exact stops_cons (by decide) text

/-- The step and the end of a row: a value is followed by a comma or by the closing bracket. -/
theorem skip_row {α : Type} {Part : α → List Char → Prop} {kind : Bracket} {as : List α}
    {text : List Char} (h : Row Part as text)
    (hparts : ∀ a ∈ as, ∀ part, Part a part → Holds kind part) :
    ∃ k, 0 < k ∧ k ≤ text.length ∧ ∀ bound outer rest, k ≤ bound.length →
      (enter kind (text ++ kind.close :: rest) >>= skipLoop bound (kind :: outer)) =
        resume (bound.drop k) outer true rest := by
  induction h with
  | @last a text ha =>
    obtain ⟨before, value, after, hbefore, hafter, ⟨k, hpos, hk, hskip⟩, hlength, henter⟩ :=
      (hparts a (by simp) text ha).leads
    refine ⟨k, hpos, by omega, fun bound outer rest hbound => ?_⟩
    have hstops := stops_blanks hafter (stops_close kind rest)
    rw [henter]
    show skipLoop bound (kind :: outer) _ = _
    rw [skipLoop_blanks hbefore _ _ _ (List.ne_nil_of_length_pos (by omega)),
      hskip _ _ _ hbound hstops, resume_close _ _ _ _ hafter]
  | @cons a as text more ha _ ih =>
    obtain ⟨before, value, after, hbefore, hafter, ⟨k, hpos, hk, hskip⟩, hlength, henter⟩ :=
      (hparts a (by simp) text ha).leads
    obtain ⟨k', hpos', hk', hmore⟩ := ih fun b hb => hparts b (List.mem_cons_of_mem _ hb)
    refine ⟨k + k', by omega, ?_, fun bound outer rest hbound => ?_⟩
    · rw [List.length_append, List.length_cons]
      omega
    have hstops := stops_blanks hafter
      (stops_cons (c := ',') (by decide) (more ++ kind.close :: rest))
    rw [List.append_assoc, List.cons_append, henter]
    show skipLoop bound (kind :: outer) _ = _
    rw [skipLoop_blanks hbefore _ _ _ (List.ne_nil_of_length_pos (by omega)),
      hskip _ _ _ (by omega) hstops, resume_comma _ _ _ hafter,
      hmore _ _ _ (by rw [List.length_drop]; omega), List.drop_drop]

theorem Row.starts {α : Type} {Part : α → List Char → Prop} {kind : Bracket} {as : List α}
    {text : List Char} (h : Row Part as text)
    (hparts : ∀ a ∈ as, ∀ part, Part a part → Holds kind part) :
    ∃ blanks c more, text = blanks ++ c :: more ∧ Blanks blanks ∧ isBlank c = false ∧
      c ≠ kind.close := by
  cases h with
  | last ha => exact (hparts _ (by simp) _ ha).starts
  | cons ha _ =>
    obtain ⟨blanks, c, more, rfl, hstarts⟩ := (hparts _ (by simp) _ ha).starts
    exact ⟨blanks, c, _, by rw [List.append_assoc, List.cons_append], hstarts⟩

theorem skips_enclosed {α : Type} {Part : α → List Char → Prop} {kind : Bracket} {opening : Char}
    (hopening : ∀ text, skipLead (opening :: text) = .ok (some kind, text)) {as : List α}
    {text : List Char} (h : Enclosed opening kind.close Part as text)
    (hparts : ∀ a ∈ as, ∀ part, Part a part → Holds kind part) : Skips text := by
  cases h with
  | @empty blanks hblanks =>
    refine ⟨1, one_pos, by simp, fun bound outer rest hbound hrest => ?_⟩
    obtain ⟨b, bound, rfl⟩ := List.exists_cons_of_length_pos hbound
    rw [List.cons_append, skipLoop_cons, hopening, List.append_assoc, List.singleton_append]
    exact resume_close bound kind outer false hblanks rest
  | @row _ text hrow =>
    obtain ⟨k, hpos, hk, hskip⟩ := skip_row hrow hparts
    refine ⟨k + 1, by omega, by simp; omega, fun bound outer rest hbound hrest => ?_⟩
    obtain ⟨b, bound, rfl⟩ := List.exists_cons_of_length_pos (Nat.zero_lt_of_lt hbound)
    rw [List.length_cons] at hbound
    rw [List.cons_append, skipLoop_cons, hopening, List.append_assoc, List.singleton_append]
    show resume bound (kind :: outer) false _ = _
    have hstep := hskip bound outer rest (by omega)
    obtain ⟨blanks, c, more, htext, hblanks, hblank, hclose⟩ := hrow.starts hparts
    rw [htext, List.append_assoc, List.cons_append] at hstep ⊢
    rw [resume_first bound kind outer hblanks hblank hclose _
      (List.ne_nil_of_length_pos (by omega)), hstep]
    rfl

theorem holds_padded {value text : List Char} (h : Padded value text) (hskips : Skips value)
    (hvalue : ∃ c more, value = c :: more ∧ (Lead.of? c).isSome = true) : Holds .list text := by
  cases h with
  | @mk before after hbefore hafter =>
    obtain ⟨c, more, rfl, hlead⟩ := hvalue
    refine ⟨⟨before, c, more ++ after, rfl, hbefore, ?_⟩, before, c :: more, after, hbefore, hafter,
      hskips, ?_, fun rest => ?_⟩
    · exact ⟨not_isBlank_of_lead hlead, by rintro rfl; cases hlead⟩
    · simp only [List.length_append]
      omega
    · simp [enter]

theorem holds_member {κ : Type} {Key : κ → List Char → Prop} {member : κ × List Char}
    {text : List Char} (h : Member Key member text) (hkey : ∀ k key, Key k key → Contents key)
    (hskips : Skips member.2) : Holds .object text := by
  cases h with
  | @mk before key after value hbefore hname hafter hvalue =>
    cases hvalue with
    | @mk before' after' hbefore' hafter' =>
      refine ⟨⟨before, '"', _, rfl, hbefore, rfl, by decide⟩, before', member.2, after', hbefore',
        hafter', hskips, ?_, fun rest => ?_⟩
      · simp only [List.length_append, List.length_cons]
        omega
      · show skipKey _ = _
        simp only [List.append_assoc, List.cons_append]
        rw [skipKey, skipBlanks_cons hbefore rfl]
        simp only [skipString_of_contents (hkey _ _ hname), bind, Except.bind]
        rw [skipBlanks_cons hafter rfl]
        rfl

theorem Magnitude.starts {text : List Char} (h : Magnitude text) :
    ∃ c more, text = c :: more ∧ c.isDigit = true := by
  cases h with
  | mk hwhole _ _ =>
    cases hwhole with
    | zero => exact ⟨'0', _, rfl, rfl⟩
    | digits hdigits _ =>
      obtain ⟨c, more, rfl, hc, -⟩ := hdigits.exists_cons
      exact ⟨c, _, rfl, hc⟩

theorem lead_of_isDigit {c : Char} (hc : c.isDigit = true) : Lead.of? c = some .digit := by
  unfold Lead.of?
  split
  all_goals try cases hc
  rw [if_pos hc]

theorem Value.starts {text : List Char} (h : Value text) :
    ∃ c more, text = c :: more ∧ (Lead.of? c).isSome = true := by
  cases h with
  | literal h =>
    simp only [List.mem_cons, List.not_mem_nil, or_false] at h
    rcases h with rfl | rfl | rfl <;> exact ⟨_, _, rfl, rfl⟩
  | number h =>
    cases h with
    | positive h =>
      obtain ⟨c, more, rfl, hc⟩ := h.starts
      exact ⟨c, more, rfl, by rw [lead_of_isDigit hc]; rfl⟩
    | negative _ => exact ⟨'-', _, rfl, rfl⟩
  | string _ => exact ⟨'"', _, rfl, rfl⟩
  | list h _ => cases h <;> exact ⟨'[', _, rfl, rfl⟩
  | object h _ => cases h <;> exact ⟨'\x7b', _, rfl, rfl⟩

theorem Numeral.skips {text : List Char} (h : Numeral text) : Skips text := by
  cases h with
  | positive h =>
    obtain ⟨c, more, rfl, hc⟩ := h.starts
    have hlead := lead_of_isDigit hc
    have hblank : isBlank c = false := not_isBlank_of_lead (by rw [hlead]; rfl)
    refine skips_of_skipLead (by simp) fun rest hrest => ?_
    have hskip := skipNumber_of_magnitude h hrest
    rw [List.cons_append] at hskip ⊢
    rw [skipLead, skipBlanks_of_not_isBlank hblank]
    simp only [hlead, hskip]
    rfl
  | negative h =>
    refine skips_of_skipLead (by simp) fun rest hrest => ?_
    rw [List.cons_append, skipLead, skipBlanks_of_not_isBlank rfl]
    simp only [Lead.of?, skipNumber_of_magnitude h hrest]
    rfl

theorem Value.skips {text : List Char} (h : Value text) : Skips text := by
  induction h with
  | literal h =>
    simp only [List.mem_cons, List.not_mem_nil, or_false] at h
    rcases h with rfl | rfl | rfl <;> exact skips_of_skipLead (by decide) fun _ _ => rfl
  | number h => exact h.skips
  | @string text h =>
    refine skips_of_skipLead (by simp) fun rest hrest => ?_
    rw [List.cons_append, List.append_assoc, skipLead, skipBlanks_of_not_isBlank rfl]
    simp only [Lead.of?, List.singleton_append, skipString_of_contents h]
    rfl
  | list h helements ih =>
    have hopening : ∀ text, skipLead ('[' :: text) = .ok (some .list, text) := fun _ => rfl
    refine skips_enclosed hopening h fun element hmem part hpart => ?_
    exact holds_padded hpart (ih element hmem) (helements element hmem).starts
  | object h hmembers ih =>
    have hopening : ∀ text, skipLead ('\x7b' :: text) = .ok (some .object, text) := fun _ => rfl
    refine skips_enclosed hopening h fun m hmem part hpart => ?_
    exact holds_member hpart (fun _ _ hkey => hkey) (ih m hmem)

/-- A value is passed over, whatever stands in it. -/
theorem skipValue_of_value {text blanks rest : List Char} (h : Value text) (hblanks : Blanks blanks)
    (hrest : Stops rest) : skipValue (blanks ++ (text ++ rest)) = .ok rest := by
  obtain ⟨k, hpos, hk, hskip⟩ := h.skips
  have hbound : k ≤ (blanks ++ (text ++ rest)).length := by
    simp only [List.length_append]
    omega
  rw [skipValue, skipLoop_blanks hblanks _ _ _ (List.ne_nil_of_length_pos (by omega)),
    hskip _ _ _ hbound hrest, resume_nil]

end Tether.Json
