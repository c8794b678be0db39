import Tether.Proofs.DocumentText

/-!
# Records in any layout

A record is read from an object, its members in any order with blanks and members of other names
between them, and from a list of the values of its first fields. Each field reads the text of its
value wherever it stands, `Reads`, so what is read depends on the names and the values only:
`Layout.reads`.

The texts of values are told by the grammar. A whole number of a machine word stands for the binary
number nearest to it. Of any other number the reader itself says which binary number it is, when it
reads the number alone; that it does not matter what stands behind the number is `Settled`.
-/

namespace Tether.Json

/-! ## Numbers alone and in documents -/

section Numbers

variable {α β : Type}

/-- Whatever follows the text without going on with a number, it is read as the same value, or
never read. -/
def Settled (reader : List Char → Reading (α × List Char)) (text : List Char) : Prop :=
  (∃ a, ∀ rest, Stops rest → reader (text ++ rest) = .ok (a, rest)) ∨
    ∀ rest, Stops rest → ∃ fault, reader (text ++ rest) = .error fault

theorem Settled.map {reader : List Char → Reading (α × List Char)}
    {other : List Char → Reading (β × List Char)} {text text' : List Char} (f : α → β)
    (h : Settled reader text)
    (heq : ∀ rest, Stops rest →
      other (text' ++ rest) = (reader (text ++ rest)).map fun found => (f found.1, found.2)) :
    Settled other text' := by
  rcases h with ⟨a, h⟩ | h
  · refine .inl ⟨f a, fun rest hrest => ?_⟩
    rw [heq rest hrest, h rest hrest]
    rfl
  · refine .inr fun rest hrest => ?_
    obtain ⟨fault, hfault⟩ := h rest hrest
    exact ⟨fault, by rw [heq rest hrest, hfault]; rfl⟩

theorem Settled.congr {reader other : List Char → Reading (α × List Char)}
    {text text' : List Char} (h : Settled reader text)
    (heq : ∀ rest, Stops rest → other (text' ++ rest) = reader (text ++ rest)) :
    Settled other text' := by
  refine h.map id fun rest hrest => ?_
  rw [heq rest hrest]
  cases reader (text ++ rest) <;> rfl

/-- What is read alone is read as the same in a document. -/
theorem Settled.read {reader : List Char → Reading (α × List Char)} {text : List Char} {a : α}
    (h : Settled reader text) (halone : reader text = .ok (a, [])) {rest : List Char}
    (hrest : Stops rest) : reader (text ++ rest) = .ok (a, rest) := by
  have hnil : Stops [] := nofun
  rcases h with ⟨b, h⟩ | h
  · have hb := h [] hnil
    rw [List.append_nil, halone] at hb
    cases hb
    exact h rest hrest
  · obtain ⟨fault, hfault⟩ := h [] hnil
    rw [List.append_nil, halone] at hfault
    cases hfault

theorem settled_assemble (positive : Bool) (significand : ℕ) (power : ℤ) :
    Settled (assemble positive significand power) [] := by
  cases hshift : shiftPoint 5 (Binary64.ofNat significand) power with
  | some x =>
    refine .inl ⟨if positive then x else x.neg, fun rest _ => ?_⟩
    rw [List.nil_append, assemble, hshift]
  | none =>
    refine .inr fun rest _ => ⟨⟨.numberOutOfRange, rest, 0⟩, ?_⟩
    rw [List.nil_append, assemble, hshift]

theorem exponentDigits_of_digits {text : List Char} (h : ∀ c ∈ text, c.isDigit = true) (n : ℕ) :
    ∃ value left, (∀ c ∈ left, c.isDigit = true) ∧ (value ≠ none → left = []) ∧
      ∀ rest, Stops rest → exponentDigits n (text ++ rest) = (value, left ++ rest) := by
  induction text generalizing n with
  | nil =>
    refine ⟨some n, [], by simp, by simp, fun rest hrest => ?_⟩
    cases rest with
    | nil => rfl
    | cons c rest =>
      have hc := (hrest c rfl).1
      simp [exponentDigits, hc]
  | cons c text ih =>
    obtain ⟨hc, htext⟩ := List.forall_mem_cons.mp h
    by_cases hlarge : exponentMax < n * 10 + Decimal.digitValue c
    · refine ⟨none, text, htext, by simp, fun rest _ => ?_⟩
      simp [exponentDigits, hc, hlarge]
    · obtain ⟨value, left, hleft, hvalue, hread⟩ := ih htext (n * 10 + Decimal.digitValue c)
      refine ⟨value, left, hleft, hvalue, fun rest hrest => ?_⟩
      simp [exponentDigits, hc, hlarge, hread rest hrest]

/-- What an exponent makes of its digits. -/
def exponentOf (positive : Bool) (significand : ℕ) (power : ℤ) (negative : Bool)
    (found : Option ℕ × List Char) : Reading (Binary64 × List Char) :=
  found.1.elim
    (if significand != 0 && !negative then .error ⟨.numberOutOfRange, found.2, 0⟩
      else .ok (Binary64.zero (!positive), found.2.dropWhile Char.isDigit))
    fun value =>
      assemble positive significand (if negative then power - value else power + value) found.2

theorem exponent_signed (positive : Bool) (significand : ℕ) (power : ℤ) {sign : List Char}
    (hsign : sign = [] ∨ sign = ['+'] ∨ sign = ['-']) {c : Char} (hc : c.isDigit = true)
    (text : List Char) :
    exponent positive significand power (sign ++ c :: text) =
      exponentOf positive significand power (sign == ['-'])
        (exponentDigits (Decimal.digitValue c) text) := by
  rcases hsign with rfl | rfl | rfl
  · have hplus : c ≠ '+' := Char.ne_of_isDigit hc rfl
    have hminus : c ≠ '-' := Char.ne_of_isDigit hc rfl
    rcases hfound : exponentDigits (Decimal.digitValue c) text with ⟨_ | value, after⟩ <;>
      simp [exponent, exponentOf, hplus, hminus, hc, hfound]
  · simp only [exponent, List.singleton_append, hc, Bool.not_true, Bool.false_eq_true, if_false]
    rcases exponentDigits (Decimal.digitValue c) text with ⟨_ | value, after⟩ <;> rfl
  · simp only [exponent, List.singleton_append, hc, Bool.not_true, Bool.false_eq_true, if_false]
    rcases exponentDigits (Decimal.digitValue c) text with ⟨_ | value, after⟩ <;> rfl

theorem settled_exponent (positive : Bool) (significand : ℕ) (power : ℤ) {sign text : List Char}
    (hsign : sign = [] ∨ sign = ['+'] ∨ sign = ['-']) (h : Digits text) :
    Settled (exponent positive significand power) (sign ++ text) := by
  obtain ⟨c, more, rfl, hc, hmore⟩ := h.exists_cons
  obtain ⟨value, left, hleft, hvalue, hdigits⟩ :=
    exponentDigits_of_digits hmore (Decimal.digitValue c)
  have hread : ∀ rest, Stops rest →
      exponent positive significand power (sign ++ c :: more ++ rest) =
      exponentOf positive significand power (sign == ['-']) (value, left ++ rest) := by
    intro rest hrest
    rw [List.append_assoc, List.cons_append, exponent_signed _ _ _ hsign hc, hdigits rest hrest]
  cases value with
  | some value =>
    cases hvalue (by simp)
    exact (settled_assemble positive significand _).congr hread
  | none =>
    by_cases hrange : (significand != 0 && !(sign == ['-'])) = true
    · refine .inr fun rest hrest => ⟨⟨.numberOutOfRange, left ++ rest, 0⟩, ?_⟩
      rw [hread rest hrest, exponentOf, Option.elim_none, if_pos hrange]
    · refine .inl ⟨Binary64.zero (!positive), fun rest hrest => ?_⟩
      rw [hread rest hrest, exponentOf, Option.elim_none, if_neg hrange,
        (List.takeWhile_dropWhile_append hleft hrest.not_isDigit).2]

theorem settled_afterDigits (positive : Bool) (significand : ℕ) (power : ℤ) {text : List Char}
    (h : ExponentPart text) : Settled (afterDigits positive significand power) text := by
  cases h with
  | none =>
    refine (settled_assemble positive significand power).congr fun rest hrest => ?_
    cases rest with
    | nil => rfl
    | cons c rest =>
      obtain ⟨-, -, he, hE⟩ := hrest c rfl
      simp [afterDigits, he, hE]
  | digits hmark hsign h =>
    refine (settled_exponent positive significand power hsign h).congr fun rest _ => ?_
    rcases hmark with rfl | rfl <;> rfl

theorem settled_fraction (positive : Bool) (significand : ℕ) (power : ℤ)
    {digits exponent : List Char} (hdigits : Digits digits) (h : ExponentPart exponent) :
    Settled (fraction positive significand power) (digits ++ exponent) := by
  refine (settled_afterDigits positive (gather significand digits).1
    (power - (digits.length - (gather significand digits).2.length : ℕ)) h).congr
      fun rest hrest => ?_
  obtain ⟨htake, hdrop⟩ := List.takeWhile_dropWhile_append hdigits.2 (h.not_isDigit hrest)
  have hempty : digits.isEmpty = false := by simpa using hdigits.1
  rw [List.append_assoc, fraction]
  simp only [htake, hdrop, hempty, Bool.false_eq_true, if_false]

theorem settled_afterWhole (positive : Bool) (significand dropped : ℕ)
    {fraction exponent : List Char} (hfraction : FractionPart fraction)
    (hexponent : ExponentPart exponent) :
    Settled (afterWhole positive significand dropped) (fraction ++ exponent) := by
  cases hfraction with
  | none =>
    have hfloating : (∀ rest, Stops rest → (exponent ++ rest).head? ≠ some '.' ∧
        (dropped = 0 && !((exponent ++ rest).head? == some 'e' ||
          (exponent ++ rest).head? == some 'E')) = false) →
        Settled (afterWhole positive significand dropped) exponent := by
      intro hhead
      refine (settled_afterDigits positive significand dropped hexponent).map .floating
        fun rest hrest => ?_
      rw [afterWhole_of_head _ _ _ (hhead rest hrest).1, (hhead rest hrest).2]
      rfl
    cases hexponent with
    | none =>
      have hpoint : ∀ rest, Stops rest → rest.head? ≠ some '.' :=
        fun rest hrest hhead => (hrest '.' hhead).2.1 rfl
      by_cases hdropped : dropped = 0
      · rw [hdropped]
        exact .inl ⟨whole positive significand, fun rest => afterWhole_stop positive significand⟩
      · exact hfloating fun rest hrest => ⟨hpoint rest hrest, by simp [hdropped]⟩
    | digits hmark _ _ =>
      refine hfloating fun rest _ => ?_
      rcases hmark with rfl | rfl <;> simp
  | digits hdigits =>
    refine (settled_fraction positive significand dropped hdigits hexponent).map .floating
      fun rest hrest => ?_
    rw [List.cons_append, List.cons_append, afterWhole]
    cases Json.fraction positive significand dropped (_ ++ exponent ++ rest) <;> rfl

theorem settled_number (positive : Bool) {text : List Char} (h : Magnitude text) :
    Settled (number positive) text := by
  cases h with
  | @mk whole fraction exponent hwhole hfraction hexponent =>
    cases hwhole with
    | zero =>
      refine (settled_afterWhole positive 0 0 hfraction hexponent).congr fun rest hrest => ?_
      have hany := (Option.any_eq_false _ _).mpr
        (not_isDigit_of_parts hfraction hexponent hrest)
      simp only [List.cons_append, List.nil_append, List.append_assoc, number, if_true, hany,
        Bool.false_eq_true, if_false]
    | digits hdigits hzero =>
      refine (settled_afterWhole positive (gather 0 whole).1 (gather 0 whole).2.length hfraction
        hexponent).congr fun rest hrest => ?_
      obtain ⟨htake, hdrop⟩ := List.takeWhile_dropWhile_append hdigits.2
        (not_isDigit_of_parts hfraction hexponent hrest)
      obtain ⟨c, more, rfl, hc, -⟩ := hdigits.exists_cons
      have hne : c ≠ '0' := by
        rintro rfl
        exact hzero rfl
      rw [List.cons_append] at htake hdrop
      simp only [List.cons_append, List.append_assoc, number, hne, if_false, hc, if_true, htake,
        hdrop]

end Numbers

/-! ## The values of settings -/

/-- Strings, written in any way. -/
def Names (s : String) (key : List Char) : Prop := Spelled s.toList key

/-- Strings with their quotation marks. -/
inductive Quoted (s : String) : List Char → Prop
  | mk {key : List Char} (h : Names s key) : Quoted s ('"' :: (key ++ ['"']))

/-- Whole numbers of a machine word. -/
def WordText (n : ℕ) (text : List Char) : Prop := n ≤ wordMax ∧ text = Nat.toDigits 10 n

/-- Whole numbers of a machine word, with the sign before them. -/
inductive WholeText : Bool → ℕ → List Char → Prop
  | positive {n : ℕ} {text : List Char} (h : WordText n text) : WholeText false n text
  | negative {n : ℕ} {text : List Char} (h : WordText n text) : WholeText true n ('-' :: text)

/-- Numbers that are in the range of binary numbers. A whole number of a machine word is the binary
number nearest to it; any other number is what the reader says when the number stands alone. -/
inductive BinaryText : Binary64 → List Char → Prop
  | whole {negative : Bool} {n : ℕ} {text : List Char} (h : WholeText negative n text) :
    BinaryText (.nearest negative n 1 0) text
  | other {x : Binary64} {text : List Char} (hnumeral : Numeral text)
    (hother : ∀ negative n, ¬ WholeText negative n text) (halone : readBinary text = .ok (x, [])) :
    BinaryText x text

/-- One of two names, as a string or as the only key of an object. -/
def ChoiceText {α : Type} (c : Choice α) (a : α) (text : List Char) : Prop :=
  ∃ name, ((name, a) = c.first ∨ name ≠ c.first.1 ∧ (name, a) = c.second) ∧
    (Quoted name text ∨ ObjectOf Names [(name, "null".toList)] text)

/-- A text is read as a value wherever a value may stand. -/
structure Reads {α : Type} (reader : List Char → Reading (α × List Char)) (text : List Char)
    (a : α) : Prop where
  starts : ∃ c more, text = c :: more ∧ (Lead.of? c).isSome = true
  read : ∀ blanks rest, Blanks blanks → Stops rest →
    reader (blanks ++ (text ++ rest)) = .ok (a, rest)

theorem quoted_writeString (s : String) : Quoted s (writeString s) :=
  @Quoted.mk s _ (spelled_flatMap s.toList)

theorem member_writeString (name : String) (value : List Char) :
    Member Names (name, value) (writeString name ++ ':' :: value) := by
  have h : Member Names (name, value)
      ('"' :: (name.toList.flatMap writeChar ++ '"' :: ':' :: value)) :=
    member_self (spelled_flatMap name.toList)
  simpa [writeString] using h

theorem Quoted.reads {s : String} {text : List Char} (h : Quoted s text) (expected : String) :
    Reads (readString expected) text s := by
  cases h with
  | mk h =>
    refine ⟨⟨'"', _, rfl, rfl⟩, fun blanks rest hblanks _ => ?_⟩
    rw [List.cons_append, List.append_assoc, List.singleton_append, readString,
      skipBlanks_cons hblanks rfl]
    exact string_of_spelled h rest

theorem settled_readNumber (expected : String) {text : List Char} (h : Numeral text) :
    Settled (readNumber expected) text := by
  cases h with
  | positive h =>
    refine (settled_number true h).congr fun rest _ => ?_
    obtain ⟨c, more, rfl, hc⟩ := h.starts
    exact readNumber_of_isDigit hc expected _
  | negative h => exact (settled_number false h).congr fun rest _ => rfl

theorem toBinary_whole (positive : Bool) (n : ℕ) :
    (whole positive n).toBinary = .nearest (!positive) n 1 0 := by
  unfold whole
  split_ifs with hpositive hrange
  · rw [hpositive]
    rfl
  · rw [Bool.eq_false_iff.mpr hpositive]
    rfl
  · rw [Bool.eq_false_iff.mpr hpositive, Number.toBinary, Int.natAbs_neg, Int.natAbs_natCast]
    rfl

theorem WordText.magnitude {n : ℕ} {text : List Char} (h : WordText n text) : Magnitude text := by
  obtain ⟨-, rfl⟩ := h
  have hwhole : WholePart (Nat.toDigits 10 n) := by
    rcases Nat.eq_zero_or_pos n with rfl | hpos
    · exact .zero
    · exact .digits ⟨Nat.toDigits_ne_nil, Nat.toDigits_isDigit n⟩ (Nat.head?_toDigits hpos)
  simpa using Magnitude.mk hwhole .none .none

theorem WholeText.numeral {negative : Bool} {n : ℕ} {text : List Char}
    (h : WholeText negative n text) : Numeral text := by
  cases h with
  | positive h => exact .positive h.magnitude
  | negative h => exact .negative h.magnitude

theorem WholeText.readNumber_eq {negative : Bool} {n : ℕ} {text : List Char}
    (h : WholeText negative n text) (expected : String) {rest : List Char} (hrest : Stops rest) :
    readNumber expected (text ++ rest) = .ok (whole (!negative) n, rest) := by
  cases h with
  | positive h =>
    obtain ⟨c, more, hdigits, hc⟩ := h.magnitude.starts
    obtain ⟨hn, rfl⟩ := h
    rw [hdigits, List.cons_append, readNumber_of_isDigit hc, ← List.cons_append, ← hdigits]
    exact number_writeNat hn hrest
  | negative h =>
    obtain ⟨hn, rfl⟩ := h
    exact number_writeNat hn hrest

theorem WordText.reads {n : ℕ} {text : List Char} (h : WordText n text) (expected : String) :
    Reads (readWord expected) text n := by
  have hwhole : WholeText false n text := .positive h
  refine ⟨(Value.number hwhole.numeral).starts, fun blanks rest hblanks hrest => ?_⟩
  rw [readWord, readNumber_blanks hblanks, hwhole.readNumber_eq expected hrest]
  rfl

/-- The reader agrees with the value of whole numbers, so no number is left out. -/
theorem binaryText_iff {x : Binary64} {text : List Char} :
    BinaryText x text ↔ Numeral text ∧ readBinary text = .ok (x, []) := by
  have hwhole : ∀ {negative n}, WholeText negative n text →
      readBinary text = .ok (.nearest negative n 1 0, []) := by
    intro negative n h
    have hread : readNumber "f64" (text ++ []) = _ := h.readNumber_eq "f64" nofun
    rw [List.append_nil] at hread
    have hvalue := toBinary_whole (!negative) n
    rw [Bool.not_not] at hvalue
    rw [readBinary, hread, ← hvalue]
    rfl
  constructor
  · intro h
    cases h with
    | whole h => exact ⟨h.numeral, hwhole h⟩
    | other hnumeral _ halone => exact ⟨hnumeral, halone⟩
  · rintro ⟨hnumeral, halone⟩
    by_cases h : ∃ negative n, WholeText negative n text
    · obtain ⟨negative, n, h⟩ := h
      cases halone.symm.trans (hwhole h)
      exact .whole h
    · exact .other hnumeral (fun negative n hn => h ⟨negative, n, hn⟩) halone

theorem BinaryText.reads {x : Binary64} {text : List Char} (h : BinaryText x text) :
    Reads readBinary text x := by
  obtain ⟨hnumeral, halone⟩ := binaryText_iff.mp h
  have hsettled : Settled readBinary text := by
    refine (settled_readNumber "f64" hnumeral).map Number.toBinary fun rest _ => ?_
    rw [readBinary]
    cases readNumber "f64" (text ++ rest) <;> rfl
  refine ⟨(Value.number hnumeral).starts, fun blanks rest hblanks hrest => ?_⟩
  rw [readBinary, readNumber_blanks hblanks]
  exact hsettled.read halone hrest

theorem colon_blanks {blanks : List Char} (h : Blanks blanks) (text : List Char) :
    colon (blanks ++ ':' :: text) = .ok text := by
  rw [colon, skipBlanks_cons h rfl]
  rfl

theorem readNull_blanks {blanks : List Char} (h : Blanks blanks) (text : List Char) :
    readNull (blanks ++ ("null".toList ++ text)) = .ok ((), text) := by
  show readNull (blanks ++ 'n' :: 'u' :: 'l' :: 'l' :: text) = _
  rw [readNull, skipBlanks_cons h rfl]
  rfl

theorem ChoiceText.reads {α : Type} {c : Choice α} {a : α} {text : List Char}
    (h : ChoiceText c a text) : Reads c.read text a := by
  obtain ⟨name, hname, hquoted | hobject⟩ := h
  · cases hquoted with
    | mk hkey =>
      refine ⟨⟨'"', _, rfl, rfl⟩, fun blanks rest hblanks _ => ?_⟩
      rw [List.cons_append, List.append_assoc, List.singleton_append, Choice.read,
        skipBlanks_cons hblanks rfl]
      exact Choice.name_spelled hname hkey rest
  · cases hobject with
    | row hrow =>
      cases hrow with
      | cons _ hmore => cases hmore
      | last hmember =>
        cases hmember with
        | @mk before key after value hbefore hkey hafter hvalue =>
          cases hvalue with
          | @mk before' after' hbefore' hafter' =>
            refine ⟨⟨'\x7b', _, rfl, rfl⟩, fun blanks rest hblanks _ => ?_⟩
            simp only [List.cons_append, List.append_assoc, List.nil_append, Choice.read,
              skipBlanks_cons hblanks (c := '\x7b') rfl, soleKey,
              skipBlanks_cons hbefore (c := '"') rfl, bind, Except.bind,
              Choice.name_spelled hname hkey, colon_blanks hafter, readNull_blanks hbefore',
              skipBlanks_cons hafter' (c := '\x7d') rfl]
            rfl

/-! ## Records -/

section Records

variable {σ : Type} {fields : List (Field σ)} {step : String → σ → σ}

/-- What the name of a member does to a record is what reading the member does. -/
structure Obeys (fields : List (Field σ)) (step : String → σ → σ) (m : String × List Char) :
    Prop where
  known : ∀ field ∈ fields, field.name = m.1 → ∀ record,
    Reads (field.read record) m.2 (step m.1 record)
  others : m.1 ∉ fields.map Field.name → Value m.2 ∧ ∀ record, step m.1 record = record

theorem nextKey_blanks {blanks : List Char} (h : Blanks blanks) (first : Bool) (text : List Char) :
    nextKey first (blanks ++ text) = nextKey first text := by
  rw [nextKey, nextKey, skipBlanks_blanks h]

theorem readMembers_blanks {blanks : List Char} (h : Blanks blanks) {bound : List Char}
    (hbound : bound ≠ []) (seen : List String) (record : σ) (first : Bool) (text : List Char) :
    readMembers fields bound seen record first (blanks ++ text) =
      readMembers fields bound seen record first text := by
  obtain ⟨b, bound, rfl⟩ := List.exists_cons_of_ne_nil hbound
  rw [readMembers, readMembers, nextKey_blanks h, skipBlanks_blanks h]

/-- The fields that were given, when a member was read. -/
def seenWith (fields : List (Field σ)) (seen : List String) (name : String) : List String :=
  if name ∈ fields.map Field.name then name :: seen else seen

/-- The step: one member is read, or passed over if it is no field. -/
theorem readMembers_part {m : String × List Char} {text : List Char} (h : Member Names m text)
    (hobeys : Obeys fields step m) (b : Char) (bound : List Char) {seen : List String}
    (hseen : m.1 ∈ fields.map Field.name → m.1 ∉ seen) (record : σ) (first : Bool) :
    ∃ after, Blanks after ∧ ∀ rest, Stops rest →
      readMembers fields (b :: bound) seen record first (separator first ++ (text ++ rest)) =
        readMembers fields bound (seenWith fields seen m.1) (step m.1 record) false
          (after ++ rest) := by
  cases h with
  | @mk before key after value hbefore hkey hafter hvalue =>
    cases hvalue with
    | @mk before' after' hbefore' hafter' =>
      refine ⟨after', hafter', fun rest hrest => ?_⟩
      have hstops := stops_blanks hafter' hrest
      have hstring := string_of_spelled hkey
        (after ++ ':' :: (before' ++ (m.2 ++ (after' ++ rest))))
      simp only [List.append_assoc, List.cons_append]
      rw [readMembers, nextKey_member first hbefore]
      simp only [bind, Except.bind, hstring]
      cases hfind : fields.find? (·.name == m.1) with
      | none =>
        have hother : m.1 ∉ fields.map Field.name := by
          intro hmem
          obtain ⟨field, hfield, hname⟩ := List.mem_map.mp hmem
          exact absurd hname (by simpa using List.find?_eq_none.mp hfind field hfield)
        obtain ⟨hvalue, hstep⟩ := hobeys.others hother
        simp only [colon_blanks hafter, skipValue_of_value hvalue hbefore' hstops]
        rw [hstep, seenWith, if_neg hother]
      | some field =>
        have hmem := List.mem_of_find?_eq_some hfind
        have hname : field.name = m.1 := by simpa using List.find?_some hfind
        have hknown : m.1 ∈ fields.map Field.name := List.mem_map.mpr ⟨field, hmem, hname⟩
        have hread := (hobeys.known field hmem hname record).read before' _ hbefore' hstops
        simp only [List.contains_eq_mem, decide_eq_true_eq, hseen hknown, if_false,
          colon_blanks hafter, hread]
        rw [seenWith, if_pos hknown]

theorem count_seenWith_le (seen : List String) (name n : String) (names : List String) :
    (seenWith fields seen name ++ names).count n ≤ (seen ++ name :: names).count n := by
  unfold seenWith
  split_ifs
  · simp only [List.cons_append, List.count_cons, List.count_append]
    omega
  · simp only [List.count_cons, List.count_append]
    omega

/-- The run over a row of members. -/
theorem readMembers_row {members : List (String × List Char)} {text : List Char}
    (h : Row (Member Names) members text) (hobeys : ∀ m ∈ members, Obeys fields step m)
    (bound : List Char) (hbound : members.length < bound.length) (seen : List String)
    (hseen : ∀ n ∈ fields.map Field.name, (seen ++ members.map Prod.fst).count n ≤ 1)
    (record : σ) (first : Bool) (rest : List Char) :
    readMembers fields bound seen record first (separator first ++ (text ++ '\x7d' :: rest)) =
      .ok (members.foldl (fun record m => step m.1 record) record, rest) := by
  induction h generalizing bound seen record first with
  | @last m text hm =>
    obtain ⟨b, bound, rfl⟩ := List.exists_cons_of_length_pos (Nat.zero_lt_of_lt hbound)
    obtain ⟨b', bound, rfl⟩ := List.exists_cons_of_length_pos (Nat.lt_of_succ_lt_succ hbound)
    obtain ⟨after, hafter, hstep⟩ := readMembers_part hm (hobeys m (by simp)) b (b' :: bound)
      (fun hmem => List.not_mem_of_count_le_one (hseen _ hmem)) record first
    rw [hstep _ (stops_cons (by decide) rest)]
    exact readMembers_end _ _ _ _ _ _ hafter rest
  | @cons m members text more hm _ ih =>
    obtain ⟨b, bound, rfl⟩ := List.exists_cons_of_length_pos (Nat.zero_lt_of_lt hbound)
    have hlength : members.length < bound.length := Nat.lt_of_succ_lt_succ hbound
    obtain ⟨after, hafter, hstep⟩ := readMembers_part hm (hobeys m (by simp)) b bound
      (fun hmem => List.not_mem_of_count_le_one (hseen _ hmem)) record first
    have hmore := ih (fun m hm => hobeys m (List.mem_cons_of_mem _ hm)) bound hlength
      (seenWith fields seen m.1) (fun n hn => (count_seenWith_le _ _ _ _).trans (hseen n hn))
      (step m.1 record) false
    rw [List.append_assoc, List.cons_append, hstep _ (stops_cons (by decide) _),
      readMembers_blanks hafter (List.ne_nil_of_length_pos (Nat.zero_lt_of_lt hlength))]
    exact hmore

theorem Row.length_le {α : Type} {Part : α → List Char → Prop} {as : List α} {text : List Char}
    (h : Row Part as text) (hpart : ∀ a part, Part a part → part ≠ []) :
    as.length ≤ text.length := by
  induction h with
  | last ha => exact List.length_pos_of_ne_nil (hpart _ _ ha)
  | cons ha _ ih =>
    rw [List.length_cons, List.length_append, List.length_cons]
    omega

theorem readElements_blanks {blanks : List Char} (h : Blanks blanks) (record : σ) (first : Bool)
    (text : List Char) :
    readElements fields record first (blanks ++ text) = readElements fields record first text := by
  have hend : endOfList (blanks ++ text) = endOfList text := by
    rw [endOfList, endOfList, skipBlanks_blanks h]
  have hnext : nextElement first (blanks ++ text) = nextElement first text := by
    rw [nextElement, nextElement, skipBlanks_blanks h]
  cases fields with
  | nil => rw [readElements, readElements, hend]
  | cons field fields => rw [readElements, readElements, hnext, hend]

theorem nextElement_element (first : Bool) {blanks : List Char} (h : Blanks blanks) {c : Char}
    (hc : (Lead.of? c).isSome = true) (text : List Char) :
    nextElement first (separator first ++ (blanks ++ c :: text)) = .ok (some (c :: text)) := by
  have hskip := skipBlanks_cons h (not_isBlank_of_lead hc) text
  have hclose : c ≠ ']' := by
    rintro rfl
    cases hc
  cases first
  · show nextElement false (',' :: (blanks ++ c :: text)) = _
    rw [nextElement, skipBlanks_of_not_isBlank rfl]
    simp [hskip, hclose]
  · show nextElement true (blanks ++ c :: text) = _
    rw [nextElement, hskip]
    simp [hclose]

theorem readElements_end (record : σ) {blanks : List Char} (h : Blanks blanks)
    (rest : List Char) (first : Bool) :
    readElements fields record first (blanks ++ ']' :: rest) = .ok (record, rest) := by
  have hend : endOfList (blanks ++ ']' :: rest) = .ok rest := by
    rw [endOfList, skipBlanks_cons h rfl]
    rfl
  cases fields with
  | nil =>
    rw [readElements, hend]
    rfl
  | cons field fields =>
    rw [readElements, nextElement, skipBlanks_cons h rfl]
    simp only [bind, Except.bind, hend]
    rfl

/-- The run over a row of elements, which belong to the fields in their order. -/
theorem readElements_row {values : List (List Char)} {text : List Char} (h : Row Padded values text)
    (hlength : values.length ≤ fields.length)
    (hreads : ∀ p ∈ fields.zip values, ∀ record,
      Reads (p.1.read record) p.2 (step p.1.name record))
    (record : σ) (first : Bool) (rest : List Char) :
    readElements fields record first (separator first ++ (text ++ ']' :: rest)) =
      .ok ((fields.zip values).foldl (fun record p => step p.1.name record) record, rest) := by
  induction h generalizing fields record first with
  | @last value text hvalue =>
    obtain ⟨field, fields, rfl⟩ := List.exists_cons_of_length_pos hlength
    obtain ⟨⟨c, more, rfl, hc⟩, hread⟩ := hreads (field, value) (by simp) record
    cases hvalue with
    | @mk before after hbefore hafter =>
      have hstep := hread [] (after ++ ']' :: rest) nofun
        (stops_blanks hafter (stops_cons (by decide) rest))
      rw [List.nil_append] at hstep
      simp only [List.append_assoc, List.cons_append] at hstep ⊢
      rw [readElements, nextElement_element first hbefore hc]
      simp only [bind, Except.bind, hstep]
      rw [readElements_end _ hafter, List.zip_cons_cons, List.zip_nil_right]
      rfl
  | @cons value values text more hvalue _ ih =>
    obtain ⟨field, fields, rfl⟩ := List.exists_cons_of_length_pos (Nat.zero_lt_of_lt hlength)
    obtain ⟨⟨c, tail, rfl, hc⟩, hread⟩ := hreads (field, value) (by simp) record
    cases hvalue with
    | @mk before after hbefore hafter =>
      have hstep := hread [] (after ++ ',' :: (more ++ ']' :: rest)) nofun
        (stops_blanks hafter (stops_cons (by decide) _))
      have hmore := ih (Nat.le_of_succ_le_succ hlength)
        (fun p hp => hreads p (List.mem_cons_of_mem _ hp)) (step field.name record) false
      rw [List.nil_append] at hstep
      simp only [List.append_assoc, List.cons_append] at hstep ⊢
      rw [readElements, nextElement_element first hbefore hc]
      simp only [bind, Except.bind, hstep]
      rw [readElements_blanks hafter]
      exact hmore

/-- The two forms of a record, with the names of its fields: an object with members, or a list of
the values of the first fields, which stands for the object that names them. -/
inductive Layout (names : List String) (members : List (String × List Char)) : List Char → Prop
  | object {text : List Char} (h : ObjectOf Names members text) : Layout names members text
  | list {values : List (List Char)} {text : List Char} (hmembers : members = names.zip values)
    (hlength : values.length ≤ names.length) (h : ListOf values text) : Layout names members text

theorem reads_object {members : List (String × List Char)} {text : List Char}
    (h : ObjectOf Names members text) (hobeys : ∀ m ∈ members, Obeys fields step m)
    (hcount : ∀ n ∈ fields.map Field.name, (members.map Prod.fst).count n ≤ 1)
    (expected : String) (default : σ) :
    Reads (readRecord expected fields default) text
      (members.foldl (fun record m => step m.1 record) default) := by
  cases h with
  | @empty blanks hblanks =>
    refine ⟨⟨'\x7b', _, rfl, rfl⟩, fun before rest hbefore _ => ?_⟩
    obtain ⟨b, bound, hbound⟩ := List.exists_cons_of_ne_nil
      (List.append_ne_nil_of_right_ne_nil blanks (List.cons_ne_nil '\x7d' rest))
    rw [List.cons_append, List.append_assoc, List.singleton_append, readRecord,
      skipBlanks_cons hbefore rfl]
    show readMembers fields (blanks ++ '\x7d' :: rest) [] default true _ = _
    nth_rewrite 1 [hbound]
    exact readMembers_end _ _ _ _ _ _ hblanks rest
  | @row _ text h =>
    refine ⟨⟨'\x7b', _, rfl, rfl⟩, fun before rest hbefore _ => ?_⟩
    have hlength : members.length ≤ text.length :=
      h.length_le fun m part hpart => by cases hpart; simp
    rw [List.cons_append, List.append_assoc, List.singleton_append, readRecord,
      skipBlanks_cons hbefore rfl]
    refine readMembers_row h hobeys _ ?_ [] hcount default true rest
    rw [List.length_append, List.length_cons]
    omega

theorem reads_list {values : List (List Char)} {text : List Char} (h : ListOf values text)
    (hlength : values.length ≤ fields.length)
    (hreads : ∀ p ∈ fields.zip values, ∀ record,
      Reads (p.1.read record) p.2 (step p.1.name record))
    (expected : String) (default : σ) :
    Reads (readRecord expected fields default) text
      ((fields.zip values).foldl (fun record p => step p.1.name record) default) := by
  cases h with
  | empty hblanks =>
    refine ⟨⟨'[', _, rfl, rfl⟩, fun before rest hbefore _ => ?_⟩
    rw [List.cons_append, List.append_assoc, List.singleton_append, readRecord,
      skipBlanks_cons hbefore rfl, List.zip_nil_right]
    exact readElements_end _ hblanks rest true
  | row h =>
    refine ⟨⟨'[', _, rfl, rfl⟩, fun before rest hbefore _ => ?_⟩
    rw [List.cons_append, List.append_assoc, List.singleton_append, readRecord,
      skipBlanks_cons hbefore rfl]
    exact readElements_row h hlength hreads default true rest

/-- Members give a field at most once, and the value that they give it is what `step` puts into the
record. -/
structure Field.IsGiven (step : String → σ → σ) (members : List (String × List Char))
    (field : Field σ) : Prop where
  once : (members.map Prod.fst).count field.name ≤ 1
  reads : ∀ m ∈ members, m.1 = field.name → ∀ record,
    Reads (field.read record) m.2 (step field.name record)

/-- A record is read from its members, whatever their order and whatever stands among them. -/
theorem Layout.reads {members : List (String × List Char)} {text : List Char}
    (h : Layout (fields.map Field.name) members text)
    (hfields : ∀ field ∈ fields, field.IsGiven step members)
    (hothers : ∀ m ∈ members, m.1 ∉ fields.map Field.name → Value m.2)
    (hstep : ∀ name ∉ fields.map Field.name, ∀ record, step name record = record)
    (expected : String) (default : σ) :
    Reads (readRecord expected fields default) text
      (members.foldl (fun record m => step m.1 record) default) := by
  have hobeys : ∀ m ∈ members, Obeys fields step m := by
    refine fun m hm => ⟨fun field hfield hname => ?_, fun hother => ?_⟩
    · rw [← hname]
      exact (hfields field hfield).reads m hm hname.symm
    · exact ⟨hothers m hm hother, hstep m.1 hother⟩
  have hcount : ∀ n ∈ fields.map Field.name, (members.map Prod.fst).count n ≤ 1 :=
    List.forall_mem_map.mpr fun field hfield => (hfields field hfield).once
  cases h with
  | object h => exact reads_object h hobeys hcount expected default
  | @list values text hmembers hlength h =>
    subst hmembers
    have hreads : ∀ p ∈ fields.zip values, ∀ record,
        Reads (p.1.read record) p.2 (step p.1.name record) := by
      intro p hp record
      have hm : (p.1.name, p.2) ∈ (fields.map Field.name).zip values := by
        rw [List.zip_map_left]
        exact List.mem_map.mpr ⟨p, hp, rfl⟩
      exact (hobeys _ hm).known p.1 (List.of_mem_zip hp).1 rfl record
    rw [List.length_map] at hlength
    rw [List.zip_map_left, List.foldl_map]
    exact reads_list h hlength hreads expected default

end Records

/-! ## Settings by their names -/

/-- The members of a name give a value: one member if there is a value, no member if there is
none. -/
def Named {α : Type} (name : String) (Text : α → List Char → Prop) (value : Option α)
    (members : List (String × List Char)) : Prop :=
  List.Forall₂ Text value.toList ((members.filter (·.1 == name)).map Prod.snd)

section Named

variable {σ α : Type} {name : String} {Text : α → List Char → Prop} {value : Option α}
  {members : List (String × List Char)}

theorem Named.of_mem (h : Named name Text value members) {m : String × List Char}
    (hm : m ∈ members) (hname : m.1 = name) : ∃ a, value = some a ∧ Text a m.2 := by
  have htext : m.2 ∈ (members.filter (·.1 == name)).map Prod.snd :=
    List.mem_map.mpr ⟨m, List.mem_filter.mpr ⟨hm, by simp [hname]⟩, rfl⟩
  cases value with
  | none =>
    rw [List.forall₂_nil_left_iff.mp h] at htext
    cases htext
  | some a =>
    obtain ⟨text, texts, hfirst, hrest, heq⟩ := List.forall₂_cons_left_iff.mp h
    rw [List.forall₂_nil_left_iff.mp hrest] at heq
    rw [heq, List.mem_singleton] at htext
    exact ⟨a, rfl, htext ▸ hfirst⟩

theorem Named.count_le (h : Named name Text value members) :
    (members.map Prod.fst).count name ≤ 1 := by
  have hlength := h.length_eq
  rw [List.length_map, ← List.countP_eq_length_filter] at hlength
  rw [List.count, List.countP_map]
  refine le_trans (le_of_eq hlength.symm) ?_
  cases value <;> simp

theorem Named.eq_none (h : Named name Text value members)
    (hnone : name ∉ members.map Prod.fst) : value = none := by
  have hempty : members.filter (·.1 == name) = [] := by
    refine List.filter_eq_nil_iff.mpr fun m hm hname => hnone ?_
    exact List.mem_map.mpr ⟨m, hm, by simpa using hname⟩
  rw [Named, hempty, List.map_nil, List.forall₂_nil_right_iff] at h
  cases value with
  | none => rfl
  | some a => cases h

theorem Named.map {β : Type} {Text' : β → List Char → Prop} (h : Named name Text value members)
    (f : α → β) (hf : ∀ a text, Text a text → Text' (f a) text) :
    Named name Text' (value.map f) members := by
  have hlist : (value.map f).toList = value.toList.map f := by cases value <;> rfl
  rw [Named, hlist, List.forall₂_map_left_iff]
  exact List.Forall₂.imp hf h

theorem Reads.field {reader : List Char → Reading (α × List Char)} {text : List Char} {a : α}
    (h : Reads reader text a) (name : String) (put : σ → α → σ) (record : σ) :
    Reads ((Field.of name reader put).read record) text (put record a) := by
  refine ⟨h.starts, fun blanks rest hblanks hrest => ?_⟩
  simp only [Field.of, h.read blanks rest hblanks hrest]
  rfl

/-- A field is given by the members of its name, if these are texts that its reader reads. -/
theorem Named.isGiven (h : Named name Text value members)
    {reader : List Char → Reading (α × List Char)} {put : σ → α → σ} {step : String → σ → σ}
    (hreads : ∀ a text, Text a text → Reads reader text a)
    (hstep : ∀ a record, value = some a → step name record = put record a) :
    (Field.of name reader put).IsGiven step members := by
  refine ⟨h.count_le, fun m hm hname record => ?_⟩
  obtain ⟨a, ha, htext⟩ := h.of_mem hm hname
  show Reads _ m.2 (step name record)
  rw [hstep a record ha]
  exact (hreads a m.2 htext).field name put record

/-- A setting has its value in the end if a member gave it one, whatever the order. -/
theorem Named.foldl_view (h : Named name Text value members) (view : σ → α)
    (step : String → σ → σ)
    (hstep : ∀ n record, view (step n record) =
      if n = name then value.getD (view record) else view record) (record : σ) :
    view (members.foldl (fun record m => step m.1 record) record) = value.getD (view record) := by
  have hnone := h.eq_none
  clear h
  cases value with
  | none =>
    clear hnone
    induction members generalizing record with
    | nil => rfl
    | cons m members ih =>
      rw [List.foldl_cons, ih, hstep]
      simp
  | some a =>
    have hgiven : name ∈ members.map Prod.fst ∨ view record = a := by
      by_contra hcontra
      rw [not_or] at hcontra
      cases hnone hcontra.1
    clear hnone
    induction members generalizing record with
    | nil =>
      rcases hgiven with hmem | hview
      · cases hmem
      · exact hview
    | cons m members ih =>
      refine ih _ ?_
      rw [hstep]
      by_cases hname : m.1 = name
      · exact .inr (if_pos hname)
      · rw [if_neg hname]
        rcases hgiven with hmem | hview
        · exact .inl ((List.mem_cons.mp hmem).resolve_left (Ne.symm hname))
        · exact .inr hview

end Named

end Tether.Json
