import Tether.Proofs.Grammar

/-!
# Documents that were written are read

Each part of a document is read from its own text and leaves what follows it: a string, with the
escapes its characters were given, a whole number, a number, and from these a record whose members
were written one by one. A member is `Written` if one of the fields reads its text, and what an
object of such members does to a record is what its members do one after another.
-/

namespace Tether.Json

/-! ## Strings -/

theorem isHex_hexDigitOf (n : ℕ) : IsHex (hexDigitOf n) (n % 16) := by
  have hall : ∀ d, d < 16 → (Nat.toDigits 16 d).headD '0' = Nat.digitChar d := by decide
  have hlt : n % 16 < 16 := Nat.mod_lt n (by decide)
  exact ⟨hlt, .inl (hall _ hlt)⟩

/-- A control character is given by its code. -/
theorem hexCode_control {n : ℕ} (hn : n < 32) :
    HexCode n ['0', '0', hexDigitOf (n / 16), hexDigitOf n] := by
  have hzero : IsHex '0' 0 := ⟨by decide, .inl rfl⟩
  have hcode := HexCode.mk hzero hzero (isHex_hexDigitOf (n / 16)) (isHex_hexDigitOf n)
  have hvalue : ((0 * 16 + 0) * 16 + n / 16 % 16) * 16 + n % 16 = n := by omega
  rwa [hvalue] at hcode

theorem spelling_writeChar (c : Char) : Spelling c (writeChar c) := by
  unfold writeChar
  split
  all_goals try exact .short (by decide)
  rename_i hquote hbackslash _ _ _ _ _
  split
  · rename_i hcontrol
    exact .code (hexCode_control hcontrol)
  · rename_i hplain
    exact .plain ⟨not_lt.mp hplain, hquote, hbackslash⟩

theorem spelled_flatMap (cs : List Char) : Spelled cs (cs.flatMap writeChar) := by
  induction cs with
  | nil => exact .nil
  | cons c cs ih => exact .cons (spelling_writeChar c) ih

/-- A string is read from what follows its opening quotation mark. -/
theorem string_flatMap (s : String) (text : List Char) :
    string (s.toList.flatMap writeChar ++ '"' :: text) = .ok (s, text) :=
  string_of_spelled (spelled_flatMap s.toList) text

/-! ## Values behind a blank -/

theorem skipBlanks_space (text : List Char) : skipBlanks (' ' :: text) = skipBlanks text := rfl

theorem readString_writeString (expected s : String) (text : List Char) :
    readString expected (writeString s ++ text) = .ok (s, text) := by
  have hs := string_flatMap s text
  show string (s.toList.flatMap writeChar ++ ['"'] ++ text) = _
  rwa [List.append_assoc]

theorem isDigit_of_number {text after : List Char} {n : Number}
    (h : number true text = .ok (n, after)) : ∃ c rest, text = c :: rest ∧ c.isDigit = true := by
  cases text with
  | nil => cases h
  | cons c rest =>
    refine ⟨c, rest, rfl, ?_⟩
    by_cases hc : c.isDigit = true
    · exact hc
    · have hzero : c ≠ '0' := by
        rintro rfl
        exact hc rfl
      rw [number, if_neg hzero, if_neg hc] at h
      cases h

theorem readNumber_blanks {blanks : List Char} (h : Blanks blanks) (expected : String)
    (text : List Char) : readNumber expected (blanks ++ text) = readNumber expected text := by
  rw [readNumber, readNumber, skipBlanks_blanks h]

theorem readNumber_of_isDigit {c : Char} (hc : c.isDigit = true) (expected : String)
    (text : List Char) : readNumber expected (c :: text) = number true (c :: text) := by
  have hblank : isBlank c = false := not_isBlank_of_lead (by rw [lead_of_isDigit hc]; rfl)
  have hminus : c ≠ '-' := Char.ne_of_isDigit hc rfl
  simp [readNumber, skipBlanks_of_not_isBlank hblank, hminus, hc]

theorem readNumber_of_number (expected : String) {text after : List Char} {n : Number}
    (h : number true text = .ok (n, after)) :
    readNumber expected (' ' :: text) = .ok (n, after) := by
  obtain ⟨c, rest, rfl, hc⟩ := isDigit_of_number h
  have hblanks : Blanks [' '] := by decide
  rw [← List.singleton_append, readNumber_blanks hblanks, readNumber_of_isDigit hc]
  exact h

theorem readWord_writeNat (expected : String) {n : ℕ} (hn : n ≤ wordMax) {text : List Char}
    (htext : Stops text) : readWord expected (' ' :: (writeNat n ++ text)) = .ok (n, text) := by
  rw [readWord, readNumber_of_number expected (number_writeNat hn htext)]
  rfl

theorem readBinary_of_number {text after : List Char} {x : Binary64}
    (h : number true text = .ok (.floating x, after)) :
    readBinary (' ' :: text) = .ok (x, after) := by
  rw [readBinary, readNumber_of_number "f64" h]
  rfl

theorem Choice.name_spelled {α : Type} {c : Choice α} {name : String} {a : α}
    (h : (name, a) = c.first ∨ name ≠ c.first.1 ∧ (name, a) = c.second) {key : List Char}
    (hkey : Spelled name.toList key) (text : List Char) :
    c.name ('"' :: (key ++ '"' :: text)) = .ok (a, text) := by
  have hstring : readString "variant identifier" ('"' :: (key ++ '"' :: text)) =
      .ok (name, text) := string_of_spelled hkey text
  rw [Choice.name, hstring]
  simp only [bind, Except.bind]
  rcases h with h | ⟨hne, h⟩
  · rw [← h, if_pos rfl]
    rfl
  · rw [if_neg hne, ← h, if_pos rfl]
    rfl

/-- A choice is read from either of its names. -/
theorem Choice.read_writeString {α : Type} (c : Choice α) {name : String} {a : α}
    (h : (name, a) = c.first ∨ name ≠ c.first.1 ∧ (name, a) = c.second) (text : List Char) :
    c.read (' ' :: (writeString name ++ text)) = .ok (a, text) := by
  have hname := Choice.name_spelled h (spelled_flatMap name.toList) text
  show c.name (writeString name ++ text) = _
  rwa [writeString, List.cons_append, List.append_assoc, List.singleton_append]

/-! ## Records -/

/-- What may follow the text of a member: the next member or the end of the object. -/
def Closes (text : List Char) : Prop := text.head? = some ',' ∨ text.head? = some '\n'

theorem Closes.stops {text : List Char} (h : Closes text) : Stops text := by
  intro c hc
  rcases h with h | h
  · rw [h] at hc
    cases hc
    decide
  · rw [h] at hc
    cases hc
    decide

variable {σ : Type}

/-- One of the fields reads the text of a member, and this does `put` to the record. -/
def Written (fields : List (Field σ)) (member : String × List Char) (put : σ → σ) : Prop :=
  ∃ field, fields.find? (·.name == member.1) = some field ∧
    ∀ record text, Closes text →
      field.read record (' ' :: (member.2 ++ text)) = .ok (put record, text)

theorem written_of {α : Type} {fields : List (Field σ)} {name : String}
    {reader : List Char → Reading (α × List Char)} (put : σ → α → σ)
    (hfind : fields.find? (·.name == name) = some (.of name reader put)) {value : List Char} {a : α}
    (hread : ∀ text, Closes text → reader (' ' :: (value ++ text)) = .ok (a, text)) :
    Written fields (name, value) fun record => put record a := by
  refine ⟨_, hfind, fun record text htext => ?_⟩
  simp only [Field.of, hread text htext]
  rfl

/-- What stands in front of a member: nothing before the first one, a comma before the others. -/
def separator (first : Bool) : List Char := if first then [] else [',']

theorem blanks_newline (level : ℕ) : Blanks (newline level) := by
  intro b hb
  rcases List.mem_cons.mp hb with rfl | hb
  · rfl
  · rw [List.eq_of_mem_replicate hb]
    rfl

theorem nextKey_member (first : Bool) {blanks : List Char} (h : Blanks blanks) (text : List Char) :
    nextKey first (separator first ++ (blanks ++ '"' :: text)) = .ok (some text) := by
  have hskip := skipBlanks_cons h (c := '"') rfl text
  cases first
  · show nextKey false (',' :: (blanks ++ '"' :: text)) = _
    rw [nextKey, skipBlanks_of_not_isBlank rfl]
    simp only
    rw [if_neg (by decide), if_pos (by decide), hskip]
    rfl
  · show nextKey true (blanks ++ '"' :: text) = _
    rw [nextKey, hskip]
    rfl

/-- One member is read. -/
theorem readMembers_member {fields : List (Field σ)} {name : String} {text : List Char}
    {put : σ → σ} (h : Written fields (name, text) put) (b : Char) (bound : List Char)
    {seen : List String} (hseen : name ∉ seen) (record : σ) (first : Bool) (level : ℕ)
    (after : List Char) (hafter : Closes after) :
    readMembers fields (b :: bound) seen record first
        (separator first ++
          (newline level ++ (writeString name ++ ([':', ' '] ++ (text ++ after))))) =
      readMembers fields bound (name :: seen) (put record) false after := by
  obtain ⟨field, hfind, hread⟩ := h
  have hstring := string_flatMap name (':' :: ' ' :: (text ++ after))
  have hname : writeString name ++ ([':', ' '] ++ (text ++ after)) =
      '"' :: (name.toList.flatMap writeChar ++ '"' :: ':' :: ' ' :: (text ++ after)) := by
    simp [writeString]
  rw [hname, readMembers, nextKey_member first (blanks_newline level)]
  simp only [bind, Except.bind, hstring, hfind]
  rw [if_neg (by simpa using hseen)]
  simp only [show colon (':' :: ' ' :: (text ++ after)) = .ok (' ' :: (text ++ after)) from rfl,
    hread record after hafter]

/-- The end of an object is read. -/
theorem readMembers_end (fields : List (Field σ)) (b : Char) (bound : List Char)
    (seen : List String) (record : σ) (first : Bool) {blanks : List Char} (h : Blanks blanks)
    (text : List Char) :
    readMembers fields (b :: bound) seen record first (blanks ++ '\x7d' :: text) =
      .ok (record, text) := by
  have hskip := skipBlanks_cons h (c := '\x7d') rfl text
  rw [readMembers, nextKey, hskip]
  simp only [bind, Except.bind]
  rfl

/-- Members are read one after another. -/
theorem readMembers_writeMembers {fields : List (Field σ)} (level : ℕ)
    {members : List (String × List Char)} {puts : List (σ → σ)}
    (h : List.Forall₂ (Written fields) members puts) (bound : List Char)
    (hbound : members.length < bound.length) (seen : List String)
    (hseen : ∀ member ∈ members, member.1 ∉ seen) (hnodup : (members.map Prod.fst).Nodup)
    (record : σ) (first : Bool) (hne : members ≠ []) (text : List Char) :
    readMembers fields bound seen record first (separator first ++ (writeMembers level members ++
      (newline (level - 1) ++ '\x7d' :: text))) =
        .ok (puts.foldl (fun record put => put record) record, text) := by
  induction h generalizing bound seen record first with
  | nil => exact absurd rfl hne
  | @cons member put members puts hmember hmembers ih =>
    obtain ⟨name, value⟩ := member
    have hname : name ∉ seen := hseen (name, value) List.mem_cons_self
    obtain ⟨b, bound, rfl⟩ := List.exists_cons_of_length_pos (Nat.zero_lt_of_lt hbound)
    have hbound : members.length < bound.length := Nat.lt_of_succ_lt_succ hbound
    cases members with
    | nil =>
      cases hmembers
      obtain ⟨b', bound, rfl⟩ := List.exists_cons_of_length_pos hbound
      have hstep := readMembers_member hmember b (b' :: bound) hname record first level
        (newline (level - 1) ++ '\x7d' :: text) (.inr rfl)
      simp only [writeMembers, List.append_assoc]
      rw [hstep, readMembers_end _ _ _ _ _ _ (blanks_newline _)]
      rfl
    | cons next members =>
      have hrest := ih bound hbound (name :: seen) ?_ hnodup.of_cons (put record) false (by simp)
      · have hstep := readMembers_member hmember b bound hname record first level
          (separator false ++ (writeMembers level (next :: members) ++
            (newline (level - 1) ++ '\x7d' :: text))) (.inl rfl)
        rw [hrest] at hstep
        simp only [writeMembers, List.append_assoc]
        exact hstep
      · intro member hmem hin
        rcases List.mem_cons.mp hin with heq | hin
        · rw [List.map_cons, List.nodup_cons] at hnodup
          exact hnodup.1 (List.mem_map.mpr ⟨member, hmem, heq⟩)
        · exact hseen member (List.mem_cons_of_mem _ hmem) hin

theorem length_le_writeMembers (level : ℕ) (members : List (String × List Char)) :
    members.length ≤ (writeMembers level members).length := by
  fun_induction writeMembers level members with
  | case1 => exact le_rfl
  | case2 => simp [newline]
  | case3 name value rest hne ih =>
    simp only [List.length_append, List.length_cons]
    omega

/-- A record is read from an object of its members. -/
theorem readRecord_writeObject {fields : List (Field σ)} (expected : String) (level : ℕ)
    {members : List (String × List Char)} {puts : List (σ → σ)} (hne : members ≠ [])
    (hnodup : (members.map Prod.fst).Nodup) (h : List.Forall₂ (Written fields) members puts)
    (default : σ) {text after : List Char}
    (htext : skipBlanks text = writeObject level members ++ after) :
    readRecord expected fields default text =
      .ok (puts.foldl (fun record put => put record) default, after) := by
  have hobject : writeObject level members ++ after = '\x7b' :: (writeMembers level members ++
      (newline (level - 1) ++ '\x7d' :: after)) := by
    simp [writeObject]
  have hlength := length_le_writeMembers level members
  rw [readRecord, htext, hobject]
  apply readMembers_writeMembers level h _ _ [] (by simp) hnodup default true hne
  simp only [List.length_append, List.length_cons]
  omega

end Tether.Json
