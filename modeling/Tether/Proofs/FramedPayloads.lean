import Mathlib.Data.Nat.Notation
import Mathlib.Data.List.Basic
import Tether.Link.Task

/-!
# Frames carry their payloads

A payload comes out of a frame as it was put in. Which kind of frame it travels in depends on
whether its bytes are a text in UTF-8. This is said here in two ways that do not refer to the test:
the bytes are those of some scalar values, `bytesOf`, or they fall into sequences of the `Form` that
the table of well-formed sequences allows. That the two agree is a matter of ranges: a lead byte
says how many bytes follow, and the second byte keeps out what would have a shorter form, the
halves of surrogate pairs, and what is beyond the last code point.
-/

namespace Tether

namespace Utf8

/-- Code points that are no halves of surrogate pairs. -/
def IsScalar (n : ℕ) : Prop := n < 0xD800 ∨ 0xDFFF < n ∧ n ≤ 0x10FFFF

/-- The bytes of a scalar value: the lead byte has the highest bits, the others six bits each. -/
def bytesOf (n : ℕ) : List ℕ :=
  if n < 0x80 then [n]
  else if n < 0x800 then [0xC0 + n / 64, 0x80 + n % 64]
  else if n < 0x10000 then [0xE0 + n / 4096, 0x80 + n / 64 % 64, 0x80 + n % 64]
  else [0xF0 + n / 262144, 0x80 + n / 4096 % 64, 0x80 + n / 64 % 64, 0x80 + n % 64]

/-- Bytes that continue a sequence. -/
def Tail (b : ℕ) : Prop := 0x80 ≤ b ∧ b ≤ 0xBF

/-- Well-formed sequences of bytes for one character. -/
inductive Form : List ℕ → Prop
  | one {a : ℕ} (ha : a ≤ 0x7F) : Form [a]
  | two {a b : ℕ} (ha : 0xC2 ≤ a ∧ a ≤ 0xDF) (hb : Tail b) : Form [a, b]
  | three {a b c : ℕ} (ha : 0xE0 ≤ a ∧ a ≤ 0xEF) (hb : Tail b) (hc : Tail c)
    (hshort : a = 0xE0 → 0xA0 ≤ b) (hsurrogate : a = 0xED → b ≤ 0x9F) : Form [a, b, c]
  | four {a b c d : ℕ} (ha : 0xF0 ≤ a ∧ a ≤ 0xF4) (hb : Tail b) (hc : Tail c) (hd : Tail d)
    (hshort : a = 0xF0 → 0x90 ≤ b) (hlast : a = 0xF4 → b ≤ 0x8F) : Form [a, b, c, d]

/-- Bytes that fall into well-formed sequences. -/
inductive WellFormed : List ℕ → Prop
  | nil : WellFormed []
  | cons {first rest : List ℕ} (hfirst : Form first) (hrest : WellFormed rest) :
    WellFormed (first ++ rest)

theorem form_bytesOf {n : ℕ} (hn : IsScalar n) : Form (bytesOf n) := by
  unfold IsScalar at hn
  unfold bytesOf
  split_ifs with hone htwo hthree
  · exact .one (by omega)
  · exact .two (by omega) ⟨by omega, by omega⟩
  · exact .three (by omega) ⟨by omega, by omega⟩ ⟨by omega, by omega⟩ (by omega) (by omega)
  · exact .four (by omega) ⟨by omega, by omega⟩ ⟨by omega, by omega⟩ ⟨by omega, by omega⟩
      (by omega) (by omega)

theorem Form.exists_scalar {bs : List ℕ} (h : Form bs) : ∃ n, IsScalar n ∧ bytesOf n = bs := by
  unfold IsScalar
  cases h with
  | @one a ha =>
    refine ⟨a, by omega, ?_⟩
    rw [bytesOf, if_pos (by omega)]
  | @two a b ha hb =>
    unfold Tail at hb
    refine ⟨(a - 0xC0) * 64 + (b - 0x80), by omega, ?_⟩
    rw [bytesOf, if_neg (by omega), if_pos (by omega)]
    simp only [List.cons.injEq, and_true]
    omega
  | @three a b c ha hb hc hshort hsurrogate =>
    unfold Tail at hb hc
    refine ⟨(a - 0xE0) * 4096 + (b - 0x80) * 64 + (c - 0x80), by omega, ?_⟩
    rw [bytesOf, if_neg (by omega), if_neg (by omega), if_pos (by omega)]
    simp only [List.cons.injEq, and_true]
    omega
  | @four a b c d ha hb hc hd hshort hlast =>
    unfold Tail at hb hc hd
    refine ⟨(a - 0xF0) * 262144 + (b - 0x80) * 4096 + (c - 0x80) * 64 + (d - 0x80), by omega, ?_⟩
    rw [bytesOf, if_neg (by omega), if_neg (by omega), if_neg (by omega)]
    simp only [List.cons.injEq, and_true]
    omega

/-- The table allows exactly the bytes of scalar values. -/
theorem wellFormed_iff {bs : List ℕ} :
    WellFormed bs ↔ ∃ ns : List ℕ, (∀ n ∈ ns, IsScalar n) ∧ bs = ns.flatMap bytesOf := by
  constructor
  · intro h
    induction h with
    | nil => exact ⟨[], by simp, rfl⟩
    | cons hfirst _ ih =>
      obtain ⟨n, hn, rfl⟩ := hfirst.exists_scalar
      obtain ⟨ns, hns, rfl⟩ := ih
      exact ⟨n :: ns, List.forall_mem_cons.mpr ⟨hn, hns⟩, rfl⟩
  · rintro ⟨ns, hns, rfl⟩
    induction ns with
    | nil => exact .nil
    | cons n ns ih =>
      obtain ⟨hn, hns⟩ := List.forall_mem_cons.mp hns
      exact .cons (form_bytesOf hn) (ih hns)

/-! ## Characters -/

theorem isScalar_iff {n : ℕ} : IsScalar n ↔ n.isValidChar := by
  unfold IsScalar Nat.isValidChar
  omega

theorem isScalar_toNat (c : Char) : IsScalar c.toNat := isScalar_iff.mpr c.valid

theorem toNat_ofNat {n : ℕ} (hn : IsScalar n) : (Char.ofNat n).toNat = n := by
  rw [Char.ofNat, dif_pos (isScalar_iff.mp hn)]
  rfl

theorem map_utf8EncodeChar (c : Char) :
    (String.utf8EncodeChar c).map UInt8.toNat = bytesOf c.toNat := by
  have hc := isScalar_toNat c
  unfold IsScalar at hc
  unfold String.utf8EncodeChar bytesOf
  simp only [Char.toNat_val]
  generalize c.toNat = n at hc
  by_cases hone : n < 0x80
  · rw [if_pos hone, if_pos (by omega)]
    simp only [List.map_cons, List.map_nil, UInt8.toNat_ofNat', List.cons.injEq, and_true]
    omega
  rw [if_neg hone, if_neg (by omega)]
  by_cases htwo : n < 0x800
  · rw [if_pos htwo, if_pos (by omega)]
    simp only [List.map_cons, List.map_nil, UInt8.toNat_ofNat', List.cons.injEq, and_true]
    omega
  rw [if_neg htwo, if_neg (by omega)]
  by_cases hthree : n < 0x10000
  · rw [if_pos hthree, if_pos (by omega)]
    simp only [List.map_cons, List.map_nil, UInt8.toNat_ofNat', List.cons.injEq, and_true]
    omega
  · rw [if_neg hthree, if_neg (by omega)]
    simp only [List.map_cons, List.map_nil, UInt8.toNat_ofNat', List.cons.injEq, and_true]
    omega

end Utf8

/-! ## Payloads -/

namespace Payload

/-- The bytes of a payload as numbers. -/
def codes (p : Payload) : List ℕ := p.data.toList.map UInt8.toNat

theorem codes_injective {p q : Payload} (h : p.codes = q.codes) : p = q := by
  have hlist : p.data.toList = q.data.toList :=
    List.map_injective_iff.mpr (fun _ _ => UInt8.toNat_inj.mp) h
  exact ByteArray.ext (Array.toList_inj.mp hlist)

theorem codes_utf8Encode (cs : List Char) :
    codes cs.utf8Encode = (cs.map Char.toNat).flatMap Utf8.bytesOf := by
  rw [codes, List.utf8Encode, List.toList_data_toByteArray, List.map_flatMap, List.flatMap_map]
  exact List.flatMap_congr fun c _ => Utf8.map_utf8EncodeChar c

theorem text?_eq_some_iff {p : Payload} {s : String} : p.text? = some s ↔ s.toUTF8 = p := by
  unfold text? String.fromUTF8?
  constructor
  · intro h
    split_ifs at h
    cases h
    rfl
  · rintro rfl
    have hvalid : s.toUTF8.IsValidUTF8 := s.isValidUTF8
    rw [dif_pos hvalid]
    rfl

/-- A payload is a text if its bytes are those of scalar values. -/
theorem exists_text?_iff {p : Payload} : (∃ s, p.text? = some s) ↔
    ∃ ns : List ℕ, (∀ n ∈ ns, Utf8.IsScalar n) ∧ p.codes = ns.flatMap Utf8.bytesOf := by
  simp only [text?_eq_some_iff]
  constructor
  · rintro ⟨s, rfl⟩
    obtain ⟨cs, hcs⟩ := s.isValidUTF8
    refine ⟨cs.map Char.toNat, ?_, ?_⟩
    · intro n hn
      obtain ⟨c, -, rfl⟩ := List.mem_map.mp hn
      exact Utf8.isScalar_toNat c
    · rw [← codes_utf8Encode, ← hcs]
      rfl
  · rintro ⟨ns, hns, hp⟩
    refine ⟨String.ofList (ns.map Char.ofNat), codes_injective ?_⟩
    have hback : (ns.map Char.ofNat).map Char.toNat = ns := by
      rw [List.map_map]
      exact (List.map_congr_left fun n hn => Utf8.toNat_ofNat (hns n hn)).trans (List.map_id ns)
    rw [hp]
    conv_rhs => rw [← hback, ← codes_utf8Encode]
    rfl

end Payload

/-! ## Frames and links -/

namespace Framing

/-- The bytes that make a text frame: those of scalar values, if text frames are asked for. -/
def GoesAsText (framing : Framing) (p : Payload) : Prop :=
  framing = .text ∧
    ∃ ns : List ℕ, (∀ n ∈ ns, Utf8.IsScalar n) ∧ p.codes = ns.flatMap Utf8.bytesOf

theorem encode_cases (framing : Framing) (p : Payload) :
    framing.GoesAsText p ∧ (∃ s : String, s.toUTF8 = p ∧ framing.encode p = .text s) ∨
      ¬ framing.GoesAsText p ∧ framing.encode p = .binary p := by
  unfold GoesAsText
  rw [← Payload.exists_text?_iff]
  cases framing with
  | binary => exact .inr ⟨by rintro ⟨⟨⟩, -⟩, rfl⟩
  | text =>
    cases htext : p.text? with
    | some s =>
      refine .inl ⟨⟨rfl, s, rfl⟩, s, Payload.text?_eq_some_iff.mp htext, ?_⟩
      simp only [encode, htext]
    | none =>
      refine .inr ⟨?_, ?_⟩
      · rintro ⟨-, s, ⟨⟩⟩
      · simp only [encode, htext]

theorem payload?_encode (framing : Framing) (p : Payload) :
    (framing.encode p).payload? = some p := by
  rcases framing.encode_cases p with ⟨-, s, hs, heq⟩ | ⟨-, heq⟩
  · rw [heq, Frame.payload?, hs]
  · rw [heq, Frame.payload?]

theorem step_received {t : Link.Task} (hup : t.phase = .up []) (framing : Framing) (p : Payload) :
    t.step (.received (framing.encode p)) = t.report (.message p) := by
  have hpayload := framing.payload?_encode p
  simp only [Link.Task.step, hup]
  rcases framing.encode_cases p with ⟨-, s, -, heq⟩ | ⟨-, heq⟩
  · rw [heq] at hpayload ⊢
    simp only [Link.Task.receive, hpayload]
  · rw [heq] at hpayload ⊢
    simp only [Link.Task.receive, hpayload]

theorem run_received (sent : List (Framing × Payload)) {t : Link.Task} (hup : t.phase = .up []) :
    t.run (sent.map fun x => .received (x.1.encode x.2)) =
      { t with reports := t.reports ++ sent.map fun x => .message x.2 } := by
  induction sent generalizing t with
  | nil => simp [Link.Task.run]
  | cons x sent ih =>
    have hrest := @ih (t.report (.message x.2)) hup
    rw [List.map_cons, Link.Task.run, List.foldl_cons, step_received hup]
    refine hrest.trans ?_
    simp [Link.Task.report]

/-- Framing never changes a payload. A frame carries the bytes that were put into it, and a link
that is up reports them, frame after frame, whatever kind of frame they came in. It is a text frame
exactly for bytes of scalar values where text frames are asked for, and a binary frame otherwise;
and the bytes of scalar values are those that the table of well-formed sequences allows. -/
theorem frames_keep_payloads (framing : Framing) (p : Payload) :
    (framing.encode p).payload? = some p ∧
    (∀ t : Link.Task, t.phase = .up [] →
      t.step (.received (framing.encode p)) = t.report (.message p)) ∧
    (∀ (t : Link.Task) (sent : List (Framing × Payload)), t.phase = .up [] →
      (t.run (sent.map fun x => .received (x.1.encode x.2))).reports =
        t.reports ++ sent.map fun x => .message x.2) ∧
    ((∃ s : String, framing.encode p = .text s) ↔ framing.GoesAsText p) ∧
    (framing.encode p = .binary p ↔ ¬ framing.GoesAsText p) ∧
    (framing.GoesAsText p ↔ framing = .text ∧ Utf8.WellFormed p.codes) := by
  refine ⟨framing.payload?_encode p, fun t hup => step_received hup framing p, ?_, ?_, ?_, ?_⟩
  · intro t sent hup
    rw [run_received sent hup]
  · rcases framing.encode_cases p with ⟨hgoes, s, -, heq⟩ | ⟨hnot, heq⟩
    · exact ⟨fun _ => hgoes, fun _ => ⟨s, heq⟩⟩
    · refine ⟨?_, fun hgoes => absurd hgoes hnot⟩
      rintro ⟨s, htext⟩
      rw [heq] at htext
      cases htext
  · rcases framing.encode_cases p with ⟨hgoes, s, -, heq⟩ | ⟨hnot, heq⟩
    · refine ⟨?_, fun hnot => absurd hgoes hnot⟩
      intro hbinary
      rw [heq] at hbinary
      cases hbinary
    · exact ⟨fun _ => hnot, fun _ => heq⟩
  · rw [GoesAsText, Utf8.wellFormed_iff]

end Framing

end Tether
