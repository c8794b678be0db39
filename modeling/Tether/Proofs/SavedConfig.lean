import Tether.Config.Document
import Tether.Proofs.DocumentRange
import Tether.Proofs.DocumentText

/-!
# Saved configurations

What becomes of a configuration that is saved and loaded again. Durations lose what is below a
millisecond, and a multiplier is read back as `ReadBack` says; all else is kept. A configuration
that was loaded has whole milliseconds already, so only its multiplier can change. One that was put
together otherwise may have a first delay or a time for the handshake below a millisecond, and then
its own document is refused. All of this is about endpoints without international names, which
`Endpoint.Host.parse` does not map.
-/

namespace Tether

namespace Binary64

/-- What a number that is not below one can be read back as from its own text. -/
structure ReadBack (x y : Binary64) : Prop where
  /-- It is again a finite number that is not below one. -/
  valid : y.isFinite = true ∧ y.lt one = false
  /-- It is at most two units of the last place away. -/
  near : |y.value - x.value| ≤ 2 * x.unit
  /-- It is the number itself if that is the nearest one to a decimal of at most fifteen digits. -/
  exact : ∀ n places : ℕ, n < 10 ^ 15 → x = ofScientific false n (-places) → y = x

theorem one_eq : one = .finite false (2 ^ 52) (-52) := by decide +kernel

theorem value_one : value (.finite false (2 ^ 52) (-52)) = 1 := by
  norm_num [value]

theorem lt_one_eq_false_iff {s : Bool} {m : ℕ} {q : ℤ} :
    lt (.finite s m q) one = false ↔ 1 ≤ value (.finite s m q) := by
  have hle := le_finite_iff s false m (2 ^ 52) q (-52)
  have hge := le_finite_iff false s (2 ^ 52) m (-52) q
  rw [value_one] at hle hge
  rw [lt, one_eq, Bool.and_eq_false_iff, Bool.not_eq_false', hge, Bool.eq_false_iff, ne_eq, hle]
  constructor
  · rintro (h | h)
    · exact (not_le.mp h).le
    · exact h
  · exact .inr

/-- A number that is not below one has no sign. -/
theorem exists_finite_of_not_lt_one {x : Binary64} (hfinite : x.isFinite = true)
    (hone : x.lt one = false) : ∃ m q, x = .finite false m q ∧ (1 : ℚ) ≤ m * 2 ^ q := by
  cases x with
  | nan => cases hfinite
  | infinite s => cases hfinite
  | finite s m q =>
    rw [lt_one_eq_false_iff] at hone
    cases s
    · refine ⟨m, q, rfl, ?_⟩
      simpa [value] using hone
    · exfalso
      have hpos : (0 : ℚ) ≤ m * 2 ^ q := mul_nonneg m.cast_nonneg (two_zpow_pos q).le
      simp only [value, if_true] at hone
      linarith

theorem wellFormed_ofNat (n : ℕ) : (ofNat n).WellFormed := wellFormed_nearest false n one_pos 0

/-- A decimal rounds to its nearest number. -/
theorem covers_of_ofScientific {m n places : ℕ} {q : ℤ} (hm : 0 < m)
    (h : .finite false m q = ofScientific false n (-places)) :
    Covers m q (n * 10 ^ (-(places : ℤ))) := by
  have hden : 0 < Nat.pow 10 (- -(places : ℤ)).toNat := Nat.pow_pos (by decide)
  unfold ofScientific at h
  simp only at h
  split_ifs at h
  · cases h
    exact absurd hm (Nat.lt_irrefl _)
  · cases h
    exact absurd hm (Nat.lt_irrefl _)
  · have hvalue : ((n * Nat.pow 10 (-(places : ℤ)).toNat : ℕ) : ℚ) /
        (Nat.pow 10 (- -(places : ℤ)).toNat : ℕ) * 2 ^ (0 : ℤ) = n * 10 ^ (-(places : ℤ)) := by
      rw [zpow_eq_div 10, Nat.pow_eq, Nat.pow_eq]
      push_cast
      ring
    rcases nearest_cases false (n * Nat.pow 10 (-(places : ℤ)).toNat) hden 0 with
      ⟨k, r, heq, -, hcovers⟩ | ⟨heq, -⟩
    · rw [heq] at h
      cases h
      rwa [hvalue] at hcovers
    · rw [heq] at h
      cases h

end Binary64

open Json (Closes Stops Written written_of)

/-- A number that is not below one is read back from its text, whatever stands behind it. -/
theorem exists_readBack {x : Binary64} (hx : x.WellFormed) (hfinite : x.isFinite = true)
    (hone : x.lt .one = false) : ∃ y, x.ReadBack y ∧ ∀ text, Stops text →
      Json.readBinary (' ' :: (Json.writeBinary x ++ text)) = .ok (y, text) := by
  obtain ⟨m, q, rfl, hvalue⟩ := Binary64.exists_finite_of_not_lt_one hfinite hone
  have hm : 0 < m := lt_of_lt_of_le (by norm_num) (Json.normal_of_one_le hx hvalue)
  obtain ⟨k, r, hk, hkone, hnear, hexact, hread⟩ := Json.exists_number_writeBinary hx hvalue
  refine ⟨.finite false k r, ⟨⟨rfl, ?_⟩, ?_, ?_⟩, ?_⟩
  · rw [Binary64.lt_one_eq_false_iff]
    simpa [Binary64.value] using hkone
  · simpa [Binary64.value, Binary64.unit] using hnear
  · intro n places hn heq
    obtain ⟨rfl, rfl⟩ := hexact n places hn (Binary64.covers_of_ofScientific hm heq)
    rfl
  · intro text htext
    exact Json.readBinary_of_number (hread text htext)

/-! ## What a document keeps -/

/-- What a document keeps of a duration: whole milliseconds, as many as fit into a word. -/
def Duration.saved (d : Duration) : Duration := .ofMillis d.millisWord

theorem Duration.isZero_iff {d : Duration} : d.isZero = true ↔ d.nanos = 0 := beq_iff_eq

theorem Duration.saved_eq_zero_iff {d : Duration} : d.saved.nanos = 0 ↔ d.nanos < 1000000 := by
  have hword : 0 < Duration.wordMax := by decide
  simp only [saved, ofMillis, millisWord, millis]
  omega

theorem Duration.saved_mono {a b : Duration} (h : a.nanos ≤ b.nanos) :
    a.saved.nanos ≤ b.saved.nanos := by
  simp only [saved, ofMillis, millisWord, millis]
  omega

theorem Duration.saved_ofMillis {ms : ℕ} (h : ms ≤ Json.wordMax) :
    (Duration.ofMillis ms).saved = .ofMillis ms := by
  have hword : ms ≤ Duration.wordMax := h
  simp only [saved, millisWord, millis, ofMillis]
  rw [Nat.mul_div_cancel _ (by decide), min_eq_left hword]

theorem Duration.read_writeNat (d : Duration) {text : List Char} (htext : Closes text) :
    Duration.read (' ' :: (Json.writeNat d.millisWord ++ text)) = .ok (d.saved, text) := by
  have hword : d.millisWord ≤ Json.wordMax := Nat.min_le_right _ _
  rw [Duration.read, Json.readWord_writeNat "u64" hword htext.stops]
  rfl

theorem Curve.read_writeObject {c : Curve} {multiplier : Binary64}
    (hread : ∀ text, Stops text →
      Json.readBinary (' ' :: (Json.writeBinary c.multiplier ++ text)) = .ok (multiplier, text))
    (text : List Char) :
    Curve.read (' ' :: (Json.writeObject 2
      [ ("base_ms", Json.writeNat c.base.millisWord),
        ("multiplier", Json.writeBinary c.multiplier),
        ("cap_ms", Json.writeNat c.cap.millisWord) ] ++ text)) =
      .ok (⟨c.base.saved, multiplier, c.cap.saved⟩, text) := by
  have hbase : Written Curve.fields ("base_ms", Json.writeNat c.base.millisWord)
      fun record => { record with base := c.base.saved } :=
    written_of (fun (record : Curve) base => { record with base }) rfl fun text htext =>
      Duration.read_writeNat c.base htext
  have hmultiplier : Written Curve.fields ("multiplier", Json.writeBinary c.multiplier)
      fun record => { record with multiplier } :=
    written_of (fun (record : Curve) multiplier => { record with multiplier }) rfl fun text htext =>
      hread text htext.stops
  have hcap : Written Curve.fields ("cap_ms", Json.writeNat c.cap.millisWord)
      fun record => { record with cap := c.cap.saved } :=
    written_of (fun (record : Curve) cap => { record with cap }) rfl fun text htext =>
      Duration.read_writeNat c.cap htext
  exact Json.readRecord_writeObject "struct BackoffConfig" 2 (by simp) (by simp)
    (.cons hbase (.cons hmultiplier (.cons hcap .nil))) _ (Json.skipBlanks_space _)

namespace Config

/-- What a document keeps of the settings, with the multiplier that is read back from it. -/
def saved (c : Config) (multiplier : Binary64) : Config where
  endpoint := c.endpoint
  capacity := c.capacity
  policy := c.policy
  backoff := ⟨c.backoff.base.saved, multiplier, c.backoff.cap.saved⟩
  connectTimeout := c.connectTimeout.saved

theorem decode_save {c : Config} (hcapacity : c.capacity ≤ Json.wordMax) {multiplier : Binary64}
    (hread : ∀ text, Stops text → Json.readBinary
      (' ' :: (Json.writeBinary c.backoff.multiplier ++ text)) = .ok (multiplier, text)) :
    decode c.save = .ok (c.saved multiplier) := by
  have hendpoint : Written fields ("endpoint", Json.writeString c.endpoint)
      fun record => { record with endpoint := c.endpoint } :=
    written_of (fun (record : Config) endpoint => { record with endpoint }) rfl fun text _ =>
      Json.readString_writeString "a string" c.endpoint text
  have hcap : Written fields ("capacity", Json.writeNat c.capacity)
      fun record => { record with capacity := c.capacity } :=
    written_of (fun (record : Config) capacity => { record with capacity }) rfl fun text htext =>
      Json.readWord_writeNat "usize" hcapacity htext.stops
  have hpolicy : Written fields ("overflow_policy", Json.writeString c.policy.text)
      fun record => { record with policy := c.policy } :=
    written_of (fun (record : Config) policy => { record with policy }) rfl fun text _ =>
      Policy.choice.read_writeString (by cases c.policy <;> simp [Policy.choice, Policy.text]) text
  have hbackoff : Written fields ("backoff", _)
      fun record => { record with
        backoff := ⟨c.backoff.base.saved, multiplier, c.backoff.cap.saved⟩ } :=
    written_of (fun (record : Config) backoff => { record with backoff }) rfl fun text _ =>
      Curve.read_writeObject hread text
  have htimeout : Written fields ("connect_timeout_ms", Json.writeNat c.connectTimeout.millisWord)
      fun record => { record with connectTimeout := c.connectTimeout.saved } :=
    written_of (fun (record : Config) connectTimeout => { record with connectTimeout }) rfl
      fun text htext => Duration.read_writeNat c.connectTimeout htext
  have hread : Config.read (Json.writeObject 1 c.members) = .ok (c.saved multiplier, []) :=
    Json.readRecord_writeObject "struct ManagerConfig" 1 (by simp) (by simp)
      (.cons hendpoint (.cons hcap (.cons hpolicy (.cons hbackoff (.cons htimeout .nil))))) _
      (List.append_nil _).symm
  rw [decode, Json.document, save, String.toList_ofList, hread]
  rfl

end Config

/-! ## Settings that are refused -/

theorem Curve.validate_eq_ok_iff {c : Curve} : c.validate = .ok () ↔
    c.base.nanos ≠ 0 ∧ c.base.nanos ≤ c.cap.nanos ∧
      c.multiplier.isFinite = true ∧ c.multiplier.lt .one = false := by
  unfold Curve.validate
  split_ifs with hbase hcap hmultiplier
  · simp [Duration.isZero_iff.mp hbase]
  · simp [hcap]
  · simp only [false_iff]
    rintro ⟨-, -, hfinite, hone⟩
    simp [hfinite, hone] at hmultiplier
  · simp only [Bool.or_eq_true, Bool.not_eq_true', not_or, Bool.not_eq_false,
      Bool.not_eq_true] at hmultiplier
    rw [Duration.isZero_iff] at hbase
    exact ⟨fun _ => ⟨hbase, not_lt.mp hcap, hmultiplier⟩, fun _ => rfl⟩

namespace Config

/-- What the types of the settings hold: a capacity that is a word, a multiplier with as many bits
as there are. -/
structure Fits (c : Config) : Prop where
  capacity : c.capacity ≤ Json.wordMax
  multiplier : c.backoff.multiplier.WellFormed

theorem validate_eq_ok_iff {c : Config} : c.validate = .ok () ↔
    c.capacity ≠ 0 ∧ c.connectTimeout.nanos ≠ 0 ∧ c.backoff.validate = .ok () ∧
      ∃ e, Endpoint.ofText c.endpoint = .ok e := by
  unfold validate
  split_ifs with hcapacity htimeout
  · simp [hcapacity]
  · simp [Duration.isZero_iff.mp htimeout]
  · rw [Duration.isZero_iff] at htimeout
    constructor
    · intro h
      obtain ⟨_, hcurve, h⟩ := Except.bind_eq_ok h
      obtain ⟨e, hendpoint, -⟩ := Except.bind_eq_ok h
      exact ⟨hcapacity, htimeout, hcurve, e, hendpoint⟩
    · rintro ⟨-, -, hcurve, e, hendpoint⟩
      rw [hcurve, hendpoint]
      rfl

theorem validate_of_connectTimeout_eq_zero {c : Config} (hcapacity : c.capacity ≠ 0)
    (htimeout : c.connectTimeout.nanos = 0) : c.validate = .error (.config .connectTimeout) := by
  rw [validate, if_neg hcapacity, if_pos (Duration.isZero_iff.mpr htimeout)]

theorem validate_of_base_eq_zero {c : Config} (hcapacity : c.capacity ≠ 0)
    (htimeout : c.connectTimeout.nanos ≠ 0) (hbase : c.backoff.base.nanos = 0) :
    c.validate = .error (.config .backoffBase) := by
  rw [validate, if_neg hcapacity, if_neg (mt Duration.isZero_iff.mp htimeout), Curve.validate,
    if_pos (Duration.isZero_iff.mpr hbase)]
  rfl

/-- Of what is kept of valid settings only the times that are below a millisecond are refused. -/
theorem validate_saved {c : Config} (h : c.validate = .ok ()) {multiplier : Binary64}
    (hmultiplier : multiplier.isFinite = true ∧ multiplier.lt .one = false) :
    (c.saved multiplier).validate =
      if c.connectTimeout.nanos < 1000000 then .error (.config .connectTimeout)
      else if c.backoff.base.nanos < 1000000 then .error (.config .backoffBase)
      else .ok () := by
  obtain ⟨hcapacity, -, hcurve, e, hendpoint⟩ := validate_eq_ok_iff.mp h
  obtain ⟨-, hcap, -⟩ := Curve.validate_eq_ok_iff.mp hcurve
  split_ifs with htimeout hbase
  · exact validate_of_connectTimeout_eq_zero hcapacity (Duration.saved_eq_zero_iff.mpr htimeout)
  · exact validate_of_base_eq_zero hcapacity (mt Duration.saved_eq_zero_iff.mp htimeout)
      (Duration.saved_eq_zero_iff.mpr hbase)
  · refine validate_eq_ok_iff.mpr ⟨hcapacity, mt Duration.saved_eq_zero_iff.mp htimeout, ?_, e,
      hendpoint⟩
    exact Curve.validate_eq_ok_iff.mpr
      ⟨mt Duration.saved_eq_zero_iff.mp hbase, Duration.saved_mono hcap, hmultiplier⟩

theorem load_eq_ok_iff {text : String} {c : Config} :
    load text = .ok c ↔ decode text = .ok c ∧ c.validate = .ok () := by
  constructor
  · intro h
    obtain ⟨d, hdecode, h⟩ := Except.bind_eq_ok h
    obtain ⟨_, hvalid, h⟩ := Except.bind_eq_ok h
    cases h
    exact ⟨hdecode, hvalid⟩
  · rintro ⟨hdecode, hvalid⟩
    rw [load, hdecode]
    exact congrArg (· >>= fun _ => .ok c) hvalid

/-- What loading the document of valid settings gives. -/
theorem exists_load_save {c : Config} (hvalid : c.validate = .ok ()) (hfits : c.Fits) :
    ∃ multiplier, c.backoff.multiplier.ReadBack multiplier ∧
      load c.save =
        if c.connectTimeout.nanos < 1000000 then .error (.config .connectTimeout)
        else if c.backoff.base.nanos < 1000000 then .error (.config .backoffBase)
        else .ok (c.saved multiplier) := by
  obtain ⟨-, -, hcurve, -⟩ := validate_eq_ok_iff.mp hvalid
  obtain ⟨-, -, hfinite, hone⟩ := Curve.validate_eq_ok_iff.mp hcurve
  obtain ⟨multiplier, hback, hread⟩ := exists_readBack hfits.multiplier hfinite hone
  refine ⟨multiplier, hback, ?_⟩
  have hload : load c.save =
      (c.saved multiplier).validate >>= fun _ => .ok (c.saved multiplier) := by
    rw [load, decode_save hfits.capacity hread]
    rfl
  rw [hload, validate_saved hvalid hback.valid]
  split_ifs <;> rfl

/-- A valid configuration can be loaded from its own document if and only if its first delay and
the time for its handshake are at least a millisecond: shorter ones are written as zero. The first
of them that is too short is named in the error, the handshake before the delay, and nothing else
is ever refused. What is loaded has the endpoint, the capacity and the policy of the configuration,
its durations in whole milliseconds, as many as fit into a word, and a multiplier that is read back
from its text. Validity is that of `validate`, so endpoints with international names are not
covered: `Endpoint.Host.parse` refuses such a name, or takes it as it stands. -/
theorem saved_config_loads_iff {c : Config} (hvalid : c.validate = .ok ()) (hfits : c.Fits) :
    ((∃ d, load c.save = .ok d) ↔
      1000000 ≤ c.connectTimeout.nanos ∧ 1000000 ≤ c.backoff.base.nanos) ∧
    ∃ multiplier, c.backoff.multiplier.ReadBack multiplier ∧
      load c.save =
        if c.connectTimeout.nanos < 1000000 then .error (.config .connectTimeout)
        else if c.backoff.base.nanos < 1000000 then .error (.config .backoffBase)
        else .ok (c.saved multiplier) := by
  obtain ⟨multiplier, hback, hload⟩ := exists_load_save hvalid hfits
  refine ⟨?_, multiplier, hback, hload⟩
  rw [hload]
  split_ifs with htimeout hbase
  · simp [htimeout]
  · simp [hbase]
  · simp [not_lt.mp htimeout, not_lt.mp hbase]

/-- A first delay just below two milliseconds, and a handshake of one. -/
def prompt : Config :=
  { backoff := ⟨⟨1999999⟩, .ofNat 2, .ofMillis 30000⟩, connectTimeout := .ofMillis 1 }

theorem prompt_loads :
    prompt.validate = .ok () ∧ prompt.Fits ∧ ∃ d, load prompt.save = .ok d := by
  have hvalid : prompt.validate = .ok () := rfl
  have hfits : prompt.Fits := ⟨by decide, Binary64.wellFormed_ofNat 2⟩
  exact ⟨hvalid, hfits, (saved_config_loads_iff hvalid hfits).1.mpr ⟨by decide, by decide⟩⟩

/-- The first delay is a nanosecond. -/
def hasty : Config := { backoff := ⟨⟨1⟩, .ofNat 2, .ofMillis 30000⟩ }

/-- A valid configuration need not load from its own document. -/
theorem hasty_not_loaded :
    hasty.validate = .ok () ∧ load hasty.save = .error (.config .backoffBase) := by
  have hvalid : hasty.validate = .ok () := rfl
  obtain ⟨_, -, hload⟩ := exists_load_save hvalid ⟨by decide, Binary64.wellFormed_ofNat 2⟩
  exact ⟨hvalid, hload⟩

end Config

/-! ## Settings that were loaded -/

/-- A curve as documents give it: delays in whole milliseconds. -/
structure Curve.Kept (c : Curve) : Prop where
  base : c.base.saved = c.base
  cap : c.cap.saved = c.cap
  multiplier : c.multiplier.WellFormed

/-- A duration that is kept is no shorter than a millisecond unless it is zero. -/
theorem Duration.not_lt_of_saved_eq {d : Duration} (hsaved : d.saved = d) (hzero : d.nanos ≠ 0) :
    ¬ d.nanos < 1000000 := by
  rw [← Duration.saved_eq_zero_iff, hsaved]
  exact hzero

theorem Duration.saved_of_read {text after : List Char} {d : Duration}
    (h : Duration.read text = .ok (d, after)) : d.saved = d := by
  unfold Duration.read at h
  cases hword : Json.readWord "u64" text with
  | error f =>
    rw [hword] at h
    cases h
  | ok r =>
    rw [hword] at h
    cases h
    exact Duration.saved_ofMillis (Json.le_of_readWord hword)

theorem Config.kept_default : ({} : Config).backoff.Kept where
  base := Duration.saved_ofMillis (by decide)
  cap := Duration.saved_ofMillis (by decide)
  multiplier := Binary64.wellFormed_ofNat 2

theorem Curve.kept_of_read {text after : List Char} {c : Curve}
    (h : Curve.read text = .ok (c, after)) : c.Kept := by
  refine Json.readRecord_invariant ?_ Config.kept_default h
  simp only [Curve.fields, List.forall_mem_cons, List.not_mem_nil, false_implies, implies_true,
    and_true]
  refine ⟨Json.Field.keeps_of ?_, Json.Field.keeps_of ?_, Json.Field.keeps_of ?_⟩
  · exact fun record text base after hrecord hread =>
      { hrecord with base := Duration.saved_of_read hread }
  · exact fun record text multiplier after hrecord hread =>
      { hrecord with multiplier := Json.wellFormed_of_readBinary hread }
  · exact fun record text cap after hrecord hread =>
      { hrecord with cap := Duration.saved_of_read hread }

namespace Config

/-- Settings as documents give them: a capacity that is a word, times in whole milliseconds. -/
structure Kept (c : Config) : Prop where
  capacity : c.capacity ≤ Json.wordMax
  backoff : c.backoff.Kept
  connectTimeout : c.connectTimeout.saved = c.connectTimeout

theorem Kept.fits {c : Config} (h : c.Kept) : c.Fits := ⟨h.capacity, h.backoff.multiplier⟩

theorem kept_of_read {text after : List Char} {c : Config} (h : read text = .ok (c, after)) :
    c.Kept := by
  have hdefault : ({} : Config).Kept :=
    ⟨by decide, kept_default, Duration.saved_ofMillis (by decide)⟩
  refine Json.readRecord_invariant ?_ hdefault h
  simp only [fields, List.forall_mem_cons, List.not_mem_nil, false_implies, implies_true, and_true]
  refine ⟨Json.Field.keeps_of ?_, Json.Field.keeps_of ?_, Json.Field.keeps_of ?_,
    Json.Field.keeps_of ?_, Json.Field.keeps_of ?_⟩
  · exact fun record text endpoint after hrecord _ => { hrecord with }
  · exact fun record text capacity after hrecord hread =>
      { hrecord with capacity := Json.le_of_readWord hread }
  · exact fun record text policy after hrecord _ => { hrecord with }
  · exact fun record text backoff after hrecord hread =>
      { hrecord with backoff := Curve.kept_of_read hread }
  · exact fun record text connectTimeout after hrecord hread =>
      { hrecord with connectTimeout := Duration.saved_of_read hread }

theorem kept_of_decode {text : String} {c : Config} (h : decode text = .ok c) : c.Kept := by
  unfold decode at h
  split at h
  · rename_i d hdocument
    cases h
    unfold Json.document at hdocument
    split at hdocument
    · rename_i d hread
      cases hdocument
      obtain ⟨⟨d, rest⟩, hread, h⟩ := Except.bind_eq_ok hread
      obtain ⟨_, -, h⟩ := Except.bind_eq_ok h
      cases h
      exact kept_of_read hread
    · cases hdocument
  · cases h

theorem Kept.saved_eq {c : Config} (h : c.Kept) (multiplier : Binary64) :
    c.saved multiplier = { c with backoff := { c.backoff with multiplier } } := by
  rw [saved, h.backoff.base, h.backoff.cap, h.connectTimeout]

theorem survives_of_load {c d : Config} (h : load c.save = .ok d) : c.survives = c.same d := by
  unfold survives
  -- The loading is named first, so that no tactic runs it.
  generalize load c.save = loaded at h
  subst h
  rfl

/-- A configuration that was loaded can be saved and loaded again, and all of it comes back but
for the multiplier. That is read back at most two units of its last place away, and exactly if it
is the nearest number to a decimal of at most fifteen digits; the configuration survives if it is
equal. Endpoints with international names are not covered, as they are loaded only where
`Endpoint.Host.parse` takes the name as it stands. -/
theorem loaded_config_reloads {text : String} {c : Config} (h : load text = .ok c) :
    ∃ multiplier, c.backoff.multiplier.ReadBack multiplier ∧
      load c.save = .ok { c with backoff := { c.backoff with multiplier } } ∧
      c.survives = c.backoff.multiplier.same multiplier := by
  obtain ⟨hdecode, hvalid⟩ := load_eq_ok_iff.mp h
  have hkept := kept_of_decode hdecode
  obtain ⟨-, htimeout, hcurve, -⟩ := validate_eq_ok_iff.mp hvalid
  obtain ⟨hbase, -⟩ := Curve.validate_eq_ok_iff.mp hcurve
  obtain ⟨multiplier, hback, hload⟩ := exists_load_save hvalid hkept.fits
  rw [if_neg (Duration.not_lt_of_saved_eq hkept.connectTimeout htimeout),
    if_neg (Duration.not_lt_of_saved_eq hkept.backoff.base hbase), hkept.saved_eq] at hload
  refine ⟨multiplier, hback, hload, ?_⟩
  rw [survives_of_load hload]
  simp [same]

/-- A queue of seven, and delays that grow by half. -/
def gentle : Config :=
  { capacity := 7, backoff := ⟨.ofMillis 100, .ofScientific false 15 (-1), .ofMillis 30000⟩ }

theorem gentle_reloads :
    load "\x7b\"backoff\": \x7b\"multiplier\": 1.5\x7d, \"capacity\": 7\x7d" = .ok gentle ∧
      load gentle.save = .ok gentle := by
  have hload : load "\x7b\"backoff\": \x7b\"multiplier\": 1.5\x7d, \"capacity\": 7\x7d" =
    .ok gentle := rfl
  obtain ⟨multiplier, hback, hsave, -⟩ := loaded_config_reloads hload
  have heq : multiplier = gentle.backoff.multiplier := hback.exact 15 1 (by decide) rfl
  subst heq
  exact ⟨hload, hsave⟩

/-- The largest odd number that a multiplier can be. -/
def precise : Config :=
  { backoff := ⟨.ofMillis 100, .finite false 9007199254740991 0, .ofMillis 30000⟩ }

/-- A configuration that was loaded need not come back with its multiplier. -/
theorem precise_not_kept :
    (load "\x7b\"backoff\": \x7b\"multiplier\": 9007199254740991\x7d\x7d").toOption =
      some precise ∧
    (load precise.save).toOption.map (·.backoff.multiplier) =
      some (.finite false 9007199254740990 0) ∧
    precise.survives = false := by
  decide +kernel

end Config

end Tether
