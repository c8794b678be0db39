import Tether.Config.Document
import Tether.Proofs.RecordLayout

/-!
# Documents mean what they give

A document gives some of the settings of a connection, each at most once: as the members of an
object in any order, or as a list of the first of them. Members of other names may stand among them
with any values. What is read is the default with the given settings in place of its own,
`Config.Given.override`, and likewise for the curve of the reconnect delays inside it.
-/

namespace Tether

open Json

/-- Durations in whole milliseconds. -/
def MillisText (d : Duration) (text : List Char) : Prop :=
  ∃ ms, WordText ms text ∧ d = .ofMillis ms

theorem MillisText.reads {d : Duration} {text : List Char} (h : MillisText d text) :
    Reads Duration.read text d := by
  obtain ⟨ms, hword, rfl⟩ := h
  have hreads := hword.reads "u64"
  refine ⟨hreads.starts, fun blanks rest hblanks hrest => ?_⟩
  rw [Duration.read, hreads.read blanks rest hblanks hrest]
  rfl

namespace Curve

/-- The names of the settings of a curve, in their order. -/
def names : List String := ["base_ms", "multiplier", "cap_ms"]

/-- What a document gives of a curve. -/
structure Given where
  base : Option Duration := none
  multiplier : Option Binary64 := none
  cap : Option Duration := none

namespace Given

variable {g : Given} {members : List (String × List Char)}

/-- A curve with the given settings in place of its own. -/
def override (g : Given) (c : Curve) : Curve :=
  ⟨g.base.getD c.base, g.multiplier.getD c.multiplier, g.cap.getD c.cap⟩

/-- The members give just this; the others have any values. -/
structure Says (g : Given) (members : List (String × List Char)) : Prop where
  base : Named "base_ms" MillisText g.base members
  multiplier : Named "multiplier" BinaryText g.multiplier members
  cap : Named "cap_ms" MillisText g.cap members
  others : ∀ m ∈ members, m.1 ∉ names → Value m.2

/-- What a member of this name does to a curve. -/
def put (g : Given) (name : String) (c : Curve) : Curve where
  base := if name = "base_ms" then g.base.getD c.base else c.base
  multiplier := if name = "multiplier" then g.multiplier.getD c.multiplier else c.multiplier
  cap := if name = "cap_ms" then g.cap.getD c.cap else c.cap

theorem put_of_not_mem (g : Given) : ∀ name ∉ names, ∀ c, g.put name c = c := by
  intro name h c
  simp only [names, List.mem_cons, List.not_mem_nil, or_false, not_or] at h
  simp [put, h]

theorem Says.isGiven (h : g.Says members) :
    ∀ field ∈ Curve.fields, field.IsGiven g.put members := by
  intro field hfield
  simp only [Curve.fields, List.mem_cons, List.not_mem_nil, or_false] at hfield
  rcases hfield with rfl | rfl | rfl
  · exact h.base.isGiven (fun _ _ htext => htext.reads) fun _ _ hd => by simp [put, hd]
  · exact h.multiplier.isGiven (fun _ _ htext => htext.reads) fun _ _ hx => by simp [put, hx]
  · exact h.cap.isGiven (fun _ _ htext => htext.reads) fun _ _ hd => by simp [put, hd]

theorem Says.foldl_put (h : g.Says members) (c : Curve) :
    members.foldl (fun c m => g.put m.1 c) c = g.override c := by
  rw [override, ← h.base.foldl_view Curve.base g.put (fun _ _ => rfl),
    ← h.multiplier.foldl_view Curve.multiplier g.put (fun _ _ => rfl),
    ← h.cap.foldl_view Curve.cap g.put (fun _ _ => rfl)]

/-- The texts of a curve in either form. -/
def Text (g : Given) (text : List Char) : Prop :=
  ∃ members, g.Says members ∧ Layout names members text

theorem Text.reads {text : List Char} (h : g.Text text) :
    Reads Curve.read text (g.override ({} : Config).backoff) := by
  obtain ⟨members, hsays, hlayout⟩ := h
  rw [← hsays.foldl_put]
  have hfields : Layout (Curve.fields.map Field.name) members text := hlayout
  exact hfields.reads hsays.isGiven hsays.others g.put_of_not_mem _ _

end Given

end Curve

namespace Config

/-- The names of the settings of a connection, in their order. -/
def names : List String :=
  ["endpoint", "capacity", "overflow_policy", "backoff", "connect_timeout_ms"]

/-- What a document gives of a configuration. -/
structure Given where
  endpoint : Option String := none
  capacity : Option ℕ := none
  policy : Option Policy := none
  backoff : Option Curve.Given := none
  connectTimeout : Option Duration := none

namespace Given

variable {g : Given} {members : List (String × List Char)}

/-- A configuration with the given settings in place of its own. -/
def override (g : Given) (c : Config) : Config where
  endpoint := g.endpoint.getD c.endpoint
  capacity := g.capacity.getD c.capacity
  policy := g.policy.getD c.policy
  backoff := (g.backoff.map (·.override c.backoff)).getD c.backoff
  connectTimeout := g.connectTimeout.getD c.connectTimeout

/-- The members give just this; the others have any values. -/
structure Says (g : Given) (members : List (String × List Char)) : Prop where
  endpoint : Named "endpoint" Quoted g.endpoint members
  capacity : Named "capacity" WordText g.capacity members
  policy : Named "overflow_policy" (ChoiceText Policy.choice) g.policy members
  backoff : Named "backoff" Curve.Given.Text g.backoff members
  connectTimeout : Named "connect_timeout_ms" MillisText g.connectTimeout members
  others : ∀ m ∈ members, m.1 ∉ names → Value m.2

/-- What a member of this name does to a configuration. -/
def put (g : Given) (name : String) (c : Config) : Config where
  endpoint := if name = "endpoint" then g.endpoint.getD c.endpoint else c.endpoint
  capacity := if name = "capacity" then g.capacity.getD c.capacity else c.capacity
  policy := if name = "overflow_policy" then g.policy.getD c.policy else c.policy
  backoff := if name = "backoff" then
      (g.backoff.map (·.override ({} : Config).backoff)).getD c.backoff else c.backoff
  connectTimeout := if name = "connect_timeout_ms" then g.connectTimeout.getD c.connectTimeout
    else c.connectTimeout

theorem put_of_not_mem (g : Given) : ∀ name ∉ names, ∀ c, g.put name c = c := by
  intro name h c
  simp only [names, List.mem_cons, List.not_mem_nil, or_false, not_or] at h
  simp [put, h]

/-- A curve in a document stands for the curve that it makes of the default. -/
theorem Says.backoff_reads (h : g.Says members) :
    Named "backoff" (fun c text => Reads Curve.read text c)
      (g.backoff.map (·.override ({} : Config).backoff)) members :=
  h.backoff.map _ fun _ _ => Curve.Given.Text.reads

theorem Says.isGiven (h : g.Says members) :
    ∀ field ∈ Config.fields, field.IsGiven g.put members := by
  intro field hfield
  simp only [Config.fields, List.mem_cons, List.not_mem_nil, or_false] at hfield
  rcases hfield with rfl | rfl | rfl | rfl | rfl
  · exact h.endpoint.isGiven (fun _ _ htext => htext.reads _) fun _ _ hs => by simp [put, hs]
  · exact h.capacity.isGiven (fun _ _ htext => htext.reads _) fun _ _ hn => by simp [put, hn]
  · exact h.policy.isGiven (fun _ _ htext => htext.reads) fun _ _ hp => by simp [put, hp]
  · exact h.backoff_reads.isGiven (fun _ _ hreads => hreads) fun _ _ hc => by
      simp [put, -Option.getD_map, hc]
  · exact h.connectTimeout.isGiven (fun _ _ htext => htext.reads) fun _ _ hd => by simp [put, hd]

theorem Says.foldl_put (h : g.Says members) :
    members.foldl (fun c m => g.put m.1 c) {} = g.override {} := by
  rw [override, ← h.endpoint.foldl_view Config.endpoint g.put (fun _ _ => rfl),
    ← h.capacity.foldl_view Config.capacity g.put (fun _ _ => rfl),
    ← h.policy.foldl_view Config.policy g.put (fun _ _ => rfl),
    ← h.backoff_reads.foldl_view Config.backoff g.put (fun _ _ => rfl),
    ← h.connectTimeout.foldl_view Config.connectTimeout g.put (fun _ _ => rfl)]

end Given

/-- A whole text is of a form, with blanks around it. -/
def IsDocument (Form : List Char → Prop) (text : String) : Prop :=
  ∃ inner, Form inner ∧ Padded inner text.toList

theorem decode_of_says {g : Given} {members : List (String × List Char)} (h : g.Says members)
    {text : String} (htext : IsDocument (Layout names members) text) :
    decode text = .ok (g.override {}) := by
  obtain ⟨inner, hlayout, hpadded⟩ := htext
  have hreads : Reads read inner (g.override {}) := by
    rw [← h.foldl_put]
    have hfields : Layout (Config.fields.map Field.name) members inner := hlayout
    exact hfields.reads h.isGiven h.others g.put_of_not_mem _ _
  generalize hchars : text.toList = chars at hpadded
  cases hpadded with
  | @mk before after hbefore hafter =>
    have hstops : Stops (after ++ []) := stops_blanks hafter nofun
    rw [List.append_nil] at hstops
    have hend := skipBlanks_blanks hafter []
    rw [List.append_nil] at hend
    simp only [decode, document, hchars, hreads.read before after hbefore hstops, finish, hend,
      bind, Except.bind, pure, Except.pure]
    rfl

/-- A document means the default with what it gives in place of the default's own, whatever the
order of its members, the blanks between its parts and the members that are no settings; and a list
of the first settings means what an object means that gives the same. -/
theorem documents_override_defaults {g : Given} {members : List (String × List Char)}
    (h : g.Says members) :
    (∀ text, IsDocument (ObjectOf Names members) text → decode text = .ok (g.override {})) ∧
      ∀ values, g.Says (names.zip values) → values.length ≤ names.length →
        ∀ list, IsDocument (ListOf values) list → decode list = .ok (g.override {}) ∧
          ∀ object, IsDocument (ObjectOf Names members) object → decode list = decode object := by
  have hobject : ∀ text, IsDocument (ObjectOf Names members) text →
      decode text = .ok (g.override {}) := by
    rintro text ⟨inner, hinner, hpadded⟩
    exact decode_of_says h ⟨inner, .object hinner, hpadded⟩
  refine ⟨hobject, fun values hvalues hlength list hlist => ?_⟩
  obtain ⟨inner, hinner, hpadded⟩ := hlist
  have hdecode := decode_of_says hvalues ⟨inner, .list rfl hlength hinner, hpadded⟩
  exact ⟨hdecode, fun object hobj => hdecode.trans (hobject object hobj).symm⟩

/-! A document with settings among other members, and a list of the same settings. -/

/-- Some settings, and other members before, between and inside them. -/
def scattered : String :=
  "\x7b\"x\":[-1.5e9,\x7b\"a\":\"\\ud800\",\"a\":[ ]\x7d]," ++
    "\"backoff\":\x7b\"base_ms\":250,\"y\":0,\"multiplier\":3\x7d," ++ "\"capacity\" :7," ++
    "\"overflow_policy\":\"reject-new\"," ++ "\"x\":true,\n" ++ "\"\\u0065ndpoint\":\"h\"\x7d"

/-- The same settings as a list. -/
def listed : String := " [\"h\",7,\x7b\"reject-new\":null\x7d,[250,3]]"

theorem value_nested : Value "[-1.5e9,\x7b\"a\":\"\\ud800\",\"a\":[ ]\x7d]".toList := by
  have hnumber : Value "-1.5e9".toList :=
    .number (.negative (@Magnitude.mk ['1'] ['.', '5'] ['e', '9'] (.digits (by decide) (by decide))
      (.digits (by decide)) (@ExponentPart.digits 'e' [] ['9'] (.inl rfl) (.inl rfl) (by decide))))
  have hcode : HexCode 0xD800 ['d', '8', '0', '0'] :=
    @HexCode.mk 'd' '8' '0' '0' 13 8 0 0 (by decide) (by decide) (by decide) (by decide)
  have hhalf : Value "\"\\ud800\"".toList :=
    @Value.string ['\\', 'u', 'd', '8', '0', '0'] (@Contents.code 0xD800 _ [] hcode .nil)
  have hempty : Value "[ ]".toList :=
    @Value.list [] _ (@Enclosed.empty _ '[' ']' Padded [' '] (by decide)) nofun
  have hkey : Contents ['a'] := .plain (by decide) .nil
  have hmember : ∀ value, Member (fun (_ : Unit) => Contents) ((), value)
      ('"' :: (['a'] ++ '"' :: ':' :: value)) := fun _ => member_self hkey
  have hrow : Row (Member fun (_ : Unit) => Contents)
      [((), "\"\\ud800\"".toList), ((), "[ ]".toList)] "\"a\":\"\\ud800\",\"a\":[ ]".toList :=
    .cons (hmember _) (.last (hmember _))
  have hobject : Value "\x7b\"a\":\"\\ud800\",\"a\":[ ]\x7d".toList :=
    .object (.row hrow) (List.forall_mem_cons.mpr ⟨hhalf, List.forall_mem_singleton.mpr hempty⟩)
  exact @Value.list ["-1.5e9".toList, "\x7b\"a\":\"\\ud800\",\"a\":[ ]\x7d".toList] _
    (.row (.cons (padded_self _) (.last (padded_self _))))
    (List.forall_mem_cons.mpr ⟨hnumber, List.forall_mem_singleton.mpr hobject⟩)

/-- The settings of the two documents. -/
def sample : Given where
  endpoint := some "h"
  capacity := some 7
  policy := some .rejectNew
  backoff := some { base := some (.ofMillis 250), multiplier := some (.ofNat 3) }

/-- The members of the object. -/
def sampleMembers : List (String × List Char) :=
  [("x", "[-1.5e9,\x7b\"a\":\"\\ud800\",\"a\":[ ]\x7d]".toList),
    ("backoff", "\x7b\"base_ms\":250,\"y\":0,\"multiplier\":3\x7d".toList),
    ("capacity", "7".toList),
    ("overflow_policy", "\"reject-new\"".toList), ("x", "true".toList),
    ("endpoint", "\"h\"".toList)]

/-- The elements of the list. -/
def sampleValues : List (List Char) :=
  ["\"h\"".toList, "7".toList, "\x7b\"reject-new\":null\x7d".toList, "[250,3]".toList]

theorem says_sampleMembers : sample.Says sampleMembers := by
  have hbase : MillisText (.ofMillis 250) "250".toList := ⟨250, ⟨by decide, rfl⟩, rfl⟩
  have hthree : BinaryText (.ofNat 3) "3".toList := .whole (.positive ⟨by decide, rfl⟩)
  have hzero : Value "0".toList := .number (.positive (@Magnitude.mk ['0'] [] [] .zero .none .none))
  have hbackoff : Curve.Given.Text
      { base := some (.ofMillis 250), multiplier := some (.ofNat 3) }
      "\x7b\"base_ms\":250,\"y\":0,\"multiplier\":3\x7d".toList := by
    refine ⟨[("base_ms", "250".toList), ("y", "0".toList), ("multiplier", "3".toList)],
      ⟨.cons hbase .nil, .cons hthree .nil, .nil, ?_⟩,
      .object (.row (.cons (member_writeString _ _) (.cons (member_writeString _ _)
        (.last (member_writeString _ _)))))⟩
    exact List.forall_mem_cons.mpr ⟨fun hother => absurd (by decide) hother,
      List.forall_mem_cons.mpr ⟨fun _ => hzero,
        List.forall_mem_singleton.mpr fun hother => absurd (by decide) hother⟩⟩
  have hpolicy : ChoiceText Policy.choice .rejectNew "\"reject-new\"".toList :=
    ⟨"reject-new", .inr ⟨by decide, rfl⟩, .inl (quoted_writeString "reject-new")⟩
  refine ⟨.cons (quoted_writeString "h") .nil, .cons ⟨by decide, rfl⟩ .nil, .cons hpolicy .nil,
    .cons hbackoff .nil, .nil, ?_⟩
  intro m hm hother
  simp only [sampleMembers, List.mem_cons, List.not_mem_nil, or_false] at hm
  rcases hm with rfl | rfl | rfl | rfl | rfl | rfl
  · exact value_nested
  · exact absurd (by decide) hother
  · exact absurd (by decide) hother
  · exact absurd (by decide) hother
  · exact .literal (by decide)
  · exact absurd (by decide) hother

theorem isDocument_scattered : IsDocument (ObjectOf Names sampleMembers) scattered := by
  have hcode : HexCode 'e'.toNat ['0', '0', '6', '5'] :=
    @HexCode.mk '0' '0' '6' '5' 0 0 6 5 (by decide) (by decide) (by decide) (by decide)
  have hkey : Names "endpoint" "\\u0065ndpoint".toList :=
    .cons (.code hcode) (spelled_flatMap "ndpoint".toList)
  have hspaced : Member Names ("capacity", "7".toList) "\"capacity\" :7".toList :=
    @Member.mk _ Names ("capacity", "7".toList) [] _ [' '] _ (by decide)
      (spelled_flatMap "capacity".toList) (by decide) (padded_self _)
  have hescaped : Member Names ("endpoint", "\"h\"".toList)
      "\n\"\\u0065ndpoint\":\"h\"".toList :=
    @Member.mk _ Names ("endpoint", "\"h\"".toList) ['\n'] _ [] _ (by decide) hkey (by decide)
      (padded_self _)
  refine ⟨_, .row (.cons (member_writeString "x" _) (.cons (member_writeString "backoff" _)
    (.cons hspaced (.cons (member_writeString "overflow_policy" _)
      (.cons (member_writeString "x" _) (.last hescaped)))))), ?_⟩
  convert padded_self _ using 1
  decide +kernel

theorem says_sampleValues : sample.Says (names.zip sampleValues) := by
  have hbase : MillisText (.ofMillis 250) "250".toList := ⟨250, ⟨by decide, rfl⟩, rfl⟩
  have hthree : BinaryText (.ofNat 3) "3".toList := .whole (.positive ⟨by decide, rfl⟩)
  have hbackoff : Curve.Given.Text
      { base := some (.ofMillis 250), multiplier := some (.ofNat 3) } "[250,3]".toList :=
    ⟨Curve.names.zip ["250".toList, "3".toList], ⟨.cons hbase .nil, .cons hthree .nil, .nil,
      fun m hm hother => absurd (List.of_mem_zip hm).1 hother⟩,
      .list rfl (by decide) (.row (.cons (padded_self _) (.last (padded_self _))))⟩
  have hpolicy : ChoiceText Policy.choice .rejectNew "\x7b\"reject-new\":null\x7d".toList :=
    ⟨"reject-new", .inr ⟨by decide, rfl⟩, .inr (.row (.last (member_writeString _ _)))⟩
  refine ⟨.cons (quoted_writeString "h") .nil, .cons ⟨by decide, rfl⟩ .nil, .cons hpolicy .nil,
    .cons hbackoff .nil, .nil, ?_⟩
  intro m hm hother
  exact absurd (List.of_mem_zip hm).1 hother

theorem isDocument_listed : IsDocument (ListOf sampleValues) listed := by
  refine ⟨_, .row (.cons (padded_self _) (.cons (padded_self _) (.cons (padded_self _)
    (.last (padded_self _))))), ?_⟩
  exact @Padded.mk _ [' '] [] (by decide) (by decide)

theorem scattered_document_overrides :
    decode scattered = .ok { ({} : Config) with
        endpoint := "h", capacity := 7, policy := .rejectNew,
        backoff := { ({} : Config).backoff with base := .ofMillis 250, multiplier := .ofNat 3 } } ∧
      decode listed = decode scattered := by
  obtain ⟨hobject, hlist⟩ := documents_override_defaults says_sampleMembers
  refine ⟨hobject scattered isDocument_scattered, ?_⟩
  have hlisted := (hlist _ says_sampleValues (by decide) listed isDocument_listed).2
  exact hlisted scattered isDocument_scattered

end Config

end Tether
