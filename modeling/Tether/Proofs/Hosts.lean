import Mathlib.Tactic.Ring
import Tether.Endpoint.Parse
import Tether.Proofs.Preliminaries

/-!
# Hosts are read from their own texts

A host that was read is written so that it is read again: an address of four bytes as four decimal
numbers, an address of groups with its longest run of zeros left out, and a name as it is, since
nothing in it is escaped, in upper case or an address in disguise. What reading a host gives is
`Host.Canonical`, and the text of a canonical host gives that host.
-/

namespace Tether.Endpoint

/-! ## Cutting and joining -/

theorem cut_of_not_mem {mark : Char} {cs : List Char} (h : mark ∉ cs) : cut mark cs = [cs] := by
  induction cs with
  | nil => rfl
  | cons c cs ih =>
    rw [List.mem_cons, not_or] at h
    rw [cut, if_neg (Ne.symm h.1), ih h.2]

theorem cut_append {mark : Char} {cs : List Char} (h : mark ∉ cs) (rest : List Char) :
    cut mark (cs ++ mark :: rest) = cs :: cut mark rest := by
  induction cs with
  | nil => rw [List.nil_append, cut, if_pos rfl]
  | cons c cs ih =>
    rw [List.mem_cons, not_or] at h
    rw [List.cons_append, cut, if_neg (Ne.symm h.1), ih h.2]

theorem cut_intercalate {mark : Char} {parts : List (List Char)} (hne : parts ≠ [])
    (h : ∀ part ∈ parts, mark ∉ part) : cut mark (List.intercalate [mark] parts) = parts := by
  induction parts with
  | nil => exact absurd rfl hne
  | cons part parts ih =>
    obtain ⟨hpart, hparts⟩ := List.forall_mem_cons.mp h
    cases parts with
    | nil =>
      rw [List.intercalate_singleton]
      exact cut_of_not_mem hpart
    | cons next parts =>
      rw [List.intercalate_cons_cons, List.append_assoc, List.singleton_append, cut_append hpart,
        ih (by simp) hparts]

theorem cut_ne_nil (mark : Char) (cs : List Char) : cut mark cs ≠ [] := by
  cases cs with
  | nil => simp [cut]
  | cons c cs =>
    rw [cut]
    split_ifs
    · simp
    · split <;> simp

/-- What a text is cut into are parts of the text without the mark. -/
theorem of_mem_cut {mark : Char} {cs part : List Char} (h : part ∈ cut mark cs) :
    mark ∉ part ∧ ∀ c ∈ part, c ∈ cs := by
  induction cs generalizing part with
  | nil =>
    rw [cut, List.mem_singleton] at h
    simp [h]
  | cons c cs ih =>
    rw [cut] at h
    split_ifs at h with hc
    · rcases List.mem_cons.mp h with rfl | h
      · simp
      · exact ⟨(ih h).1, fun d hd => List.mem_cons_of_mem _ ((ih h).2 d hd)⟩
    · cases hcut : cut mark cs with
      | nil => exact absurd hcut (cut_ne_nil mark cs)
      | cons first more =>
        rw [hcut] at h ih
        simp only at h
        rcases List.mem_cons.mp h with rfl | h
        · obtain ⟨hmark, hmem⟩ := ih List.mem_cons_self
          refine ⟨?_, ?_⟩
          · rw [List.mem_cons, not_or]
            exact ⟨Ne.symm hc, hmark⟩
          · intro d hd
            rcases List.mem_cons.mp hd with rfl | hd
            · exact List.mem_cons_self
            · exact List.mem_cons_of_mem _ (hmem d hd)
        · obtain ⟨hmark, hmem⟩ := ih (List.mem_cons_of_mem _ h)
          exact ⟨hmark, fun d hd => List.mem_cons_of_mem _ (hmem d hd)⟩

/-! ## Numbers -/

theorem hexValue?_digitChar : ∀ d, d < 16 → hexValue? (Nat.digitChar d) = some d := by decide

theorem numberIn?_concat (base : ℕ) (cs : List Char) (c : Char) :
    numberIn? base (cs ++ [c]) =
      (numberIn? base cs).bind fun n => (digitIn? base c).map (base * n + ·) := by
  simp [numberIn?, List.foldlM_append]

theorem numberIn?_toDigits {base : ℕ} (hone : 1 < base) (hbase : base ≤ 16) (n : ℕ) :
    numberIn? base (Nat.toDigits base n) = some n := by
  have hdigit : ∀ d, d < base → digitIn? base (Nat.digitChar d) = some d := by
    intro d hd
    simp [digitIn?, hexValue?_digitChar d (by omega), hd]
  induction n using Nat.strong_induction_on with
  | h n ih =>
    rcases lt_or_ge n base with hlt | hge
    · rw [Nat.toDigits_of_lt_base hlt]
      simp [numberIn?, hdigit n hlt]
    · have hsmaller : n / base < n := Nat.div_lt_self (by omega) hone
      rw [Nat.toDigits_of_base_le hone hge, numberIn?_concat, ih _ hsmaller,
        hdigit _ (Nat.mod_lt _ (by omega))]
      simp [Nat.div_add_mod]

theorem lt_of_numberIn? {base : ℕ} {cs : List Char} {n : ℕ} (h : numberIn? base cs = some n) :
    n < base ^ cs.length := by
  induction cs using List.reverseRecOn generalizing n with
  | nil =>
    cases h
    simp
  | append_singleton cs c ih =>
    rw [numberIn?_concat, Option.bind_eq_some_iff] at h
    obtain ⟨m, hm, h⟩ := h
    obtain ⟨d, hd, rfl⟩ := Option.map_eq_some_iff.mp h
    have hdigit : d < base := by
      have hfilter := (Option.filter_eq_some_iff.mp hd).2
      simpa using hfilter
    have hlt := ih hm
    rw [List.length_append, List.length_singleton, pow_succ]
    calc base * m + d < base * m + base := by omega
      _ = base * (m + 1) := by ring
      _ ≤ base * base ^ cs.length := Nat.mul_le_mul_left _ hlt
      _ = base ^ cs.length * base := Nat.mul_comm _ _

/-! ## Addresses of four bytes -/

theorem part?_toDigits (n : ℕ) : part? (Nat.toDigits 10 n) = some n := by
  have hnumber : numberIn? 10 (Nat.toDigits 10 n) = some n :=
    numberIn?_toDigits (by decide) (by decide) n
  rcases Nat.eq_zero_or_pos n with rfl | hpos
  · rfl
  · have hhead := Nat.head?_toDigits hpos
    have hne : Nat.toDigits 10 n ≠ [] := Nat.toDigits_ne_nil
    revert hnumber hhead hne
    generalize Nat.toDigits 10 n = digits
    intro hnumber hhead hne
    unfold part?
    split
    · exact absurd rfl hne
    · exact absurd rfl hhead
    · exact absurd rfl hhead
    · exact hnumber

theorem toList_ipv4Text (address : ℕ) :
    (ipv4Text address).toList =
      List.intercalate ['.'] ((bytesOf address).map (Nat.toDigits 10)) := by
  rw [ipv4Text, String.toList_intercalate, List.map_map]
  congr 1
  refine List.map_congr_left fun n _ => ?_
  rw [Function.comp_apply, Nat.toString_eq_ofList_toDigits, String.toList_ofList]

theorem labels_ipv4Text (address : ℕ) :
    labels (ipv4Text address).toList = (bytesOf address).map (Nat.toDigits 10) := by
  have hcut : cut '.' (ipv4Text address).toList = (bytesOf address).map (Nat.toDigits 10) := by
    rw [toList_ipv4Text]
    apply cut_intercalate (by simp [bytesOf])
    intro part hpart
    obtain ⟨n, -, rfl⟩ := List.mem_map.mp hpart
    exact Nat.not_mem_toDigits (by decide) (by decide) n
  rw [labels, hcut]
  simp

theorem endsInNumber_ipv4Text (address : ℕ) :
    endsInNumber (ipv4Text address).toList = true := by
  rw [endsInNumber, labels_ipv4Text]
  simp [bytesOf, part?_toDigits]

theorem joinParts?_bytesOf {address : ℕ} (h : address < 2 ^ 32) :
    joinParts? (bytesOf address) = some address := by
  have hsum : address % 256 + address / 256 ^ 3 % 256 * 256 ^ 3 +
      address / 256 ^ 2 % 256 * 256 ^ 2 + address / 256 % 256 * 256 ^ 1 = address := by
    omega
  unfold joinParts? bytesOf
  simp only [List.getLast?_cons_cons, List.getLast?_singleton, List.dropLast_cons_cons,
    List.dropLast_singleton]
  rw [if_neg]
  · exact congrArg some hsum
  · simp
    omega

theorem ipv4?_ipv4Text {address : ℕ} (h : address < 2 ^ 32) :
    ipv4? (ipv4Text address).toList = some address := by
  have hparts : ((bytesOf address).map (Nat.toDigits 10)).mapM part? = some (bytesOf address) := by
    simp [bytesOf, part?_toDigits]
  rw [ipv4?, labels_ipv4Text, hparts]
  exact joinParts?_bytesOf h

/-- The weights are kept apart from their values, which are too large to be unfolded. -/
theorem foldl_bytes_lt (weight : ℕ → ℕ) (hfirst : weight 0 = 2 ^ 24) (hsecond : weight 1 = 2 ^ 16)
    (hthird : weight 2 = 2 ^ 8) {bytes : List ℕ} {last : ℕ} (hlength : bytes.length ≤ 3)
    (hbytes : ∀ b ∈ bytes, b ≤ 255) (hlast : last < 256 ^ (4 - bytes.length)) :
    bytes.zipIdx.foldl (fun n (b, i) => n + b * weight i) last < 2 ^ 32 := by
  rcases bytes with _ | ⟨a, _ | ⟨b, _ | ⟨c, _ | ⟨d, bytes⟩⟩⟩⟩
  · have hlast : last < 2 ^ 32 := hlast.trans_eq (by norm_num)
    exact hlast
  · have hlast : last < 2 ^ 24 := hlast.trans_eq (by norm_num)
    have ha := hbytes a (by simp)
    show last + a * weight 0 < _
    rw [hfirst]
    omega
  · have hlast : last < 2 ^ 16 := hlast.trans_eq (by norm_num)
    have ha := hbytes a (by simp)
    have hb := hbytes b (by simp)
    show last + a * weight 0 + b * weight 1 < _
    rw [hfirst, hsecond]
    omega
  · have hlast : last < 2 ^ 8 := hlast.trans_eq (by norm_num)
    have ha := hbytes a (by simp)
    have hb := hbytes b (by simp)
    have hc := hbytes c (by simp)
    show last + a * weight 0 + b * weight 1 + c * weight 2 < _
    rw [hfirst, hsecond, hthird]
    omega
  · simp only [List.length_cons] at hlength
    omega

theorem lt_of_ipv4? {name : List Char} {address : ℕ} (h : ipv4? name = some address) :
    address < 2 ^ 32 := by
  obtain ⟨parts, -, h⟩ := Option.bind_eq_some_iff.mp h
  unfold joinParts? at h
  split at h
  · cases h
  · rename_i last _
    simp only at h
    split_ifs at h with hbad
    simp only [Bool.or_eq_true, decide_eq_true_eq, not_or, not_lt, not_le, List.any_eq_true,
      not_exists, not_and, Nat.pow_eq] at hbad
    obtain ⟨⟨hlength, hbytes⟩, hlast⟩ := hbad
    cases h
    exact foldl_bytes_lt (fun i => Nat.pow 256 (3 - i)) rfl rfl rfl hlength hbytes hlast

/-! ## Addresses of groups -/

theorem colon_not_mem (n : ℕ) : ':' ∉ Nat.toDigits 16 n :=
  Nat.not_mem_toDigits (by decide) (by decide) n

theorem toList_groupsText (groups : List ℕ) :
    (groupsText groups).toList = List.intercalate [':'] (groups.map (Nat.toDigits 16)) := by
  rw [groupsText, String.toList_intercalate, List.map_map]
  congr 1
  refine List.map_congr_left fun n _ => ?_
  rw [Function.comp_apply, Text.hex, String.toList_ofList]

theorem cutPair_append {xs : List Char} (h : ':' ∉ xs) (cs : List Char) :
    cutPair (xs ++ cs) = (xs ++ (cutPair cs).1, (cutPair cs).2) := by
  induction xs with
  | nil => rfl
  | cons x xs ih =>
    rw [List.mem_cons, not_or] at h
    rw [List.cons_append]
    conv_lhs => unfold cutPair
    split
    · rename_i heq
      exact absurd (List.cons.inj heq).1.symm h.1
    · rename_i heq
      cases heq
      rw [ih h.2]
      rfl
    · rename_i heq
      cases heq

theorem cutPair_colon {c : Char} (hc : c ≠ ':') (cs : List Char) :
    cutPair (':' :: c :: cs) = (':' :: (cutPair (c :: cs)).1, (cutPair (c :: cs)).2) := by
  conv_lhs => unfold cutPair
  split
  · rename_i heq
    cases heq
    exact absurd rfl hc
  · rename_i heq
    cases heq
    rfl
  · rename_i heq
    cases heq

/-- Between the groups of a text there are single colons only. -/
theorem cutPair_groupsText (groups : List ℕ) (rest : List Char) :
    cutPair ((groupsText groups).toList ++ rest) =
      ((groupsText groups).toList ++ (cutPair rest).1, (cutPair rest).2) := by
  rw [toList_groupsText]
  induction groups with
  | nil => rfl
  | cons g groups ih =>
    cases groups with
    | nil =>
      rw [List.map_cons, List.map_nil, List.intercalate_singleton]
      exact cutPair_append (colon_not_mem g) rest
    | cons g' groups =>
      rw [List.map_cons, List.map_cons, List.intercalate_cons_cons, List.append_assoc,
        List.append_assoc, cutPair_append (colon_not_mem g), List.singleton_append]
      rw [List.map_cons] at ih
      -- The colon is followed by the first digit of the next group.
      obtain ⟨c, cs, hdigits⟩ :=
        List.exists_cons_of_ne_nil (Nat.toDigits_ne_nil (b := 16) (n := g'))
      have hc : c ≠ ':' := by
        rintro rfl
        exact colon_not_mem g' (hdigits ▸ List.mem_cons_self)
      obtain ⟨more, hmore⟩ := List.exists_intercalate_cons ':' c cs (groups.map (Nat.toDigits 16))
      rw [hdigits, hmore, List.cons_append] at ih
      rw [hdigits, hmore, List.cons_append, cutPair_colon hc, ih]
      simp

theorem group?_toDigits {g : ℕ} (hg : g < 65536) : group? (Nat.toDigits 16 g) = some g := by
  have hlength : (Nat.toDigits 16 g).length ≤ 4 :=
    (Nat.length_toDigits_le_iff (by decide) (by decide)).mpr hg
  have hne : (Nat.toDigits 16 g).isEmpty = false := by
    simp [Nat.toDigits_ne_nil]
  rw [group?, hne, Bool.false_or, if_neg (by simpa using hlength)]
  exact numberIn?_toDigits (by decide) (by decide) g

theorem groups?_groupsText (dotted : Bool) {groups : List ℕ} (h : ∀ g ∈ groups, g < 65536) :
    groups? dotted (groupsText groups).toList = some groups := by
  rcases List.eq_nil_or_concat groups with rfl | ⟨front, last, rfl⟩
  · rfl
  · rw [List.concat_eq_append] at h ⊢
    have hfront : (front.map (Nat.toDigits 16)).mapM group? = some front :=
      List.mapM_map_eq fun g hg => group?_toDigits (h g (by simp [hg]))
    have hlast : group? (Nat.toDigits 16 last) = some last := group?_toDigits (h last (by simp))
    have hdot : (Nat.toDigits 16 last).contains '.' = false := by
      rw [Bool.eq_false_iff, ne_eq, List.contains_iff_mem]
      exact Nat.not_mem_toDigits (by decide) (by decide) last
    have hcut : cut ':' (groupsText (front ++ [last])).toList =
        front.map (Nat.toDigits 16) ++ [Nat.toDigits 16 last] := by
      rw [toList_groupsText, cut_intercalate (by simp)]
      · rw [List.map_append, List.map_singleton]
      · intro part hpart
        obtain ⟨g, -, rfl⟩ := List.mem_map.mp hpart
        exact colon_not_mem g
    have hne : (groupsText (front ++ [last])).toList.isEmpty = false := by
      rw [List.isEmpty_eq_false_iff]
      intro hnil
      have hcut := congrArg List.getLast? (hnil ▸ hcut)
      simp [cut, Nat.toDigits_ne_nil] at hcut
    rw [groups?, hne]
    simp only [hcut, List.getLast?_concat, List.dropLast_concat, hfront, hdot, hlast]
    rfl

/-- The run that is left out consists of zeros. -/
theorem longestZeros_spec (groups : List ℕ) (i : ℕ) :
    ∃ before, (longestZeros groups i).1 = i + before ∧
      groups = groups.take before ++ List.replicate (longestZeros groups i).2 0 ++
        groups.drop (before + (longestZeros groups i).2) := by
  induction groups generalizing i with
  | nil => exact ⟨0, rfl, rfl⟩
  | cons g rest ih =>
    obtain ⟨before, hstart, hsplit⟩ := ih (i + 1)
    rw [longestZeros]
    simp only
    split_ifs with hlonger
    · refine ⟨0, rfl, ?_⟩
      simpa using (List.replicate_append_drop_takeWhile 0 (g :: rest)).symm
    · refine ⟨before + 1, by simp only [hstart]; omega, ?_⟩
      rw [List.take_succ_cons, Nat.add_right_comm, List.drop_succ_cons, List.cons_append,
        List.cons_append]
      exact congrArg (g :: ·) hsplit

theorem ipv6?_ipv6Text {groups : List ℕ} (hlength : groups.length = 8)
    (h : ∀ g ∈ groups, g < 65536) : ipv6? (ipv6Text groups).toList = some groups := by
  obtain ⟨start, hstart, hsplit⟩ := longestZeros_spec groups 0
  rw [Nat.zero_add] at hstart
  unfold ipv6Text
  simp only [hstart]
  generalize (longestZeros groups 0).2 = zeros at hsplit ⊢
  split_ifs with hshort
  · have hcut := cutPair_groupsText groups []
    simp only [List.append_nil, cutPair] at hcut
    simp only [ipv6?, hcut, groups?_groupsText true h]
    simp [hlength]
  · have htext : (groupsText (groups.take start) ++ "::" ++
        groupsText (groups.drop (start + zeros))).toList =
          (groupsText (groups.take start)).toList ++
            ':' :: ':' :: (groupsText (groups.drop (start + zeros))).toList := by
      simp
    have hcut := cutPair_groupsText (groups.take start)
      (':' :: ':' :: (groupsText (groups.drop (start + zeros))).toList)
    simp only [cutPair, List.append_nil] at hcut
    have hfront := groups?_groupsText false fun g hg => h g (List.mem_of_mem_take (i := start) hg)
    have hback := groups?_groupsText true
      fun g hg => h g (List.mem_of_mem_drop (i := start + zeros) hg)
    -- What is left out makes up the eight groups.
    have hcount := congrArg List.length hsplit
    simp only [List.length_append, List.length_replicate, hlength] at hcount
    simp only [htext, ipv6?, hcut, hfront, hback, bind, Option.bind]
    rw [if_neg (by omega), show 8 - ((groups.take start).length +
      (groups.drop (start + zeros)).length) = zeros by omega]
    exact congrArg some hsplit.symm

theorem lt_of_group? {digits : List Char} {g : ℕ} (h : group? digits = some g) : g < 65536 := by
  unfold group? at h
  split_ifs at h with hbad
  simp only [Bool.or_eq_true, decide_eq_true_eq, not_or, not_lt] at hbad
  calc g < 16 ^ digits.length := lt_of_numberIn? h
    _ ≤ 16 ^ 4 := Nat.pow_le_pow_right (by decide) hbad.2
    _ = 65536 := rfl

theorem le_of_byte? {digits : List Char} {b : ℕ} (h : byte? digits = some b) : b ≤ 255 := by
  unfold byte? at h
  split at h
  · cases h
  · cases h
    omega
  · cases h
  · split_ifs at h
    simpa using (Option.filter_eq_some_iff.mp h).2

theorem lt_of_dotted? {cs : List Char} {groups : List ℕ} (h : dotted? cs = some groups) :
    ∀ g ∈ groups, g < 65536 := by
  obtain ⟨bytes, hbytes, h⟩ := Option.bind_eq_some_iff.mp h
  have hle := List.forall_of_mapM (fun _ _ => le_of_byte?) hbytes
  split at h
  · cases h
    simp only [List.mem_cons, List.not_mem_nil, or_false, forall_eq_or_imp, forall_eq] at hle ⊢
    omega
  · cases h

theorem lt_of_groups? {dotted : Bool} {cs : List Char} {groups : List ℕ}
    (h : groups? dotted cs = some groups) : ∀ g ∈ groups, g < 65536 := by
  unfold groups? at h
  split at h
  · cases h
    simp
  · simp only at h
    split at h
    · cases h
      simp
    · obtain ⟨front, hfront, h⟩ := Option.bind_eq_some_iff.mp h
      have hlt := List.forall_of_mapM (fun _ _ => lt_of_group?) hfront
      split_ifs at h
      · obtain ⟨back, hback, h⟩ := Option.bind_eq_some_iff.mp h
        cases h
        exact List.forall_mem_append.mpr ⟨hlt, lt_of_dotted? hback⟩
      · obtain ⟨last, hlast, h⟩ := Option.bind_eq_some_iff.mp h
        cases h
        exact List.forall_mem_append.mpr ⟨hlt, by simpa using lt_of_group? hlast⟩

theorem of_ipv6? {cs : List Char} {groups : List ℕ} (h : ipv6? cs = some groups) :
    groups.length = 8 ∧ ∀ g ∈ groups, g < 65536 := by
  unfold ipv6? at h
  split at h
  · obtain ⟨h, hlength⟩ := Option.filter_eq_some_iff.mp h
    exact ⟨by simpa using hlength, lt_of_groups? h⟩
  · obtain ⟨front, hfront, h⟩ := Option.bind_eq_some_iff.mp h
    obtain ⟨back, hback, h⟩ := Option.bind_eq_some_iff.mp h
    simp only at h
    split_ifs at h with hmany
    cases h
    refine ⟨?_, ?_⟩
    · simp only [List.length_append, List.length_replicate]
      omega
    · refine List.forall_mem_append.mpr ⟨List.forall_mem_append.mpr ⟨lt_of_groups? hfront, ?_⟩,
        lt_of_groups? hback⟩
      intro g hg
      rw [List.eq_of_mem_replicate hg]
      omega

/-! ## Hosts -/

theorem unescape_of_not_mem {cs : List Char} (h : '%' ∉ cs) : unescape cs = cs := by
  induction cs with
  | nil => rfl
  | cons c cs ih =>
    rw [List.mem_cons, not_or] at h
    unfold unescape
    split
    · rename_i heq
      exact absurd (List.cons.inj heq).1.symm h.1
    · rename_i heq
      cases heq
      rw [ih h.2]
    · rename_i heq
      cases heq

namespace Host

/-- What a host is that was read. -/
def Canonical : Host → Prop
  | name s => s ≠ "" ∧ (∀ c ∈ s.toList, isForbidden c = false ∧ c.toLower = c) ∧
    endsInNumber s.toList = false
  | ipv4 address => address < 2 ^ 32
  | ipv6 groups => groups.length = 8 ∧ ∀ g ∈ groups, g < 65536

theorem canonical_of_bracketed {cs : List Char} {host : Host} (h : bracketed cs = .ok host) :
    host.Canonical := by
  unfold bracketed at h
  split_ifs at h
  split at h
  · rename_i hgroups
    cases h
    exact of_ipv6? hgroups
  · cases h

theorem canonical_of_parse {cs : List Char} {host : Host} (h : parse cs = .ok host) :
    host.Canonical := by
  unfold parse at h
  split at h
  · exact canonical_of_bracketed h
  · simp only at h
    split_ifs at h with hforbidden hempty hnumber
    · split at h
      · rename_i haddress
        cases h
        exact lt_of_ipv4? haddress
      · cases h
    · cases h
      refine ⟨?_, ?_, ?_⟩
      · intro hnil
        rw [← String.toList_inj, String.toList_ofList] at hnil
        simp [hnil] at hempty
      · rw [String.toList_ofList]
        intro c hc
        refine ⟨?_, ?_⟩
        · rw [Bool.not_eq_true, List.any_eq_false] at hforbidden
          simpa using hforbidden c hc
        · obtain ⟨d, -, rfl⟩ := List.mem_map.mp hc
          exact Char.toLower_toLower d
      · rw [String.toList_ofList]
        simpa using hnumber

/-- Text without escapes, capitals and forbidden characters is taken as it is. -/
theorem parse_of_plain {cs : List Char} (hne : cs ≠ [])
    (h : ∀ c ∈ cs, isForbidden c = false ∧ c.toLower = c) :
    (endsInNumber cs = false → parse cs = .ok (name (String.ofList cs))) ∧
      ∀ address, endsInNumber cs = true → ipv4? cs = some address →
        parse cs = .ok (ipv4 address) := by
  have hforbidden : cs.any isForbidden = false :=
    List.any_eq_false.mpr fun c hc => by simp [(h c hc).1]
  have hpercent : '%' ∉ cs := fun hc => absurd (h _ hc).1 (by decide)
  have hlower : cs.map Char.toLower = cs :=
    (List.map_congr_left fun c hc => (h c hc).2).trans (List.map_id cs)
  have hempty : cs.isEmpty = false := by simpa using hne
  unfold parse
  split
  · rename_i rest
    exact absurd (h '[' List.mem_cons_self).1 (by decide)
  · simp only [unescape_of_not_mem hpercent, hlower, hforbidden, hempty, Bool.false_eq_true,
      if_false]
    refine ⟨fun hnumber => ?_, fun address hnumber haddress => ?_⟩
    · rw [hnumber]
      rfl
    · simp only [hnumber, haddress, if_true]

/-- What holds of the point and the sixteen digits holds of the text of an address. -/
theorem forall_mem_ipv4Text {P : Char → Prop} (hpoint : P '.')
    (hdigit : ∀ d, d < 16 → P (Nat.digitChar d)) (address : ℕ) :
    ∀ c ∈ (ipv4Text address).toList, P c := by
  rw [toList_ipv4Text]
  refine List.forall_mem_intercalate hpoint fun part hpart => ?_
  obtain ⟨n, -, rfl⟩ := List.mem_map.mp hpart
  exact Nat.forall_mem_toDigits (by decide) (fun d hd => hdigit d (by omega)) n

theorem forall_mem_groupsText {P : Char → Prop} (hcolon : P ':')
    (hdigit : ∀ d, d < 16 → P (Nat.digitChar d)) (groups : List ℕ) :
    ∀ c ∈ (groupsText groups).toList, P c := by
  rw [toList_groupsText]
  refine List.forall_mem_intercalate hcolon fun part hpart => ?_
  obtain ⟨g, -, rfl⟩ := List.mem_map.mp hpart
  exact Nat.forall_mem_toDigits (by decide) hdigit g

theorem forall_mem_ipv6Text {P : Char → Prop} (hcolon : P ':')
    (hdigit : ∀ d, d < 16 → P (Nat.digitChar d)) (groups : List ℕ) :
    ∀ c ∈ (ipv6Text groups).toList, P c := by
  have hgroups := forall_mem_groupsText hcolon hdigit
  unfold ipv6Text
  simp only
  split_ifs
  · exact hgroups groups
  · rw [String.toList_append, String.toList_append]
    refine List.forall_mem_append.mpr ⟨List.forall_mem_append.mpr ⟨hgroups _, ?_⟩, hgroups _⟩
    simpa using hcolon

theorem toList_text_ipv6 (groups : List ℕ) :
    (text (ipv6 groups)).toList = '[' :: ((ipv6Text groups).toList ++ [']']) := by
  simp [text]

/-- The text of a host that was read gives that host. -/
theorem Canonical.parse_text {host : Host} (h : host.Canonical) :
    parse host.text.toList = .ok host := by
  cases host with
  | name s =>
    obtain ⟨hne, hchars, hnumber⟩ := h
    have hparse := (parse_of_plain (by simpa using hne) hchars).1 hnumber
    rwa [String.ofList_toList] at hparse
  | ipv4 address =>
    have hchars : ∀ c ∈ (ipv4Text address).toList, isForbidden c = false ∧ c.toLower = c :=
      forall_mem_ipv4Text (by decide) (by decide) address
    have hne : (ipv4Text address).toList ≠ [] := by
      intro hnil
      have hlabels := labels_ipv4Text address
      rw [hnil] at hlabels
      simp [labels, cut, bytesOf] at hlabels
    exact (parse_of_plain hne hchars).2 address (endsInNumber_ipv4Text address) (ipv4?_ipv4Text h)
  | ipv6 groups =>
    rw [toList_text_ipv6, parse, bracketed, List.getLast?_concat, List.dropLast_concat,
      ipv6?_ipv6Text h.1 h.2]
    rfl

/-- Characters that end no part of an endpoint in which a host can stand. -/
def isPlain (c : Char) : Bool := !isControl c && c != ' ' && c != '@' && !endsAuthority true c

theorem isPlain_of_isForbidden_eq_false {c : Char} (h : isForbidden c = false) :
    isPlain c = true ∧ c ≠ ':' ∧ c ≠ '[' ∧ c ≠ ']' := by
  simp only [isForbidden, Bool.or_eq_false_iff, List.contains_eq_mem, List.mem_cons,
    List.not_mem_nil, or_false, decide_eq_false_iff_not, not_or] at h
  simp [isPlain, endsAuthority, h]

theorem Canonical.isPlain_of_mem {host : Host} (h : host.Canonical) :
    ∀ c ∈ host.text.toList, isPlain c = true := by
  cases host with
  | name s => exact fun c hc => (isPlain_of_isForbidden_eq_false (h.2.1 c hc).1).1
  | ipv4 address => exact forall_mem_ipv4Text (by decide) (by decide) address
  | ipv6 groups =>
    rw [toList_text_ipv6]
    refine List.forall_mem_cons.mpr ⟨by decide, List.forall_mem_append.mpr
      ⟨?_, List.forall_mem_singleton.mpr (by decide)⟩⟩
    exact forall_mem_ipv6Text (by decide) (by decide) groups

theorem Canonical.text_ne_nil {host : Host} (h : host.Canonical) : host.text.toList ≠ [] := by
  intro hnil
  have hparse := h.parse_text
  rw [hnil] at hparse
  cases hparse

theorem hostLength_append {inside : Bool} {cs : List Char}
    (h : ∀ c ∈ cs, (c = ':' → inside = true) ∧ endsAuthority true c = false ∧ c ≠ '[' ∧ c ≠ ']')
    (rest : List Char) :
    hostLength true inside (cs ++ rest) = cs.length + hostLength true inside rest := by
  induction cs with
  | nil => simp
  | cons c cs ih =>
    obtain ⟨⟨hcolon, hends, hopen, hclose⟩, hcs⟩ := List.forall_mem_cons.mp h
    have hstay : (c == ':' && !inside || endsAuthority true c) = false := by
      rw [hends, Bool.or_false]
      cases inside <;> simp_all
    rw [List.cons_append, hostLength, hstay]
    simp only [beq_eq_false_iff_ne.mpr hopen, beq_eq_false_iff_ne.mpr hclose, Bool.false_eq_true,
      if_false, ih hcs, List.length_cons]
    omega

/-- A host ends where a port, a path or anything behind it begins. -/
theorem Canonical.hostLength_text {host : Host} (h : host.Canonical) {rest : List Char}
    (hrest : hostLength true false rest = 0) :
    hostLength true false (host.text.toList ++ rest) = host.text.toList.length := by
  have hplain : ∀ cs : List Char,
      (∀ c ∈ cs, c ≠ ':' ∧ endsAuthority true c = false ∧ c ≠ '[' ∧ c ≠ ']') →
        hostLength true false (cs ++ rest) = cs.length := by
    intro cs hcs
    rw [hostLength_append fun c hc => ⟨fun hcolon => absurd hcolon (hcs c hc).1, (hcs c hc).2⟩,
      hrest, Nat.add_zero]
  cases host with
  | name s =>
    refine hplain _ fun c hc => ?_
    obtain ⟨hc, hcolon, hbrackets⟩ := isPlain_of_isForbidden_eq_false (h.2.1 c hc).1
    refine ⟨hcolon, ?_, hbrackets⟩
    simp only [isPlain, Bool.and_eq_true, Bool.not_eq_true'] at hc
    exact hc.2
  | ipv4 address => exact hplain _ (forall_mem_ipv4Text (by decide) (by decide) address)
  | ipv6 groups =>
    have hclose : hostLength true true (']' :: rest) = 1 := by
      rw [hostLength]
      simp [endsAuthority, hrest]
    have hgroups : hostLength true true ((ipv6Text groups).toList ++ ']' :: rest) =
        (ipv6Text groups).toList.length + 1 := by
      rw [hostLength_append (forall_mem_ipv6Text (by decide) (by decide) groups), hclose]
    rw [toList_text_ipv6, List.cons_append, List.append_assoc, List.singleton_append, hostLength]
    simp [endsAuthority, hgroups]

end Host

end Tether.Endpoint
