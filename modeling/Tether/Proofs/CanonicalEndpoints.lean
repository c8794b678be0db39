import Mathlib.Data.List.TakeWhile
import Tether.Proofs.Hosts
import Tether.Connection.Basic

/-!
# Endpoints are read from their own texts

The parts of an endpoint that was read are `Canonical`: no part holds a character that it would
have to escape, no segment is a dot segment in any spelling, and the host and the port are in their
one form. On such parts the steps of reading change nothing, and no part holds the mark at which
the next one begins; so the text of the endpoint is taken apart into the parts it was joined from.
-/

namespace Tether.Endpoint

/-! ## Escaping -/

/-- What holds of the percent sign, of the hexadecimal digits and of all that is not escaped holds
of an escaped text. -/
theorem forall_mem_escapeText {P : Char → Prop} {s : EscapeSet} {cs : List Char}
    (hpercent : P '%') (hdigit : ∀ d, d < 16 → P (hexUpper d))
    (hkept : ∀ c ∈ cs, s.mem c = false → P c) : ∀ c ∈ escapeText s cs, P c := by
  intro c hc
  obtain ⟨d, hd, hc⟩ := List.mem_flatMap.mp hc
  unfold escapeChar at hc
  split_ifs at hc with hmem
  · obtain ⟨b, -, hc⟩ := List.mem_flatMap.mp hc
    have hb : b.toNat < 256 := b.toNat_lt
    simp only [escapeByte, List.mem_cons, List.not_mem_nil, or_false] at hc
    rcases hc with rfl | rfl | rfl
    · exact hpercent
    · exact hdigit _ (by omega)
    · exact hdigit _ (by omega)
  · rw [List.mem_singleton] at hc
    exact hc ▸ hkept d hd (by simpa using hmem)

theorem escapeText_eq_self {s : EscapeSet} {cs : List Char} (h : ∀ c ∈ cs, s.mem c = false) :
    escapeText s cs = cs := by
  induction cs with
  | nil => rfl
  | cons c cs ih =>
    obtain ⟨hc, hcs⟩ := List.forall_mem_cons.mp h
    rw [escapeText, List.flatMap_cons, ← escapeText, ih hcs, escapeChar, hc]
    rfl

theorem escapeText_ne_nil (s : EscapeSet) {cs : List Char} (h : cs ≠ []) :
    escapeText s cs ≠ [] := by
  obtain ⟨c, cs, rfl⟩ := List.exists_cons_of_ne_nil h
  rw [escapeText, List.flatMap_cons, escapeChar]
  split_ifs
  · intro hnil
    obtain ⟨b, bs, hbytes⟩ := List.exists_cons_of_ne_nil (String.utf8EncodeChar_ne_nil (c := c))
    rw [hbytes] at hnil
    simp [escapeByte] at hnil
  · simp

/-! ## Paths -/

/-- Segments that stand for a place of their own. -/
def IsProper (segment : List Char) : Prop :=
  isDot segment = false ∧ isDoubleDot segment = false

theorem isProper_nil : IsProper [] := ⟨by decide, by decide⟩

theorem of_mem_parent {done : List (List Char)} {segment : List Char}
    (h : segment ∈ parent done) : segment ∈ done := by
  cases done with
  | nil => exact h
  | cons last rest =>
    rw [parent] at h
    split_ifs at h
    · exact h
    · exact List.mem_cons_of_mem _ h

/-- Resolving leaves no dot segments, and adds nothing but empty segments. -/
theorem of_mem_resolve {done segments : List (List Char)} {segment : List Char}
    (hdone : ∀ s ∈ done, IsProper s) (h : segment ∈ resolve done segments) :
    IsProper segment ∧ (segment = [] ∨ segment ∈ done ∨ segment ∈ segments) := by
  fun_induction resolve done segments with
  | case1 done =>
    rw [List.mem_reverse] at h
    exact ⟨hdone _ h, .inr (.inl h)⟩
  | case2 done last hdots =>
    rw [List.mem_reverse] at h
    rcases List.mem_cons.mp h with rfl | h
    · exact ⟨isProper_nil, .inl rfl⟩
    · exact ⟨hdone _ (of_mem_parent h), .inr (.inl (of_mem_parent h))⟩
  | case3 done last hdots hdot =>
    rw [List.mem_reverse] at h
    rcases List.mem_cons.mp h with rfl | h
    · exact ⟨isProper_nil, .inl rfl⟩
    · exact ⟨hdone _ h, .inr (.inl h)⟩
  | case4 done last hdots hdot =>
    rw [List.mem_reverse] at h
    rcases List.mem_cons.mp h with rfl | h
    · exact ⟨⟨by simpa using hdot, by simpa using hdots⟩, .inr (.inr List.mem_cons_self)⟩
    · exact ⟨hdone _ h, .inr (.inl h)⟩
  | case5 done first rest hlong hdots ih =>
    obtain ⟨hproper, hfrom⟩ := ih (fun s hs => hdone s (of_mem_parent hs)) h
    refine ⟨hproper, hfrom.imp_right (Or.imp of_mem_parent (List.mem_cons_of_mem _))⟩
  | case6 done first rest hlong hdots hdot ih =>
    obtain ⟨hproper, hfrom⟩ := ih hdone h
    exact ⟨hproper, hfrom.imp_right (Or.imp_right (List.mem_cons_of_mem _))⟩
  | case7 done first rest hlong hdots hdot ih =>
    have hfirst : IsProper first := ⟨by simpa using hdot, by simpa using hdots⟩
    obtain ⟨hproper, hfrom⟩ := ih (List.forall_mem_cons.mpr ⟨hfirst, hdone⟩) h
    refine ⟨hproper, hfrom.imp_right ?_⟩
    rintro (hmem | hmem)
    · rcases List.mem_cons.mp hmem with rfl | hmem
      · exact .inr List.mem_cons_self
      · exact .inl hmem
    · exact .inr (List.mem_cons_of_mem _ hmem)

theorem resolve_ne_nil {done segments : List (List Char)} (h : segments ≠ []) :
    resolve done segments ≠ [] := by
  fun_induction resolve done segments with
  | case1 => exact absurd rfl h
  | case2 => simp
  | case3 => simp
  | case4 => simp
  | case5 done first rest hlong hdots ih => exact ih hlong
  | case6 done first rest hlong hdots hdot ih => exact ih hlong
  | case7 done first rest hlong hdots hdot ih => exact ih hlong

theorem resolve_of_isProper {done segments : List (List Char)}
    (h : ∀ s ∈ segments, IsProper s) : resolve done segments = done.reverse ++ segments := by
  fun_induction resolve done segments with
  | case1 => simp
  | case2 done last hdots => exact absurd hdots (by simp [(h last List.mem_cons_self).2])
  | case3 done last hdots hdot => exact absurd hdot (by simp [(h last List.mem_cons_self).1])
  | case4 => simp
  | case5 done first rest hlong hdots =>
    exact absurd hdots (by simp [(h first List.mem_cons_self).2])
  | case6 done first rest hlong hdots hdot =>
    exact absurd hdot (by simp [(h first List.mem_cons_self).1])
  | case7 done first rest hlong hdots hdot ih =>
    rw [ih fun s hs => h s (List.mem_cons_of_mem _ hs)]
    simp

/-! ## What reading gives -/

/-- The parts of an endpoint are as reading leaves them. -/
structure Canonical (e : Endpoint) : Prop where
  username : ∀ c ∈ e.username.toList, EscapeSet.userinfo.mem c = false
  password : ∀ p, e.password = some p → p ≠ "" ∧ ∀ c ∈ p.toList, EscapeSet.userinfo.mem c = false
  host : e.host.Canonical
  port : ∀ n, e.port = some n → n ≤ 65535 ∧ n ≠ usualPort e.secure
  segments_ne_nil : e.segments ≠ []
  segments : ∀ s ∈ e.segments, IsProper s.toList ∧
    ∀ c ∈ s.toList, EscapeSet.path.mem c = false ∧ isSlash c = false
  query : ∀ q, e.query = some q → ∀ c ∈ q.toList, EscapeSet.query.mem c = false
  fragment : ∀ f, e.fragment = some f → ∀ c ∈ f.toList, EscapeSet.fragment.mem c = false

theorem of_credentials (cs : List Char) :
    (∀ c ∈ (credentials cs).1.toList, EscapeSet.userinfo.mem c = false) ∧
      ∀ p, (credentials cs).2 = some p →
        p ≠ "" ∧ ∀ c ∈ p.toList, EscapeSet.userinfo.mem c = false := by
  have hescaped : ∀ part : List Char, ∀ c ∈ (String.ofList (escapeText .userinfo part)).toList,
      EscapeSet.userinfo.mem c = false := by
    intro part
    rw [String.toList_ofList]
    exact forall_mem_escapeText (by decide) (by decide) fun _ _ h => h
  refine ⟨hescaped _, fun p hp => ?_⟩
  simp only [credentials] at hp
  split_ifs at hp with hempty
  cases hp
  refine ⟨fun hnil => ?_, hescaped _⟩
  rw [← String.toList_inj, String.toList_ofList] at hnil
  exact escapeText_ne_nil _ (by simpa using hempty) hnil

theorem of_readPort {usual port : Option ℕ} {cs rest : List Char}
    (h : readPort usual cs = .ok (port, rest)) {n : ℕ} (hn : port = some n) :
    n ≤ 65535 ∧ usual ≠ some n := by
  simp only [readPort] at h
  split_ifs at h with hlarge hend husual
  · cases h
    cases hn
  · cases h
    cases hn
    rw [Bool.or_eq_true, not_or] at husual
    exact ⟨by omega, by simpa using husual.2⟩

theorem of_readPath (cs : List Char) :
    readPath cs ≠ [] ∧ ∀ s ∈ readPath cs, IsProper s.toList ∧
      ∀ c ∈ s.toList, EscapeSet.path.mem c = false ∧ isSlash c = false := by
  simp only [readPath]
  generalize hslashed : List.map _ (_ : List Char) = slashed
  have hback : '\\' ∉ slashed := by
    rw [← hslashed]
    intro hmem
    obtain ⟨c, -, hc⟩ := List.mem_map.mp hmem
    split_ifs at hc with heq
    · exact absurd hc (by decide)
    · exact heq (by simp [hc])
  refine ⟨?_, fun s hs => ?_⟩
  · rw [ne_eq, List.map_eq_nil_iff]
    exact resolve_ne_nil (by simpa using cut_ne_nil '/' slashed)
  · obtain ⟨segment, hsegment, rfl⟩ := List.mem_map.mp hs
    rw [String.toList_ofList]
    obtain ⟨hproper, hfrom⟩ := of_mem_resolve (by simp) hsegment
    refine ⟨hproper, ?_⟩
    rcases hfrom with rfl | hmem | hmem
    · simp
    · simp at hmem
    · obtain ⟨part, hpart, rfl⟩ := List.mem_map.mp hmem
      obtain ⟨hslash, hpart⟩ := of_mem_cut hpart
      refine forall_mem_escapeText (by decide) (by decide) fun c hc hkept => ⟨hkept, ?_⟩
      have hne : c ≠ '/' ∧ c ≠ '\\' :=
        ⟨fun h => hslash (h ▸ hc), fun h => hback (h ▸ hpart c hc)⟩
      simp [isSlash, hne]

theorem of_readAuthority {usual : Option ℕ} {cs rest : List Char} {a : Authority}
    (h : readAuthority true usual cs = .ok (a, rest)) :
    (∃ user, a.credentials = (Option.map Endpoint.credentials user).getD ("", none)) ∧
      (∀ host, a.host = some host → host.Canonical) ∧
      ∀ n, a.port = some n → n ≤ 65535 ∧ usual ≠ some n := by
  simp only [readAuthority, bind, Except.bind, pure, Except.pure, throw, throwThe,
    MonadExceptOf.throw, if_true, Bool.not_true, Bool.false_and, Bool.false_eq_true, if_false] at h
  generalize (splitUserinfo true cs).1 = user at h
  generalize (splitUserinfo true cs).2 = side at h
  generalize List.take _ side = hostText at h
  generalize List.drop _ side = after at h
  cases hparse : Host.parse hostText with
  | error fault =>
    simp only [hparse, Functor.map, Except.map] at h
    split_ifs at h
  | ok host =>
    have hhost : ∀ found, some host = some found → Host.Canonical found := by
      rintro found ⟨⟩
      exact Host.canonical_of_parse hparse
    simp only [hparse, Functor.map, Except.map] at h
    split_ifs at h
    split at h
    · rename_i digits _
      cases hport : readPort usual digits with
      | error fault => simp [hport] at h
      | ok found =>
        simp only [hport] at h
        cases h
        exact ⟨⟨user, rfl⟩, hhost, fun n hn => of_readPort hport hn⟩
    · cases h
      exact ⟨⟨user, rfl⟩, hhost, nofun⟩

theorem canonical_of_readLink {secure : Bool} {cs : List Char} {e : Endpoint}
    (h : readLink secure cs = .ok e) : e.Canonical ∧ e.secure = secure := by
  simp only [readLink, bind, Except.bind, pure, Except.pure, throw, throwThe,
    MonadExceptOf.throw] at h
  cases hread : readAuthority true (some (usualPort secure)) (cs.dropWhile isSlash) with
  | error fault => simp [hread] at h
  | ok found =>
    obtain ⟨a, rest⟩ := found
    obtain ⟨⟨user, huser⟩, hhost, hport⟩ := of_readAuthority hread
    simp only [hread] at h
    cases hfound : a.host with
    | none => simp [hfound] at h
    | some host =>
      simp only [hfound] at h
      cases h
      have hlogin : (∀ c ∈ a.credentials.1.toList, EscapeSet.userinfo.mem c = false) ∧
          ∀ p, a.credentials.2 = some p →
            p ≠ "" ∧ ∀ c ∈ p.toList, EscapeSet.userinfo.mem c = false := by
        rw [huser]
        cases user with
        | none => exact ⟨by simp, by simp⟩
        | some cs => exact of_credentials cs
      refine ⟨⟨hlogin.1, hlogin.2, hhost host hfound, fun n hn => ?_, (of_readPath _).1,
        (of_readPath _).2, ?_, ?_⟩, rfl⟩
      · obtain ⟨hle, hne⟩ := hport n hn
        exact ⟨hle, fun heq => hne (by rw [heq])⟩
      · intro q hq
        obtain ⟨cs, -, rfl⟩ := Option.map_eq_some_iff.mp hq
        rw [String.toList_ofList]
        exact forall_mem_escapeText (by decide) (by decide) fun _ _ h => h
      · intro f hf
        obtain ⟨cs, -, rfl⟩ := Option.map_eq_some_iff.mp hf
        rw [String.toList_ofList]
        exact forall_mem_escapeText (by decide) (by decide) fun _ _ h => h

theorem canonical_of_parse {text : String} {e : Endpoint} (h : parse text = .ok e) :
    e.Canonical ∧ ∃ rest, splitScheme (clean text) = some (e.scheme, rest) := by
  unfold parse at h
  split at h
  · cases h
  · rename_i scheme rest hsplit
    have hlink : ∀ secure, scheme = schemeOf secure → readLink secure rest = .ok e →
        e.Canonical ∧ ∃ rest, splitScheme (clean text) = some (e.scheme, rest) := by
      intro secure hscheme hread
      obtain ⟨hcanonical, hsecure⟩ := canonical_of_readLink hread
      exact ⟨hcanonical, rest, by rw [hsplit, hscheme, Endpoint.scheme, hsecure]⟩
    split_ifs at h with hplain hsecure
    · exact hlink false (beq_iff_eq.mp hplain) h
    · exact hlink true (beq_iff_eq.mp hsecure) h
    · cases hother : checkOther scheme rest with
      | error fault =>
        rw [hother] at h
        cases h
      | ok _ =>
        rw [hother] at h
        cases h

/-! ## Reading what was written -/

theorem ends_of_userinfo {c : Char} (h : EscapeSet.userinfo.mem c = false) :
    endsAuthority true c = false ∧ isSlash c = false ∧ c ≠ ':' ∧ c ≠ '@' := by
  simp only [EscapeSet.mem, EscapeSet.userinfo, EscapeSet.path, EscapeSet.fragment,
    Bool.or_eq_false_iff, List.contains_eq_mem, List.cons_append, List.nil_append, List.mem_cons,
    List.not_mem_nil, or_false, decide_eq_false_iff_not, not_or] at h
  simp [endsAuthority, isSlash, h]

theorem splitUserinfo_of_not_mem {side rest : List Char}
    (hside : ∀ c ∈ side, endsAuthority true c = false ∧ c ≠ '@') :
    splitUserinfo true (side ++ '/' :: rest) = (none, side ++ '/' :: rest) := by
  have hauthority : (side ++ '/' :: rest).takeWhile (!endsAuthority true ·) = side :=
    (List.takeWhile_dropWhile_append (fun c hc => by simp [(hside c hc).1])
      (by simp [endsAuthority])).1
  have hhost : side.reverse.takeWhile (· != '@') = side.reverse :=
    List.takeWhile_eq_self_iff.mpr fun c hc => by simpa using (hside c (by simpa using hc)).2
  simp [splitUserinfo, hauthority, hhost]

theorem splitUserinfo_append {user side rest : List Char}
    (huser : ∀ c ∈ user, endsAuthority true c = false)
    (hside : ∀ c ∈ side, endsAuthority true c = false ∧ c ≠ '@') :
    splitUserinfo true (user ++ '@' :: (side ++ '/' :: rest)) =
      (some user, side ++ '/' :: rest) := by
  have hauthority : (user ++ '@' :: (side ++ '/' :: rest)).takeWhile (!endsAuthority true ·) =
      user ++ '@' :: side := by
    rw [← List.cons_append, ← List.append_assoc]
    refine (List.takeWhile_dropWhile_append ?_ (by simp [endsAuthority])).1
    refine List.forall_mem_append.mpr ⟨fun c hc => by simp [huser c hc], ?_⟩
    exact List.forall_mem_cons.mpr ⟨by decide, fun c hc => by simp [(hside c hc).1]⟩
  have hhost : ((user ++ '@' :: side).reverse).takeWhile (· != '@') = side.reverse := by
    rw [List.reverse_append, List.reverse_cons, List.append_assoc, List.singleton_append]
    exact (List.takeWhile_dropWhile_append
      (fun c hc => by simpa using (hside c (by simpa using hc)).2) (by simp)).1
  have hsize : (user ++ '@' :: side).length - side.length - 1 = user.length := by
    rw [List.length_append, List.length_cons]
    omega
  have hdrop : (user ++ '@' :: (side ++ '/' :: rest)).drop (user.length + 1) =
      side ++ '/' :: rest := by
    rw [List.drop_append, List.drop_of_length_le (by omega), List.nil_append]
    simp
  simp only [splitUserinfo, hauthority, hhost, List.length_reverse, hsize, hdrop, List.take_left]
  rw [if_neg]
  rw [List.length_append, List.length_cons]
  omega

theorem credentials_of_not_mem {name : List Char}
    (h : ∀ c ∈ name, EscapeSet.userinfo.mem c = false) :
    credentials name = (String.ofList name, none) := by
  have hname : ∀ c ∈ name, (c != ':') = true := by
    intro c hc
    simpa using (ends_of_userinfo (h c hc)).2.2.1
  have hall : name.takeWhile (· != ':') = name := List.takeWhile_eq_self_iff.mpr hname
  have hnone : name.dropWhile (· != ':') = [] := List.dropWhile_eq_nil_iff.mpr hname
  simp [credentials, hall, hnone, escapeText_eq_self h]

theorem credentials_append {name password : List Char} (hne : password ≠ [])
    (hname : ∀ c ∈ name, EscapeSet.userinfo.mem c = false)
    (hpassword : ∀ c ∈ password, EscapeSet.userinfo.mem c = false) :
    credentials (name ++ ':' :: password) =
      (String.ofList name, some (String.ofList password)) := by
  have hcolon : ∀ c ∈ name, (c != ':') = true := by
    intro c hc
    simpa using (ends_of_userinfo (hname c hc)).2.2.1
  have hsplit : (name ++ ':' :: password).takeWhile (· != ':') = name ∧
      (name ++ ':' :: password).dropWhile (· != ':') = ':' :: password :=
    List.takeWhile_dropWhile_append hcolon (by simp)
  simp [credentials, hsplit, escapeText_eq_self hname, escapeText_eq_self hpassword, hne]

theorem Canonical.splitUserinfo_userinfo {e : Endpoint} (h : e.Canonical) {side : List Char}
    (hside : ∀ c ∈ side, endsAuthority true c = false ∧ c ≠ '@') (rest : List Char) :
    ∃ user, splitUserinfo true (e.userinfo.toList ++ (side ++ '/' :: rest)) =
        (user, side ++ '/' :: rest) ∧ user ≠ some [] ∧
      (user.map credentials).getD ("", none) = (e.username, e.password) := by
  have hname := h.username
  cases hpassword : e.password with
  | some p =>
    obtain ⟨hne, hp⟩ := h.password p hpassword
    refine ⟨some (e.username.toList ++ ':' :: p.toList), ?_, by simp, ?_⟩
    · have huser : e.userinfo.toList = e.username.toList ++ ':' :: p.toList ++ ['@'] := by
        simp [userinfo, hpassword]
      rw [huser, List.append_assoc, List.singleton_append]
      refine splitUserinfo_append (List.forall_mem_append.mpr ⟨?_, ?_⟩) hside
      · exact fun c hc => (ends_of_userinfo (hname c hc)).1
      · exact List.forall_mem_cons.mpr ⟨by decide, fun c hc => (ends_of_userinfo (hp c hc)).1⟩
    · rw [Option.map_some, Option.getD_some, credentials_append (by simpa using hne) hname hp,
        String.ofList_toList, String.ofList_toList]
  | none =>
    by_cases hempty : e.username = ""
    · refine ⟨none, ?_, by simp, ?_⟩
      · have huser : e.userinfo.toList = [] := by simp [userinfo, hpassword, hempty]
        rw [huser, List.nil_append]
        exact splitUserinfo_of_not_mem hside
      · rw [hempty]
        rfl
    · refine ⟨some e.username.toList, ?_, by simpa using hempty, ?_⟩
      · have huser : e.userinfo.toList = e.username.toList ++ ['@'] := by
          simp [userinfo, hpassword, hempty]
        rw [huser, List.append_assoc, List.singleton_append]
        exact splitUserinfo_append (fun c hc => (ends_of_userinfo (hname c hc)).1) hside
      · rw [Option.map_some, Option.getD_some, credentials_of_not_mem hname, String.ofList_toList]

theorem readPort_toDigits {usual : Option ℕ} {n : ℕ} (hn : n ≤ 65535) (hne : usual ≠ some n)
    (rest : List Char) :
    readPort usual (Nat.toDigits 10 n ++ '/' :: rest) = .ok (some n, '/' :: rest) := by
  have hsplit : (Nat.toDigits 10 n ++ '/' :: rest).takeWhile Char.isDigit = Nat.toDigits 10 n ∧
      (Nat.toDigits 10 n ++ '/' :: rest).dropWhile Char.isDigit = '/' :: rest :=
    List.takeWhile_dropWhile_append (Nat.toDigits_isDigit n) (by simp)
  have hnumber : (Nat.toDigits 10 n).foldl (fun m c => 10 * m + (c.toNat - '0'.toNat)) 0 = n :=
    Nat.ofDigitChars_ten_toDigits
  simp only [readPort, hsplit, hnumber]
  simp [isSlash, hne, hn]

/-- What follows a host in the text of an endpoint, up to the path. -/
def portChars (port : Option ℕ) : List Char := (marked ":" (port.map toString)).toList

theorem portChars_some (n : ℕ) : portChars (some n) = ':' :: Nat.toDigits 10 n := by
  simp [portChars, marked]

theorem forall_mem_portChars {P : Char → Prop} (hcolon : P ':')
    (hdigit : ∀ d, d < 16 → P (Nat.digitChar d)) (port : Option ℕ) : ∀ c ∈ portChars port, P c := by
  cases port with
  | none => simp [portChars, marked]
  | some n =>
    rw [portChars_some]
    refine List.forall_mem_cons.mpr ⟨hcolon, ?_⟩
    exact Nat.forall_mem_toDigits (by decide) (fun d hd => hdigit d (by omega)) n

theorem Canonical.readAuthority_eq {e : Endpoint} (h : e.Canonical) (rest : List Char) :
    readAuthority true (some (usualPort e.secure))
        (e.userinfo.toList ++ (e.host.text.toList ++ portChars e.port ++ '/' :: rest)) =
      .ok (⟨(e.username, e.password), some e.host, e.port⟩, '/' :: rest) := by
  have hside : ∀ c ∈ e.host.text.toList ++ portChars e.port,
      endsAuthority true c = false ∧ c ≠ '@' := by
    refine List.forall_mem_append.mpr
      ⟨fun c hc => ?_, forall_mem_portChars (by decide) (by decide) e.port⟩
    have hplain := h.host.isPlain_of_mem c hc
    simp only [Host.isPlain, Bool.and_eq_true, Bool.not_eq_true', bne_iff_ne] at hplain
    exact ⟨hplain.2, hplain.1.2⟩
  obtain ⟨user, hsplit, huser, hlogin⟩ := h.splitUserinfo_userinfo hside rest
  have hport : hostLength true false (portChars e.port ++ '/' :: rest) = 0 := by
    cases e.port with
    | none => rfl
    | some n =>
      rw [portChars_some]
      rfl
  have hlength := h.host.hostLength_text hport
  have hhost := h.host.parse_text
  have hne := h.host.text_ne_nil
  rw [List.append_assoc] at hsplit ⊢
  have hguard : (user == some [] &&
      (e.host.text.toList ++ (portChars e.port ++ '/' :: rest)).head?.any (endsAuthority true)) =
        false := by
    rw [beq_eq_false_iff_ne.mpr huser, Bool.false_and]
  have hempty : e.host.text.toList.isEmpty = false := by simpa using hne
  simp only [readAuthority, hsplit, hguard, hlength, List.take_left, List.drop_left, hempty, hhost,
    hlogin, Bool.not_true, Bool.false_and, Bool.false_eq_true, if_true, if_false]
  cases hgiven : e.port with
  | none => rfl
  | some n =>
    obtain ⟨hle, husual⟩ := h.port n hgiven
    have hread : readPort (some (usualPort e.secure)) (Nat.toDigits 10 n ++ '/' :: rest) =
        .ok (some n, '/' :: rest) :=
      readPort_toDigits hle (by simpa using husual.symm) rest
    rw [portChars_some, List.cons_append]
    simp only [hread]
    rfl

theorem toList_path {e : Endpoint} (h : e.segments ≠ []) :
    e.path.toList = '/' :: List.intercalate ['/'] (e.segments.map String.toList) := by
  rw [path, String.toList_join]
  revert h
  generalize e.segments = segments
  intro h
  induction segments with
  | nil => exact absurd rfl h
  | cons s segments ih =>
    cases segments with
    | nil => simp
    | cons next segments =>
      rw [List.map_cons, List.flatMap_cons, ih (by simp)]
      simp

theorem Canonical.readPath_eq {e : Endpoint} (h : e.Canonical) :
    readPath e.path.toList = e.segments := by
  have hparts : ∀ part ∈ e.segments.map String.toList,
      ∀ c ∈ part, EscapeSet.path.mem c = false ∧ isSlash c = false := by
    intro part hpart
    obtain ⟨s, hs, rfl⟩ := List.mem_map.mp hpart
    exact (h.segments s hs).2
  have hslash : ∀ part ∈ e.segments.map String.toList, '/' ∉ part :=
    fun part hpart hmem => absurd (hparts part hpart _ hmem).2 (by decide)
  have hback : ∀ c ∈ List.intercalate ['/'] (e.segments.map String.toList), c ≠ '\\' := by
    refine List.forall_mem_intercalate (by decide) fun part hpart c hc heq => ?_
    rw [heq] at hc
    exact absurd (hparts part hpart _ hc).2 (by decide)
  have hslashed : (List.intercalate ['/'] (e.segments.map String.toList)).map
      (fun c => if c == '\\' then '/' else c) =
        List.intercalate ['/'] (e.segments.map String.toList) := by
    refine (List.map_congr_left fun c hc => ?_).trans (List.map_id _)
    simp [hback c hc]
  have hescape : (e.segments.map String.toList).map (escapeText .path) =
      e.segments.map String.toList :=
    (List.map_congr_left fun part hpart =>
      escapeText_eq_self fun c hc => (hparts part hpart c hc).1).trans (List.map_id _)
  have hproper : ∀ part ∈ e.segments.map String.toList, IsProper part := by
    intro part hpart
    obtain ⟨s, hs, rfl⟩ := List.mem_map.mp hpart
    exact (h.segments s hs).1
  rw [toList_path h.segments_ne_nil]
  simp only [readPath, show isSlash '/' = true from rfl, if_true, hslashed]
  rw [cut_intercalate (by simpa using h.segments_ne_nil) hslash, hescape,
    resolve_of_isProper hproper, List.reverse_nil, List.nil_append, List.map_map]
  exact (List.map_congr_left fun s _ => String.ofList_toList).trans (List.map_id _)

theorem Canonical.forall_mem_userinfo {e : Endpoint} (h : e.Canonical) {P : Char → Prop}
    (hcolon : P ':') (hat : P '@') (hkept : ∀ c, EscapeSet.userinfo.mem c = false → P c) :
    ∀ c ∈ e.userinfo.toList, P c := by
  have hname : ∀ c ∈ e.username.toList, P c := fun c hc => hkept c (h.username c hc)
  unfold userinfo
  cases hpassword : e.password with
  | some p =>
    have hp : ∀ c ∈ p.toList, P c := fun c hc => hkept c ((h.password p hpassword).2 c hc)
    simp only [String.toList_append, List.forall_mem_append]
    exact ⟨⟨⟨hname, by simpa using hcolon⟩, hp⟩, by simpa using hat⟩
  | none =>
    simp only
    split_ifs
    · simp
    · rw [String.toList_append]
      exact List.forall_mem_append.mpr ⟨hname, by simpa using hat⟩

theorem Canonical.forall_mem_path {e : Endpoint} (h : e.Canonical) {P : Char → Prop}
    (hslash : P '/') (hkept : ∀ c, EscapeSet.path.mem c = false → P c) :
    ∀ c ∈ e.path.toList, P c := by
  rw [toList_path h.segments_ne_nil]
  refine List.forall_mem_cons.mpr ⟨hslash, List.forall_mem_intercalate hslash ?_⟩
  intro part hpart c hc
  obtain ⟨s, hs, rfl⟩ := List.mem_map.mp hpart
  exact hkept c ((h.segments s hs).2 c hc).1

theorem ends_of_path {c : Char} (h : EscapeSet.path.mem c = false) :
    (c != '?' && c != '#') = true := by
  simp only [EscapeSet.mem, EscapeSet.path, EscapeSet.fragment, Bool.or_eq_false_iff,
    List.contains_eq_mem, List.cons_append, List.nil_append, List.mem_cons, List.not_mem_nil,
    or_false, decide_eq_false_iff_not, not_or] at h
  simp [h]

theorem Canonical.dropWhile_isSlash {e : Endpoint} (h : e.Canonical) (rest : List Char) :
    ('/' :: '/' :: (e.userinfo.toList ++ (e.host.text.toList ++ rest))).dropWhile isSlash =
      e.userinfo.toList ++ (e.host.text.toList ++ rest) := by
  have hfront : ∀ c ∈ e.userinfo.toList ++ e.host.text.toList, isSlash c = false := by
    refine List.forall_mem_append.mpr ⟨?_, fun c hc => ?_⟩
    · exact h.forall_mem_userinfo (by decide) (by decide) fun c hc => (ends_of_userinfo hc).2.1
    · have hplain := h.host.isPlain_of_mem c hc
      simp only [Host.isPlain, endsAuthority, Bool.and_eq_true, Bool.not_eq_true',
        Bool.or_eq_false_iff, Bool.true_and] at hplain
      simp [isSlash, hplain.2]
  have hne : e.userinfo.toList ++ e.host.text.toList ≠ [] := by simp [h.host.text_ne_nil]
  rw [← List.append_assoc]
  obtain ⟨c, cs, hcons⟩ := List.exists_cons_of_ne_nil hne
  rw [hcons] at hfront ⊢
  have hc := hfront c List.mem_cons_self
  simp [hc, show isSlash '/' = true from rfl]

theorem Canonical.readLink_eq {e : Endpoint} (h : e.Canonical) :
    readLink e.secure ('/' :: '/' :: (e.userinfo.toList ++ (e.host.text.toList ++
      (portChars e.port ++ (e.path.toList ++
        ((marked "?" e.query).toList ++ (marked "#" e.fragment).toList)))))) = .ok e := by
  have hpath := toList_path h.segments_ne_nil
  have hauthority := h.readAuthority_eq
    (List.intercalate ['/'] (e.segments.map String.toList) ++
      ((marked "?" e.query).toList ++ (marked "#" e.fragment).toList))
  rw [← List.cons_append, ← hpath, List.append_assoc] at hauthority
  have hends : ∀ c ∈ ((marked "?" e.query).toList ++ (marked "#" e.fragment).toList).head?,
      (c != '?' && c != '#') = false := by
    cases e.query <;> cases e.fragment <;> simp [marked]
  obtain ⟨htake, hdrop⟩ := List.takeWhile_dropWhile_append
    (h.forall_mem_path (P := fun c => (c != '?' && c != '#') = true) (by decide)
      fun c hc => ends_of_path hc) hends
  simp only [readLink, bind, Except.bind, pure, Except.pure, h.dropWhile_isSlash, hauthority, htake,
    hdrop, h.readPath_eq]
  have hquery : ∀ q, e.query = some q → escapeText .query q.toList = q.toList ∧
      ((q.toList ++ (marked "#" e.fragment).toList).takeWhile (· != '#') = q.toList ∧
        (q.toList ++ (marked "#" e.fragment).toList).dropWhile (· != '#') =
          (marked "#" e.fragment).toList) := by
    intro q hq
    refine ⟨escapeText_eq_self (h.query q hq), List.takeWhile_dropWhile_append ?_ ?_⟩
    · intro c hc
      rw [bne_iff_ne]
      rintro rfl
      exact absurd (h.query q hq _ hc) (by decide)
    · cases e.fragment <;> simp [marked]
  have hfragment : ∀ f, e.fragment = some f → escapeText .fragment f.toList = f.toList :=
    fun f hf => escapeText_eq_self (h.fragment f hf)
  clear hauthority hpath hends htake hdrop h
  obtain ⟨secure, username, password, host, port, segments, query, fragment⟩ := e
  simp only [Except.ok.injEq, Endpoint.mk.injEq, true_and] at hquery hfragment ⊢
  cases query with
  | none =>
    cases fragment with
    | none => exact ⟨rfl, rfl⟩
    | some f => simp [marked, hfragment f rfl]
  | some q =>
    obtain ⟨hescape, htake, hdrop⟩ := hquery q rfl
    cases fragment with
    | none =>
      simp only [marked, String.toList_empty, List.append_nil] at htake hdrop
      simp [marked, htake, hdrop, hescape]
    | some f =>
      have hmarked : (marked "#" (some f)).toList = '#' :: f.toList := by simp [marked]
      rw [hmarked] at htake hdrop
      simp [marked, htake, hdrop, hescape, hfragment f rfl]

theorem toList_href (e : Endpoint) :
    e.href.toList = e.scheme.toList ++ ':' :: '/' :: '/' :: (e.userinfo.toList ++
      (e.host.text.toList ++ (portChars e.port ++ (e.path.toList ++
        ((marked "?" e.query).toList ++ (marked "#" e.fragment).toList))))) := by
  simp [href, portChars]

/-- Characters that are neither controls nor the space, and not beyond ASCII. -/
def IsVisible (c : Char) : Prop := 0x21 ≤ c.toNat ∧ c.toNat ≤ 0x7e

instance : DecidablePred IsVisible := fun _ => inferInstanceAs (Decidable (_ ∧ _))

theorem isVisible_of {c : Char} (hcontrol : isControl c = false) (hspace : c ≠ ' ') :
    IsVisible c := by
  simp only [isControl, Bool.or_eq_false_iff, decide_eq_false_iff_not, not_lt, not_le] at hcontrol
  have hne : c.toNat ≠ 0x20 := fun h => hspace (Char.toNat_inj.mp h)
  refine ⟨?_, ?_⟩ <;> omega

theorem isVisible_of_not_mem {s : EscapeSet} (hs : ' ' ∈ s.chars) {c : Char}
    (h : s.mem c = false) : IsVisible c := by
  simp only [EscapeSet.mem, Bool.or_eq_false_iff, List.contains_eq_mem,
    decide_eq_false_iff_not] at h
  refine isVisible_of h.1 ?_
  rintro rfl
  exact h.2 hs

theorem forall_mem_marked {P : Char → Prop} {mark : String} {part : Option String}
    (hmark : ∀ c ∈ mark.toList, P c) (h : ∀ s, part = some s → ∀ c ∈ s.toList, P c) :
    ∀ c ∈ (marked mark part).toList, P c := by
  cases part with
  | none => simp [marked]
  | some s =>
    rw [marked, String.toList_append]
    exact List.forall_mem_append.mpr ⟨hmark, h s rfl⟩

theorem Canonical.isVisible_href {e : Endpoint} (h : e.Canonical) :
    ∀ c ∈ e.href.toList, IsVisible c := by
  have hscheme : ∀ c ∈ e.scheme.toList, IsVisible c := by
    cases hsecure : e.secure <;> simp [scheme, schemeOf, hsecure, IsVisible]
  have hhost : ∀ c ∈ e.host.text.toList, IsVisible c := by
    intro c hc
    have hplain := h.host.isPlain_of_mem c hc
    simp only [Host.isPlain, Bool.and_eq_true, Bool.not_eq_true', bne_iff_ne] at hplain
    exact isVisible_of hplain.1.1.1 hplain.1.1.2
  simp only [toList_href, List.forall_mem_append, List.forall_mem_cons]
  refine ⟨hscheme, by decide, by decide, by decide, ?_, hhost,
    forall_mem_portChars (by decide) (by decide) e.port, ?_, ?_, ?_⟩
  · exact h.forall_mem_userinfo (by decide) (by decide) fun c => isVisible_of_not_mem (by decide)
  · exact h.forall_mem_path (by decide) fun c => isVisible_of_not_mem (by decide)
  · exact forall_mem_marked (by simp [IsVisible]) fun q hq c hc =>
      isVisible_of_not_mem (by decide) (h.query q hq c hc)
  · exact forall_mem_marked (by simp [IsVisible]) fun f hf c hc =>
      isVisible_of_not_mem (by decide) (h.fragment f hf c hc)

theorem clean_of_isVisible {text : String} (h : ∀ c ∈ text.toList, IsVisible c) :
    clean text = text.toList := by
  have hpadding : ∀ c ∈ text.toList, isPadding c = false := by
    intro c hc
    have hc := h c hc
    simp only [isPadding, decide_eq_false_iff_not, not_le]
    exact hc.1
  have hignored : ∀ c ∈ text.toList, (!isIgnored c) = true := by
    intro c hc
    have hc := (h c hc).1
    simp only [isIgnored, Bool.not_eq_true', Bool.or_eq_false_iff, beq_eq_false_iff_ne]
    refine ⟨⟨?_, ?_⟩, ?_⟩ <;> (rintro rfl; exact absurd hc (by decide))
  rw [clean, List.dropWhile_of_forall hpadding, List.dropWhile_of_forall (by simpa using hpadding),
    List.reverse_reverse, List.filter_eq_self.mpr hignored]

/-- The text of an endpoint that was read gives that endpoint, in all its parts. -/
theorem Canonical.parse_href {e : Endpoint} (h : e.Canonical) : parse e.href = .ok e := by
  have hlink := h.readLink_eq
  rw [parse, clean_of_isVisible h.isVisible_href, toList_href]
  cases hsecure : e.secure with
  | false =>
    rw [hsecure] at hlink
    rw [scheme, hsecure]
    exact hlink
  | true =>
    rw [hsecure] at hlink
    rw [scheme, hsecure]
    exact hlink

theorem ofText_eq_ok_iff {text : String} {e : Endpoint} :
    Endpoint.ofText text = .ok e ↔ parse text = .ok e := by
  unfold Endpoint.ofText
  cases parse text <;> simp

/-- An endpoint that is accepted is in its one form: written out it has visible characters only,
and gives itself again, also to a connection that starts. -/
theorem accepted_endpoint_canonical {text : String} {e : Endpoint}
    (h : Endpoint.ofText text = .ok e) :
    (∃ rest, splitScheme (clean text) = some (e.scheme, rest)) ∧
      (e.scheme = "ws" ∨ e.scheme = "wss") ∧ e.host.text ≠ "" ∧
      (∀ n, e.port = some n → n ≠ usualPort e.secure) ∧
      (∀ c ∈ e.href.toList, IsVisible c) ∧ Endpoint.ofText e.href = .ok e ∧
      ∀ {τ : Type} [Transport τ] (c : Connection τ), c.start e.href = c.start text := by
  obtain ⟨hcanonical, hscheme⟩ := canonical_of_parse (ofText_eq_ok_iff.mp h)
  have hagain : Endpoint.ofText e.href = .ok e := ofText_eq_ok_iff.mpr hcanonical.parse_href
  refine ⟨hscheme, ?_, ?_, fun n hn => (hcanonical.port n hn).2, hcanonical.isVisible_href, hagain,
    ?_⟩
  · cases hsecure : e.secure <;> simp [scheme, schemeOf, hsecure]
  · exact fun hempty => hcanonical.host.text_ne_nil (by rw [hempty]; rfl)
  · intro τ _ c
    rw [Connection.start, Connection.start, h, hagain]

/-- Nearly every step of reading has something to do on this text. -/
def untidyText : String :=
  "\t wS:\\\\us er:p@ss@EX%61mple.COM:0443/a/./b\\%2E%2e/\"c\"?q='#f\n g "

theorem untidy_endpoint_canonical :
    ∃ e, Endpoint.ofText untidyText = .ok e ∧
      e.href = "ws://us%20er:p%40ss@example.com:443/a/%22c%22?q=%27#f%20g" ∧
      (∀ c ∈ e.href.toList, IsVisible c) ∧ Endpoint.ofText e.href = .ok e := by
  have hread : Endpoint.ofText untidyText =
      .ok ⟨false, "us%20er", some "p%40ss", .name "example.com", some 443, ["a", "%22c%22"],
        some "q=%27", some "f%20g"⟩ := by rfl
  obtain ⟨-, -, -, -, hvisible, hagain, -⟩ := accepted_endpoint_canonical hread
  exact ⟨_, hread, by decide +kernel, hvisible, hagain⟩

end Tether.Endpoint
