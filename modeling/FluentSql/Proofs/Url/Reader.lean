import FluentSql.Proofs.Url.Escape
import FluentSql.Url.Reader
import Mathlib.Data.List.TakeWhile

namespace FluentSql.Url

/-- Small letters and digits, of which the first is a letter. -/
def isHostName : Text → Bool
  | [] => false
  | c :: t => c.isLower && t.all fun d => d.isLower || d.isDigit

/-- The characters of a host name and a port, and of what stands before them. -/
def isAuthorityPart (c : Char) : Bool := c == ':' || c == '@' || isEscapePart c

theorem ne_of_kind {kind : Char → Bool} {c d : Char} (hc : kind c = true) (hd : kind d = false) :
    c ≠ d := by
  rintro rfl
  rw [hc] at hd
  cases hd

/-- A character of a kind is in no text that has none of it. -/
theorem notMem_of_kind {kind : Char → Bool} {c : Char} {t : Text} (hc : kind c = true)
    (ht : t.any kind = false) : c ∉ t := fun hm => List.any_eq_false.mp ht c hm hc

theorem isAuthorityPart_code {c : Char} (h : isAuthorityPart c = true) : 0x20 < c.toNat := by
  simp only [isAuthorityPart, isEscapePart, Bool.or_eq_true, beq_iff_eq, Text.isAlphanum_iff] at h
  obtain (rfl | rfl) | rfl | h := h
  · decide
  · decide
  · decide
  · omega

theorem isHostName_chars {t : Text} (h : isHostName t = true) :
    t ≠ [] ∧ ∀ c ∈ t, c.isAlphanum = true := by
  cases t with
  | nil => simp [isHostName] at h
  | cons c t =>
    simp only [isHostName, Bool.and_eq_true, List.all_eq_true, Bool.or_eq_true] at h
    obtain ⟨hc, ht⟩ := h
    have hlower {d : Char} (hd : d.isLower = true) : d.isAlphanum = true := by
      change (d.isUpper || d.isLower || d.isDigit) = true
      rw [hd, Bool.or_true, Bool.true_or]
    refine ⟨by simp, ?_⟩
    rw [List.forall_mem_cons]
    exact ⟨hlower hc, fun d hd => (ht d hd).elim hlower fun hd => by simp [Char.isAlphanum, hd]⟩

/-- Nothing is taken off a text without control characters and blanks. -/
theorem clean_eq_self {t : Text} (h : ∀ c ∈ t, 0x20 < c.toNat) : clean t = t := by
  have hdrop (u : Text) (hu : ∀ c ∈ u, 0x20 < c.toNat) :
      u.dropWhile (fun c => decide (c.toNat ≤ 0x20)) = u := by
    cases u with
    | nil => rfl
    | cons c u =>
      have hc := hu c (by simp)
      exact List.dropWhile_cons_of_neg (by simpa using hc)
  unfold clean
  dsimp only
  rw [hdrop t h, hdrop t.reverse (by simpa using h), List.reverse_reverse, List.filter_eq_self]
  intro c hc
  have hne {d : Char} (hd : d.toNat ≤ 0x20) : c ≠ d := by
    rintro rfl
    exact absurd (h c hc) (by omega)
  simp [hne (d := '\t') (by decide), hne (d := '\n') (by decide), hne (d := '\r') (by decide)]

/-- The host ends at the first colon after it, if it has no brackets. -/
theorem takeHost_append {host : Text} (h : ∀ c ∈ host, c.isAlphanum = true) (port : Text) :
    takeHost false (host ++ ':' :: port) = (host, some port) := by
  induction host with
  | nil => rfl
  | cons c host ih =>
    have hc := h c (by simp)
    have hcolon : c ≠ ':' := ne_of_kind hc rfl
    have hbracket : (c == '[') = false := beq_eq_false_iff_ne.mpr (ne_of_kind hc rfl)
    rw [List.cons_append, takeHost, if_neg (by simp [hcolon])]
    dsimp only
    rw [hbracket, Bool.false_and, Bool.or_false, ih fun d hd => h d (by simp [hd])]

theorem escapeControls_eq_self {t : Text} (h : ∀ c ∈ t, c.isAlphanum = true) :
    escapeControls t = t := by
  unfold escapeControls
  induction t with
  | nil => rfl
  | cons c t ih =>
    have hc := h c (by simp)
    rw [Text.isAlphanum_iff] at hc
    rw [List.flatMap_cons, if_pos (by omega), ih fun d hd => h d (by simp [hd])]
    rfl

theorem readHost_name {host : Text} (h : ∀ c ∈ host, c.isAlphanum = true) :
    readHost host = .ok host := by
  have hbracket : readBracket? host = none := by
    unfold readBracket?
    split
    · exact absurd (h '[' (by simp)) (by decide)
    · rfl
  have hforbidden : host.any forbidden.contains = false := by
    rw [List.any_eq_false]
    intro c hc hm
    exact notMem_of_kind (t := forbidden) (h c hc) (by decide) (by simpa using hm)
  rw [readHost, hbracket, Option.getD_none, hforbidden, escapeControls_eq_self h]
  rfl

theorem readPort_decimal {n : Nat} (h : n ≤ mostPort) :
    readPort (Text.decimal n) = .ok (some n, []) := by
  have hdigits := Text.decimal_chars n
  have htake : (Text.decimal n).takeWhile Char.isDigit = Text.decimal n :=
    List.takeWhile_eq_self_iff.mpr hdigits
  have hdrop : (Text.decimal n).dropWhile Char.isDigit = [] :=
    List.dropWhile_eq_nil_iff.mpr hdigits
  have hsome : (Text.decimal n).isEmpty = false := by simp [Text.decimal]
  unfold readPort
  dsimp only
  rw [htake, hdrop, if_pos (.inl rfl), hsome, if_neg (by simp), Text.ofDecimal_decimal, if_pos h]

/-- The text of an authority with escaped credentials. -/
def authority (user password host : Text) (port : Nat) : Text :=
  escape user ++ ':' :: escape password ++ '@' :: (host ++ ':' :: Text.decimal port)

theorem isAuthorityPart_authority (user password : Text) {host : Text}
    (h : ∀ c ∈ host, c.isAlphanum = true) (port : Nat) :
    ∀ c ∈ authority user password host port, isAuthorityPart c = true := by
  have hescaped (t : Text) : ∀ c ∈ escape t, isAuthorityPart c = true := fun c hc => by
    simp [isAuthorityPart, isEscapePart_escape t c hc]
  have hplain (c : Char) (hc : c.isAlphanum = true) : isAuthorityPart c = true := by
    simp [isAuthorityPart, isEscapePart, hc]
  have hdigits : ∀ c ∈ Text.decimal port, isAuthorityPart c = true := fun c hc => by
    have hdigit := Text.decimal_chars port c hc
    exact hplain c (by simp [Char.isAlphanum, hdigit])
  simp only [authority, List.forall_mem_append, List.forall_mem_cons]
  exact ⟨⟨hescaped user, rfl, hescaped password⟩, rfl, fun c hc => hplain c (h c hc), rfl, hdigits⟩

theorem splitAuthority_authority (user password : Text) {host : Text}
    (h : ∀ c ∈ host, c.isAlphanum = true) (port : Nat) :
    splitAuthority (authority user password host port) =
      ⟨escape user, escape password, host, some (Text.decimal port)⟩ := by
  have hat : '@' ∉ host ++ ':' :: Text.decimal port := by
    intro hm
    simp only [List.mem_append, List.mem_cons] at hm
    obtain hm | hm | hm := hm
    · exact absurd (h '@' hm) (by decide)
    · exact absurd hm (by decide)
    · exact absurd (Text.decimal_chars port '@' hm) (by decide)
  have hcredentials : Text.cutAt? ':' (escape user ++ ':' :: escape password) =
      some (escape user, escape password) :=
    Text.cutAt?_eq_some_iff.mpr ⟨rfl, notMem_escape rfl user⟩
  unfold splitAuthority authority
  rw [Text.cutAtLast?_append _ hat]
  dsimp only [Option.getD_some]
  rw [hcredentials, Option.getD_some, takeHost_append h]

theorem readAuthority_authority (user password : Text) {host : Text}
    (h : ∀ c ∈ host, c.isAlphanum = true) (hne : host ≠ []) {port : Nat} (hport : port ≤ mostPort)
    (path : Text) (query : Option Text) :
    readAuthority (authority user password host port) ('/' :: path) false query =
      .ok ⟨escape user, escape password, some host, some port, resolvePath path, query⟩ := by
  have hempty : host.isEmpty = false := List.isEmpty_eq_false_iff.mpr hne
  have hlong : authority user password host port ≠ ['@'] := by
    intro he
    have hmem : ':' ∈ authority user password host port := by simp [authority]
    rw [he] at hmem
    exact absurd hmem (by decide)
  have hnumber : readPort? (some (Text.decimal port)) = .ok (some port, []) :=
    readPort_decimal hport
  unfold readAuthority
  rw [if_neg (fun hc => hlong hc.1), splitAuthority_authority user password h port]
  dsimp only
  rw [readHost_name h, hnumber]
  simp [hempty, bind, Except.bind, pathAfter]

/-- A URL with an authority, a path and a query is taken apart at the characters between them. -/
theorem readParts_append {a path query : Text} (ha : ∀ c ∈ a, c ∉ ['/', '?', '#'])
    (hpath : ∀ c ∈ path, c ∉ ['?', '#']) (hquery : '#' ∉ query) :
    readParts ("//".toList ++ (a ++ '/' :: path ++ '?' :: query)) =
      readAuthority a ('/' :: path) false (some query) := by
  let inBody (c : Char) : Bool := !(c == '?' || c == '#')
  have hbody : ∀ c ∈ "//".toList ++ (a ++ '/' :: path), inBody c = true := by
    have hin {c : Char} (hc : c ∉ ['?', '#']) : inBody c = true := by simpa [inBody] using hc
    simp only [List.forall_mem_append, List.forall_mem_cons]
    refine ⟨List.all_eq_true.mp rfl, fun c hc => hin ?_, rfl, fun c hc => hin (hpath c hc)⟩
    exact fun hm => ha c hc (List.mem_cons_of_mem _ hm)
  have hslash : ∀ c ∈ a, (c != '/') = true := fun c hc => by
    have hne := ha c hc
    simp_all
  have hwhole : "//".toList ++ (a ++ '/' :: path ++ '?' :: query) =
      ("//".toList ++ (a ++ '/' :: path)) ++ '?' :: query := by simp
  have htake : (("//".toList ++ (a ++ '/' :: path)) ++ '?' :: query).takeWhile inBody =
      '/' :: '/' :: (a ++ '/' :: path) := Text.takeWhile_span hbody (by simp [inBody])
  have hdrop : (("//".toList ++ (a ++ '/' :: path)) ++ '?' :: query).dropWhile inBody =
      '?' :: query := Text.dropWhile_span hbody (by simp [inBody])
  have hkept : query.takeWhile (· != '#') = query :=
    List.takeWhile_eq_self_iff.mpr fun c hc => by
      have hne : c ≠ '#' := fun he => hquery (he ▸ hc)
      simpa using hne
  rw [hwhole, readParts]
  dsimp only
  rw [htake, hdrop]
  change readAuthority ((a ++ '/' :: path).takeWhile (· != '/'))
    ((a ++ '/' :: path).dropWhile (· != '/')) _ (some (query.takeWhile (· != '#'))) = _
  rw [Text.takeWhile_span hslash (by simp), Text.dropWhile_span hslash (by simp), hkept]
  rfl

/-- A form with one entry. -/
theorem formPairs_entry {name : Text} (hand : '&' ∉ name) (heq : '=' ∉ name) (value : Text) :
    formPairs (name ++ '=' :: escape value) = [(formDecode name, value)] := by
  have hsplit : '&' ∉ name ++ '=' :: escape value := by
    simp [hand, notMem_escape (c := '&') rfl value]
  have hcut : Text.cutAt? '=' (name ++ '=' :: escape value) = some (name, escape value) :=
    Text.cutAt?_eq_some_iff.mpr ⟨rfl, heq⟩
  unfold formPairs
  rw [Text.splitAt_of_notMem hsplit]
  simp [hcut, formDecode_escape]

end FluentSql.Url
