import FluentSql.Proofs.Text.Cutting
import FluentSql.Proofs.Text.Word

namespace FluentSql.Text

/-- A letter with letters and digits after it, `#` with digits, or `#x` with hexadecimal digits. -/
inductive EntityBody : Text → Prop
  | name {c : Char} {t : Text} : c.isAlpha = true → (∀ d ∈ t, d.isAlphanum = true) →
      EntityBody (c :: t)
  | decimal {t : Text} : t ≠ [] → (∀ d ∈ t, d.isDigit = true) → EntityBody ('#' :: t)
  | hex {x : Char} {t : Text} : x = 'x' ∨ x = 'X' → t ≠ [] → (∀ d ∈ t, isHexDigit d = true) →
      EntityBody ('#' :: x :: t)

/-- Text without angle brackets and quotes in which every ampersand starts a character entity. -/
structure Escaped (t : Text) : Prop where
  unmarked : ∀ c ∈ t, c ∉ ['<', '>', '"', '\'']
  entities : ∀ before rest, t = before ++ '&' :: rest →
    ∃ body after, EntityBody body ∧ rest = body ++ ';' :: after

theorem isAlphanum_of_isHexDigit {c : Char} (h : isHexDigit c = true) : c.isAlphanum = true := by
  simp only [isHexDigit, Bool.or_eq_true, Bool.and_eq_true, decide_eq_true_eq, Char.le_def,
    UInt32.le_iff_toNat_le] at h
  rw [isAlphanum_iff]
  rcases h with (hd | hs) | hl
  · have ha : c.isAlphanum = true := by simp [Char.isAlphanum, hd]
    exact (isAlphanum_iff c).mp ha
  · change 97 ≤ c.toNat ∧ c.toNat ≤ 102 at hs
    omega
  · change 65 ≤ c.toNat ∧ c.toNat ≤ 70 at hl
    omega

theorem EntityBody.chars {t : Text} (h : EntityBody t) :
    ∀ c ∈ t, c = '#' ∨ c.isAlphanum = true := by
  cases h with
  | @name c t hc ht =>
    intro d hd
    rcases List.mem_cons.mp hd with rfl | hd
    · exact .inr (by simp [Char.isAlphanum, hc])
    · exact .inr (ht d hd)
  | @decimal t _ ht =>
    intro d hd
    rcases List.mem_cons.mp hd with rfl | hd
    · exact .inl rfl
    · exact .inr (by simp [Char.isAlphanum, ht d hd])
  | @hex x t hx _ ht =>
    intro d hd
    simp only [List.mem_cons] at hd
    rcases hd with rfl | rfl | hd
    · exact .inl rfl
    · rcases hx with rfl | rfl <;> exact .inr (by decide)
    · exact .inr (isAlphanum_of_isHexDigit (ht d hd))

theorem EntityBody.semicolon_notMem {t : Text} (h : EntityBody t) : ';' ∉ t := by
  intro hm
  have hc := h.chars _ hm
  revert hc
  decide

theorem isEntityBody_iff (t : Text) : isEntityBody t = true ↔ EntityBody t := by
  constructor
  · intro h
    unfold isEntityBody at h
    split at h
    · simp at h
    · simp only [Bool.and_eq_true, Bool.not_eq_true', List.isEmpty_eq_false_iff,
        List.all_eq_true] at h
      exact .hex (.inl rfl) h.1 h.2
    · simp only [Bool.and_eq_true, Bool.not_eq_true', List.isEmpty_eq_false_iff,
        List.all_eq_true] at h
      exact .hex (.inr rfl) h.1 h.2
    · simp only [Bool.and_eq_true, Bool.not_eq_true', List.isEmpty_eq_false_iff,
        List.all_eq_true] at h
      exact .decimal h.1 h.2
    · simp only [Bool.and_eq_true, List.all_eq_true] at h
      exact .name h.1 h.2
  · intro h
    cases h with
    | @name c t hc ht =>
      have hhash : c ≠ '#' := by
        rintro rfl
        revert hc
        decide
      unfold isEntityBody
      split
      all_goals simp_all
    | @decimal t hne ht =>
      -- No digit is an `x`, so these are not taken for hexadecimal ones.
      have hx (x : Char) (u : Text) (hd : x.isDigit = false) : t ≠ x :: u := by
        rintro rfl
        rw [ht x List.mem_cons_self] at hd
        cases hd
      have hdecimal : isEntityBody ('#' :: t) = (!t.isEmpty && t.all Char.isDigit) :=
        isEntityBody.eq_4 t (fun u he => hx 'x' u rfl he) (fun u he => hx 'X' u rfl he)
      simpa [hdecimal, hne] using ht
    | @hex x t hx hne ht =>
      rcases hx with rfl | rfl <;> simpa [isEntityBody, hne] using ht

theorem startsEntity_iff (t : Text) : startsEntity t = true ↔
    ∃ body after, EntityBody body ∧ t = body ++ ';' :: after := by
  unfold startsEntity
  constructor
  · intro h
    split at h
    · simp at h
    · next body after hcut =>
      exact ⟨body, after, (isEntityBody_iff body).mp h, (cutAt?_eq_some_iff.mp hcut).1⟩
  · rintro ⟨body, after, hbody, rfl⟩
    rw [cutAt?_eq_some_iff.mpr ⟨rfl, hbody.semicolon_notMem⟩]
    exact (isEntityBody_iff body).mpr hbody

theorem clean_iff (t : Text) : Clean t ↔ Escaped t := by
  induction t with
  | nil => exact ⟨fun _ => ⟨by simp, by simp⟩, fun _ => trivial⟩
  | cons c t ih =>
    rw [Clean, ih]
    constructor
    · rintro ⟨h1, h2, h3, h4, hamp, hrest⟩
      refine ⟨fun d hd => ?_, fun before rest he => ?_⟩
      · rcases List.mem_cons.mp hd with rfl | hd
        · simp [h1, h2, h3, h4]
        · exact hrest.unmarked d hd
      · cases before with
        | nil =>
          obtain ⟨rfl, rfl⟩ := List.cons.inj he
          exact (startsEntity_iff t).mp (hamp rfl)
        | cons d before => exact hrest.entities before rest (List.cons.inj he).2
    · intro h
      have hc := h.unmarked c List.mem_cons_self
      simp only [List.mem_cons, List.not_mem_nil, or_false, not_or] at hc
      obtain ⟨h1, h2, h3, h4⟩ := hc
      refine ⟨h1, h2, h3, h4, fun hamp => ?_, ?_⟩
      · exact (startsEntity_iff t).mpr (h.entities [] t (by rw [hamp]; rfl))
      · refine ⟨fun d hd => h.unmarked d (by simp [hd]), fun before rest he => ?_⟩
        exact h.entities (c :: before) rest (by rw [he]; rfl)

theorem EntityBody.unmarked {body : Text} (h : EntityBody body) :
    ∀ c ∈ body ++ [';'], c ∉ ['&', '<', '>', '"', '\''] := by
  intro c hc hm
  simp only [List.mem_cons, List.not_mem_nil, or_false] at hm
  rcases List.mem_append.mp hc with hc | hc
  · have hchar := h.chars c hc
    rcases hm with rfl | rfl | rfl | rfl | rfl <;> revert hchar <;> decide
  · obtain rfl := List.mem_singleton.mp hc
    revert hm
    decide

/-- Nothing in the body of an entity is escaped. -/
theorem escape_body {body : Text} (h : EntityBody body) (t : Text) :
    escape (body ++ ';' :: t) = body ++ ';' :: escape t := by
  have happend := escape_append h.unmarked t
  rwa [List.append_assoc, List.append_assoc, List.singleton_append] at happend

/-- An entity is still one after escaping. -/
theorem startsEntity_escape {t : Text} (h : startsEntity t = true) :
    startsEntity (escape t) = true := by
  obtain ⟨body, after, hbody, rfl⟩ := (startsEntity_iff t).mp h
  exact (startsEntity_iff _).mpr ⟨body, escape after, hbody, escape_body hbody after⟩

theorem Clean.append {x t : Text} (hx : ∀ c ∈ x, c ∉ ['&', '<', '>', '"', '\'']) (ht : Clean t) :
    Clean (x ++ t) := by
  induction x with
  | nil => exact ht
  | cons c x ih =>
    have hc := hx c List.mem_cons_self
    simp only [List.mem_cons, List.not_mem_nil, or_false, not_or] at hc
    obtain ⟨hamp, h1, h2, h3, h4⟩ := hc
    exact ⟨h1, h2, h3, h4, fun he => absurd he hamp, ih fun d hd => hx d (by simp [hd])⟩

theorem Clean.entity {body t : Text} (h : EntityBody body) (ht : Clean t) :
    Clean ('&' :: (body ++ ';' :: t)) := by
  have hrest : Clean (body ++ [';'] ++ t) := .append h.unmarked ht
  rw [List.append_assoc, List.singleton_append] at hrest
  have hstarts : startsEntity (body ++ ';' :: t) = true :=
    (startsEntity_iff _).mpr ⟨body, t, h, rfl⟩
  exact ⟨by decide, by decide, by decide, by decide, fun _ => hstarts, hrest⟩

/-- Whatever stands in a text, it is clean once it is escaped. -/
theorem escape_clean (t : Text) : Clean (escape t) := by
  induction t with
  | nil => trivial
  | cons c t ih =>
    have hentity (body : Text) (h : isEntityBody body = true) :
        Clean ('&' :: (body ++ ';' :: escape t)) := .entity ((isEntityBody_iff body).mp h) ih
    rw [escape, escapeAt]
    split_ifs with hamp hstarts hlt hgt hdouble hsingle
    · have hkept := startsEntity_escape hstarts
      exact ⟨by decide, by decide, by decide, by decide, fun _ => hkept, ih⟩
    · exact hentity "amp".toList rfl
    · exact hentity "lt".toList rfl
    · exact hentity "gt".toList rfl
    · exact hentity "quot".toList rfl
    · exact hentity "#039".toList rfl
    · exact ⟨hlt, hgt, hdouble, hsingle, fun he => absurd he hamp, ih⟩

theorem escape_of_clean {t : Text} (h : Clean t) : escape t = t := by
  induction t with
  | nil => rfl
  | cons c t ih =>
    obtain ⟨h1, h2, h3, h4, hamp, hrest⟩ := h
    rw [escape, ih hrest]
    by_cases hc : c = '&'
    · simp [escapeAt, hc, hamp hc]
    · simp [escapeAt, hc, h1, h2, h3, h4]

theorem sanitize_of_clean {t : Text} (h : Clean t) : sanitize t = t := by
  have hlt : '<' ∉ t := fun hm => ((clean_iff t).mp h).unmarked _ hm (by decide)
  rw [sanitize, stripTags_eq_self hlt, escape_of_clean h]

/-- Cleaning leaves escaped texts as they are, and makes every other text one of them; so cleaning a
text twice is the same as once. -/
theorem sanitize_escaped : (∀ t, Escaped (sanitize t)) ∧ (∀ t, sanitize t = t ↔ Escaped t) ∧
    ∀ t, sanitize (sanitize t) = sanitize t := by
  have hclean (t : Text) : Clean (sanitize t) := escape_clean (stripTags t)
  refine ⟨fun t => (clean_iff _).mp (hclean t), fun t => ⟨fun h => ?_, fun h => ?_⟩,
    fun t => sanitize_of_clean (hclean t)⟩
  · rw [← h]
    exact (clean_iff _).mp (hclean t)
  · exact sanitize_of_clean ((clean_iff t).mpr h)

end FluentSql.Text
