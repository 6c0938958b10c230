import FluentSql.Proofs.Text.Clean
import Mathlib.Tactic.Push

namespace FluentSql.Text

/-- The five escapes with the characters that they stand for. -/
def escapes : List (Text × Char) :=
  [("&amp;".toList, '&'), ("&lt;".toList, '<'), ("&gt;".toList, '>'), ("&quot;".toList, '"'),
    ("&#039;".toList, '\'')]

/-- What a text shows as, from the left: the five escapes as their characters, and everything else,
other entities too, as itself. -/
inductive Shows : Text → Text → Prop
  | nil : Shows [] []
  | escape {e t u : Text} {c : Char} : (e, c) ∈ escapes → Shows t u → Shows (e ++ t) (c :: u)
  | char {c : Char} {t u : Text} : (∀ e ∈ escapes, ¬e.1 <+: c :: t) → Shows t u →
      Shows (c :: t) (c :: u)

/-- None of the five escapes occurs in a text. -/
def IsRaw (t : Text) : Prop := ∀ e ∈ escapes, ¬e.1 <:+: t

variable {e t u : Text} {c : Char}

theorem escapes_entity (h : (e, c) ∈ escapes) :
    ∃ body, EntityBody body ∧ e = '&' :: (body ++ [';']) := by
  have hentity (body : Text) (hb : isEntityBody body = true) :
      ∃ b, EntityBody b ∧ '&' :: (body ++ [';']) = '&' :: (b ++ [';']) :=
    ⟨body, (isEntityBody_iff body).mp hb, rfl⟩
  simp only [escapes, List.mem_cons, Prod.mk.injEq, List.not_mem_nil, or_false] at h
  obtain ⟨rfl, -⟩ | ⟨rfl, -⟩ | ⟨rfl, -⟩ | ⟨rfl, -⟩ | ⟨rfl, -⟩ := h
  · exact hentity "amp".toList rfl
  · exact hentity "lt".toList rfl
  · exact hentity "gt".toList rfl
  · exact hentity "quot".toList rfl
  · exact hentity "#039".toList rfl

theorem unescapeAt?_escape (h : (e, c) ∈ escapes) (t : Text) :
    unescapeAt? (e ++ t) = some (c, t) := by
  simp only [escapes, List.mem_cons, Prod.mk.injEq, List.not_mem_nil, or_false] at h
  obtain ⟨rfl, rfl⟩ | ⟨rfl, rfl⟩ | ⟨rfl, rfl⟩ | ⟨rfl, rfl⟩ | ⟨rfl, rfl⟩ := h
  all_goals simp [unescapeAt?, after?]

theorem escape_of_unescapeAt? {r : Text} (h : unescapeAt? t = some (c, r)) :
    ∃ e, (e, c) ∈ escapes ∧ t = e ++ r := by
  have hread {e : Text} {d : Char} (hd : (e, d) ∈ escapes)
      (he : (after? e t).map ((d, ·)) = some (c, r)) : ∃ e, (e, c) ∈ escapes ∧ t = e ++ r := by
    obtain ⟨s, hs, heq⟩ := Option.map_eq_some_iff.mp he
    obtain ⟨rfl, rfl⟩ := Prod.mk.inj heq
    exact ⟨e, hd, after?_eq_some_iff.mp hs⟩
  simp only [unescapeAt?, Option.or_eq_some_iff] at h
  obtain h | ⟨-, h | ⟨-, h | ⟨-, h | ⟨-, h⟩⟩⟩⟩ := h
  all_goals exact hread (by simp [escapes]) h

theorem unescapeAt?_char (h : ∀ e ∈ escapes, ¬e.1 <+: t) : unescapeAt? t = none := by
  cases hread : unescapeAt? t with
  | none => rfl
  | some r =>
    obtain ⟨e, he, ht⟩ := escape_of_unescapeAt? hread
    exact absurd ⟨r.2, ht.symm⟩ (h (e, r.1) he)

theorem unescapeFrom_append (s t : Text) : unescapeFrom s.length (s ++ t) = unescape t := by
  induction s with
  | nil => rfl
  | cons c s ih => simpa [unescapeFrom] using ih

theorem unescape_append (h : (e, c) ∈ escapes) (t : Text) :
    unescape (e ++ t) = c :: unescape t := by
  obtain ⟨body, -, rfl⟩ := escapes_entity h
  have hread := unescapeAt?_escape h t
  rw [unescape, List.cons_append, unescapeFrom, ← List.cons_append, hread]
  have hskip : (body ++ [';'] ++ t).length - t.length = (body ++ [';']).length := by
    rw [List.length_append, Nat.add_sub_cancel]
  simp only [hskip, unescapeFrom_append]

theorem unescape_cons (h : ∀ e ∈ escapes, ¬e.1 <+: c :: t) :
    unescape (c :: t) = c :: unescape t := by
  rw [unescape, unescapeFrom, unescapeAt?_char h]
  rfl

theorem Shows.unescape (h : Shows t u) : unescape t = u := by
  induction h with
  | nil => rfl
  | escape he _ ih => rw [unescape_append he, ih]
  | char hc _ ih => rw [unescape_cons hc, ih]

theorem exists_shows (t : Text) : ∃ u, Shows t u := by
  induction hn : t.length using Nat.strongRecOn generalizing t with
  | ind n ih =>
    cases t with
    | nil => exact ⟨[], .nil⟩
    | cons c t =>
      subst hn
      by_cases hc : ∀ e ∈ escapes, ¬e.1 <+: c :: t
      · obtain ⟨u, hu⟩ := ih t.length (by simp) t rfl
        exact ⟨c :: u, .char hc hu⟩
      · push Not at hc
        obtain ⟨⟨e, d⟩, he, r, hr⟩ := hc
        obtain ⟨body, -, hbody⟩ := escapes_entity he
        have hlt : r.length < (c :: t).length := by
          rw [← hr, hbody, List.length_append, List.length_cons]
          omega
        obtain ⟨u, hu⟩ := ih r.length hlt r rfl
        rw [← hr]
        exact ⟨d :: u, .escape he hu⟩

theorem unescape_eq_iff (t u : Text) : unescape t = u ↔ Shows t u := by
  constructor
  · rintro rfl
    obtain ⟨u, hu⟩ := exists_shows t
    rwa [hu.unescape]
  · exact Shows.unescape

/-- An entity is kept, and the text after it is escaped. -/
theorem escape_entity {body : Text} (h : EntityBody body) (t : Text) :
    escape ('&' :: (body ++ ';' :: t)) = '&' :: (body ++ ';' :: escape t) := by
  have hstarts : startsEntity (body ++ ';' :: t) = true :=
    (startsEntity_iff _).mpr ⟨body, t, h, rfl⟩
  rw [escape, escapeAt, if_pos rfl, if_pos hstarts, escape_body h]
  rfl

/-- Two entities at the same place have the same body. -/
theorem EntityBody.unique {a b x y : Text} (ha : EntityBody a) (hb : EntityBody b)
    (h : a ++ ';' :: x = b ++ ';' :: y) : a = b := by
  exact append_cut_inj ha.semicolon_notMem hb.semicolon_notMem h

/-- An ampersand that starts another entity does not come to start an escape, since the body of that
entity is kept. -/
theorem escape_kept (hstarts : startsEntity t = true)
    (h : ∀ e ∈ escapes, ¬e.1 <+: '&' :: t) : ∀ e ∈ escapes, ¬e.1 <+: '&' :: escape t := by
  rintro ⟨e, c⟩ he ⟨r, hr⟩
  obtain ⟨a, s, ha, rfl⟩ := (startsEntity_iff t).mp hstarts
  obtain ⟨b, hb, rfl⟩ := escapes_entity he
  have hsame : b ++ ';' :: r = a ++ ';' :: escape s := by
    simpa [escape_body ha] using hr
  obtain rfl := hb.unique ha hsame
  exact h _ he ⟨s, by simp⟩

/-- Escaping a text does not change what it shows as. -/
theorem Shows.escaped (h : Shows t u) : Shows (Text.escape t) u := by
  induction h with
  | nil => exact .nil
  | @escape e t u c he _ ih =>
    obtain ⟨body, hbody, rfl⟩ := escapes_entity he
    have hkept := Shows.escape he ih
    rw [List.cons_append, List.append_assoc, List.singleton_append] at hkept ⊢
    rwa [escape_entity hbody]
  | @char c t u hc _ ih =>
    rw [Text.escape, escapeAt]
    split_ifs with hamp hstarts hlt hgt hdouble hsingle
    · subst hamp
      exact .char (escape_kept hstarts hc) ih
    · subst hamp
      exact .escape (by decide) ih
    · subst hlt
      exact .escape (by decide) ih
    · subst hgt
      exact .escape (by decide) ih
    · subst hdouble
      exact .escape (by decide) ih
    · subst hsingle
      exact .escape (by decide) ih
    · apply Shows.char _ ih
      intro e he hstart
      obtain ⟨body, -, hbody⟩ := escapes_entity he
      rw [hbody, List.cons_prefix_cons] at hstart
      exact hamp hstart.1.symm

theorem IsRaw.shows (h : IsRaw t) : Shows t t := by
  induction t with
  | nil => exact .nil
  | cons c t ih =>
    apply Shows.char
    · intro e he hstart
      exact h e he hstart.isInfix
    · apply ih
      intro e he hinside
      exact h e he (hinside.trans (List.suffix_cons c t).isInfix)

/-- Reading the escapes of an escaped text gives what reading those of the text itself does. A text
without escapes is read back, so texts of this kind are told apart by their escaped forms. -/
theorem unescape_escape : (∀ t u, unescape t = u ↔ Shows t u) ∧
    (∀ t, unescape (escape t) = unescape t) ∧
    (∀ t, IsRaw t → unescape (escape t) = t) ∧
    ∀ s t, IsRaw s → IsRaw t → escape s = escape t → s = t := by
  have hsame (t : Text) : unescape (escape t) = unescape t := by
    obtain ⟨u, hu⟩ := exists_shows t
    rw [hu.escaped.unescape, hu.unescape]
  have hback (t : Text) (ht : IsRaw t) : unescape (escape t) = t := by
    rw [hsame, ht.shows.unescape]
  refine ⟨unescape_eq_iff, hsame, hback, ?_⟩
  intro s t hs ht hescaped
  rw [← hback s hs, hescaped, hback t ht]

theorem unescape_escape_raw :
    let s := "&&lt <a href='x'>&copy;&amp".toList
    let t := "&&lt <a href='x'>&copy;&".toList
    unescape (escape s) = s ∧ escape s ≠ escape t := by
  intro s t
  have hs : IsRaw s := by simp [IsRaw, escapes, List.infix_cons_iff, s]
  have ht : IsRaw t := by simp [IsRaw, escapes, List.infix_cons_iff, t]
  obtain ⟨-, -, hback, hinjective⟩ := unescape_escape
  exact ⟨hback s hs, fun h => absurd (hinjective s t hs ht h) (by decide)⟩

end FluentSql.Text
