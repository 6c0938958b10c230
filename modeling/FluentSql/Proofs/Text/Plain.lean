import FluentSql.Proofs.Text.Blank

namespace FluentSql.Text

/-- The characters that are special in markup. -/
def marks : Text := ['&', '<', '>', '"', '\'']

/-- Nothing special in markup comes before the first character at which reading stops. -/
def PlainUntil (stop : Char → Prop) : Text → Prop
  | [] => True
  | c :: t => stop c ∨ c ∉ marks ∧ PlainUntil stop t

/-- Text with nothing that is special in markup. -/
abbrev IsPlain : Text → Prop := PlainUntil fun _ => False

variable {stop : Char → Prop} {p : Char → Bool} {s t : Text} {c : Char}

/-- A kind of characters is unmarked if none of the marks is of it. -/
theorem unmarked (hp : marks.all (fun d => !p d) = true) (hc : p c = true) : c ∉ marks := by
  intro hm
  have hnot := List.all_eq_true.mp hp c hm
  rw [hc] at hnot
  cases hnot

theorem isPlain_iff (t : Text) : IsPlain t ↔ ∀ c ∈ t, c ∉ marks := by
  induction t with
  | nil => simp [PlainUntil]
  | cons c t ih => simp only [PlainUntil, false_or, ih, List.forall_mem_cons]

theorem PlainUntil.cons (hc : c ∉ marks) (ht : PlainUntil stop t) : PlainUntil stop (c :: t) :=
  .inr ⟨hc, ht⟩

theorem PlainUntil.append (hs : PlainUntil stop s) (ht : PlainUntil stop t) :
    PlainUntil stop (s ++ t) := by
  induction s with
  | nil => exact ht
  | cons c s ih =>
    obtain hc | ⟨hc, hs⟩ := hs
    · exact .inl hc
    · exact .inr ⟨hc, ih hs⟩

theorem PlainUntil.mono {stop' : Char → Prop} (h : PlainUntil stop t)
    (hstop : ∀ c, stop c → stop' c) : PlainUntil stop' t := by
  induction t with
  | nil => trivial
  | cons c t ih =>
    obtain hc | ⟨hc, ht⟩ := h
    · exact .inl (hstop c hc)
    · exact .cons hc (ih ht)

theorem IsPlain.until (h : IsPlain t) (stop : Char → Prop) : PlainUntil stop t :=
  h.mono fun _ hc => hc.elim

/-- What is plain until a stop is plain if nothing stops. -/
theorem PlainUntil.isPlain (h : PlainUntil stop t) (hstop : ∀ c ∈ t, ¬stop c) : IsPlain t := by
  induction t with
  | nil => trivial
  | cons c t ih =>
    obtain ⟨hc, hrest⟩ := List.forall_mem_cons.mp hstop
    obtain hs | ⟨hmark, ht⟩ := h
    · exact absurd hs hc
    · exact .cons hmark (ih ht hrest)

/-- Text that is plain until a character has plain text before the first one. -/
theorem PlainUntil.split (h : PlainUntil (· = c) t) (hm : c ∈ t) :
    ∃ a b, t = a ++ c :: b ∧ IsPlain a := by
  induction t with
  | nil => simp at hm
  | cons d t ih =>
    obtain rfl | ⟨hd, ht⟩ := h
    · exact ⟨[], t, rfl, trivial⟩
    · by_cases hcd : c = d
      · exact ⟨[], t, by rw [hcd]; rfl, trivial⟩
      · obtain ⟨a, b, rfl, ha⟩ := ih ht ((List.mem_cons.mp hm).resolve_left hcd)
        exact ⟨d :: a, b, rfl, .cons hd ha⟩

theorem isPlain_all (hp : marks.all (fun d => !p d) = true) (ht : t.all p = true) : IsPlain t :=
  (isPlain_iff t).mpr fun c hc => unmarked hp (List.all_eq_true.mp ht c hc)

theorem isPlain_takeWhile (hp : marks.all (fun d => !p d) = true) (t : Text) :
    IsPlain (t.takeWhile p) :=
  isPlain_all hp List.all_takeWhile

/-- Plain characters may be taken from the front. -/
theorem PlainUntil.of_dropWhile (hp : marks.all (fun d => !p d) = true)
    (h : PlainUntil stop (t.dropWhile p)) : PlainUntil stop t := by
  have happend := ((isPlain_takeWhile hp t).until stop).append h
  rwa [List.takeWhile_append_dropWhile] at happend

theorem PlainUntil.of_drop (hs : IsPlain s) (hst : s <+: t)
    (h : PlainUntil stop (t.drop s.length)) : PlainUntil stop t := by
  obtain ⟨u, rfl⟩ := hst
  rw [List.drop_left] at h
  exact (hs.until stop).append h

theorem PlainUntil.of_trimStart (h : PlainUntil stop (trimStart t)) : PlainUntil stop t :=
  .of_dropWhile rfl h

theorem PlainUntil.of_trim (h : PlainUntil stop (trim t)) : PlainUntil stop t := by
  have hspace {s : Text} (hs : IsSpace s) : PlainUntil stop s := by
    refine IsPlain.until ((isPlain_iff s).mpr fun c hc => ?_) stop
    exact unmarked rfl ((isSpace_iff s).mp hs c hc)
  obtain ⟨s, s', hs, hs', ht⟩ := trim_append t
  rw [← ht]
  exact ((hspace hs).append h).append (hspace hs')

/-- A reader takes nothing that is special in markup: a text is plain if what it leaves of it is. -/
def TakesPlain {α : Type} (stop : Char → Prop) (read : Text → Option (α × Text)) : Prop :=
  ∀ ⦃t rest : Text⦄ ⦃a : α⦄, read t = some (a, rest) → PlainUntil stop rest → PlainUntil stop t

theorem TakesPlain.map {α β : Type} {read : Text → Option (α × Text)} {g : α → β} {rest : Text}
    {b : β} (hread : TakesPlain stop read)
    (h : (read t).map (fun r => (g r.1, r.2)) = some (b, rest)) (hrest : PlainUntil stop rest) :
    PlainUntil stop t := by
  obtain ⟨r, hr, heq⟩ := Option.map_eq_some_iff.mp h
  obtain ⟨-, rfl⟩ := Prod.mk.inj heq
  exact hread hr hrest

/-- Upper and lower case differ in no special character. -/
theorem IsPlain.of_lower (h : IsPlain (lower t)) : IsPlain t := by
  rw [isPlain_iff] at h ⊢
  intro c hc hm
  have hsame : c.toLower = c := by
    have hall : marks.all (fun d => d.toLower == d) = true := by decide
    simpa using List.all_eq_true.mp hall c hm
  refine h c.toLower (List.mem_map_of_mem hc) ?_
  rwa [hsame]

theorem sanitize_plain (h : IsPlain t) : sanitize t = t := by
  rw [isPlain_iff] at h
  have hlt : '<' ∉ t := fun hm => h _ hm (by decide)
  rw [sanitize, stripTags_eq_self hlt, escape_eq_self h]

/-- A quote with plain text before it is escaped, so an ampersand takes its place. -/
theorem ampersand_mem_sanitize (h : PlainUntil (· = '"') t) (hm : '"' ∈ t) : '&' ∈ sanitize t := by
  obtain ⟨a, b, rfl, ha⟩ := h.split hm
  rw [isPlain_iff] at ha
  have hlt : '<' ∉ a ++ ['"'] := by
    intro hlt
    rcases List.mem_append.mp hlt with hlt | hlt
    · exact ha _ hlt (by decide)
    · revert hlt
      decide
  have hstrip := stripTags_append hlt b
  rw [List.append_assoc, List.singleton_append, List.append_assoc, List.singleton_append] at hstrip
  rw [sanitize, hstrip, escape_append ha]
  simp [escape, escapeAt]

end FluentSql.Text
