import FluentSql.Proofs.Identifier.Plain

namespace FluentSql.Identifier

/-- A text with every double quote of another written twice. -/
inductive Doubled : Text → Text → Prop
  | nil : Doubled [] []
  | quote {w p : Text} : Doubled w p → Doubled ('"' :: '"' :: w) ('"' :: p)
  | char {c : Char} {w p : Text} : c ≠ '"' → Doubled w p → Doubled (c :: w) (c :: p)

/-- A part of a name as it is written: plain, or in quotes and not empty. -/
inductive IsPart : Text → Text → Prop
  | plain {p : Text} : isPlain p = true → IsPart p p
  | quoted {w p : Text} : p ≠ [] → Doubled w p → IsPart ('"' :: (w ++ ['"'])) p

/-- A name is parts with dots between them. -/
inductive Spells : Text → List Text → Prop
  | last {w p : Text} : IsPart w p → Spells w [p]
  | more {w p t : Text} {ps : List Text} : IsPart w p → Spells t ps →
      Spells (w ++ '.' :: t) (p :: ps)

variable {w p t rest : Text} {ps : List Text}

/-- A quote closes a part only if no second one follows it. -/
theorem quotedBody?_doubled (h : Doubled w p) (hrest : ∀ c ∈ rest.head?, c ≠ '"') :
    quotedBody? (w ++ '"' :: rest) = some (p, rest) := by
  induction h with
  | nil =>
    cases rest with
    | nil => rfl
    | cons c rest =>
      have hc : c ≠ '"' := hrest c rfl
      simp [quotedBody?, hc]
  | quote _ ih => simp [quotedBody?, ih]
  | char hc _ ih => simp [quotedBody?, hc, ih]

theorem doubled_of_quotedBody? (h : quotedBody? t = some (p, rest)) :
    ∃ w, Doubled w p ∧ t = w ++ '"' :: rest := by
  induction t using quotedBody?.induct generalizing p with
  | case1 => simp [quotedBody?] at h
  | case2 t ih =>
    obtain ⟨⟨q, r⟩, hr, he⟩ := Option.map_eq_some_iff.mp h
    obtain ⟨rfl, rfl⟩ := Prod.mk.inj he
    obtain ⟨w, hw, rfl⟩ := ih hr
    exact ⟨'"' :: '"' :: w, .quote hw, rfl⟩
  | case3 t hnext =>
    rw [quotedBody?.eq_3 t hnext] at h
    obtain ⟨rfl, rfl⟩ := Prod.mk.inj (Option.some.inj h)
    exact ⟨[], .nil, rfl⟩
  | case4 c t hpair hquote ih =>
    have hc : c ≠ '"' := hquote
    rw [quotedBody?.eq_4 c t hpair hquote] at h
    obtain ⟨⟨q, r⟩, hr, he⟩ := Option.map_eq_some_iff.mp h
    obtain ⟨rfl, rfl⟩ := Prod.mk.inj he
    obtain ⟨w, hw, rfl⟩ := ih hr
    exact ⟨c :: w, .char hc hw, rfl⟩

theorem isPart_of_quotedPart (h : quotedPart t = .ok (p, rest)) :
    ∃ w, IsPart w p ∧ '"' :: t = w ++ rest := by
  unfold quotedPart at h
  split at h
  · simp at h
  · simp at h
  · next r hempty hbody =>
    obtain rfl := Except.ok.inj h
    obtain ⟨w, hw, rfl⟩ := doubled_of_quotedBody? hbody
    exact ⟨'"' :: (w ++ ['"']), .quoted (fun he => hempty rest (by rw [he])) hw, by simp⟩

theorem isPart_of_plainPart (h : plainPart t = .ok (p, rest)) :
    ∃ w, IsPart w p ∧ t = w ++ rest := by
  obtain ⟨hplain, hrest⟩ := plainPart_plain h
  have htake : t.takeWhile (· != '.') = p := by
    unfold plainPart at h
    split at h
    · simp at h
    · next c cs htake =>
      split_ifs at h
      split at h
      · simp at h
      · simp only [Except.ok.injEq, Prod.mk.injEq] at h
        exact htake.trans h.1
  refine ⟨p, .plain hplain, ?_⟩
  rw [← htake, hrest, List.takeWhile_append_dropWhile]

/-- Whatever is read as a part is written as one. -/
theorem isPart_of_part (h : part t = .ok (p, rest)) : ∃ w, IsPart w p ∧ t = w ++ rest := by
  unfold part at h
  split at h
  · exact isPart_of_quotedPart h
  · exact isPart_of_plainPart h

/-- A part is read up to its end, where a dot follows or nothing. -/
theorem part_append (h : IsPart w p) (hrest : ∀ c ∈ rest.head?, c = '.') :
    part (w ++ rest) = .ok (p, rest) := by
  cases h with
  | plain hplain =>
    have hread := plainPart_append hplain hrest
    cases w with
    | nil => simp [isPlain] at hplain
    | cons c cs =>
      have hc : c ≠ '"' := by
        rintro rfl
        simp [isPlain, isNameStart] at hplain
      rw [List.cons_append, part]
      · exact hread
      · rintro t ht
        exact hc (List.cons.inj ht).1
  | @quoted w _ hne hw =>
    have hbody : quotedBody? (w ++ '"' :: rest) = some (p, rest) := by
      refine quotedBody?_doubled hw fun c hc => ?_
      rw [hrest c hc]
      decide
    have htext : '"' :: (w ++ ['"']) ++ rest = '"' :: (w ++ '"' :: rest) := by simp
    rw [htext, part, quotedPart, hbody]
    cases p with
    | nil => exact absurd rfl hne
    | cons c p => rfl

theorem IsPart.ne_nil (h : IsPart w p) : w ≠ [] ∧ p ≠ [] := by
  cases h with
  | plain hplain =>
    have hne : w ≠ [] := by
      rintro rfl
      simp [isPlain] at hplain
    exact ⟨hne, hne⟩
  | quoted hne _ => exact ⟨by simp, hne⟩

theorem Spells.ne_nil (h : Spells t ps) : t ≠ [] := by
  cases h with
  | last hp => exact hp.ne_nil.1
  | more _ _ => simp

theorem spells_of_partsWithin {n : Nat} (h : partsWithin n t = .ok ps) : Spells t ps := by
  induction n generalizing t ps with
  | zero => simp [partsWithin] at h
  | succ n ih =>
    rw [partsWithin] at h
    split at h
    · simp at h
    · next name hpart =>
      obtain rfl := Except.ok.inj h
      obtain ⟨w, hw, rfl⟩ := isPart_of_part hpart
      rw [List.append_nil]
      exact .last hw
    · simp at h
    · next name rest _ hpart =>
      obtain ⟨qs, hqs, rfl⟩ := map_ok h
      obtain ⟨w, hw, rfl⟩ := isPart_of_part hpart
      exact .more hw (ih hqs)
    · simp at h

/-- A name is read part by part, as far as there are at least as many steps as characters. -/
theorem Spells.partsWithin (h : Spells t ps) {n : Nat} (hn : t.length < n) :
    partsWithin n t = .ok ps := by
  induction h generalizing n with
  | @last w p hw =>
    have hread : part (w ++ []) = .ok (p, []) := part_append hw (by simp)
    rw [List.append_nil] at hread
    obtain ⟨m, rfl⟩ : ∃ m, n = m + 1 := ⟨n - 1, by omega⟩
    rw [Identifier.partsWithin, hread]
  | @more w p t ps hw hps ih =>
    have hread : part (w ++ '.' :: t) = .ok (p, '.' :: t) := part_append hw (by simp)
    obtain ⟨m, rfl⟩ : ∃ m, n = m + 1 := ⟨n - 1, by omega⟩
    rw [Identifier.partsWithin, hread]
    cases t with
    | nil => exact absurd rfl hps.ne_nil
    | cons c t =>
      rw [List.length_append, List.length_cons] at hn
      have hrest := ih (n := m) (by omega)
      simp [hrest, Except.map]

/-- Exactly the names without a NUL that are parts with dots between them are read. -/
theorem parse_ok_iff (t : Text) (i : Identifier) :
    parse t = .ok i ↔ '\x00' ∉ t ∧ Spells t i.parts := by
  constructor
  · intro h
    unfold parse at h
    split_ifs at h with _ hnul
    obtain ⟨ps, hps, rfl⟩ := map_ok h
    exact ⟨by simpa using hnul, spells_of_partsWithin hps⟩
  · rintro ⟨hnul, hspells⟩
    have hparts := hspells.partsWithin (Nat.lt_succ_self t.length)
    have hne := hspells.ne_nil
    simp [parse, hne, hnul, hparts, Except.map]

end FluentSql.Identifier
