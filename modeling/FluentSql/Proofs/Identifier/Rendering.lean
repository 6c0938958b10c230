import FluentSql.Proofs.Identifier.Grammar

namespace FluentSql.Identifier

variable {w p t : Text} {ps : List Text} {c : Char}

theorem doubled_flatMap (p : Text) :
    Doubled (p.flatMap fun c => if c = '"' then ['"', '"'] else [c]) p := by
  induction p with
  | nil => exact .nil
  | cons c p ih =>
    rw [List.flatMap_cons]
    by_cases hc : c = '"'
    · rw [if_pos hc, hc]
      exact .quote ih
    · rw [if_neg hc]
      exact .char hc ih

theorem isPart_quotePart (hp : p ≠ []) : IsPart (quotePart p) p := by
  have hpart := IsPart.quoted hp (doubled_flatMap p)
  rwa [← List.cons_append] at hpart

/-- Parts that are not empty are rendered as a name of just these parts. -/
theorem spells_quoteParts (hne : ps ≠ []) (hps : ∀ p ∈ ps, p ≠ []) :
    Spells (Text.joinWith ['.'] (ps.map quotePart)) ps := by
  induction ps with
  | nil => exact absurd rfl hne
  | cons p ps ih =>
    have hp := isPart_quotePart (hps p List.mem_cons_self)
    cases ps with
    | nil => exact .last hp
    | cons q qs =>
      have hrest := ih (by simp) fun r hr => hps r (List.mem_cons_of_mem p hr)
      have hname := Spells.more hp hrest
      simpa [Text.joinWith] using hname

theorem Spells.parts_ne_nil (h : Spells t ps) : ps ≠ [] ∧ ∀ p ∈ ps, p ≠ [] := by
  induction h with
  | last hp =>
    refine ⟨by simp, fun q hq => ?_⟩
    obtain rfl := List.mem_singleton.mp hq
    exact hp.ne_nil.2
  | more hp _ ih =>
    refine ⟨by simp, fun q hq => ?_⟩
    rcases List.mem_cons.mp hq with rfl | hq
    · exact hp.ne_nil.2
    · exact ih.2 q hq

theorem Doubled.mem_iff (h : Doubled w p) : c ∈ w ↔ c ∈ p := by
  induction h with
  | nil => simp
  | quote _ ih => simp [ih]
  | char _ _ ih => simp [ih]

theorem IsPart.mem_iff (h : IsPart w p) (hquote : c ≠ '"') : c ∈ w ↔ c ∈ p := by
  cases h with
  | plain _ => rfl
  | quoted _ hw => simp [hquote, hw.mem_iff]

/-- Quotes and dots apart, a name is written with the characters of its parts. -/
theorem Spells.mem_iff (h : Spells t ps) (hquote : c ≠ '"') (hdot : c ≠ '.') :
    c ∈ t ↔ ∃ p ∈ ps, c ∈ p := by
  induction h with
  | last hp => simp [hp.mem_iff hquote]
  | more hp _ ih => simp [hp.mem_iff hquote, hdot, ih]

/-- A name that was read is read again from its rendering. -/
theorem parse_toSql {i : Identifier} (h : parse t = .ok i) : parse i.toSql = .ok i := by
  obtain ⟨hnul, hspells⟩ := (parse_ok_iff t i).mp h
  obtain ⟨hne, hparts⟩ := hspells.parts_ne_nil
  have hrendered : Spells i.toSql i.parts := spells_quoteParts hne hparts
  refine (parse_ok_iff i.toSql i).mpr ⟨?_, hrendered⟩
  rw [hrendered.mem_iff (by decide) (by decide)]
  rwa [hspells.mem_iff (by decide) (by decide)] at hnul

/-- A text is read as a name exactly if it has no NUL and is parts with dots between them, and then
as these parts without their quotes. What is rendered is read back as the same name, so names of
different parts are rendered differently. -/
theorem parse_inverts : (∀ t i, parse t = .ok i ↔ '\x00' ∉ t ∧ Spells t i.parts) ∧
    (∀ t i, parse t = .ok i → parse i.toSql = .ok i) ∧
    ∀ t u i j, parse t = .ok i → parse u = .ok j → i.parts ≠ j.parts → i.toSql ≠ j.toSql := by
  refine ⟨parse_ok_iff, fun t i => parse_toSql, ?_⟩
  intro t u i j hi hj hne hsame
  have hread := parse_toSql hi
  rw [hsame, parse_toSql hj] at hread
  obtain rfl := Except.ok.inj hread
  exact hne rfl

theorem parse_inverts_dots :
    let t := "shop.\"a.\"\"b\"\"\".\"\"\"\".n$".toList
    let i : Identifier := ⟨["shop".toList, "a.\"b\"".toList, "\"".toList, "n$".toList]⟩
    let j : Identifier := ⟨["shop".toList, "a".toList, "\"b\"".toList, "\"".toList, "n$".toList]⟩
    Spells t i.parts ∧ parse i.toSql = .ok i ∧ i.toSql ≠ j.toSql := by
  intro t i j
  have hi : parse t = .ok i := by decide
  have hj : parse j.toSql = .ok j := by decide
  obtain ⟨hread, hagain, hapart⟩ := parse_inverts
  exact ⟨((hread t i).mp hi).2, hagain t i hi, hapart t j.toSql i j hi hj (by decide)⟩

end FluentSql.Identifier
