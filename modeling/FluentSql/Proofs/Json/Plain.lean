import FluentSql.Json.Reader
import FluentSql.Proofs.Json.Number
import FluentSql.Proofs.Text.Plain

namespace FluentSql.Json

open Text (PlainUntil TakesPlain)

variable {stop : Char → Prop} {t rest : Text}

theorem exponentSign_plainUntil (h : PlainUntil stop (exponentSign t).2) : PlainUntil stop t := by
  unfold exponentSign at h
  split at h
  · exact .cons (by decide) h
  · exact .cons (by decide) h
  · exact h

theorem takesPlain_readExponent : TakesPlain stop readExponent? := by
  intro t rest e h hrest
  rw [readExponent?_eq] at h
  dsimp only at h
  rw [Option.ite_none_left_eq_some] at h
  obtain ⟨-, rfl⟩ := Prod.mk.inj (Option.some.inj h.2)
  exact exponentSign_plainUntil (.of_dropWhile rfl hrest)

theorem exponent?_plainUntil {found : Bool} {e : Int} (h : exponent? t = some (found, e, rest))
    (hrest : PlainUntil stop rest) : PlainUntil stop t := by
  have hletter {t : Text} (h : ((readExponent? t).map fun r => (true, r.1, r.2)) =
      some (found, e, rest)) : PlainUntil stop t := by
    obtain ⟨r, hr, heq⟩ := Option.map_eq_some_iff.mp h
    obtain ⟨-, rfl⟩ : found = true ∧ r = (e, rest) := by simpa using heq
    exact takesPlain_readExponent hr hrest
  unfold exponent? at h
  split at h
  · exact .cons (by decide) (hletter h)
  · exact .cons (by decide) (hletter h)
  · obtain ⟨-, -, rfl⟩ : false = found ∧ 0 = e ∧ _ = rest := by simpa using h
    exact hrest

theorem fraction_plainUntil (h : PlainUntil stop (fraction t).2.2) : PlainUntil stop t := by
  unfold fraction at h
  split at h
  · exact .cons (by decide) (.of_dropWhile rfl h)
  · exact h

theorem takesPlain_readNumber (negative : Bool) : TakesPlain stop (readNumber? negative) := by
  intro t rest v h hrest
  rw [readNumber?_eq (leads_of_read h)] at h
  obtain ⟨⟨found, e, u⟩, hexponent, h⟩ := Option.bind_eq_some_iff.mp h
  obtain ⟨w, -, h⟩ := Option.map_eq_some_iff.mp h
  obtain ⟨-, rfl⟩ := Prod.mk.inj h
  exact .of_dropWhile rfl (fraction_plainUntil (exponent?_plainUntil hexponent hrest))

/-- Nothing special in markup comes before the first quote. -/
abbrev PlainUntilQuote : Text → Prop := PlainUntil fun c => c = '"'

/-- A reader of a part of a document takes nothing special before a quote. -/
abbrev TakesUntilQuote {α : Type} (read : Text → Option (α × Text)) : Prop :=
  TakesPlain (fun c => c = '"') read

theorem skipBlank_plainUntilQuote (h : PlainUntilQuote (skipBlank t)) : PlainUntilQuote t :=
  .of_dropWhile rfl h

theorem readWord_plainUntilQuote {v : Json} (h : ((Text.after? "null".toList t).map (null, ·)).or
    (((Text.after? "true".toList t).map (bool true, ·)).or
      ((Text.after? "false".toList t).map (bool false, ·))) = some (v, rest))
    (hrest : PlainUntilQuote rest) : PlainUntilQuote t := by
  have hword {word : Text} {w : Json} (hall : word.all Char.isAlpha = true)
      (h : (Text.after? word t).map (w, ·) = some (v, rest)) : PlainUntilQuote t := by
    obtain ⟨u, hu, heq⟩ := Option.map_eq_some_iff.mp h
    obtain ⟨-, rfl⟩ := Prod.mk.inj heq
    obtain rfl := Text.after?_eq_some_iff.mp hu
    exact ((Text.isPlain_all rfl hall).until _).append hrest
  rw [Option.or_eq_some_iff, Option.or_eq_some_iff] at h
  obtain h | ⟨-, h | ⟨-, h⟩⟩ := h
  · exact hword (by decide) h
  · exact hword (by decide) h
  · exact hword (by decide) h

variable {fuel depth : Nat}

theorem readValue?_step (hitems : ∀ depth, TakesUntilQuote (readItems? fuel depth))
    (hmembers : ∀ depth ms, TakesUntilQuote (readMembers? fuel depth ms)) :
    TakesUntilQuote (readValue? (fuel + 1) depth) := by
  intro t rest v h hrest
  refine skipBlank_plainUntilQuote ?_
  rw [readValue?] at h
  split at h
  · cases h
  · next hskip =>
    rw [hskip]
    exact .inl rfl
  · next t hskip =>
    rw [hskip]
    refine .cons (by decide) (skipBlank_plainUntilQuote ?_)
    split at h
    · cases h
    · split at h
      · next hclose =>
        obtain ⟨-, rfl⟩ := Prod.mk.inj (Option.some.inj h)
        rw [hclose]
        exact .cons (by decide) hrest
      · exact (hitems _).map h hrest
  · next t hskip =>
    rw [hskip]
    refine .cons (by decide) (skipBlank_plainUntilQuote ?_)
    split at h
    · cases h
    · split at h
      · next hclose =>
        obtain ⟨-, rfl⟩ := Prod.mk.inj (Option.some.inj h)
        rw [hclose]
        exact .cons (by decide) hrest
      · exact (hmembers _ _).map h hrest
  · next hskip =>
    rw [hskip]
    exact .cons (by decide) (takesPlain_readNumber _ h hrest)
  · next hskip =>
    rw [hskip]
    split at h
    · exact takesPlain_readNumber _ h hrest
    · exact readWord_plainUntilQuote h hrest

theorem readItems?_step (hvalue : TakesUntilQuote (readValue? fuel depth))
    (hitems : TakesUntilQuote (readItems? fuel depth)) :
    TakesUntilQuote (readItems? (fuel + 1) depth) := by
  intro t rest vs h hrest
  rw [readItems?] at h
  split at h
  · cases h
  · next v u hv =>
    refine hvalue hv (skipBlank_plainUntilQuote ?_)
    split at h
    · next hskip =>
      rw [hskip]
      exact .cons (by decide) (hitems.map h hrest)
    · next hskip =>
      obtain ⟨-, rfl⟩ := Prod.mk.inj (Option.some.inj h)
      rw [hskip]
      exact .cons (by decide) hrest
    · cases h

/-- A member begins with a quote, whatever comes after it. -/
theorem takesUntilQuote_members (fuel depth : Nat) (ms : List (Text × Json)) :
    TakesUntilQuote (readMembers? fuel depth ms) := by
  intro t rest ns h _
  cases fuel with
  | zero => simp [readMembers?] at h
  | succ fuel =>
    refine skipBlank_plainUntilQuote ?_
    rw [readMembers?] at h
    split at h
    · next hskip =>
      rw [hskip]
      exact .inl rfl
    · cases h

/-- Outside of its strings a document holds nothing that is special in markup. -/
theorem takesUntilQuote_read (fuel : Nat) : ∀ depth, TakesUntilQuote (readValue? fuel depth) ∧
    TakesUntilQuote (readItems? fuel depth) := by
  induction fuel with
  | zero =>
    intro depth
    constructor
    · intro t rest v h
      simp [readValue?] at h
    · intro t rest vs h
      simp [readItems?] at h
  | succ fuel ih =>
    intro depth
    exact ⟨readValue?_step (fun d => (ih d).2) (takesUntilQuote_members fuel),
      readItems?_step (ih depth).1 (ih depth).2⟩

theorem read?_plainUntilQuote {v : Json} (h : read? t = some v) : PlainUntilQuote t := by
  unfold read? at h
  split at h
  · next w rest hread =>
    rw [Option.ite_none_right_eq_some, List.isEmpty_iff] at h
    have hend : PlainUntilQuote (skipBlank rest) := by
      rw [h.1]
      trivial
    exact (takesUntilQuote_read _ _).1 hread (skipBlank_plainUntilQuote hend)
  · cases h

end FluentSql.Json
