import FluentSql.Json.Reader
import FluentSql.Json.Writer
import FluentSql.Proofs.Text.Digits

namespace FluentSql.Json

/-- A text that does not go on with a number. -/
def Stops (rest : Text) : Prop :=
  ∀ c ∈ rest.head?, c.isDigit = false ∧ c ≠ '.' ∧ c ≠ 'e' ∧ c ≠ 'E'

theorem le_ofDigitChars (digits : Text) (n : Nat) : n ≤ Nat.ofDigitChars 10 digits n := by
  induction digits generalizing n with
  | nil => exact le_rfl
  | cons c digits ih =>
    rw [Nat.ofDigitChars_cons]
    have h := ih (10 * n + (c.toNat - '0'.toNat))
    omega

theorem significand_digits {n taken : Nat} {digits : Text}
    (h : Nat.ofDigitChars 10 digits n ≤ mostSignificand) :
    significand n taken digits = (Nat.ofDigitChars 10 digits n, taken + digits.length, 0) := by
  induction digits generalizing n taken with
  | nil => rfl
  | cons c digits ih =>
    have hvalue : Nat.ofDigitChars 10 (c :: digits) n =
        Nat.ofDigitChars 10 digits (n * 10 + (c.toNat - '0'.toNat)) := by
      rw [Nat.ofDigitChars_cons, Nat.mul_comm]
    rw [hvalue] at h ⊢
    have hnext := (le_ofDigitChars digits _).trans h
    have htaken : taken + 1 + digits.length = taken + (c :: digits).length := by
      rw [List.length_cons]
      omega
    rw [significand, if_pos hnext, ih h, htaken]

/-- Only zero is written with a zero first. -/
theorem decimal_head {n : Nat} (h : (Text.decimal n).head? = some '0') : n = 0 := by
  induction n using Nat.strongRecOn with
  | ind n ih =>
    by_cases hn : n < 10
    · have hall : ∀ k < 10, Nat.digitChar k = '0' → k = 0 := by decide
      rw [Text.decimal, Nat.toDigits_of_lt_base hn] at h
      exact hall n hn (Option.some.inj h)
    · have hne : Nat.toDigits 10 (n / 10) ≠ [] := Nat.toDigits_ne_nil
      rw [Text.decimal, Nat.toDigits_of_base_le (by decide) (by omega),
        List.head?_append_of_ne_nil _ hne] at h
      have hzero := ih (n / 10) (by omega) h
      omega

theorem decimal_zero_first {n : Nat} {t : Text} (h : Text.decimal n = '0' :: t) : t = [] := by
  have hn : n = 0 := decimal_head (by rw [h]; rfl)
  subst hn
  exact (List.cons.inj h).2.symm

theorem span_append {p : Char → Bool} {rest : Text} (hrest : ∀ c ∈ rest.head?, p c = false)
    (t : Text) : (t ++ rest).takeWhile p = t.takeWhile p ∧
      (t ++ rest).dropWhile p = t.dropWhile p ++ rest := by
  induction t with
  | nil =>
    have hnone : ∀ c ∈ ([] : Text), p c = true := by simp
    exact ⟨Text.takeWhile_span hnone hrest, Text.dropWhile_span hnone hrest⟩
  | cons c t ih =>
    cases hc : p c with
    | true => simp [hc, ih.1, ih.2]
    | false => simp [hc]

/-- The digits after a point, if there is one, and what is left. -/
def fraction : Text → Bool × Text × Text
  | '.' :: rest => (true, rest.takeWhile Char.isDigit, rest.dropWhile Char.isDigit)
  | rest => (false, [], rest)

/-- An exponent, if there is one, and what is left. -/
def exponent? : Text → Option (Bool × Int × Text)
  | 'e' :: t => (readExponent? t).map fun r => (true, r.1, r.2)
  | 'E' :: t => (readExponent? t).map fun r => (true, r.1, r.2)
  | rest => some (false, 0, rest)

/-- The number of the digits before and after a point and of an exponent. -/
def numberValue? (negative : Bool) (whole : Text) (hasPoint : Bool) (digits : Text)
    (hasExponent : Bool) (e : Int) : Option Json :=
  let (n, _, left) := significand 0 0 whole
  let (m, taken, _) := significand n 0 digits
  if hasPoint && digits.isEmpty then none
  else if hasPoint || hasExponent || left != 0 then
    (scaled? m (left - taken + e)).map fun r => real (if negative then r.negate else r)
  else if !negative then some (int n)
  else if n = 0 || 9223372036854775808 < n then some (real (Double.ofRatio false n 1).negate)
  else some (int (-(n : Int)))

/-- A number where its digits and its exponent have been found, before what is left. -/
def numberOf? (negative : Bool) (whole : Text) (f : Bool × Text × Text) : Option (Json × Text) :=
  (exponent? f.2.2).bind fun x => (numberValue? negative whole f.1 f.2.1 x.1 x.2.1).map (·, x.2.2)

/-- A number begins with a digit, and with a zero only where no other digit follows. -/
def Leads (whole : Text) : Prop := whole ≠ [] ∧ ∀ c t, whole ≠ '0' :: c :: t

theorem readNumber?_eq {negative : Bool} {t : Text} (h : Leads (t.takeWhile Char.isDigit)) :
    readNumber? negative t =
      numberOf? negative (t.takeWhile Char.isDigit) (fraction (t.dropWhile Char.isDigit)) := by
  unfold readNumber?
  dsimp only
  split
  · next hnil => exact absurd hnil h.1
  · next c u hzero => exact absurd hzero (h.2 c u)
  · change (if _ then none else (exponent? (fraction _).2.2).bind _) = _
    unfold numberOf? numberValue?
    dsimp only
    cases exponent? (fraction (t.dropWhile Char.isDigit)).2.2 with
    | none => simp
    | some x =>
      simp only [Option.bind_some, apply_ite (Option.map (·, x.2.2)), Option.map_none,
        Option.map_some, Option.map_map]
      cases negative <;> rfl

theorem leads_of_read {negative : Bool} {t : Text} {r : Json × Text}
    (h : readNumber? negative t = some r) : Leads (t.takeWhile Char.isDigit) := by
  unfold readNumber? at h
  dsimp only at h
  split at h
  · cases h
  · cases h
  · next hnil hzero => exact ⟨hnil, hzero⟩

theorem fraction_plain {t : Text} (h : ∀ c ∈ t.head?, c ≠ '.') : fraction t = (false, [], t) := by
  unfold fraction
  split
  · exact absurd rfl (h '.' rfl)
  · rfl

theorem exponent?_plain {t : Text} (h : ∀ c ∈ t.head?, c ≠ 'e' ∧ c ≠ 'E') :
    exponent? t = some (false, 0, t) := by
  unfold exponent?
  split
  · exact absurd rfl (h 'e' rfl).1
  · exact absurd rfl (h 'E' rfl).2
  · rfl

/-- The sign of an exponent, and its digits with what is left. -/
def exponentSign : Text → Bool × Text
  | '-' :: t => (true, t)
  | '+' :: t => (false, t)
  | t => (false, t)

theorem readExponent?_eq (t : Text) : readExponent? t =
    let digits := (exponentSign t).2.takeWhile Char.isDigit
    if digits.isEmpty then none
    else some (if (exponentSign t).1 then -(Text.ofDecimal digits : Int) else Text.ofDecimal digits,
      (exponentSign t).2.dropWhile Char.isDigit) := rfl

theorem exponentSign_append {t : Text} (h : t ≠ []) (rest : Text) :
    exponentSign (t ++ rest) = ((exponentSign t).1, (exponentSign t).2 ++ rest) := by
  cases t with
  | nil => exact absurd rfl h
  | cons c t =>
    have hplain (u : Text) (hminus : c ≠ '-') (hplus : c ≠ '+') :
        exponentSign (c :: u) = (false, c :: u) := by
      unfold exponentSign
      split
      · next he => exact absurd (List.cons.inj he).1 hminus
      · next he => exact absurd (List.cons.inj he).1 hplus
      · rfl
    by_cases hminus : c = '-'
    · subst hminus
      rfl
    by_cases hplus : c = '+'
    · subst hplus
      rfl
    rw [List.cons_append, hplain _ hminus hplus, hplain _ hminus hplus, List.cons_append]

theorem exponentSign_suffix (t : Text) : (exponentSign t).2 <:+ t := by
  unfold exponentSign
  split
  · exact List.suffix_cons _ _
  · exact List.suffix_cons _ _
  · exact List.suffix_refl _

theorem readExponent?_append {t u rest : Text} {e : Int} (hrest : Stops rest)
    (h : readExponent? t = some (e, u)) : readExponent? (t ++ rest) = some (e, u ++ rest) := by
  have hend : ∀ c ∈ rest.head?, c.isDigit = false := fun c hc => (hrest c hc).1
  have hne : t ≠ [] := by
    rintro rfl
    cases h
  have hspan := span_append hend (exponentSign t).2
  rw [readExponent?_eq] at h ⊢
  rw [exponentSign_append hne]
  dsimp only at h ⊢
  rw [hspan.1, hspan.2]
  split_ifs at h ⊢ with hempty hnegative
  · obtain ⟨rfl, rfl⟩ := Prod.mk.inj (Option.some.inj h)
    rfl
  · obtain ⟨rfl, rfl⟩ := Prod.mk.inj (Option.some.inj h)
    rfl

theorem readExponent?_suffix {t u : Text} {e : Int} (h : readExponent? t = some (e, u)) :
    u <:+ t := by
  rw [readExponent?_eq] at h
  dsimp only at h
  split_ifs at h
  all_goals
    obtain ⟨-, rfl⟩ := Prod.mk.inj (Option.some.inj h)
    exact (List.dropWhile_suffix _).trans (exponentSign_suffix t)

theorem fraction_append {rest : Text} (hrest : Stops rest) (t : Text) :
    fraction (t ++ rest) = ((fraction t).1, (fraction t).2.1, (fraction t).2.2 ++ rest) := by
  have hend : ∀ c ∈ rest.head?, c.isDigit = false := fun c hc => (hrest c hc).1
  have hpoint : ∀ c ∈ rest.head?, c ≠ '.' := fun c hc => (hrest c hc).2.1
  cases t with
  | nil => exact fraction_plain hpoint
  | cons c t =>
    by_cases hc : c = '.'
    · subst hc
      have hspan := span_append hend t
      simp only [List.cons_append, fraction, hspan.1, hspan.2]
    · have hplain : ∀ d ∈ (c :: t).head?, d ≠ '.' := by simpa using hc
      rw [fraction_plain hplain, List.cons_append]
      exact fraction_plain (by simpa using hc)

theorem fraction_suffix (t : Text) : (fraction t).2.2 <:+ t := by
  unfold fraction
  split
  · exact (List.dropWhile_suffix _).trans (List.suffix_cons _ _)
  · exact List.suffix_refl _

theorem exponent?_letter {c : Char} (h : c = 'e' ∨ c = 'E') (t : Text) :
    exponent? (c :: t) = (readExponent? t).map fun r => (true, r.1, r.2) := by
  obtain rfl | rfl := h <;> rfl

theorem exponent?_append {t u rest : Text} {found : Bool} {e : Int} (hrest : Stops rest)
    (h : exponent? t = some (found, e, u)) : exponent? (t ++ rest) = some (found, e, u ++ rest) := by
  have hletter : ∀ c ∈ rest.head?, c ≠ 'e' ∧ c ≠ 'E' := fun c hc => (hrest c hc).2.2
  cases t with
  | nil =>
    obtain ⟨rfl, rfl, rfl⟩ : false = found ∧ 0 = e ∧ [] = u := by simpa [exponent?] using h
    exact exponent?_plain hletter
  | cons c t =>
    by_cases hc : c = 'e' ∨ c = 'E'
    · rw [exponent?_letter hc] at h
      obtain ⟨r, hr, he⟩ := Option.map_eq_some_iff.mp h
      obtain ⟨rfl, rfl⟩ : found = true ∧ r = (e, u) := by simpa using he
      rw [List.cons_append, exponent?_letter hc, readExponent?_append hrest hr, Option.map_some]
    · have hplain (w : Text) : exponent? (c :: w) = some (false, 0, c :: w) :=
        exponent?_plain (by simpa using hc)
      rw [hplain] at h
      obtain ⟨rfl, rfl, rfl⟩ : false = found ∧ 0 = e ∧ c :: t = u := by simpa using h
      exact hplain _

theorem exponent?_suffix {t u : Text} {found : Bool} {e : Int}
    (h : exponent? t = some (found, e, u)) : u <:+ t := by
  have hletter {t : Text} (h : ((readExponent? t).map fun r => (true, r.1, r.2)) =
      some (found, e, u)) : u <:+ t := by
    obtain ⟨r, hr, he⟩ := Option.map_eq_some_iff.mp h
    obtain ⟨-, rfl⟩ : found = true ∧ r = (e, u) := by simpa using he
    exact readExponent?_suffix hr
  unfold exponent? at h
  split at h
  · exact (hletter h).trans (List.suffix_cons _ _)
  · exact (hletter h).trans (List.suffix_cons _ _)
  · obtain ⟨-, -, rfl⟩ : false = found ∧ 0 = e ∧ _ = u := by simpa using h
    exact List.suffix_refl _

/-- A number is read the same before a text that does not go on with it. -/
theorem readNumber?_append {negative : Bool} {t u rest : Text} {v : Json} (hrest : Stops rest)
    (h : readNumber? negative t = some (v, u)) :
    readNumber? negative (t ++ rest) = some (v, u ++ rest) := by
  have hend : ∀ c ∈ rest.head?, c.isDigit = false := fun c hc => (hrest c hc).1
  have hspan := span_append hend t
  have hleads := leads_of_read h
  have hleads' : Leads ((t ++ rest).takeWhile Char.isDigit) := by rwa [hspan.1]
  rw [readNumber?_eq hleads] at h
  obtain ⟨⟨found, e, w⟩, hexponent, hvalue⟩ := Option.bind_eq_some_iff.mp h
  obtain ⟨v', hv, hr⟩ := Option.map_eq_some_iff.mp hvalue
  obtain ⟨rfl, rfl⟩ := Prod.mk.inj hr
  rw [readNumber?_eq hleads', hspan.1, hspan.2, fraction_append hrest, numberOf?,
    exponent?_append hrest hexponent, Option.bind_some, hv, Option.map_some]

theorem readNumber?_suffix {negative : Bool} {t u : Text} {v : Json}
    (h : readNumber? negative t = some (v, u)) : u <:+ t := by
  have hleads := leads_of_read h
  rw [readNumber?_eq hleads] at h
  obtain ⟨⟨found, e, w⟩, hexponent, hvalue⟩ := Option.bind_eq_some_iff.mp h
  obtain ⟨v', -, hr⟩ := Option.map_eq_some_iff.mp hvalue
  obtain ⟨-, rfl⟩ := Prod.mk.inj hr
  exact (exponent?_suffix hexponent).trans
    ((fraction_suffix _).trans (List.dropWhile_suffix _))

/-- A number of 64 bits without a point or an exponent is read as it is. -/
theorem readNumber?_decimal {n : Nat} (hn : n ≤ mostSignificand) {rest : Text}
    (hrest : Stops rest) (negative : Bool) :
    readNumber? negative (Text.decimal n ++ rest) =
      if !negative then some (int n, rest)
      else if n = 0 || 9223372036854775808 < n then
        some (real (Double.ofRatio false n 1).negate, rest)
      else some (int (-(n : Int)), rest) := by
  have hdigits := Text.decimal_chars n
  have hend : ∀ c ∈ rest.head?, c.isDigit = false := fun c hc => (hrest c hc).1
  have hwhole : (Text.decimal n ++ rest).takeWhile Char.isDigit = Text.decimal n :=
    Text.takeWhile_span hdigits hend
  have hafter : (Text.decimal n ++ rest).dropWhile Char.isDigit = rest :=
    Text.dropWhile_span hdigits hend
  have hleads : Leads ((Text.decimal n ++ rest).takeWhile Char.isDigit) := by
    rw [hwhole]
    refine ⟨Nat.toDigits_ne_nil, ?_⟩
    intro c t h
    exact absurd (decimal_zero_first h) (by simp)
  have hvalue : Nat.ofDigitChars 10 (Text.decimal n) 0 = n := Text.ofDecimal_decimal n
  have hsignificand : significand 0 0 (Text.decimal n) = (n, 0 + (Text.decimal n).length, 0) := by
    rw [significand_digits (by rw [hvalue]; exact hn), hvalue]
  rw [readNumber?_eq hleads, hwhole, hafter, fraction_plain fun c hc => (hrest c hc).2.1]
  rw [numberOf?, exponent?_plain fun c hc => (hrest c hc).2.2, Option.bind_some]
  unfold numberValue?
  rw [hsignificand]
  dsimp only
  cases negative with
  | false => simp
  | true =>
    simp only [Bool.false_and, Bool.or_false, bne_self_eq_false, Bool.not_true, Bool.false_eq_true,
      if_false]
    split_ifs <;> rfl

theorem skipBlank_cons {c : Char} (h : isBlank c = false) (t : Text) :
    skipBlank (c :: t) = c :: t := by
  simp [skipBlank, h]

theorem stops_cons {c : Char} (h : c.isDigit = false ∧ c ≠ '.' ∧ c ≠ 'e' ∧ c ≠ 'E') (t : Text) :
    Stops (c :: t) := by
  intro d hd
  obtain rfl : c = d := Option.some.inj hd
  exact h

theorem decimal_cons (n : Nat) : ∃ c t, Text.decimal n = c :: t ∧ c.isDigit = true := by
  have hdigits := Text.decimal_chars n
  cases h : Text.decimal n with
  | nil => exact absurd h Nat.toDigits_ne_nil
  | cons c t =>
    rw [h] at hdigits
    exact ⟨c, t, rfl, hdigits c (by simp)⟩

theorem digit_ne {c d : Char} (h : c.isDigit = true) (hd : d.isDigit = false) : c ≠ d := by
  rintro rfl
  rw [h] at hd
  cases hd

theorem isBlank_digit {c : Char} (h : c.isDigit = true) : isBlank c = false := by
  have hne (d : Char) (hd : d.isDigit = false) : c ≠ d := digit_ne h hd
  simp [isBlank, hne ' ' rfl, hne '\n' rfl, hne '\t' rfl, hne '\r' rfl]

theorem readValue?_digit {c : Char} (h : c.isDigit = true) (fuel depth : Nat) (t : Text) :
    readValue? (fuel + 1) depth (c :: t) = readNumber? false (c :: t) := by
  rw [readValue?, skipBlank_cons (isBlank_digit h)]
  split
  · next he => cases he
  · next he => exact absurd (List.cons.inj he).1 (digit_ne h rfl)
  · next he => exact absurd (List.cons.inj he).1 (digit_ne h rfl)
  · next he => exact absurd (List.cons.inj he).1 (digit_ne h rfl)
  · next he => exact absurd (List.cons.inj he).1 (digit_ne h rfl)
  · next he =>
    obtain ⟨rfl, rfl⟩ := List.cons.inj he
    rw [if_pos h]

theorem readValue?_minus (fuel depth : Nat) (t : Text) :
    readValue? (fuel + 1) depth ('-' :: t) = readNumber? true t := by
  rw [readValue?]
  rfl

theorem readValue?_int {i : Int} (h : -9223372036854775808 ≤ i) (h' : i ≤ mostSignificand)
    (fuel depth : Nat) {rest : Text} (hrest : Stops rest) :
    readValue? (fuel + 1) depth (Text.signedDecimal i ++ rest) = some (.int i, rest) := by
  have hmost : mostSignificand = 18446744073709551615 := rfl
  cases i with
  | ofNat n =>
    obtain ⟨c, t, hc, hdigit⟩ := decimal_cons n
    have hn : n ≤ mostSignificand := by
      have : (n : Int) ≤ mostSignificand := h'
      omega
    have hnumber := readNumber?_decimal hn hrest false
    change readValue? (fuel + 1) depth (Text.decimal n ++ rest) = _
    rw [hc, List.cons_append] at hnumber ⊢
    rw [readValue?_digit hdigit, hnumber]
    rfl
  | negSucc n =>
    change readValue? (fuel + 1) depth ('-' :: (Text.decimal (n + 1) ++ rest)) = _
    rw [readValue?_minus, readNumber?_decimal (by omega) hrest, if_neg (by simp), if_neg (by simp; omega)]
    rfl

end FluentSql.Json
