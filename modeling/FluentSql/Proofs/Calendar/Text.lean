import FluentSql.Calendar.Instant
import FluentSql.Calendar.Reader
import FluentSql.Proofs.Calendar.Days
import FluentSql.Proofs.Text.Digits

namespace FluentSql.Calendar

open Text (padded padded_digits length_padded padded_cons ofDecimal_padded trimStart_eq_self
  isBlank_digit)

theorem number?_digits {least most : Nat} {digits rest : Text}
    (hdigits : ∀ c ∈ digits, c.isDigit = true) (hleast : least ≤ digits.length)
    (hmost : digits.length ≤ most)
    (hrest : digits.length = most ∨ ∀ c ∈ rest.head?, c.isDigit = false) :
    number? least most (digits ++ rest) = some (Text.ofDecimal digits, rest) := by
  have hend : ∀ c ∈ (rest.take (most - digits.length)).head?, c.isDigit = false := by
    obtain hfull | hrest := hrest
    · simp [hfull]
    · cases rest with
      | nil => simp
      | cons c rest =>
        cases most - digits.length with
        | zero => simp
        | succ n => simpa using hrest
  have htaken : ((digits ++ rest).take most).takeWhile Char.isDigit = digits := by
    rw [List.take_append, List.take_of_length_le hmost, Text.takeWhile_span hdigits hend]
  unfold number?
  dsimp only
  rw [htaken, if_neg (by omega), List.drop_left]

/-- A number at its full width is read whatever comes after it. -/
theorem bounded?_padded {least width low high n : Nat} (hwidth : 0 < width) (hleast : least ≤ width)
    (hn : n < 10 ^ width) (hlow : low ≤ n) (hhigh : n ≤ high) (rest : Text) :
    bounded? least width low high (padded width n ++ rest) = some (n, rest) := by
  have hlength := length_padded hwidth hn
  have hnumber : number? least width (padded width n ++ rest) = _ :=
    number?_digits (padded_digits width n) (hleast.trans hlength.ge) hlength.le (.inl hlength)
  rw [bounded?, hnumber, Option.bind_some, ofDecimal_padded]
  simp [hlow, hhigh]

theorem year?_plain {t : Text} (h : ∀ c ∈ t.head?, c.isDigit = true) :
    year? t = (number? 1 4 t).map fun r => ((r.1 : Int), r.2) := by
  unfold year?
  split
  · simp at h
  · simp at h
  · rfl

theorem year?_minus (t : Text) :
    year? ('-' :: t) = (number? 1 t.length t).map fun r => (-(r.1 : Int), r.2) :=
  rfl

theorem year?_plus (t : Text) :
    year? ('+' :: t) = (number? 1 t.length t).map fun r => ((r.1 : Int), r.2) :=
  rfl

theorem year?_text (year : Int) (rest : Text) :
    year? (Date.yearText year ++ '-' :: rest) = some (year, '-' :: rest) := by
  have hdigits := padded_digits 4 year.natAbs
  have hhead : ∀ c ∈ (padded 4 year.natAbs ++ '-' :: rest).head?, c.isDigit = true := by
    obtain ⟨c, t, hp, hc⟩ := padded_cons 4 year.natAbs
    rw [hp]
    simpa using hc
  have hpos : 1 ≤ (padded 4 year.natAbs).length := by
    obtain ⟨c, t, hp, -⟩ := padded_cons 4 year.natAbs
    rw [hp]
    simp
  have hsigned : number? 1 (padded 4 year.natAbs ++ '-' :: rest).length
      (padded 4 year.natAbs ++ '-' :: rest) = some (year.natAbs, '-' :: rest) := by
    rw [number?_digits hdigits hpos (by simp) (.inr (by simp)), ofDecimal_padded]
  have hpadded : Text.padLeft 4 (Text.decimal year.natAbs) = padded 4 year.natAbs := rfl
  unfold Date.yearText
  rw [hpadded]
  split_ifs with hplain hnegative
  · have hlength : (padded 4 year.natAbs).length = 4 := length_padded (by decide) (by omega)
    have hvalue : (year.natAbs : Int) = year := by omega
    rw [year?_plain hhead, number?_digits hdigits hpos (Nat.le_of_eq hlength) (.inl hlength),
      ofDecimal_padded, Option.map_some, hvalue]
  · have hvalue : -(year.natAbs : Int) = year := by omega
    rw [List.cons_append, year?_minus, hsigned, Option.map_some, hvalue]
  · have hvalue : (year.natAbs : Int) = year := by omega
    rw [List.cons_append, year?_plus, hsigned, Option.map_some, hvalue]

/-- A year is shown with a digit or a sign first. -/
theorem yearText_head (year : Int) : ∀ c ∈ (Date.yearText year).head?, Text.isBlank c = false := by
  unfold Date.yearText
  split_ifs
  · obtain ⟨c, t, hp, hc⟩ := padded_cons 4 year.natAbs
    rw [← padded, hp]
    simpa using isBlank_digit hc
  · simp
    decide
  · simp
    decide

theorem sign?_self (c : Char) (t : Text) : sign? c (c :: t) = some t := by
  simp [sign?, Text.after?]

theorem trimStart_padded (width n : Nat) (rest : Text) :
    Text.trimStart (padded width n ++ rest) = padded width n ++ rest := by
  obtain ⟨c, t, hp, hc⟩ := padded_cons width n
  rw [hp]
  exact trimStart_eq_self (by simpa using isBlank_digit hc)

theorem trimStart_hyphen (t : Text) : Text.trimStart ('-' :: t) = '-' :: t :=
  trimStart_eq_self (by simp; decide)

theorem toText_parts (d : Date) (rest : Text) : d.toText ++ rest =
    Date.yearText d.year ++ '-' :: (padded 2 d.month ++ '-' :: (padded 2 d.day ++ rest)) := by
  simp [Date.toText, padded]

theorem isValid_bounds {d : Date} (hvalid : d.isValid = true) :
    (1 ≤ d.month ∧ d.month ≤ 12) ∧ 1 ≤ d.day ∧ d.day ≤ 31 := by
  simp only [Date.isValid, Bool.and_eq_true, decide_eq_true_eq] at hvalid
  have hlength : Date.monthLength d.year d.month ≤ 31 := by
    unfold Date.monthLength
    split_ifs <;> omega
  omega

theorem toText_head (d : Date) (rest : Text) :
    ∀ c ∈ (d.toText ++ rest).head?, Text.isBlank c = false := by
  rw [toText_parts]
  have h := yearText_head d.year
  cases hp : Date.yearText d.year with
  | nil =>
    simp
    decide
  | cons c t => simpa [hp] using h

theorem looseDate?_toText {d : Date} (hvalid : d.isValid = true) (rest : Text) :
    looseDate? (d.toText ++ rest) = some (d, Text.trimStart rest) := by
  have hbounds := isValid_bounds hvalid
  unfold looseDate?
  rw [trimStart_eq_self (toText_head d rest), toText_parts, year?_text]
  dsimp only [Option.bind_eq_bind, Option.bind_some]
  rw [trimStart_hyphen, sign?_self]
  dsimp only [Option.bind_some]
  rw [trimStart_padded, bounded?_padded (by decide) (by decide) (by omega) hbounds.1.1 hbounds.1.2]
  dsimp only [Option.bind_some]
  rw [trimStart_hyphen, sign?_self]
  dsimp only [Option.bind_some]
  rw [trimStart_padded, bounded?_padded (by decide) (by decide) (by omega) hbounds.2.1 hbounds.2.2]
  dsimp only [Option.bind_some]
  rw [if_pos hvalid]

theorem date?_toText {d : Date} (hvalid : d.isValid = true) : date? d.toText = some d := by
  have h := looseDate?_toText hvalid []
  rw [List.append_nil] at h
  unfold date?
  rw [h]
  rfl

/-- What ends in a number does not end in a blank. -/
theorem last_padded {width n : Nat} {t : Text} (h : padded width n <:+ t) :
    ∀ c ∈ t.getLast?, Text.isBlank c = false := by
  obtain ⟨front, rfl⟩ := h
  obtain ⟨d, u, hp, -⟩ := padded_cons width n
  have hlast : (front ++ padded width n).getLast? = (padded width n).getLast? := by
    rw [List.getLast?_append, hp, List.getLast?_cons]
    rfl
  rw [hlast]
  intro c hc
  exact isBlank_digit (padded_digits width n c (List.mem_of_getLast? hc))

theorem trim_toText (d : Date) : Text.trim d.toText = d.toText := by
  have hhead := toText_head d []
  rw [List.append_nil] at hhead
  have hday : padded 2 d.day <:+ d.toText := (List.suffix_cons _ _).trans (List.suffix_append _ _)
  exact Text.trim_eq_self hhead (last_padded hday)

/-- The digits of a fraction of a second, in microseconds. -/
def fractionText (f : Nat) : Text :=
  if f = 0 then [] else if f % 1000 = 0 then '.' :: padded 3 (f / 1000) else '.' :: padded 6 f

theorem timeText_parts (m : Nat) (rest : Text) : timeText m ++ rest =
    padded 2 (m / 1000000 / 3600) ++ ':' :: (padded 2 (m / 1000000 / 60 % 60) ++
      ':' :: (padded 2 (m / 1000000 % 60) ++ (fractionText (m % 1000000) ++ rest))) := by
  simp [timeText, fractionText, padded]

theorem fraction?_point (t : Text) : fraction? ('.' :: t) =
    let digits := (t.take 9).takeWhile Char.isDigit
    if digits.isEmpty then none
    else some (Text.ofDecimal digits * Nat.pow 10 (9 - digits.length),
      (t.drop digits.length).dropWhile Char.isDigit) :=
  rfl

theorem fraction?_digits {width k : Nat} (hwidth : 0 < width) (hmost : width ≤ 9)
    (hk : k < 10 ^ width) {rest : Text} (hrest : ∀ c ∈ rest.head?, c.isDigit = false) :
    fraction? ('.' :: (padded width k ++ rest)) = some (k * 10 ^ (9 - width), rest) := by
  have hdigits := padded_digits width k
  have hlength := length_padded hwidth hk
  have hend : ∀ c ∈ (rest.take (9 - width)).head?, c.isDigit = false := by
    cases rest with
    | nil => simp
    | cons c rest =>
      cases 9 - width with
      | zero => simp
      | succ n => simpa using hrest
  have htaken : ((padded width k ++ rest).take 9).takeWhile Char.isDigit = padded width k := by
    rw [List.take_append, List.take_of_length_le (by omega), hlength,
      Text.takeWhile_span hdigits hend]
  have hsome : (padded width k).isEmpty = false := by
    obtain ⟨c, t, hp, -⟩ := padded_cons width k
    rw [hp]
    rfl
  have hleft : rest.dropWhile Char.isDigit = rest := by
    simpa using Text.dropWhile_span (s := []) (p := Char.isDigit) (by simp) hrest
  rw [fraction?_point, htaken]
  dsimp only
  rw [hsome, if_neg (by simp), List.drop_left, hleft, ofDecimal_padded, hlength]
  rfl

theorem fraction?_text {f : Nat} (hf : f < 1000000) {rest : Text}
    (hrest : ∀ c ∈ rest.head?, c.isDigit = false ∧ c ≠ '.') :
    fraction? (fractionText f ++ rest) = some (f * 1000, rest) := by
  have hend : ∀ c ∈ rest.head?, c.isDigit = false := fun c hc => (hrest c hc).1
  unfold fractionText
  split_ifs with hzero hmillis
  · subst hzero
    rw [List.nil_append]
    unfold fraction?
    split
    · exact absurd rfl (hrest '.' rfl).2
    · rfl
  · have hvalue : f / 1000 * 10 ^ (9 - 3) = f * 1000 := by omega
    rw [List.cons_append, fraction?_digits (by decide) (by decide) (by omega) hend, hvalue]
  · have hvalue : f * 10 ^ (9 - 6) = f * 1000 := by omega
    rw [List.cons_append, fraction?_digits (by decide) (by decide) (by omega) hend, hvalue]

theorem micros_nanos (d : Date) (m : Nat) :
    micros (nanos d (m / 1000000 / 3600) (m / 1000000 / 60 % 60) (m / 1000000 % 60)
      (m % 1000000 * 1000) - 0 * 1000000000) = d.toDays * dayMicros + m := by
  have hnanos : nanos d (m / 1000000 / 3600) (m / 1000000 / 60 % 60) (m / 1000000 % 60)
      (m % 1000000 * 1000) - 0 * 1000000000 = (d.toDays * dayMicros + m) * 1000 := by
    unfold nanos
    unfold dayMicros at *
    omega
  rw [hnanos, micros, Int.mul_tdiv_cancel _ (by decide)]

/-- The parts of an instant are whole days and a time of the next. -/
theorem instantText?_eq {separator : Char} {n : Int} {t : Text}
    (h : instantText? separator n = some t) : ∃ d : Date, ∃ m : Nat,
      d = Date.ofDays (n / dayMicros) ∧ d.isValid = true ∧ (m : Int) < dayMicros ∧
      n = d.toDays * dayMicros + m ∧ t = d.toText ++ separator :: timeText m := by
  unfold instantText? Date.ofDays? at h
  dsimp only at h
  split_ifs at h with hyear
  · have hpos : 0 < dayMicros := by decide
    have hm : 0 ≤ n % dayMicros := Int.emod_nonneg n (by decide)
    refine ⟨_, (n % dayMicros).toNat, rfl, Date.ofDays_valid _ hyear.1 hyear.2, ?_, ?_,
      (Option.some.inj h).symm⟩
    · rw [Int.toNat_of_nonneg hm]
      exact Int.emod_lt_of_pos n hpos
    · rw [Date.toDays_ofDays, Int.toNat_of_nonneg hm, Int.mul_comm, Int.mul_ediv_add_emod]
  · simp at h

theorem timeText_head (m : Nat) : ∀ c ∈ (timeText m).head?, c.isDigit = true := by
  have h := timeText_parts m []
  rw [List.append_nil] at h
  obtain ⟨c, t, hp, hc⟩ := padded_cons 2 (m / 1000000 / 3600)
  rw [h, hp]
  simpa using hc

/-- No timestamp is read from its own text, which has a blank before the time. -/
theorem timestamp?_text {n : Int} {t : Text} (h : instantText? ' ' n = some t) :
    timestamp? t = none := by
  obtain ⟨d, m, -, hvalid, -, -, rfl⟩ := instantText?_eq h
  have hclock : Text.trimStart (' ' :: timeText m) = timeText m := by
    have hspace : Text.IsSpace [' '] := by simp [Text.IsSpace, Text.whiteSpace]
    exact Text.trimStart_space (s := [' ']) hspace fun c hc =>
      isBlank_digit (timeText_head m c hc)
  have hnone : sign? 'T' (timeText m) = none := by
    have hhead := timeText_head m
    cases hm : timeText m with
    | nil => rfl
    | cons c t =>
      rw [hm] at hhead
      have hne : 'T' ≠ c := by
        rintro rfl
        simp at hhead
      simp [sign?, Text.after?, hne]
  unfold timestamp?
  rw [looseDate?_toText hvalid, hclock]
  dsimp only [Option.bind_eq_bind, Option.bind_some]
  rw [hnone]
  rfl

theorem number?_year {year : Int} (h : 0 ≤ year) (h' : year ≤ 9999) (rest : Text) :
    number? 4 4 (Date.yearText year ++ rest) = some (year.natAbs, rest) := by
  have hplain : Date.yearText year = padded 4 year.natAbs := by
    rw [Date.yearText, if_pos ⟨h, h'⟩, padded]
  have hlength : (padded 4 year.natAbs).length = 4 := length_padded (by decide) (by omega)
  rw [hplain, number?_digits (padded_digits _ _) hlength.ge hlength.le (.inl hlength),
    ofDecimal_padded]

theorem zonedTimestamp?_text {n : Int} {t : Text} (h : instantText? 'T' n = some t)
    (hyear : 0 ≤ (Date.ofDays (n / dayMicros)).year)
    (hyear' : (Date.ofDays (n / dayMicros)).year ≤ 9999) :
    zonedTimestamp? (t ++ "+00:00".toList) = some n := by
  obtain ⟨d, m, hd, hvalid, hm, rfl, rfl⟩ := instantText?_eq h
  rw [← hd] at hyear hyear'
  have hbounds := isValid_bounds hvalid
  have hsame : (⟨(d.year.natAbs : Nat), d.month, d.day⟩ : Date) = d := by
    have habs : (d.year.natAbs : Int) = d.year := by omega
    rw [habs]
  unfold dayMicros at hm
  have hoffset : offset? "+00:00".toList = some (0, []) := by decide
  have hsign : ∀ c ∈ "+00:00".toList.head?, c.isDigit = false ∧ c ≠ '.' := by
    intro c hc
    obtain rfl : '+' = c := Option.some.inj hc
    exact ⟨rfl, by decide⟩
  unfold zonedTimestamp?
  rw [List.append_assoc, List.cons_append, toText_parts, timeText_parts, number?_year hyear hyear']
  dsimp only [Option.bind_eq_bind, Option.bind_some]
  rw [sign?_self]
  dsimp only [Option.bind_some]
  rw [bounded?_padded (by decide) (by decide) (by omega) hbounds.1.1 hbounds.1.2]
  dsimp only [Option.bind_some]
  rw [sign?_self]
  dsimp only [Option.bind_some]
  rw [bounded?_padded (by decide) (by decide) (by omega) hbounds.2.1 hbounds.2.2]
  dsimp only [Option.bind_some]
  change (bounded? 2 2 0 23 _).bind _ = _
  rw [bounded?_padded (by decide) (by decide) (by omega) (by omega) (by omega)]
  dsimp only [Option.bind_some]
  rw [sign?_self]
  dsimp only [Option.bind_some]
  rw [bounded?_padded (by decide) (by decide) (by omega) (by omega) (by omega)]
  dsimp only [Option.bind_some]
  rw [sign?_self]
  dsimp only [Option.bind_some]
  rw [bounded?_padded (by decide) (by decide) (by omega) (by omega) (by omega)]
  dsimp only [Option.bind_some]
  rw [fraction?_text (by omega) hsign]
  dsimp only [Option.bind_some]
  rw [hoffset]
  dsimp only [Option.bind_some]
  rw [hsame, hvalid, micros_nanos]
  rfl

/-- Years that are not of four digits begin with a sign. -/
theorem zonedTimestamp?_signed {n : Int} {t : Text} (h : instantText? 'T' n = some t)
    (hyear : ¬(0 ≤ (Date.ofDays (n / dayMicros)).year ∧ (Date.ofDays (n / dayMicros)).year ≤ 9999))
    (rest : Text) : zonedTimestamp? (t ++ rest) = none := by
  obtain ⟨d, m, hd, -, -, -, rfl⟩ := instantText?_eq h
  rw [← hd] at hyear
  have hsign : ∃ sign u, Date.yearText d.year = sign :: u ∧ sign.isDigit = false := by
    rw [Date.yearText, if_neg hyear]
    split_ifs
    · exact ⟨_, _, rfl, by decide⟩
    · exact ⟨_, _, rfl, by decide⟩
  obtain ⟨sign, u, hu, hsign⟩ := hsign
  have hnone : ∀ rest, number? 4 4 (sign :: rest) = none := by
    intro rest
    simp [number?, hsign]
  unfold zonedTimestamp?
  rw [List.append_assoc, toText_parts, hu, List.cons_append, hnone]
  rfl

theorem timeText_last (m : Nat) : ∃ width n, padded width n <:+ timeText m := by
  unfold timeText
  dsimp only
  split_ifs
  · rw [List.append_nil]
    exact ⟨2, m / 1000000 % 60, (List.suffix_cons _ _).trans (List.suffix_append _ _)⟩
  · exact ⟨3, m % 1000000 / 1000, (List.suffix_cons _ _).trans (List.suffix_append _ _)⟩
  · exact ⟨6, m % 1000000, (List.suffix_cons _ _).trans (List.suffix_append _ _)⟩

theorem trim_instantText {separator : Char} {n : Int} {t : Text}
    (h : instantText? separator n = some t) : Text.trim t = t := by
  obtain ⟨d, m, -, -, -, -, rfl⟩ := instantText?_eq h
  obtain ⟨width, k, htime⟩ := timeText_last m
  have hlast : padded width k <:+ d.toText ++ separator :: timeText m :=
    htime.trans ((List.suffix_cons _ _).trans (List.suffix_append _ _))
  exact Text.trim_eq_self (toText_head d _) (last_padded hlast)

theorem trim_zonedText {n : Int} {t : Text} (h : instantText? 'T' n = some t) :
    Text.trim (t ++ "+00:00".toList) = t ++ "+00:00".toList := by
  obtain ⟨d, m, -, -, -, -, rfl⟩ := instantText?_eq h
  have hlast : padded 2 0 <:+ d.toText ++ 'T' :: timeText m ++ "+00:00".toList :=
    (show padded 2 0 <:+ "+00:00".toList by decide).trans (List.suffix_append _ _)
  rw [List.append_assoc] at hlast ⊢
  exact Text.trim_eq_self (toText_head d _) (last_padded hlast)

end FluentSql.Calendar
