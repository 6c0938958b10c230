import FluentSql.Calendar.Reader
import FluentSql.Proofs.Text.Plain

namespace FluentSql.Calendar

open Text (IsPlain PlainUntil TakesPlain marks)

variable {stop : Char → Prop} {t rest : Text}

theorem takesPlain_number (least most : Nat) : TakesPlain stop (number? least most) := by
  intro t rest n h hrest
  unfold number? at h
  dsimp only at h
  split_ifs at h
  obtain ⟨-, rfl⟩ := Prod.mk.inj (Option.some.inj h)
  exact .of_drop (Text.isPlain_takeWhile rfl _)
    ((List.takeWhile_prefix _).trans (List.take_prefix most t)) hrest

theorem takesPlain_bounded (least most low high : Nat) :
    TakesPlain stop (bounded? least most low high) := by
  intro t rest n h hrest
  obtain ⟨r, hr, h⟩ := Option.bind_eq_some_iff.mp h
  split_ifs at h
  obtain rfl := Option.some.inj h
  exact takesPlain_number least most hr hrest

theorem sign?_plain {c : Char} (h : sign? c t = some rest) (hc : c ∉ marks)
    (hrest : PlainUntil stop rest) : PlainUntil stop t := by
  obtain rfl := Text.after?_eq_some_iff.mp h
  exact .cons hc hrest

theorem takesPlain_year : TakesPlain stop year? := by
  intro t rest year h hrest
  unfold year? at h
  split at h
  · exact .cons (by decide) ((takesPlain_number _ _).map (g := fun n : Nat => -(n : Int)) h hrest)
  · exact .cons (by decide) ((takesPlain_number _ _).map (g := Int.ofNat) h hrest)
  · exact (takesPlain_number _ _).map (g := Int.ofNat) h hrest

theorem takesPlain_fraction : TakesPlain stop fraction? := by
  intro t rest n h hrest
  unfold fraction? at h
  split at h
  · next t =>
    dsimp only at h
    split_ifs at h
    obtain ⟨-, rfl⟩ := Prod.mk.inj (Option.some.inj h)
    refine .cons (by decide) (.of_drop (Text.isPlain_takeWhile (p := Char.isDigit) rfl _)
      ((List.takeWhile_prefix _).trans (List.take_prefix 9 t)) ?_)
    exact .of_dropWhile rfl hrest
  · obtain ⟨-, rfl⟩ := Prod.mk.inj (Option.some.inj h)
    exact hrest

theorem takesPlain_looseDate : TakesPlain stop looseDate? := by
  intro t rest d h hrest
  unfold looseDate? at h
  obtain ⟨⟨year, t₁⟩, hyear, h⟩ := Option.bind_eq_some_iff.mp h
  obtain ⟨t₂, hfirst, h⟩ := Option.bind_eq_some_iff.mp h
  obtain ⟨⟨month, t₃⟩, hmonth, h⟩ := Option.bind_eq_some_iff.mp h
  obtain ⟨t₄, hsecond, h⟩ := Option.bind_eq_some_iff.mp h
  obtain ⟨⟨day, t₅⟩, hday, h⟩ := Option.bind_eq_some_iff.mp h
  dsimp only at h
  split_ifs at h
  obtain ⟨-, rfl⟩ := Prod.mk.inj (Option.some.inj h)
  have hday := takesPlain_bounded _ _ _ _ hday (.of_trimStart hrest)
  have hmonth := takesPlain_bounded _ _ _ _ hmonth
    (.of_trimStart (sign?_plain hsecond (by decide) (.of_trimStart hday)))
  exact .of_trimStart (takesPlain_year hyear
    (.of_trimStart (sign?_plain hfirst (by decide) (.of_trimStart hmonth))))

theorem date?_plain {d : Date} (h : date? t = some d) : IsPlain t := by
  unfold date? at h
  split at h
  · next hread => exact takesPlain_looseDate hread trivial
  · cases h

theorem timestamp?_plain {n : Int} (h : timestamp? t = some n) : IsPlain t := by
  unfold timestamp? at h
  obtain ⟨⟨d, t₁⟩, hdate, h⟩ := Option.bind_eq_some_iff.mp h
  obtain ⟨t₂, hmark, h⟩ := Option.bind_eq_some_iff.mp h
  obtain ⟨⟨hour, t₃⟩, hhour, h⟩ := Option.bind_eq_some_iff.mp h
  obtain ⟨t₄, hfirst, h⟩ := Option.bind_eq_some_iff.mp h
  obtain ⟨⟨minute, t₅⟩, hminute, h⟩ := Option.bind_eq_some_iff.mp h
  obtain ⟨t₆, hsecond, h⟩ := Option.bind_eq_some_iff.mp h
  obtain ⟨⟨second, t₇⟩, hseconds, h⟩ := Option.bind_eq_some_iff.mp h
  obtain ⟨⟨fraction, t₈⟩, hfraction, h⟩ := Option.bind_eq_some_iff.mp h
  dsimp only at h
  split_ifs at h with hend
  have hend : IsPlain (Text.trimStart t₈) := by
    rw [List.isEmpty_iff.mp hend]
    trivial
  have hseconds := takesPlain_bounded _ _ _ _ hseconds
    (takesPlain_fraction hfraction (.of_trimStart hend))
  have hminute := takesPlain_bounded _ _ _ _ hminute
    (.of_trimStart (sign?_plain hsecond (by decide) (.of_trimStart hseconds)))
  have hhour := takesPlain_bounded _ _ _ _ hhour
    (.of_trimStart (sign?_plain hfirst (by decide) (.of_trimStart hminute)))
  exact takesPlain_looseDate hdate (sign?_plain hmark (by decide) (.of_trimStart hhour))

theorem takesPlain_offset : TakesPlain stop offset? := by
  intro t rest offset h hrest
  unfold offset? at h
  split at h
  · obtain ⟨-, rfl⟩ := Prod.mk.inj (Option.some.inj h)
    exact .cons (by decide) hrest
  · obtain ⟨-, rfl⟩ := Prod.mk.inj (Option.some.inj h)
    exact .cons (by decide) hrest
  · next c t _ _ =>
    dsimp only at h
    split at h
    · cases h
    · next hsign =>
      obtain ⟨⟨hours, t₁⟩, hhours, h⟩ := Option.bind_eq_some_iff.mp h
      obtain ⟨t₂, hcolon, h⟩ := Option.bind_eq_some_iff.mp h
      obtain ⟨⟨minutes, t₃⟩, hminutes, h⟩ := Option.bind_eq_some_iff.mp h
      obtain ⟨-, rfl⟩ := Prod.mk.inj (Option.some.inj h)
      have hminutes := takesPlain_bounded _ _ _ _ hminutes hrest
      have hc : c ∉ marks := by
        refine Text.unmarked (p := fun c => !(c != '+' && c != '-' && c != '−')) rfl ?_
        rwa [Bool.not_eq_true', ← Bool.not_eq_true]
      exact .cons hc (takesPlain_bounded _ _ _ _ hhours (sign?_plain hcolon (by decide) hminutes))
  · cases h

/-- The time, the offset and the end of a time stamp of a day. -/
def clock? (d : Date) (t : Text) : Option Int := do
  let (hour, t) ← bounded? 2 2 0 23 t
  let t ← sign? ':' t
  let (minute, t) ← bounded? 2 2 0 59 t
  let t ← sign? ':' t
  let (second, t) ← bounded? 2 2 0 60 t
  let (fraction, t) ← fraction? t
  let (offset, t) ← offset? t
  if d.isValid && t.isEmpty then
    some (micros (nanos d hour minute second fraction - offset * 1000000000))
  else none

theorem clock?_plain {d : Date} {n : Int} (h : clock? d t = some n) : IsPlain t := by
  unfold clock? at h
  obtain ⟨⟨hour, t₁⟩, hhour, h⟩ := Option.bind_eq_some_iff.mp h
  obtain ⟨t₂, hfirst, h⟩ := Option.bind_eq_some_iff.mp h
  obtain ⟨⟨minute, t₃⟩, hminute, h⟩ := Option.bind_eq_some_iff.mp h
  obtain ⟨t₄, hsecond, h⟩ := Option.bind_eq_some_iff.mp h
  obtain ⟨⟨second, t₅⟩, hseconds, h⟩ := Option.bind_eq_some_iff.mp h
  obtain ⟨⟨fraction, t₆⟩, hfraction, h⟩ := Option.bind_eq_some_iff.mp h
  obtain ⟨⟨offset, t₇⟩, hoffset, h⟩ := Option.bind_eq_some_iff.mp h
  dsimp only at h
  split_ifs at h with hend
  rw [Bool.and_eq_true, List.isEmpty_iff] at hend
  obtain ⟨-, rfl⟩ := hend
  have hoffset : IsPlain t₆ := takesPlain_offset hoffset trivial
  have hseconds := takesPlain_bounded _ _ _ _ hseconds (takesPlain_fraction hfraction hoffset)
  have hminute := takesPlain_bounded _ _ _ _ hminute (sign?_plain hsecond (by decide) hseconds)
  exact takesPlain_bounded _ _ _ _ hhour (sign?_plain hfirst (by decide) hminute)

theorem zonedTimestamp?_plain {n : Int} (h : zonedTimestamp? t = some n) : IsPlain t := by
  unfold zonedTimestamp? at h
  obtain ⟨⟨year, t₁⟩, hyear, h⟩ := Option.bind_eq_some_iff.mp h
  obtain ⟨t₂, hfirst, h⟩ := Option.bind_eq_some_iff.mp h
  obtain ⟨⟨month, t₃⟩, hmonth, h⟩ := Option.bind_eq_some_iff.mp h
  obtain ⟨t₄, hsecond, h⟩ := Option.bind_eq_some_iff.mp h
  obtain ⟨⟨day, t₅⟩, hday, h⟩ := Option.bind_eq_some_iff.mp h
  dsimp only at h
  have hclock : IsPlain t₅ := by
    split at h
    · exact .cons (by decide) (clock?_plain (d := ⟨year, month, day⟩) h)
    · exact .cons (by decide) (clock?_plain (d := ⟨year, month, day⟩) h)
    · exact .cons (by decide) (clock?_plain (d := ⟨year, month, day⟩) h)
    · cases h
  have hday : IsPlain t₄ := takesPlain_bounded _ _ _ _ hday hclock
  have hmonth := takesPlain_bounded _ _ _ _ hmonth (sign?_plain hsecond (by decide) hday)
  exact takesPlain_number _ _ hyear (sign?_plain hfirst (by decide) hmonth)

end FluentSql.Calendar
