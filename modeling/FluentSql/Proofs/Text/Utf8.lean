import FluentSql.Text.Utf8
import Mathlib.Data.List.Basic

namespace FluentSql.Utf8

theorem toNat_ofNat {n : Nat} (h : n < 256) : (UInt8.ofNat n).toNat = n := by
  rw [UInt8.toNat_ofNat', Nat.mod_eq_of_lt h]

theorem units_begin {b : UInt8} {p : Pending} (h : begin? b.toNat = some p) (bs : List UInt8) :
    units (b :: bs) = if p.due = 0 then some (Char.ofNat p.code) :: units bs
      else unitsAfter p bs := by
  rw [units, h]

/-- A byte within its bounds brings six bits. -/
theorem unitsAfter_byte {p : Pending} {low : Nat} (h : p.least ≤ 0x80 + low)
    (h' : 0x80 + low ≤ p.most) (hb : 0x80 + low < 256) (bs : List UInt8) :
    unitsAfter p (UInt8.ofNat (0x80 + low) :: bs) =
      if p.due ≤ 1 then some (Char.ofNat (p.code * 64 + low)) :: units bs
      else unitsAfter ⟨p.code * 64 + low, p.due - 1, 0x80, 0xBF⟩ bs := by
  rw [unitsAfter]
  simp only [toNat_ofNat hb, h, h', decide_true, Bool.and_true, if_true, Nat.add_sub_cancel_left]

theorem begin?_two {n : Nat} (h : 0x80 ≤ n) (h' : n < 0x800) :
    begin? (0xC0 + n / 64) = some ⟨n / 64, 1, 0x80, 0xBF⟩ := by
  unfold begin?
  rw [if_neg (by omega), if_neg (by omega), if_pos (by omega), Nat.add_sub_cancel_left]

/-- The bounds of the second byte leave out what shorter sequences and surrogates would give. -/
theorem begin?_three {n : Nat} (h : 0x800 ≤ n) (h' : n < 0x10000) (hv : n.isValidChar) :
    ∃ least most, begin? (0xE0 + n / 4096) = some ⟨n / 4096, 2, least, most⟩ ∧
      least ≤ 0x80 + n / 64 % 64 ∧ 0x80 + n / 64 % 64 ≤ most := by
  unfold Nat.isValidChar at hv
  unfold begin?
  rw [if_neg (by omega), if_neg (by omega), if_neg (by omega)]
  by_cases hzero : n / 4096 = 0
  · exact ⟨0xA0, 0xBF, by simp [hzero], by omega, by omega⟩
  by_cases hsurrogate : n / 4096 = 0xD
  · exact ⟨0x80, 0x9F, by simp [hsurrogate], by omega, by omega⟩
  refine ⟨0x80, 0xBF, ?_, by omega, by omega⟩
  rw [if_neg (by omega), if_neg (by omega), if_pos (by omega), Nat.add_sub_cancel_left]

theorem begin?_four {n : Nat} (h : 0x10000 ≤ n) (hv : n.isValidChar) :
    ∃ least most, begin? (0xF0 + n / 262144) = some ⟨n / 262144, 3, least, most⟩ ∧
      least ≤ 0x80 + n / 4096 % 64 ∧ 0x80 + n / 4096 % 64 ≤ most := by
  unfold Nat.isValidChar at hv
  unfold begin?
  rw [if_neg (by omega), if_neg (by omega), if_neg (by omega), if_neg (by omega),
    if_neg (by omega), if_neg (by omega)]
  by_cases hzero : n / 262144 = 0
  · exact ⟨0x90, 0xBF, by simp [hzero], by omega, by omega⟩
  by_cases hlast : n / 262144 = 4
  · exact ⟨0x80, 0x8F, by simp [hlast], by omega, by omega⟩
  refine ⟨0x80, 0xBF, ?_, by omega, by omega⟩
  rw [if_neg (by omega), if_pos (by omega), Nat.add_sub_cancel_left]

theorem units_encodeChar (c : Char) (bs : List UInt8) :
    units (encodeChar c ++ bs) = some c :: units bs := by
  have hv : c.toNat.isValidChar := c.valid
  have hbound : c.toNat < 0x110000 := by
    unfold Nat.isValidChar at hv
    omega
  have hc : Char.ofNat c.toNat = c := Char.ofNat_toNat c
  unfold encodeChar
  dsimp only
  generalize c.toNat = n at hv hbound hc
  split_ifs with hone htwo hthree
  · have hb : begin? (UInt8.ofNat n).toNat = some ⟨n, 0, 0, 0⟩ := by
      rw [toNat_ofNat (by omega), begin?, if_pos hone]
    simp only [List.cons_append, List.nil_append]
    rw [units_begin hb, if_pos rfl, hc]
  · have hb : begin? (UInt8.ofNat (0xC0 + n / 64)).toNat = _ :=
      (congrArg begin? (toNat_ofNat (by omega))).trans (begin?_two (by omega) htwo)
    have hcode : n / 64 * 64 + n % 64 = n := by omega
    simp only [List.cons_append, List.nil_append]
    rw [units_begin hb, if_neg (by simp), unitsAfter_byte (by simp) (by simp; omega) (by omega),
      if_pos (by simp)]
    simp only [hcode, hc]
  · obtain ⟨least, most, hfirst, hleast, hmost⟩ := begin?_three (by omega) hthree hv
    have hb : begin? (UInt8.ofNat (0xE0 + n / 4096)).toNat = _ :=
      (congrArg begin? (toNat_ofNat (by omega))).trans hfirst
    have hcode : (n / 4096 * 64 + n / 64 % 64) * 64 + n % 64 = n := by omega
    simp only [List.cons_append, List.nil_append]
    rw [units_begin hb, if_neg (by simp), unitsAfter_byte hleast hmost (by omega),
      if_neg (by simp), unitsAfter_byte (by simp) (by simp; omega) (by omega), if_pos (by simp)]
    simp only [hcode, hc]
  · obtain ⟨least, most, hfirst, hleast, hmost⟩ := begin?_four (by omega) hv
    have hb : begin? (UInt8.ofNat (0xF0 + n / 262144)).toNat = _ :=
      (congrArg begin? (toNat_ofNat (by omega))).trans hfirst
    have hcode : ((n / 262144 * 64 + n / 4096 % 64) * 64 + n / 64 % 64) * 64 + n % 64 = n := by
      omega
    simp only [List.cons_append, List.nil_append]
    rw [units_begin hb, if_neg (by simp), unitsAfter_byte hleast hmost (by omega),
      if_neg (by simp), unitsAfter_byte (by simp) (by simp; omega) (by omega), if_neg (by simp),
      unitsAfter_byte (by simp) (by simp; omega) (by omega), if_pos (by simp)]
    simp only [hcode, hc]

theorem units_encode (t : Text) : units (encode t) = t.map some := by
  induction t with
  | nil => simp [encode, units]
  | cons c t ih =>
    change units (encodeChar c ++ encode t) = _
    rw [units_encodeChar, ih]
    rfl

theorem decode?_encode (t : Text) : decode? (encode t) = some t := by
  rw [decode?, units_encode]
  induction t with
  | nil => rfl
  | cons c t ih => simp [ih]

end FluentSql.Utf8
