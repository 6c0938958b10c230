import FluentSql.Wire.Bytes
import Mathlib.Algebra.Order.Ring.Int
import Mathlib.Data.List.Induction
import Mathlib.Tactic.Positivity
import Mathlib.Tactic.Ring
import Mathlib.Tactic.Zify

namespace FluentSql.Wire

@[simp] theorem length_bigEndian (width n : Nat) : (bigEndian width n).length = width := by
  induction width generalizing n with
  | zero => rfl
  | succ width ih => simp only [bigEndian, List.length_append, List.length_singleton, ih]

@[simp] theorem length_signedBytes (width : Nat) (i : Int) :
    (signedBytes width i).length = width :=
  length_bigEndian width _

theorem ofBigEndian_concat (bytes : Bytes) (b : UInt8) :
    ofBigEndian (bytes ++ [b]) = ofBigEndian bytes * 256 + b.toNat :=
  List.foldl_append

theorem ofBigEndian_bigEndian (width n : Nat) :
    ofBigEndian (bigEndian width n) = n % 256 ^ width := by
  induction width generalizing n with
  | zero => simp [bigEndian, ofBigEndian, Nat.mod_one]
  | succ width ih =>
    have hbyte : (UInt8.ofNat n).toNat = n % 256 := UInt8.toNat_ofNat'
    rw [bigEndian, ofBigEndian_concat, ih, hbyte, pow_succ', Nat.mod_mul]
    omega

theorem ofBigEndian_bigEndian_of_lt {width n : Nat} (h : n < 256 ^ width) :
    ofBigEndian (bigEndian width n) = n := by
  rw [ofBigEndian_bigEndian, Nat.mod_eq_of_lt h]

theorem ofBigEndian_lt (bytes : Bytes) : ofBigEndian bytes < 256 ^ bytes.length := by
  induction bytes using List.reverseRecOn with
  | nil => simp [ofBigEndian]
  | append_singleton bytes b ih =>
    have hb : b.toNat < 256 := b.toNat_lt
    rw [ofBigEndian_concat, List.length_append, List.length_singleton, pow_succ]
    omega

theorem bigEndian_ofBigEndian (bytes : Bytes) :
    bigEndian bytes.length (ofBigEndian bytes) = bytes := by
  induction bytes using List.reverseRecOn with
  | nil => rfl
  | append_singleton bytes b ih =>
    have hb : b.toNat < 256 := b.toNat_lt
    have hrest : (ofBigEndian bytes * 256 + b.toNat) / 256 = ofBigEndian bytes := by omega
    have hlast : UInt8.ofNat (ofBigEndian bytes * 256 + b.toNat) = b := by
      apply UInt8.toNat_inj.mp
      rw [UInt8.toNat_ofNat']
      omega
    rw [List.length_append, List.length_singleton, bigEndian, ofBigEndian_concat, hrest, hlast, ih]

/-- The whole numbers that two's complement has in so many bytes. -/
def FitsIn (width : Nat) (i : Int) : Prop :=
  -(256 ^ width : Int) ≤ 2 * i ∧ 2 * i < 256 ^ width

theorem ofSignedBytes_signedBytes {width : Nat} {i : Int} (h : FitsIn width i) :
    ofSignedBytes (signedBytes width i) = i := by
  obtain ⟨hleast, hmost⟩ := h
  have hpos : (0 : Int) < 256 ^ width := by positivity
  have hsize : ((Nat.pow 256 width : Nat) : Int) = 256 ^ width := by
    rw [Nat.pow_eq, Nat.cast_pow, Nat.cast_ofNat]
  have hmod : 0 ≤ i % 256 ^ width := Int.emod_nonneg i hpos.ne'
  have hcode : (ofBigEndian (signedBytes width i) : Int) = i % 256 ^ width := by
    have hlt : (i % (256 ^ width : Int)).toNat < 256 ^ width := by
      have := Int.emod_lt_of_pos i hpos
      zify
      rwa [Int.toNat_of_nonneg hmod]
    rw [signedBytes, hsize, ofBigEndian_bigEndian_of_lt hlt, Int.toNat_of_nonneg hmod]
  have hlimit : 2 * ofBigEndian (signedBytes width i) < Nat.pow 256 width ↔
      2 * (i % (256 ^ width : Int)) < 256 ^ width := by
    zify
    rw [hcode, hsize]
  rw [ofSignedBytes, length_signedBytes, hcode, hsize]
  by_cases hi : 0 ≤ i
  · have hmodi : i % 256 ^ width = i := Int.emod_eq_of_lt hi (by omega)
    rw [if_pos (hlimit.mpr (by omega)), hmodi]
  · have hmodi : i % 256 ^ width = i + 256 ^ width := by
      rw [← Int.add_emod_right, Int.emod_eq_of_lt (by omega) (by omega)]
    rw [if_neg (mt hlimit.mp (by omega)), hmodi]
    omega

theorem fitsIn_ofSignedBytes (bytes : Bytes) : FitsIn bytes.length (ofSignedBytes bytes) := by
  have hlt : (ofBigEndian bytes : Int) < 256 ^ bytes.length := by
    exact_mod_cast ofBigEndian_lt bytes
  have hsize : ((Nat.pow 256 bytes.length : Nat) : Int) = 256 ^ bytes.length := by
    rw [Nat.pow_eq, Nat.cast_pow, Nat.cast_ofNat]
  unfold FitsIn ofSignedBytes
  dsimp only
  split
  · next h =>
    have h : 2 * (ofBigEndian bytes : Int) < 256 ^ bytes.length := by
      rw [← hsize]
      exact_mod_cast h
    omega
  · next h =>
    have h : (256 ^ bytes.length : Int) ≤ 2 * ofBigEndian bytes := by
      rw [← hsize]
      exact_mod_cast not_lt.mp h
    rw [hsize]
    omega

theorem signedBytes_ofSignedBytes (bytes : Bytes) :
    signedBytes bytes.length (ofSignedBytes bytes) = bytes := by
  have hlt := ofBigEndian_lt bytes
  have hmod : (ofSignedBytes bytes % (Nat.pow 256 bytes.length : Nat)).toNat =
      ofBigEndian bytes := by
    have hn : (ofBigEndian bytes : Int) % (Nat.pow 256 bytes.length : Nat) = ofBigEndian bytes :=
      Int.emod_eq_of_lt (by omega) (by exact_mod_cast hlt)
    unfold ofSignedBytes
    dsimp only
    split
    · rw [hn, Int.toNat_natCast]
    · rw [Int.sub_emod_right, hn, Int.toNat_natCast]
  rw [signedBytes, hmod, bigEndian_ofBigEndian]

theorem exactly?_of_length {width : Nat} {bytes : Bytes} (h : bytes.length = width) :
    exactly? width bytes = some bytes :=
  if_pos h

theorem exactly?_eq_some {width : Nat} {bytes b : Bytes} (h : exactly? width bytes = some b) :
    bytes.length = width ∧ b = bytes := by
  unfold exactly? at h
  split at h
  · exact ⟨‹_›, (Option.some.inj h).symm⟩
  · cases h

theorem take?_append {width : Nat} {front : Bytes} (rest : Bytes) (h : front.length = width) :
    take? width (front ++ rest) = some (front, rest) := by
  subst h
  simp [take?]

end FluentSql.Wire
