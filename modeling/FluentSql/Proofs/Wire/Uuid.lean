import FluentSql.Proofs.Text.Clean
import FluentSql.Proofs.Text.Digits
import FluentSql.Proofs.Text.Hex
import FluentSql.Uuid
import Mathlib.Data.List.Basic

namespace FluentSql

namespace Uuid

open FluentSql.Wire

theorem byteText_eq (b : UInt8) :
    byteText b = [(b.toNat / 16).digitChar, (b.toNat % 16).digitChar] :=
  Text.padLeft_hex b.toNat_lt

theorem readPairs_flatMap (bytes : Bytes) : readPairs (bytes.flatMap byteText) = bytes := by
  induction bytes with
  | nil => rfl
  | cons b bytes ih =>
    have hb : b.toNat < 256 := b.toNat_lt
    have hvalue : b.toNat / 16 * 16 + b.toNat % 16 = b.toNat := by omega
    rw [List.flatMap_cons, byteText_eq]
    simp only [List.cons_append, List.nil_append, readPairs]
    rw [Text.hexValue_digitChar (by omega), Text.hexValue_digitChar (by omega), hvalue, ih,
      UInt8.ofNat_toNat]

theorem hex_flatMap (bytes : Bytes) : ∀ c ∈ bytes.flatMap byteText, Text.isHexDigit c = true := by
  intro c hc
  obtain ⟨b, -, hc⟩ := List.mem_flatMap.mp hc
  have hb : b.toNat < 256 := b.toNat_lt
  rw [byteText_eq] at hc
  obtain rfl | hc := List.mem_cons.mp hc
  · exact Text.isHexDigit_digitChar (by omega)
  · rw [List.mem_singleton.mp hc]
    exact Text.isHexDigit_digitChar (by omega)

theorem length_flatMap (bytes : Bytes) : (bytes.flatMap byteText).length = 2 * bytes.length := by
  induction bytes with
  | nil => rfl
  | cons b bytes ih =>
    rw [List.flatMap_cons, List.length_append, ih, byteText_eq]
    simp
    omega

/-- The bytes in groups as they are shown. -/
def groups (bytes : Bytes) : List Bytes :=
  [bytes.take 4, (bytes.drop 4).take 2, (bytes.drop 6).take 2, (bytes.drop 8).take 2,
    (bytes.drop 10).take 6]

theorem flatten_groups {bytes : Bytes} (h : bytes.length = 16) : (groups bytes).flatten = bytes := by
  have hlast : (bytes.drop 10).take 6 = bytes.drop 10 := List.take_of_length_le (by simp [h])
  have hcut (n m : Nat) : (bytes.drop n).take m ++ bytes.drop (n + m) = bytes.drop n := by
    rw [← List.drop_drop, List.take_append_drop]
  simp only [groups, List.flatten_cons, List.flatten_nil, List.append_nil, hlast]
  rw [hcut 8 2, hcut 6 2, hcut 4 2, List.take_append_drop]

theorem toText_groups (bytes : Bytes) :
    toText bytes = Text.joinWith ['-'] ((groups bytes).map fun g => g.flatMap byteText) :=
  rfl

theorem readSimple?_flatMap {bytes : Bytes} (h : bytes.length = 16) :
    readSimple? (bytes.flatMap byteText) = some bytes := by
  have hlength : (bytes.flatMap byteText).length = 32 := by rw [length_flatMap, h]
  have hall : (bytes.flatMap byteText).all Text.isHexDigit = true :=
    List.all_eq_true.mpr (hex_flatMap bytes)
  rw [readSimple?, hlength, hall, readPairs_flatMap]
  rfl

theorem splitAt_toText (bytes : Bytes) :
    Text.splitAt '-' (toText bytes) = (groups bytes).map fun g => g.flatMap byteText := by
  rw [toText_groups]
  refine Text.splitAt_joinWith (by simp [groups]) ?_
  intro p hp hm
  obtain ⟨g, -, rfl⟩ := List.mem_map.mp hp
  exact absurd (hex_flatMap g '-' hm) (by decide)

theorem readHyphenated?_toText {bytes : Bytes} (h : bytes.length = 16) :
    readHyphenated? (toText bytes) = some bytes := by
  have hlengths : ((groups bytes).map fun g => g.flatMap byteText).map List.length =
      [8, 4, 4, 4, 12] := by
    simp only [groups, List.map_cons, List.map_nil, length_flatMap, List.length_take,
      List.length_drop, h]
    rfl
  have hflatten : ((groups bytes).map fun g => g.flatMap byteText).flatten =
      bytes.flatMap byteText := by
    conv_rhs => rw [← flatten_groups h]
    simp only [groups, List.map_cons, List.map_nil, List.flatten_cons, List.flatten_nil,
      List.append_nil, List.flatMap_append]
  unfold readHyphenated?
  dsimp only
  rw [splitAt_toText, if_pos hlengths, hflatten, readSimple?_flatMap h]

theorem read?_toText {bytes : Bytes} (h : bytes.length = 16) : read? (toText bytes) = some bytes := by
  have hmem : '-' ∈ toText bytes := by simp [toText_groups, groups, Text.joinWith]
  have hall : (toText bytes).all Text.isHexDigit = false := by
    rw [List.all_eq_false]
    exact ⟨'-', hmem, by decide⟩
  have hsimple : readSimple? (toText bytes) = none := by simp [readSimple?, hall]
  rw [read?, hsimple, readHyphenated?_toText h]
  rfl

theorem trim_toText (bytes : Bytes) : Text.trim (toText bytes) = toText bytes := by
  refine Text.trim_solid ?_
  intro c hc
  rw [toText_groups] at hc
  obtain hc | ⟨p, hp, hc⟩ := Text.mem_joinWith hc
  · rw [List.mem_singleton.mp hc]
    decide
  · obtain ⟨g, -, rfl⟩ := List.mem_map.mp hp
    exact Text.isBlank_alphanum (Text.isAlphanum_of_isHexDigit (hex_flatMap g c hc))

end Uuid

end FluentSql
