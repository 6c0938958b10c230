import FluentSql.Event
import FluentSql.Text.Utf8
import Mathlib.Data.List.Infix
import Mathlib.Tactic.SplitIfs

namespace FluentSql

namespace Utf8

/-- Whether a byte goes on with a character that began before it. -/
def isContinuation (b : UInt8) : Bool := 0x80 ≤ b.toNat && b.toNat < 0xC0

/-- Whether a place in a byte string is between characters, as its two ends are. -/
def isBoundary (bytes : List UInt8) (n : Nat) : Bool :=
  n == 0 ||
    match bytes[n]? with
    | some b => !isContinuation b
    | none => n == bytes.length

/-- The last place between characters that is not after the given one, looked for backwards. -/
def boundaryBefore (bytes : List UInt8) : Nat → Nat
  | 0 => 0
  | n + 1 => if isBoundary bytes (n + 1) then n + 1 else boundaryBefore bytes n

theorem boundaryBefore_spec (bytes : List UInt8) (n : Nat) :
    isBoundary bytes (boundaryBefore bytes n) = true ∧ boundaryBefore bytes n ≤ n ∧
      ∀ k ≤ n, isBoundary bytes k = true → k ≤ boundaryBefore bytes n := by
  induction n with
  | zero => exact ⟨rfl, le_rfl, fun k hk _ => hk⟩
  | succ n ih =>
    obtain ⟨hboundary, hle, hlast⟩ := ih
    rw [boundaryBefore]
    split_ifs with h
    · exact ⟨h, le_rfl, fun k hk _ => hk⟩
    · refine ⟨hboundary, by omega, fun k hk hkb => ?_⟩
      have hne : k ≠ n + 1 := fun he => h (he ▸ hkb)
      exact hlast k (by omega) hkb

theorem utf8Size_eq (c : Char) : c.utf8Size =
    if c.toNat < 0x80 then 1 else if c.toNat < 0x800 then 2
    else if c.toNat < 0x10000 then 3 else 4 := by
  unfold Char.utf8Size Char.toNat
  simp only [UInt32.le_iff_toNat_le, UInt32.toNat_ofNatLT]
  split_ifs <;> omega

theorem length_encodeChar (c : Char) : (encodeChar c).length = c.utf8Size := by
  rw [utf8Size_eq]
  unfold encodeChar
  dsimp only
  split_ifs <;> rfl

/-- Only the first byte of a character can follow another character. -/
theorem encodeChar_parts (c : Char) : ∃ first rest, encodeChar c = first :: rest ∧
    isContinuation first = false ∧ ∀ b ∈ rest, isContinuation b = true := by
  have hbound : c.toNat < 0x110000 := by
    have hv : c.toNat.isValidChar := c.valid
    unfold Nat.isValidChar at hv
    omega
  have hfirst {k : Nat} (h : k < 0x80 ∨ 0xC0 ≤ k) (hk : k < 256) :
      isContinuation (UInt8.ofNat k) = false := by
    simp only [isContinuation, UInt8.toNat_ofNat', Bool.and_eq_false_iff,
      decide_eq_false_iff_not]
    omega
  have hrest (k : Nat) : isContinuation (UInt8.ofNat (0x80 + k % 64)) = true := by
    simp only [isContinuation, UInt8.toNat_ofNat', Bool.and_eq_true, decide_eq_true_eq]
    omega
  unfold encodeChar
  dsimp only
  generalize c.toNat = n at hbound
  split_ifs
  · exact ⟨_, _, rfl, hfirst (by omega) (by omega), by simp⟩
  · refine ⟨_, _, rfl, hfirst (by omega) (by omega), ?_⟩
    rw [List.forall_mem_singleton]
    exact hrest n
  · refine ⟨_, _, rfl, hfirst (by omega) (by omega), ?_⟩
    rw [List.forall_mem_cons, List.forall_mem_singleton]
    exact ⟨hrest (n / 64), hrest n⟩
  · refine ⟨_, _, rfl, hfirst (by omega) (by omega), ?_⟩
    rw [List.forall_mem_cons, List.forall_mem_cons, List.forall_mem_singleton]
    exact ⟨hrest (n / 4096), hrest (n / 64), hrest n⟩

theorem encode_cons (c : Char) (t : Text) : encode (c :: t) = encodeChar c ++ encode t := rfl

theorem encode_append (s t : Text) : encode (s ++ t) = encode s ++ encode t :=
  List.flatMap_append

theorem length_encode_cons (c : Char) (t : Text) :
    (encode (c :: t)).length = c.utf8Size + (encode t).length := by
  rw [encode_cons, List.length_append, length_encodeChar]

theorem length_encode (t : Text) : (encode t).length = Text.byteLength t := by
  induction t with
  | nil => rfl
  | cons c t ih =>
    rw [length_encode_cons, ih]
    rfl

/-- No text begins within a character. -/
theorem encode_head (t : Text) : ∀ b ∈ (encode t)[0]?, isContinuation b = false := by
  cases t with
  | nil => simp [encode]
  | cons c t =>
    obtain ⟨first, rest, hc, hfirst, -⟩ := encodeChar_parts c
    simp [encode_cons, hc, hfirst]

theorem isBoundary_within {c : Char} {n : Nat} (hpos : 0 < n) (hn : n < c.utf8Size) (t : Text) :
    isBoundary (encode (c :: t)) n = false := by
  obtain ⟨first, rest, hc, -, hrest⟩ := encodeChar_parts c
  obtain ⟨k, rfl⟩ : ∃ k, n = k + 1 := ⟨n - 1, by omega⟩
  have hk : k < rest.length := by
    rw [← length_encodeChar, hc, List.length_cons] at hn
    omega
  have hbyte : (encode (c :: t))[k + 1]? = some rest[k] := by
    rw [encode_cons, hc, List.cons_append, List.getElem?_cons_succ, List.getElem?_append_left hk,
      List.getElem?_eq_getElem hk]
  simp [isBoundary, hbyte, hrest]

theorem isBoundary_beyond (c : Char) (t : Text) (n : Nat) :
    isBoundary (encode (c :: t)) (c.utf8Size + n) = isBoundary (encode t) n := by
  have hbyte : (encode (c :: t))[c.utf8Size + n]? = (encode t)[n]? := by
    rw [encode_cons, List.getElem?_append_right (by rw [length_encodeChar]; omega),
      length_encodeChar, Nat.add_sub_cancel_left]
  have hpos : 0 < c.utf8Size := c.utf8Size_pos
  have hhead := encode_head t
  unfold isBoundary
  rw [hbyte, length_encode_cons]
  cases hn : (encode t)[n]? with
  | none =>
    have hlength := List.getElem?_eq_none_iff.mp hn
    rw [Bool.eq_iff_iff]
    simp only [Bool.or_eq_true, beq_iff_eq]
    omega
  | some b =>
    cases n with
    | zero => simp [hhead b hn]
    | succ n => simp

/-- A place is between characters if it comes after a number of whole characters. -/
theorem isBoundary_iff (t : Text) (n : Nat) :
    isBoundary (encode t) n = true ↔ ∃ p, p <+: t ∧ (encode p).length = n := by
  induction t generalizing n with
  | nil =>
    have hnil : encode [] = [] := rfl
    simp [isBoundary, hnil]
    exact eq_comm
  | cons c t ih =>
    constructor
    · intro h
      rcases Nat.eq_zero_or_pos n with rfl | hpos
      · exact ⟨[], List.nil_prefix, rfl⟩
      rcases Nat.lt_or_ge n c.utf8Size with hin | hout
      · rw [isBoundary_within hpos hin] at h
        cases h
      · obtain ⟨k, rfl⟩ := Nat.exists_eq_add_of_le hout
        rw [isBoundary_beyond] at h
        obtain ⟨p, hp, rfl⟩ := (ih k).mp h
        exact ⟨c :: p, List.cons_prefix_cons.mpr ⟨rfl, hp⟩, length_encode_cons c p⟩
    · rintro ⟨p, hp, rfl⟩
      cases p with
      | nil => rfl
      | cons d p =>
        obtain ⟨rfl, hrest⟩ := List.cons_prefix_cons.mp hp
        rw [length_encode_cons, isBoundary_beyond]
        exact (ih _).mpr ⟨p, hrest, rfl⟩

end Utf8

namespace QueryConfig

open Utf8 (encode boundaryBefore isBoundary)

variable {room most : Nat} {p sql : Text}

theorem fitting_isPrefix (room : Nat) (t : Text) : fitting room t <+: t := by
  induction t generalizing room with
  | nil => exact List.nil_prefix
  | cons c t ih =>
    rw [fitting]
    split_ifs
    · exact List.cons_prefix_cons.mpr ⟨rfl, ih _⟩
    · exact List.nil_prefix

theorem length_fitting_le (room : Nat) (t : Text) : (encode (fitting room t)).length ≤ room := by
  induction t generalizing room with
  | nil => exact Nat.zero_le room
  | cons c t ih =>
    rw [fitting]
    split_ifs with hc
    · have h := ih (room - c.utf8Size)
      rw [Utf8.length_encode_cons]
      omega
    · exact Nat.zero_le room

/-- No more characters fit than those that are kept. -/
theorem prefix_fitting {t : Text} (hp : p <+: t) (hroom : (encode p).length ≤ room) :
    p <+: fitting room t := by
  induction t generalizing room p with
  | nil => rwa [fitting]
  | cons c t ih =>
    cases p with
    | nil => exact List.nil_prefix
    | cons d p =>
      obtain ⟨rfl, hrest⟩ := List.cons_prefix_cons.mp hp
      rw [Utf8.length_encode_cons] at hroom
      rw [fitting, if_pos (by omega)]
      exact List.cons_prefix_cons.mpr ⟨rfl, ih hrest (by omega)⟩

/-- What fits ends at the last boundary within the room. -/
theorem length_fitting (room : Nat) (t : Text) :
    (encode (fitting room t)).length = boundaryBefore (encode t) room := by
  obtain ⟨hboundary, hle, hlast⟩ := Utf8.boundaryBefore_spec (encode t) room
  apply le_antisymm
  · refine hlast _ (length_fitting_le room t) ?_
    exact (Utf8.isBoundary_iff t _).mpr ⟨_, fitting_isPrefix room t, rfl⟩
  · obtain ⟨p, hp, hlength⟩ := (Utf8.isBoundary_iff t _).mp hboundary
    obtain ⟨more, hmore⟩ := prefix_fitting hp (hlength.trans_le hle)
    rw [← hlength, ← hmore, Utf8.encode_append, List.length_append]
    exact Nat.le_add_right _ _

theorem encode_take (hp : p <+: sql) : (encode sql).take (encode p).length = encode p := by
  obtain ⟨more, rfl⟩ := hp
  rw [Utf8.encode_append, List.take_left]

/-- How a text is logged for a limit in bytes, and which part of it is kept. -/
structure Truncates (most : Nat) (sql kept logged : Text) : Prop where
  /-- A text within the limit stays as it is. -/
  whole : (encode sql).length ≤ most → kept = sql ∧ logged = sql
  /-- Any other ends in an ellipsis. -/
  marked : most < (encode sql).length → logged = kept ++ "...".toList
  isPrefix : kept <+: sql
  fits : (encode kept).length ≤ most
  longest : ∀ p, p <+: sql → (encode p).length ≤ most → p <+: kept
  /-- The search from the limit backwards ends between characters, and the bytes are cut there. -/
  boundary : isBoundary (encode sql) (boundaryBefore (encode sql) most) = true
  sliced : encode kept = (encode sql).take (boundaryBefore (encode sql) most)

theorem fitting_truncates (config : QueryConfig) (sql : Text) (h : config.maxLength = some most) :
    Truncates most sql (fitting most sql) (config.truncate sql) := by
  have hlogged : config.truncate sql = if most < (encode sql).length then
      fitting most sql ++ "...".toList else sql := by
    rw [Utf8.length_encode, truncate, h]
    rfl
  constructor
  · intro hwhole
    have hkept := prefix_fitting List.prefix_rfl hwhole
    refine ⟨(fitting_isPrefix most sql).eq_of_length_le hkept.length_le, ?_⟩
    rw [hlogged, if_neg (by omega)]
  · intro hlong
    rw [hlogged, if_pos hlong]
  · exact fitting_isPrefix most sql
  · exact length_fitting_le most sql
  · exact fun p => prefix_fitting
  · exact (Utf8.boundaryBefore_spec (encode sql) most).1
  · rw [← length_fitting, encode_take (fitting_isPrefix most sql)]

theorem Truncates.mono {most most' : Nat} {kept kept' logged logged' : Text}
    (h : Truncates most sql kept logged) (h' : Truncates most' sql kept' logged')
    (hle : most ≤ most') : kept <+: kept' :=
  h'.longest kept h.isPrefix (h.fits.trans hle)

/-- Without a limit a statement is logged as it is. With one, the longest part of whole characters
that is within the limit is kept, and a larger limit keeps as much of it at least. -/
theorem truncate_longest (config : QueryConfig) (sql : Text) :
    (config.maxLength = none → config.truncate sql = sql) ∧
    ∀ most, config.maxLength = some most →
      (∃! kept, Truncates most sql kept (config.truncate sql)) ∧
      ∀ (config' : QueryConfig) (most' : Nat), config'.maxLength = some most' → most ≤ most' →
        ∀ kept kept', Truncates most sql kept (config.truncate sql) →
          Truncates most' sql kept' (config'.truncate sql) → kept <+: kept' := by
  refine ⟨fun h => ?_, fun most h => ⟨?_, ?_⟩⟩
  · rw [truncate, h]
  · refine ⟨_, fitting_truncates config sql h, fun kept hkept => ?_⟩
    have hfitting := fitting_truncates config sql h
    have hle : kept <+: fitting most sql := hkept.mono hfitting le_rfl
    exact hle.eq_of_length_le (hfitting.mono hkept le_rfl).length_le
  · intro config' most' _ hle kept kept' hkept hkept'
    exact hkept.mono hkept' hle

/-- The accented letter has two bytes, of which the first is within a limit of nine. -/
theorem truncate_longest_accent :
    let nine : QueryConfig := { maxLength := some 9 }
    let ten : QueryConfig := { maxLength := some 10 }
    let sql := "SELECT 'é'".toList
    nine.maxLength = some 9 ∧ ten.maxLength = some 10 ∧ ∃ kept kept',
      Truncates 9 sql kept (nine.truncate sql) ∧ kept = "SELECT '".toList ∧
        Truncates 10 sql kept' (ten.truncate sql) ∧ kept <+: kept' := by
  intro nine ten sql
  obtain ⟨-, hnine⟩ := truncate_longest nine sql
  obtain ⟨-, hten⟩ := truncate_longest ten sql
  obtain ⟨⟨kept, hkept, -⟩, hmono⟩ := hnine 9 rfl
  obtain ⟨⟨kept', hkept', -⟩, -⟩ := hten 10 rfl
  have hlogged : nine.truncate sql = "SELECT '".toList ++ "...".toList := by decide
  have hpart : kept = "SELECT '".toList :=
    List.append_cancel_right ((hkept.marked (by decide)).symm.trans hlogged)
  exact ⟨rfl, rfl, kept, kept', hkept, hpart, hkept',
    hmono ten 10 rfl (by decide) kept kept' hkept hkept'⟩

end QueryConfig

end FluentSql
