import FluentSql.Proofs.Text.Cutting
import FluentSql.Proofs.Text.Hex
import FluentSql.Proofs.Text.Utf8
import FluentSql.Proofs.Text.Word
import FluentSql.Url.Path
import FluentSql.Url.Percent

namespace FluentSql.Url

/-- A letter or digit of ASCII stands for itself, and any other byte is escaped. -/
def writeByte (b : UInt8) : Text :=
  let c := Char.ofNat b.toNat
  if c.isAlphanum then [c] else escapeByte b

/-- A text with every byte escaped that is no letter or digit. -/
def escape (t : Text) : Text := (Utf8.encode t).flatMap writeByte

/-- The characters of escaped texts. -/
def isEscapePart (c : Char) : Bool := c == '%' || c.isAlphanum

theorem toUpper_hexDigit {n : Nat} (h : n < 16) :
    Text.isHexDigit n.digitChar.toUpper = true ∧ Text.hexValue n.digitChar.toUpper = n := by
  have hall : ∀ n < 16, Text.isHexDigit (Nat.digitChar n).toUpper = true ∧
      Text.hexValue (Nat.digitChar n).toUpper = n := by decide
  exact hall n h

theorem escapeByte_eq (b : UInt8) :
    escapeByte b = ['%', (b.toNat / 16).digitChar.toUpper, (b.toNat % 16).digitChar.toUpper] := by
  rw [escapeByte, Text.padLeft_hex b.toNat_lt]
  rfl

theorem percentBytes_char {c : Char} (h : c ≠ '%') (t : Text) :
    percentBytes (c :: t) = Utf8.encodeChar c ++ percentBytes t := by
  rw [percentBytes]
  intro _ _ _ he
  exact absurd he h

theorem percentBytes_escapeByte (b : UInt8) (t : Text) :
    percentBytes (escapeByte b ++ t) = b :: percentBytes t := by
  have hb : b.toNat < 256 := b.toNat_lt
  obtain ⟨hhigh, hhigh'⟩ := toUpper_hexDigit (by omega : b.toNat / 16 < 16)
  obtain ⟨hlow, hlow'⟩ := toUpper_hexDigit (by omega : b.toNat % 16 < 16)
  have hvalue : Text.ofHex [(b.toNat / 16).digitChar.toUpper, (b.toNat % 16).digitChar.toUpper] =
      b.toNat := by
    simp only [Text.ofHex, List.foldl_cons, List.foldl_nil, hhigh', hlow']
    omega
  rw [escapeByte_eq]
  change percentBytes ('%' :: _ :: _ :: t) = _
  rw [percentBytes, if_pos (by rw [hhigh, hlow]; rfl), hvalue, UInt8.ofNat_toNat]

/-- A letter or digit is one byte. -/
theorem encodeChar_alphanum {b : UInt8} (h : (Char.ofNat b.toNat).isAlphanum = true) :
    Utf8.encodeChar (Char.ofNat b.toNat) = [b] := by
  have hb : b.toNat < 256 := b.toNat_lt
  have hcode : (Char.ofNat b.toNat).toNat = b.toNat := by
    rw [Char.ofNat, dif_pos (.inl (by omega))]
    rfl
  rw [Text.isAlphanum_iff, hcode] at h
  rw [Utf8.encodeChar, hcode, if_pos (by omega), UInt8.ofNat_toNat]

theorem percentBytes_writeByte (b : UInt8) (t : Text) :
    percentBytes (writeByte b ++ t) = b :: percentBytes t := by
  unfold writeByte
  dsimp only
  split_ifs with h
  · have hne : Char.ofNat b.toNat ≠ '%' := by
      intro he
      rw [he] at h
      exact absurd h (by decide)
    rw [List.singleton_append, percentBytes_char hne, encodeChar_alphanum h]
    rfl
  · exact percentBytes_escapeByte b t

theorem percentBytes_escape (t : Text) : percentBytes (escape t) = Utf8.encode t := by
  unfold escape
  induction Utf8.encode t with
  | nil => rfl
  | cons b bs ih => rw [List.flatMap_cons, percentBytes_writeByte, ih]

theorem isEscapePart_writeByte (b : UInt8) : ∀ c ∈ writeByte b, isEscapePart c = true := by
  have hb : b.toNat < 256 := b.toNat_lt
  have hdigit {n : Nat} (h : n < 16) : isEscapePart n.digitChar.toUpper = true := by
    have hall : ∀ n < 16, isEscapePart (Nat.digitChar n).toUpper = true := by decide
    exact hall n h
  unfold writeByte
  dsimp only
  split_ifs with h
  · simp [isEscapePart, h]
  · rw [escapeByte_eq, List.forall_mem_cons, List.forall_mem_cons, List.forall_mem_singleton]
    exact ⟨rfl, hdigit (by omega), hdigit (by omega)⟩

theorem isEscapePart_escape (t : Text) : ∀ c ∈ escape t, isEscapePart c = true := by
  intro c hc
  obtain ⟨b, -, hb⟩ := List.mem_flatMap.mp hc
  exact isEscapePart_writeByte b c hb

/-- Nothing that takes a URL apart is part of an escaped text. -/
theorem notMem_escape {c : Char} (h : isEscapePart c = false) (t : Text) : c ∉ escape t :=
  fun hc => absurd (isEscapePart_escape t c hc) (by simp [h])

theorem decodeLossy_encode (t : Text) : Utf8.decodeLossy (Utf8.encode t) = t := by
  rw [Utf8.decodeLossy, Utf8.units_encode, List.map_map]
  exact List.map_id t

theorem percentDecode_escape (t : Text) : percentDecode (escape t) = t := by
  rw [percentDecode, percentBytes_escape, decodeLossy_encode]

/-- A plus sign is escaped, so that none becomes a blank. -/
theorem formDecode_escape (t : Text) : formDecode (escape t) = t := by
  have hplus : ((escape t).map fun c => if c = '+' then ' ' else c) = escape t := by
    rw [List.map_congr_left (g := id), List.map_id]
    intro c hc
    have hne : c ≠ '+' := by
      rintro rfl
      exact notMem_escape rfl t hc
    exact if_neg hne
  rw [formDecode, hplus, percentDecode_escape]

theorem dot_notMem_lower (t : Text) : '.' ∉ Text.lower (escape t) := by
  intro hm
  obtain ⟨c, hc, hlower⟩ := List.mem_map.mp hm
  rcases Text.toLower_eq hlower with rfl | ⟨hcode, hleast, -⟩
  · exact notMem_escape rfl t hc
  · have hdot : '.'.toNat = 46 := rfl
    omega

/-- The two ways to write an escaped dot. -/
theorem eq_escapedDot {u : Text} (h : Text.lower u = ['%', '2', 'e']) :
    u = ['%', '2', 'e'] ∨ u = ['%', '2', 'E'] := by
  obtain ⟨a, u, rfl, ha, h⟩ := List.map_eq_cons_iff.mp h
  obtain ⟨b, u, rfl, hb, h⟩ := List.map_eq_cons_iff.mp h
  obtain ⟨c, u, rfl, hc, h⟩ := List.map_eq_cons_iff.mp h
  obtain rfl := List.map_eq_nil_iff.mp h
  have hpercent : '%'.toNat = 37 := rfl
  have htwo : '2'.toNat = 50 := rfl
  obtain rfl : a = '%' := (Text.toLower_eq ha).resolve_right (by omega)
  obtain rfl : b = '2' := (Text.toLower_eq hb).resolve_right (by omega)
  rcases (Text.toLower_eq_iff 'E' rfl ⟨rfl, rfl⟩).mp hc with rfl | rfl
  · exact .inl rfl
  · exact .inr rfl

theorem isDot_escape {t : Text} (h : t ≠ ['.']) : isDot (escape t) = false := by
  refine Bool.eq_false_iff.mpr fun hdot => h ?_
  simp only [isDot, List.contains_iff_mem, List.mem_cons, List.not_mem_nil, or_false] at hdot
  rcases hdot with hdot | hdot
  · exact absurd (by simp [hdot]) (dot_notMem_lower t)
  · rw [← percentDecode_escape t]
    rcases eq_escapedDot hdot with he | he <;> rw [he] <;> decide

theorem isDotDot_escape {t : Text} (h : t ≠ ['.', '.']) : isDotDot (escape t) = false := by
  refine Bool.eq_false_iff.mpr fun hdots => h ?_
  simp only [isDotDot, List.contains_iff_mem, List.mem_cons, List.not_mem_nil, or_false] at hdots
  rcases hdots with hdots | hdots | hdots | hdots
  · exact absurd (by simp [hdots]) (dot_notMem_lower t)
  · exact absurd (by simp [hdots]) (dot_notMem_lower t)
  · exact absurd (by simp [hdots]) (dot_notMem_lower t)
  · have hsplit : (escape t).map Char.toLower = ['%', '2', 'e'] ++ ['%', '2', 'e'] := hdots
    obtain ⟨u, v, he, hu, hv⟩ := List.map_eq_append_iff.mp hsplit
    rw [← percentDecode_escape t, he]
    rcases eq_escapedDot hu with rfl | rfl <;> rcases eq_escapedDot hv with rfl | rfl <;> decide

/-- The path of an escaped text is this text, unless it says where to go. -/
theorem resolvePath_escape {t : Text} (h : t ≠ ['.']) (h' : t ≠ ['.', '.']) :
    resolvePath (escape t) = '/' :: escape t := by
  rw [resolvePath, Text.splitAt_of_notMem (notMem_escape rfl t), resolve, isDot_escape h,
    isDotDot_escape h']
  rfl

end FluentSql.Url
