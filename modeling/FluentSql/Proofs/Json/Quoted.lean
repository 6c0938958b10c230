import FluentSql.Json.Reader
import FluentSql.Json.Writer
import FluentSql.Proofs.Text.Hex

namespace FluentSql.Json

theorem readString?_unit {a b c d : Char} {n : Nat} (h : unit? a b c d = some n) (hn : n < 0xD800)
    (t : Text) : readString? ('\\' :: 'u' :: a :: b :: c :: d :: t) =
      (readString? t).map fun r => (Char.ofNat n :: r.1, r.2) := by
  rw [readString?, h]
  dsimp only
  rw [if_neg (by simp; omega), if_neg (by simp; omega)]

theorem readString?_plain {c : Char} (hquote : c ≠ '"') (hslash : c ≠ '\\') (hc : ¬c.toNat < 0x20)
    (t : Text) : readString? (c :: t) = (readString? t).map fun r => (c :: r.1, r.2) := by
  rw [readString?.eq_def]
  split
  · next h => simp at h
  · next h => exact absurd (List.cons.inj h).1 hquote
  · next h => exact absurd (List.cons.inj h).1 hslash
  · next h => exact absurd (List.cons.inj h).1 hslash
  · next h =>
    obtain ⟨rfl, rfl⟩ := List.cons.inj h
    rw [if_neg (by simp [hc, hslash])]

theorem unit?_padded {n : Nat} (h : n < 256) :
    ∃ a b c d, Text.padLeft 4 (Text.hex n) = [a, b, c, d] ∧ unit? a b c d = some n := by
  have hpad : Text.padLeft 4 (Text.hex n) = '0' :: '0' :: Text.padLeft 2 (Text.hex n) := by
    have hlength : (Text.hex n).length ≤ 2 :=
      (Nat.length_toDigits_le_iff (by decide) (by decide)).mpr h
    have hzeros : 4 - (Text.hex n).length = 2 - (Text.hex n).length + 1 + 1 := by omega
    rw [Text.padLeft, hzeros, List.replicate_succ, List.replicate_succ]
    rfl
  refine ⟨'0', '0', _, _, by rw [hpad, Text.padLeft_hex h], ?_⟩
  have hhigh : n / 16 < 16 := by omega
  have hlow : n % 16 < 16 := by omega
  have hall : ['0', '0', (n / 16).digitChar, (n % 16).digitChar].all Text.isHexDigit = true := by
    simp only [List.all_cons, List.all_nil, Text.isHexDigit_digitChar hhigh,
      Text.isHexDigit_digitChar hlow]
    rfl
  have hzero : Text.hexValue '0' = 0 := rfl
  have hhex : Text.ofHex ['0', '0', (n / 16).digitChar, (n % 16).digitChar] = n := by
    simp only [Text.ofHex, List.foldl_cons, List.foldl_nil, hzero, Text.hexValue_digitChar hhigh,
      Text.hexValue_digitChar hlow]
    omega
  rw [unit?, hall, hhex]
  rfl

theorem readString?_quotedChar (c : Char) (t : Text) :
    readString? (quotedChar c ++ t) = (readString? t).map fun r => (c :: r.1, r.2) := by
  unfold quotedChar
  split_ifs with h₁ h₂ h₃ h₄ h₅ h₆ h₇ h₈
  · subst h₁; rfl
  · subst h₂; rfl
  · subst h₃; rfl
  · subst h₄; rfl
  · subst h₅; rfl
  · subst h₆; rfl
  · subst h₇; rfl
  · obtain ⟨a, b, d, e, hpad, hunit⟩ := unit?_padded (n := c.toNat) (by omega)
    rw [hpad]
    have hc : Char.ofNat c.toNat = c := Char.ofNat_toNat c
    exact (readString?_unit hunit (by omega) t).trans (by rw [hc])
  · exact readString?_plain h₁ h₂ h₈ t

/-- A string is read from its own text, whatever comes after it. -/
theorem readString?_quoted (t rest : Text) :
    readString? (t.flatMap quotedChar ++ '"' :: rest) = some (t, rest) := by
  induction t with
  | nil => rfl
  | cons c t ih => rw [List.flatMap_cons, List.append_assoc, readString?_quotedChar, ih]; rfl

end FluentSql.Json
