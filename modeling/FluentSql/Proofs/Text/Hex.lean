import FluentSql.Text.Basic
import Mathlib.Data.Nat.Digits.Defs

namespace FluentSql.Text

theorem isHexDigit_digitChar {n : Nat} (h : n < 16) : isHexDigit n.digitChar = true := by
  have hall : ∀ n < 16, isHexDigit (Nat.digitChar n) = true := by decide
  exact hall n h

theorem hexValue_digitChar {n : Nat} (h : n < 16) : hexValue n.digitChar = n := by
  have hall : ∀ n < 16, hexValue (Nat.digitChar n) = n := by decide
  exact hall n h

/-- A byte is two digits, the high one first. -/
theorem padLeft_hex {n : Nat} (h : n < 256) :
    padLeft 2 (hex n) = [(n / 16).digitChar, (n % 16).digitChar] := by
  by_cases hsmall : n < 16
  · have hhigh : n / 16 = 0 := by omega
    have hlow : n % 16 = n := by omega
    rw [hex, Nat.toDigits_of_lt_base hsmall, hhigh, hlow]
    rfl
  · rw [hex, Nat.toDigits_of_base_le (by decide) (by omega),
      Nat.toDigits_of_lt_base (by omega : n / 16 < 16)]
    rfl

end FluentSql.Text
