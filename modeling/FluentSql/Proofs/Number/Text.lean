import FluentSql.Number.DoubleText
import FluentSql.Proofs.Text.Digits

namespace FluentSql

namespace Double

/-- The characters of numbers. -/
def isNumeral (c : Char) : Bool := c.isDigit || ['.', 'e', '+', '-'].contains c

theorem isNumeral_digit {c : Char} (h : c.isDigit = true) : isNumeral c = true := by
  simp [isNumeral, h]

theorem numeral_cases {c : Char} (h : isNumeral c = true) :
    c.isDigit = true ∨ c = '.' ∨ c = 'e' ∨ c = '+' ∨ c = '-' := by
  simpa [isNumeral] using h

/-- A text whose characters are looked through by computation. -/
theorem numerals {t : Text} (h : t.all isNumeral = true) : ∀ c ∈ t, isNumeral c = true :=
  List.all_eq_true.mp h

theorem byPosition_chars {digits : Text} (h : ∀ c ∈ digits, isNumeral c = true) (pointZero : Bool)
    (point : Int) : ∀ c ∈ byPosition pointZero digits point, isNumeral c = true := by
  have hzeros (n : Nat) : ∀ c ∈ List.replicate n '0', isNumeral c = true := by
    intro c hc
    rw [List.eq_of_mem_replicate hc]
    rfl
  have hpoint : ∀ c ∈ ['0', '.'], isNumeral c = true := numerals rfl
  have hzero : ∀ c ∈ (if pointZero then ['.', '0'] else []), isNumeral c = true := by
    cases pointZero <;> exact numerals rfl
  unfold byPosition
  split
  · exact List.forall_mem_append.mpr ⟨hpoint, h⟩
  · exact List.forall_mem_append.mpr ⟨List.forall_mem_append.mpr ⟨hpoint, hzeros _⟩, h⟩
  · split
    · exact List.forall_mem_append.mpr ⟨List.forall_mem_append.mpr ⟨h, hzeros _⟩, hzero⟩
    · refine List.forall_mem_append.mpr ⟨fun c hc => h c (List.mem_of_mem_take hc), ?_⟩
      exact List.forall_mem_cons.mpr ⟨rfl, fun c hc => h c (List.mem_of_mem_drop hc)⟩

theorem signedDecimal_chars (i : Int) : ∀ c ∈ Text.signedDecimal i, isNumeral c = true := by
  cases i with
  | ofNat n => exact fun c hc => isNumeral_digit (Text.decimal_chars n c hc)
  | negSucc n =>
    exact List.forall_mem_cons.mpr
      ⟨rfl, fun c hc => isNumeral_digit (Text.decimal_chars (n + 1) c hc)⟩

theorem byExponent_chars {digits : Text} (h : ∀ c ∈ digits, isNumeral c = true) (plusSign : Bool)
    (e : Int) : ∀ c ∈ byExponent plusSign digits e, isNumeral c = true := by
  have hsign : ∀ c ∈ (if plusSign && 0 ≤ e then ['+'] else []), isNumeral c = true := by
    split_ifs <;> exact numerals rfl
  unfold byExponent
  dsimp only
  refine List.forall_mem_append.mpr ⟨List.forall_mem_append.mpr ⟨?_, ?_⟩, signedDecimal_chars e⟩
  · split
    · exact h
    · next d rest _ =>
      obtain ⟨hd, hrest⟩ := List.forall_mem_cons.mp h
      exact List.forall_mem_cons.mpr ⟨hd, List.forall_mem_cons.mpr ⟨rfl, hrest⟩⟩
    · exact h
  · exact List.forall_mem_cons.mpr ⟨rfl, hsign⟩

theorem magnitude_chars (s : Style) (m : Nat) (u : Int) :
    ∀ c ∈ s.magnitude m u, isNumeral c = true := by
  have hdigits (n : Nat) : ∀ c ∈ trimZeros (Text.decimal n), isNumeral c = true := by
    intro c hc
    have hmem := (List.dropWhile_sublist _).subset (List.mem_reverse.mp hc)
    exact isNumeral_digit (Text.decimal_chars n c (List.mem_reverse.mp hmem))
  unfold Style.magnitude
  dsimp only
  split_ifs
  · exact numerals rfl
  · exact numerals rfl
  · exact byPosition_chars (hdigits _) _ _
  · exact byExponent_chars (hdigits _) _ _

theorem isBlank_numeral {c : Char} (h : isNumeral c = true) : Text.isBlank c = false := by
  obtain hdigit | rfl | rfl | rfl | rfl := numeral_cases h
  · exact Text.isBlank_digit hdigit
  all_goals rfl

/-- A finite number is written in characters of numbers, in every style. -/
theorem write_chars (s : Style) {r : Double} {negative : Bool} {m : Nat} {u : Int}
    (h : r.shape = .finite negative m u) : ∀ c ∈ s.write r, isNumeral c = true := by
  unfold Style.write
  rw [h]
  refine List.forall_mem_append.mpr ⟨?_, magnitude_chars s m u⟩
  cases negative <;> exact numerals rfl

end Double

end FluentSql
