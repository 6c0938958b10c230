import FluentSql.Proofs.Text.Word
import Mathlib.Data.List.Basic
import Mathlib.Data.List.TakeWhile

namespace FluentSql.Text

/-- The code points of the Unicode property White_Space. -/
def whiteSpace : List Nat :=
  [0x9, 0xA, 0xB, 0xC, 0xD, 0x20, 0x85, 0xA0, 0x1680, 0x2000, 0x2001, 0x2002, 0x2003, 0x2004,
    0x2005, 0x2006, 0x2007, 0x2008, 0x2009, 0x200A, 0x2028, 0x2029, 0x202F, 0x205F, 0x3000]

/-- Text of nothing but white space, which may be empty. -/
def IsSpace (t : Text) : Prop := ∀ c ∈ t, c.toNat ∈ whiteSpace

theorem isBlank_iff (c : Char) : isBlank c = true ↔ c.toNat ∈ whiteSpace := by
  simp only [isBlank, whiteSpace, Bool.or_eq_true, Bool.and_eq_true, decide_eq_true_eq,
    beq_iff_eq, List.mem_cons, List.not_mem_nil, or_false]
  omega

theorem isSpace_iff (t : Text) : IsSpace t ↔ ∀ c ∈ t, isBlank c = true := by
  simp only [IsSpace, isBlank_iff]

theorem IsSpace.append {s t : Text} (hs : IsSpace s) (ht : IsSpace t) : IsSpace (s ++ t) := by
  intro c hc
  rcases List.mem_append.mp hc with hc | hc
  · exact hs c hc
  · exact ht c hc

theorem isSpace_takeWhile (t : Text) : IsSpace (t.takeWhile isBlank) :=
  (isSpace_iff _).mpr fun _ hc => List.mem_takeWhile_imp hc

theorem takeWhile_trimStart (t : Text) : t.takeWhile isBlank ++ trimStart t = t :=
  List.takeWhile_append_dropWhile

theorem isBlank_head_trimStart {t : Text} {c : Char} (h : c ∈ (trimStart t).head?) :
    isBlank c = false := head_dropWhile isBlank t c h

variable {s t : Text} {c : Char}

theorem takeWhile_space (hs : IsSpace s) (ht : ∀ c ∈ t.head?, isBlank c = false) :
    (s ++ t).takeWhile isBlank = s := takeWhile_span ((isSpace_iff s).mp hs) ht

theorem trimStart_space (hs : IsSpace s) (ht : ∀ c ∈ t.head?, isBlank c = false) :
    trimStart (s ++ t) = t := dropWhile_span ((isSpace_iff s).mp hs) ht

theorem trimStart_eq_nil (hs : IsSpace s) : trimStart s = [] :=
  List.dropWhile_eq_nil_iff.mpr ((isSpace_iff s).mp hs)

/-- Text that does not start with white space can be told from the white space before it. -/
theorem space_append_inj {s' t' : Text} (hs : IsSpace s) (hs' : IsSpace s')
    (ht : ∀ c ∈ t.head?, isBlank c = false) (ht' : ∀ c ∈ t'.head?, isBlank c = false)
    (h : s ++ t = s' ++ t') : s = s' ∧ t = t' := by
  have hspace : s = s' := by
    rw [← takeWhile_space hs ht, h, takeWhile_space hs' ht']
  subst hspace
  exact ⟨rfl, List.append_cancel_left h⟩

theorem trimEnd_space (hs : IsSpace s) (ht : ∀ c ∈ t.getLast?, isBlank c = false) :
    trimEnd (t ++ s) = t := by
  have hrev : IsSpace s.reverse := fun d hd => hs d (List.mem_reverse.mp hd)
  have hhead : ∀ c ∈ t.reverse.head?, isBlank c = false := by
    rwa [List.head?_reverse]
  have hstart := trimStart_space hrev hhead
  rw [trimStart] at hstart
  rw [trimEnd, List.reverse_append, hstart, List.reverse_reverse]

theorem trimEnd_append (t : Text) : ∃ s, IsSpace s ∧ trimEnd t ++ s = t := by
  refine ⟨(t.reverse.takeWhile isBlank).reverse, ?_, ?_⟩
  · intro d hd
    exact isSpace_takeWhile t.reverse d (List.mem_reverse.mp hd)
  · have hsplit := takeWhile_trimStart t.reverse
    rw [trimStart] at hsplit
    rw [trimEnd, ← List.reverse_append, hsplit, List.reverse_reverse]

theorem isBlank_last_trimEnd (h : c ∈ (trimEnd t).getLast?) : isBlank c = false := by
  rw [trimEnd, List.getLast?_reverse] at h
  exact isBlank_head_trimStart (t := t.reverse) h

theorem trim_append (t : Text) :
    ∃ s s', IsSpace s ∧ IsSpace s' ∧ s ++ trim t ++ s' = t := by
  obtain ⟨s', hs', hend⟩ := trimEnd_append (trimStart t)
  refine ⟨t.takeWhile isBlank, s', isSpace_takeWhile t, hs', ?_⟩
  rw [trim, List.append_assoc, hend, takeWhile_trimStart]

/-- Text that neither starts nor ends with white space. -/
structure Trimmed (t : Text) : Prop where
  head : ∀ c ∈ t.head?, c.toNat ∉ whiteSpace
  last : ∀ c ∈ t.getLast?, c.toNat ∉ whiteSpace

theorem trim_trimmed (t : Text) : Trimmed (trim t) := by
  constructor
  · intro c hc hm
    rw [trim] at hc
    obtain ⟨s, _, hend⟩ := trimEnd_append (trimStart t)
    have hhead : c ∈ (trimStart t).head? := by
      rw [← hend, List.head?_append, Option.mem_def.mp hc]
      rfl
    have hblank := isBlank_head_trimStart hhead
    rw [(isBlank_iff c).mpr hm] at hblank
    cases hblank
  · intro c hc hm
    have hblank := isBlank_last_trimEnd hc
    rw [(isBlank_iff c).mpr hm] at hblank
    cases hblank

theorem isBlank_false (h : c.toNat ∉ whiteSpace) : isBlank c = false := by
  rw [← isBlank_iff] at h
  simpa using h

/-- Trimming takes the white space around a text and nothing of the text. -/
theorem trim_space {s' : Text} (hs : IsSpace s) (hs' : IsSpace s') (ht : Trimmed t)
    (hne : t ≠ []) : trim (s ++ (t ++ s')) = t := by
  have hhead : ∀ c ∈ (t ++ s').head?, isBlank c = false := by
    rw [List.head?_append_of_ne_nil t hne]
    exact fun c hc => isBlank_false (ht.head c hc)
  rw [trim, trimStart_space hs hhead]
  exact trimEnd_space hs' fun c hc => isBlank_false (ht.last c hc)

end FluentSql.Text
