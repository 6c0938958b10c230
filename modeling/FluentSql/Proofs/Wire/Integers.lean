import FluentSql.Proofs.Number.Integer
import FluentSql.Proofs.Number.Whole
import FluentSql.Proofs.Wire.Matching

namespace FluentSql

namespace Wire

/-- The types of whole numbers, with the bytes that their numbers have. -/
def integerWidth? : SqlType → Option Nat
  | .int2 => some 2
  | .int4 => some 4
  | .int8 => some 8
  | _ => none

/-- The whole number that a value stands for: a double by its exact value, a text by the numeral
that it is without the blanks around it. -/
inductive Denotes : Value → Int → Prop
  | int (i : Int64) : Denotes (.int i) i.toInt
  | real {r : Double} {n : Int} : r.value? = some (n : ℚ) → Denotes (.real r) n
  | text {t : Text} {n : Int} : Integer.Numeral (Text.trim t) n → Denotes (.text t) n

/-- A double beyond 64 bits for the widest type. -/
def Saturates (v : Value) (type : SqlType) (n : Int) : Prop :=
  type = .int8 ∧ (∃ r, v = .real r) ∧ ¬FitsIn 8 n

/-- A number is sent as it is if it fits, and nothing is sent if it does not. -/
def Narrows (width : Nat) (n : Int) (sending : Encoded) : Prop :=
  (FitsIn width n → sending = sent (signedBytes width n)) ∧
    (¬FitsIn width n → ∃ fault, sending = .error fault)

theorem Denotes.unique {v : Value} {m n : Int} (hm : Denotes v m) (hn : Denotes v n) : m = n := by
  cases hm with
  | int i =>
    cases hn
    rfl
  | real hr =>
    cases hn with
    | real hr' => exact_mod_cast Option.some.inj (hr.symm.trans hr')
  | text ht =>
    cases hn with
    | text ht' => exact ht.unique ht'

variable {width : Nat} {n : Int}

theorem encodeInt_narrows (hpos : 0 < width) (n : Int) : Narrows width n (encodeInt width n) := by
  unfold Narrows encodeInt
  rw [fitsIn_iff hpos]
  constructor
  · rintro ⟨hleast, hmost⟩
    rw [if_neg (by omega), if_neg (by omega)]
  · intro hout
    split_ifs
    · exact ⟨_, rfl⟩
    · exact ⟨_, rfl⟩
    · omega

theorem encodeIntText_narrows (hpos : 0 < width) {t : Text} (h : Integer.Numeral t n) :
    Narrows width n (encodeIntText width t) := by
  unfold Narrows encodeIntText
  rw [fitsIn_iff hpos, Integer.read_numeral h]
  push_cast
  constructor
  · rintro ⟨hleast, hmost⟩
    rw [if_neg (by omega), if_neg (by omega)]
  · intro hout
    split_ifs
    · exact ⟨_, rfl⟩
    · exact ⟨_, rfl⟩
    · omega

/-- The end of the numbers of 64 bits on the side of a number. -/
def end64 (n : Int) : Int := if 0 < n then 9223372036854775807 else -9223372036854775808

theorem toInt_clamp (n : Int) : (FitsIn 8 n → (clamp n).toInt = n) ∧
    (¬FitsIn 8 n → (clamp n).toInt = end64 n) := by
  have hmost : mostInt 8 = 9223372036854775807 := rfl
  rw [fitsIn_iff (by decide), hmost, clamp, Int64.toInt_ofInt_of_le (by omega) (by omega)]
  constructor
  · omega
  · intro hout
    unfold end64
    split_ifs <;> omega

/-- A number beyond 64 bits fits in no smaller width, and nor does the end that it is beyond. -/
theorem end64_narrows (hpos : 0 < width) (hwidth : width < 8) (hout : ¬FitsIn 8 n) :
    Narrows width n (encodeInt width (end64 n)) := by
  have hmost : (256 : Int) ^ width ≤ 256 ^ 7 := pow_le_pow_right₀ (by decide) (by omega)
  have hend : ¬FitsIn width (end64 n) := by
    unfold FitsIn end64
    split_ifs <;> omega
  have hn : ¬FitsIn width n := by
    unfold FitsIn at hout ⊢
    omega
  exact ⟨fun h => absurd h hn, fun _ => (encodeInt_narrows hpos _).2 hend⟩

variable {type : SqlType} {v : Value}

theorem integerWidth_cases (h : integerWidth? type = some width) :
    type = .int2 ∧ width = 2 ∨ type = .int4 ∧ width = 4 ∨ type = .int8 ∧ width = 8 := by
  cases type <;> simp_all [integerWidth?]

theorem encode_int (htype : integerWidth? type = some width) (i : Int64) :
    encode (.int i) type = encodeInt width i.toInt := by
  obtain ⟨rfl, rfl⟩ | ⟨rfl, rfl⟩ | ⟨rfl, rfl⟩ := integerWidth_cases htype <;> rfl

theorem encode_real (htype : integerWidth? type = some width) (r : Double) :
    encode (.real r) type = match r.whole? with
      | some i => encodeInt width (clamp i).toInt
      | none => .error (.mismatch (.real r) type) := by
  obtain ⟨rfl, rfl⟩ | ⟨rfl, rfl⟩ | ⟨rfl, rfl⟩ := integerWidth_cases htype <;> rfl

theorem encode_text (htype : integerWidth? type = some width) (t : Text) :
    encode (.text t) type = encodeIntText width (Text.trim t) := by
  obtain ⟨rfl, rfl⟩ | ⟨rfl, rfl⟩ | ⟨rfl, rfl⟩ := integerWidth_cases htype <;> rfl

/-- A value that stands for a number is sent as that number, if only it fits. -/
theorem encode_denoted (htype : integerWidth? type = some width) (h : Denotes v n) :
    (¬Saturates v type n → Narrows width n (encode v type)) ∧
      (Saturates v type n → encode v type = sent (signedBytes 8 (end64 n))) := by
  have hpos : 0 < width := by
    obtain ⟨-, rfl⟩ | ⟨-, rfl⟩ | ⟨-, rfl⟩ := integerWidth_cases htype <;> decide
  cases h with
  | int i =>
    rw [encode_int htype]
    exact ⟨fun _ => encodeInt_narrows hpos _, fun ⟨_, ⟨r, hr⟩, _⟩ => by cases hr⟩
  | text ht =>
    rw [encode_text htype]
    exact ⟨fun _ => encodeIntText_narrows hpos ht, fun ⟨_, ⟨r, hr⟩, _⟩ => by cases hr⟩
  | @real r _ hr =>
    have hencode : encode (.real r) type = encodeInt width (clamp n).toInt := by
      rw [encode_real htype, Double.whole?_eq_some_iff.mpr hr]
    obtain ⟨hkept, hended⟩ := toInt_clamp n
    rw [hencode]
    by_cases hfits : FitsIn 8 n
    · rw [hkept hfits]
      exact ⟨fun _ => encodeInt_narrows hpos n, fun hs => absurd hfits hs.2.2⟩
    · rw [hended hfits]
      obtain ⟨rfl, rfl⟩ | ⟨rfl, rfl⟩ | ⟨rfl, rfl⟩ := integerWidth_cases htype
      · exact ⟨fun _ => end64_narrows hpos (by decide) hfits, fun hs => by cases hs.1⟩
      · exact ⟨fun _ => end64_narrows hpos (by decide) hfits, fun hs => by cases hs.1⟩
      · refine ⟨fun hs => absurd ⟨rfl, ⟨r, rfl⟩, hfits⟩ hs, fun _ => ?_⟩
        unfold end64
        split_ifs <;> rfl

theorem encode_denotes (htype : integerWidth? type = some width) {bytes : Bytes}
    (h : encode v type = .ok (some bytes)) : ∃ n, Denotes v n := by
  cases v with
  | null => cases h
  | bool b =>
    obtain ⟨rfl, rfl⟩ | ⟨rfl, rfl⟩ | ⟨rfl, rfl⟩ := integerWidth_cases htype <;> cases h
  | int i => exact ⟨_, .int i⟩
  | real r =>
    rw [encode_real htype] at h
    split at h
    · next i hi => exact ⟨i, .real (Double.whole?_eq_some_iff.mp hi)⟩
    · cases h
  | text t =>
    rw [encode_text htype, encodeIntText] at h
    split at h
    · next i hi =>
      obtain ⟨j, hj⟩ := Integer.read_ok hi
      exact ⟨j, .text hj⟩
    · cases h

/-- What is sent for a whole number is that number, and a number that fits is always sent. One that
does not fit is refused, unless it is a double for the widest type: then the end of the 64 bits that
it is beyond is sent. -/
theorem integer_sent (htype : integerWidth? type = some width) (v : Value) :
    (∀ bytes, encode v type = .ok (some bytes) → ∃ n, Denotes v n ∧
      (¬Saturates v type n → bytes.length = width ∧ ofSignedBytes bytes = n)) ∧
    ∀ n, Denotes v n → (∀ m, Denotes v m → m = n) ∧
      (FitsIn width n → encode v type = .ok (some (signedBytes width n))) ∧
      (¬FitsIn width n → ¬Saturates v type n → ∃ fault, encode v type = .error fault) ∧
      (Saturates v type n → ∃ bytes, encode v type = .ok (some bytes) ∧
        ofSignedBytes bytes = end64 n) := by
  constructor
  · intro bytes hsent
    obtain ⟨n, hn⟩ := encode_denotes htype hsent
    refine ⟨n, hn, fun hs => ?_⟩
    obtain ⟨hin, hout⟩ := (encode_denoted htype hn).1 hs
    by_cases hfits : FitsIn width n
    · obtain rfl := Option.some.inj (Except.ok.inj (hsent.symm.trans (hin hfits)))
      exact ⟨length_signedBytes width n, ofSignedBytes_signedBytes hfits⟩
    · obtain ⟨fault, hfault⟩ := hout hfits
      rw [hsent] at hfault
      cases hfault
  · intro n hn
    obtain ⟨hnarrows, hends⟩ := encode_denoted htype hn
    refine ⟨fun m hm => hm.unique hn, fun hfits => ?_, fun hout hs => (hnarrows hs).2 hout,
      fun hs => ⟨_, hends hs, ?_⟩⟩
    · refine (hnarrows fun hs => hs.2.2 ?_).1 hfits
      obtain rfl := hs.1
      obtain rfl : 8 = width := Option.some.inj htype
      exact hfits
    · refine ofSignedBytes_signedBytes ?_
      unfold FitsIn end64
      split_ifs <;> decide

theorem integer_sent_padded :
    let least : Value := .text " -0032768 ".toList
    let past : Value := .int 32768
    integerWidth? .int2 = some 2 ∧
      (Denotes least (-32768) ∧ FitsIn 2 (-32768) ∧ encode least .int2 = .ok (some [128, 0]) ∧
        ofSignedBytes [128, 0] = -32768) ∧
      Denotes past 32768 ∧ ¬FitsIn 2 32768 ∧ ∃ fault, encode past .int2 = .error fault := by
  intro least past
  have hleast : Denotes least (-32768) :=
    .text (.minus (t := "0032768".toList) (by decide) (List.all_eq_true.mp rfl))
  have hfits : FitsIn 2 (-32768) := by unfold FitsIn; decide
  have hpast : Denotes past 32768 := .int 32768
  have hout : ¬FitsIn 2 32768 := by unfold FitsIn; decide
  have hnarrow (v : Value) (n : Int) : ¬Saturates v .int2 n := fun hs => by cases hs.1
  have htype : integerWidth? .int2 = some 2 := rfl
  obtain ⟨hsent, hnumber⟩ := integer_sent htype least
  have hencode := (hnumber _ hleast).2.1 hfits
  obtain ⟨n, hn, hbytes⟩ := hsent _ hencode
  obtain rfl := hn.unique hleast
  obtain ⟨fault, hfault⟩ :=
    ((integer_sent htype past).2 _ hpast).2.2.1 hout (hnarrow _ _)
  exact ⟨htype, ⟨hleast, hfits, hencode, (hbytes (hnarrow _ _)).2⟩, hpast, hout, fault, hfault⟩

/-- The double two to the power of 63 is sent as the whole number before it. -/
theorem double_altered :
    ¬∀ (v : Value) (bytes : Bytes), encode v .int8 = .ok (some bytes) →
      ∃ n, Denotes v n ∧ ofSignedBytes bytes = n := by
  intro h
  let r : Double := ⟨0x43E0000000000000⟩
  have hsent : encode (.real r) .int8 = .ok (some [127, 255, 255, 255, 255, 255, 255, 255]) := by
    decide +kernel
  have hvalue : Denotes (.real r) 9223372036854775808 :=
    .real (Double.whole?_eq_some_iff.mp (by decide +kernel))
  obtain ⟨n, hn, hnumber⟩ := h _ _ hsent
  rw [hn.unique hvalue] at hnumber
  revert hnumber
  decide

end Wire

end FluentSql
