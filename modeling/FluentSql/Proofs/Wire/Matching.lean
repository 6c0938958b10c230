import FluentSql.Proofs.Numeric.Wire
import FluentSql.Proofs.Text.Utf8
import FluentSql.Wire.Decode
import FluentSql.Wire.Encode

namespace FluentSql.Wire

/-- The types that hold text, with the version bytes that their values begin with. -/
inductive IsTextType : SqlType → Bytes → Prop
  | text : IsTextType .text []
  | varchar : IsTextType .varchar []
  | bpchar : IsTextType .bpchar []
  | name : IsTextType .name []
  | unknown : IsTextType .unknown []
  | citext (schema : Text) : IsTextType (.custom schema "citext".toList) []
  | ltree (schema : Text) : IsTextType (.custom schema "ltree".toList) [1]
  | lquery (schema : Text) : IsTextType (.custom schema "lquery".toList) [1]
  | ltxtquery (schema : Text) : IsTextType (.custom schema "ltxtquery".toList) [1]

/-- The types that columns are read of. -/
def IsRead (type : SqlType) : Prop :=
  type ∈ [.bool, .int2, .int4, .int8, .oid, .float4, .float8, .numeric, .date, .time, .timestamp,
    .timestamptz, .uuid, .json, .jsonb] ∨ ∃ version, IsTextType type version

/-- The values that a type is for. -/
inductive Matches : Value → SqlType → Prop
  | null {type : SqlType} (h : IsRead type) : Matches .null type
  | bool (b : Bool) : Matches (.bool b) .bool
  | int2 {i : Int64} (h : -32768 ≤ i.toInt) (h' : i.toInt ≤ 32767) : Matches (.int i) .int2
  | int4 {i : Int64} (h : -2147483648 ≤ i.toInt) (h' : i.toInt ≤ 2147483647) :
      Matches (.int i) .int4
  | int8 (i : Int64) : Matches (.int i) .int8
  | numeric (i : Int64) : Matches (.int i) .numeric
  | real (r : Double) : Matches (.real r) .float8
  | text (t : Text) {type : SqlType} {version : Bytes} (h : IsTextType type version) :
      Matches (.text t) type

theorem textVersion?_eq_some_iff {type : SqlType} {version : Bytes} :
    type.textVersion? = some version ↔ IsTextType type version := by
  constructor
  · intro h
    cases type with
    | custom schema name =>
      obtain ⟨⟨listed, bytes⟩, hfound, rfl⟩ := Option.map_eq_some_iff.mp h
      have hmem := List.mem_of_find?_eq_some hfound
      obtain rfl : listed = name := by simpa using List.find?_some hfound
      simp only [SqlType.customText, List.mem_cons, Prod.mk.injEq, List.not_mem_nil, or_false]
        at hmem
      obtain ⟨rfl, rfl⟩ | ⟨rfl, rfl⟩ | ⟨rfl, rfl⟩ | ⟨rfl, rfl⟩ := hmem
      · exact .citext schema
      · exact .ltree schema
      · exact .lquery schema
      · exact .ltxtquery schema
    | text =>
      obtain rfl := Option.some.inj h
      exact .text
    | varchar =>
      obtain rfl := Option.some.inj h
      exact .varchar
    | bpchar =>
      obtain rfl := Option.some.inj h
      exact .bpchar
    | name =>
      obtain rfl := Option.some.inj h
      exact .name
    | unknown =>
      obtain rfl := Option.some.inj h
      exact .unknown
    | _ => cases h
  · intro h
    cases h <;> rfl

/-- A value is written for a type, and what is written is read as the same value. -/
def RoundTrips (v : Value) (type : SqlType) : Prop :=
  ∃ bytes, encode v type = .ok bytes ∧ (bytes = none ↔ v = .null) ∧
    ∀ index name, decodeColumn index ⟨name, type⟩ bytes = .ok v

theorem decodeColumn_read {type : SqlType} {decode : Bytes → Option Value} {bytes : Bytes}
    {v : Value} (hdecoder : decoder? type = some decode) (hdecode : decode bytes = some v)
    (index : Nat) (name : Text) : decodeColumn index ⟨name, type⟩ (some bytes) = .ok v := by
  unfold decodeColumn
  simp only [hdecoder, hdecode]

theorem decoder?_numeric : decoder? .numeric =
    some fun bytes => (Numeric.ofWire? bytes).map numericValue :=
  rfl

theorem RoundTrips.of_sent {v : Value} {type : SqlType} {decode : Bytes → Option Value}
    {bytes : Bytes} (hv : v ≠ .null) (hdecoder : decoder? type = some decode)
    (hencode : encode v type = sent bytes) (hdecode : decode bytes = some v) :
    RoundTrips v type :=
  ⟨some bytes, hencode, by simp [hv], decodeColumn_read hdecoder hdecode⟩

theorem RoundTrips.null {type : SqlType} (h : (decoder? type).isSome = true) :
    RoundTrips .null type := by
  refine ⟨none, rfl, by simp, ?_⟩
  intro index name
  obtain ⟨decode, hdecode⟩ := Option.isSome_iff_exists.mp h
  unfold decodeColumn
  simp only [hdecode]

theorem toInt_bounds (i : Int64) :
    -9223372036854775808 ≤ i.toInt ∧ i.toInt ≤ 9223372036854775807 :=
  ⟨i.le_toInt, Int64.toInt_le i⟩

theorem fitsIn_iff {width : Nat} (hpos : 0 < width) (i : Int) :
    FitsIn width i ↔ -((mostInt width : Int) + 1) ≤ i ∧ i ≤ mostInt width := by
  have hhalf : 2 * (mostInt width + 1) = 256 ^ width := by
    have hone : 1 ≤ 2 ^ (8 * width - 1) := Nat.one_le_two_pow
    have hbytes : (256 : Nat) ^ width = 2 ^ (8 * width) := (pow_mul 2 8 width).symm
    have hsplit : 2 ^ (8 * width) = 2 * 2 ^ (8 * width - 1) := by
      rw [← pow_succ', Nat.sub_add_cancel (by omega)]
    rw [mostInt, Nat.pow_eq, Nat.sub_add_cancel hone, hbytes, hsplit]
  have hhalf : 2 * ((mostInt width : Int) + 1) = 256 ^ width := by exact_mod_cast hhalf
  unfold FitsIn
  omega

theorem decodeInt?_signedBytes {width : Nat} {i : Int64} (h : FitsIn width i.toInt) :
    decodeInt? width (signedBytes width i.toInt) = some (.int i) := by
  rw [decodeInt?, exactly?_of_length (length_signedBytes width _), Option.map_some,
    ofSignedBytes_signedBytes h, Int64.ofInt_toInt]

/-- A whole number within the bounds of a width is written and read. -/
theorem RoundTrips.int {width : Nat} (hpos : 0 < width) {type : SqlType} {i : Int64}
    (hdecoder : decoder? type = some (decodeInt? width))
    (hencode : encode (.int i) type = encodeInt width i.toInt)
    (hleast : -((mostInt width : Int) + 1) ≤ i.toInt) (hmost : i.toInt ≤ mostInt width) :
    RoundTrips (.int i) type := by
  have hsent : encodeInt width i.toInt = sent (signedBytes width i.toInt) := by
    rw [encodeInt, if_neg (by omega), if_neg (by omega)]
  exact .of_sent (by simp) hdecoder (hencode.trans hsent)
    (decodeInt?_signedBytes ((fitsIn_iff hpos _).mpr ⟨hleast, hmost⟩))

theorem numericValue_ofInt (i : Int64) : numericValue (.ofInt i.toInt) = .int i := by
  have hfits : Integer.fits64 i.toInt = true := by
    have h := toInt_bounds i
    simp [Integer.fits64, h.1, h.2]
  rw [numericValue, Numeric.toInt?_ofInt hfits]
  exact congrArg Value.int i.ofInt_toInt

theorem RoundTrips.numeric (i : Int64) : RoundTrips (.int i) .numeric := by
  have hlimit : i.toInt.natAbs < Numeric.limit := by
    have h := toInt_bounds i
    unfold Numeric.limit
    omega
  refine .of_sent (by simp) decoder?_numeric rfl ?_
  rw [Numeric.ofWire?_toWire_ofInt hlimit, Option.map_some, numericValue_ofInt]

theorem RoundTrips.real (r : Double) : RoundTrips (.real r) .float8 := by
  refine .of_sent (by simp) rfl rfl ?_
  have hbits : ofBigEndian (bigEndian 8 r.bits.toNat) = r.bits.toNat :=
    ofBigEndian_bigEndian_of_lt r.bits.toNat_lt
  rw [exactly?_of_length (length_bigEndian 8 _), Option.map_some, hbits]
  exact congrArg (fun bits => some (Value.real ⟨bits⟩)) (UInt64.ofNat_toNat)

theorem afterBytes?_append (version bytes : Bytes) :
    afterBytes? version (version ++ bytes) = some bytes := by
  induction version with
  | nil => rfl
  | cons b version ih => simpa [afterBytes?] using ih

theorem decoder?_text {type : SqlType} {version : Bytes} (h : type.textVersion? = some version) :
    decoder? type = some (decodeText? version) := by
  cases type with
  | text => exact congrArg (Option.map decodeText?) h
  | varchar => exact congrArg (Option.map decodeText?) h
  | bpchar => exact congrArg (Option.map decodeText?) h
  | name => exact congrArg (Option.map decodeText?) h
  | unknown => exact congrArg (Option.map decodeText?) h
  | custom => exact congrArg (Option.map decodeText?) h
  | _ => simp [SqlType.textVersion?] at h

/-- A column can be read if and only if its type is listed. -/
theorem decoder?_isSome_iff {type : SqlType} : (decoder? type).isSome = true ↔ IsRead type := by
  unfold IsRead
  cases htext : type.textVersion? with
  | some version =>
    rw [decoder?_text htext]
    simpa using .inr ⟨version, textVersion?_eq_some_iff.mp htext⟩
  | none =>
    have hother : ¬∃ version, IsTextType type version := by
      rintro ⟨version, h⟩
      rw [textVersion?_eq_some_iff.mpr h] at htext
      cases htext
    rw [or_iff_left hother]
    cases type with
    | custom schema name =>
      have hnone : decoder? (.custom schema name) = none := congrArg (Option.map decodeText?) htext
      simp [hnone]
    | builtin name => simp [decoder?, SqlType.textVersion?]
    | text => cases htext
    | varchar => cases htext
    | bpchar => cases htext
    | name => cases htext
    | unknown => cases htext
    | _ => simp [decoder?]

/-- A text is sent as it is, behind the version byte of its type if there is one. -/
theorem encode_versioned (t : Text) {type : SqlType} {version : Bytes} (h : IsTextType type version) :
    encode (.text t) type = sent (version ++ Utf8.encode t) := by
  simp only [encode, encodeText, textVersion?_eq_some_iff.mpr h]

theorem RoundTrips.text (t : Text) {type : SqlType} {version : Bytes}
    (h : IsTextType type version) : RoundTrips (.text t) type := by
  have hversion := textVersion?_eq_some_iff.mpr h
  refine .of_sent (by simp) (decoder?_text hversion) (encode_versioned t h) ?_
  rw [decodeText?, afterBytes?_append, Option.bind_some, Utf8.decode?_encode, Option.map_some]

/-- A value is read back from a column of a type that it is for as it was written. -/
theorem decode_encode {v : Value} {type : SqlType} (h : Matches v type) : RoundTrips v type := by
  cases h with
  | null h => exact .null (decoder?_isSome_iff.mpr h)
  | bool b =>
    refine .of_sent (by simp) rfl rfl ?_
    cases b <;> rfl
  | int2 h h' => exact .int (by decide) rfl rfl h h'
  | int4 h h' => exact .int (by decide) rfl rfl h h'
  | int8 i => exact .int (by decide) rfl rfl (toInt_bounds i).1 (toInt_bounds i).2
  | numeric i => exact .numeric i
  | real r => exact .real r
  | text t h => exact .text t h

theorem decode_encode_least :
    let least : Value := .int (-9223372036854775808)
    Matches least .numeric ∧ RoundTrips least .numeric := by
  intro least
  have h : Matches least .numeric := .numeric _
  exact ⟨h, decode_encode h⟩

end FluentSql.Wire
