import FluentSql.Proofs.Calendar.Text
import FluentSql.Proofs.Json.RoundTrip
import FluentSql.Proofs.Number.Conversion
import FluentSql.Proofs.Numeric.Recovery
import FluentSql.Proofs.Wire.Matching
import FluentSql.Proofs.Wire.Uuid

namespace FluentSql.Wire

/-- A document of the given kind in the bytes of a JSON value. -/
def Holds (kind : Json → Prop) (bytes : Bytes) : Prop :=
  ∃ t j, Utf8.decode? bytes = some t ∧ Json.read? t = some j ∧ kind j

/-- The year of a time stamp. -/
def yearOf (bytes : Bytes) : Int := (Date.ofDays (ofSignedBytes bytes / Calendar.dayMicros)).year

/-- A double that is the same again after it was a decimal number. -/
def Kept (r : Double) : Prop := ∃ a, Numeric.ofDouble? r = some a ∧ numericValue a = .real r

/-- The bytes of a type whose value can be written for it again. -/
def Reversible (bytes : Bytes) : SqlType → Prop
  | .oid => False
  | .time => False
  | .timestamp => False
  | .timestamptz => 0 ≤ yearOf bytes ∧ yearOf bytes ≤ 9999
  | .numeric => ∀ a, Numeric.ofWire? bytes = some a → a.toInt? = none → Kept a.toDouble
  | .json => Holds Json.Exact bytes
  | .jsonb => ∃ document, bytes = 1 :: document ∧ Holds Json.Exact document
  | _ => True

/-- Bytes that are reversible for what they hold, however doubles are rounded or written: of decimal
numbers the short and the whole ones of 64 bits, and of documents those without doubles. -/
def Simple (bytes : Bytes) : SqlType → Prop
  | .numeric => ∀ a, Numeric.ofWire? bytes = some a → a.toInt? = none → a.Short
  | .json => Holds Json.Whole bytes
  | .jsonb => ∃ document, bytes = 1 :: document ∧ Holds Json.Whole document
  | type => Reversible bytes type

theorem kept_short {a : Numeric} (h : a.Short) : Kept a.toDouble := by
  obtain ⟨b, hof, hscale, hdouble⟩ := h.recovered
  refine ⟨b, hof, ?_⟩
  have hfraction : b.toInt? = none := by simp [Numeric.toInt?, hscale]
  rw [numericValue, hfraction, hdouble]

theorem Holds.exact {bytes : Bytes} : Holds Json.Whole bytes → Holds Json.Exact bytes
  | ⟨t, j, hutf8, hread, hwhole⟩ => ⟨t, j, hutf8, hread, hwhole.mono fun _ => False.elim⟩

theorem Simple.reversible {type : SqlType} {bytes : Bytes} (h : Simple bytes type) :
    Reversible bytes type := by
  cases type with
  | numeric => exact fun a ha hwhole => kept_short (h a ha hwhole)
  | json => exact Holds.exact h
  | jsonb =>
    obtain ⟨document, rfl, hwhole⟩ := h
    exact ⟨document, rfl, hwhole.exact⟩
  | _ => exact h

theorem decodeColumn_some {index : Nat} {name : Text} {type : SqlType} {bytes : Bytes} {v : Value}
    (h : decodeColumn index ⟨name, type⟩ (some bytes) = .ok v) :
    ∃ decode, decoder? type = some decode ∧ decode bytes = some v := by
  unfold decodeColumn at h
  split at h
  · cases h
  · next decode hdecode =>
    dsimp only at h
    split at h
    · next w hw =>
      refine ⟨decode, hdecode, ?_⟩
      rw [hw, Except.ok.inj h]
    · cases h

theorem decodeColumn_none {index : Nat} {name : Text} {type : SqlType} {v : Value}
    (h : decodeColumn index ⟨name, type⟩ none = .ok v) : RoundTrips v type := by
  unfold decodeColumn at h
  split at h
  · cases h
  · next decode hdecode =>
    obtain rfl := Except.ok.inj h
    exact .null (by rw [hdecode]; rfl)

theorem int_written {width : Nat} (hpos : 0 < width) (hwidth : width ≤ 8) {type : SqlType}
    (hdecoder : decoder? type = some (decodeInt? width))
    (hencode : ∀ i : Int64, encode (.int i) type = encodeInt width i.toInt) {bytes : Bytes}
    {v : Value} (h : decodeInt? width bytes = some v) : RoundTrips v type := by
  obtain ⟨b, hb, rfl⟩ := Option.map_eq_some_iff.mp h
  obtain ⟨hlength, rfl⟩ := exactly?_eq_some hb
  have hfits := fitsIn_ofSignedBytes b
  rw [hlength] at hfits
  have hsize : (256 : Int) ^ width ≤ 256 ^ 8 := pow_le_pow_right₀ (by decide) hwidth
  have hsame : (Int64.ofInt (ofSignedBytes b)).toInt = ofSignedBytes b := by
    unfold FitsIn at hfits
    exact Int64.toInt_ofInt_of_le (by omega) (by omega)
  obtain ⟨hleast, hmost⟩ := (fitsIn_iff hpos _).mp hfits
  exact .int hpos hdecoder (hencode _) (by rwa [hsame]) (by rwa [hsame])

theorem numericValue_zero {a : Numeric} (hmantissa : a.mantissa = 0) (hscale : a.scale = 0) :
    numericValue a = .int 0 := by
  obtain ⟨negative, m, scale⟩ := a
  obtain rfl : m = 0 := hmantissa
  obtain rfl : scale = 0 := hscale
  cases negative <;> rfl

/-- The wire keeps all of a number, so that a double is lost only where it is no decimal number. -/
theorem roundTrips_real_iff (r : Double) : RoundTrips (.real r) .numeric ↔ Kept r := by
  have hencode : encode (.real r) .numeric =
      sentOr (.mismatch (.real r) .numeric) ((Numeric.ofDouble? r).map Numeric.toWire) := rfl
  constructor
  · rintro ⟨bytes, hbytes, -, hdecode⟩
    cases hof : Numeric.ofDouble? r with
    | none =>
      rw [hencode, hof] at hbytes
      cases hbytes
    | some a =>
      have hwritable := Numeric.ofDouble?_writable hof
      rw [hencode, hof] at hbytes
      obtain rfl : some a.toWire = bytes := Except.ok.inj hbytes
      obtain ⟨decode, hdecoder, hread⟩ := decodeColumn_some (hdecode 0 [])
      obtain rfl := Option.some.inj hdecoder
      change (Numeric.ofWire? a.toWire).map numericValue = _ at hread
      by_cases hzero : a.mantissa = 0
      · have hwire : a.toWire = List.replicate 8 0 := by rw [Numeric.toWire, if_pos hzero]
        have hnothing : Numeric.ofWire? (List.replicate 8 0) = some ⟨false, 0, 0⟩ := by
          decide +kernel
        rw [hwire, hnothing] at hread
        cases hread
      · rw [Numeric.ofWire?_toWire hzero hwritable.mantissa hwritable.scale] at hread
        exact ⟨a, hof, Option.some.inj hread⟩
  · rintro ⟨a, hof, hvalue⟩
    have hwritable := Numeric.ofDouble?_writable hof
    have hzero : a.mantissa ≠ 0 := by
      intro h
      rw [numericValue_zero h (hwritable.zero h)] at hvalue
      cases hvalue
    rw [hof] at hencode
    refine .of_sent (by simp) decoder?_numeric hencode ?_
    rw [Numeric.ofWire?_toWire hzero hwritable.mantissa hwritable.scale, Option.map_some, hvalue]

theorem numeric_written_iff {bytes : Bytes} {v : Value}
    (h : (Numeric.ofWire? bytes).map numericValue = some v) :
    RoundTrips v .numeric ↔ Reversible bytes .numeric := by
  obtain ⟨a, hread, rfl⟩ := Option.map_eq_some_iff.mp h
  have hreversible : Reversible bytes .numeric ↔ (a.toInt? = none → Kept a.toDouble) := by
    constructor
    · exact fun h => h a hread
    · intro h b hb
      obtain rfl := Option.some.inj (hread.symm.trans hb)
      exact h
  rw [hreversible]
  unfold numericValue
  cases hwhole : a.toInt? with
  | some i => simpa using RoundTrips.numeric (Int64.ofInt i)
  | none => simpa using roundTrips_real_iff a.toDouble

theorem float4_written {bytes : Bytes} (h : exactly? 4 bytes = some bytes)
    (hnan : (Double.ofSingle (UInt32.ofNat (ofBigEndian bytes))).isNaN = false) :
    RoundTrips (.real (Double.ofSingle (UInt32.ofNat (ofBigEndian bytes)))) .float4 := by
  have hlength := (exactly?_eq_some h).1
  have hlt := ofBigEndian_lt bytes
  rw [hlength] at hlt
  have hbits : (UInt32.ofNat (ofBigEndian bytes)).toNat = ofBigEndian bytes := by
    exact UInt32.toNat_ofNat_of_lt' hlt
  have hbytes : bigEndian 4 (ofBigEndian bytes) = bytes := by
    conv_rhs => rw [← bigEndian_ofBigEndian bytes, hlength]
  have hencode : encode (.real (Double.ofSingle (UInt32.ofNat (ofBigEndian bytes)))) .float4 =
      sent bytes := by
    change sent (bigEndian 4 (Double.ofSingle _).toSingle.toNat) = _
    rw [Double.toSingle_ofSingle hnan, hbits, hbytes]
  refine .of_sent (by simp) rfl hencode ?_
  rw [h, Option.map_some]

theorem date_written {bytes : Bytes} {v : Value}
    (h : ((exactly? 4 bytes).bind fun b =>
      (Date.ofDays? (ofSignedBytes b)).map fun d => .text d.toText) = some v) :
    RoundTrips v .date := by
  obtain ⟨b, hb, hv⟩ := Option.bind_eq_some_iff.mp h
  obtain ⟨hlength, rfl⟩ := exactly?_eq_some hb
  obtain ⟨d, hd, rfl⟩ := Option.map_eq_some_iff.mp hv
  have hdate : d = Date.ofDays (ofSignedBytes b) ∧ d.isValid = true := by
    unfold Date.ofDays? at hd
    dsimp only at hd
    split_ifs at hd with hyear
    · rw [← Option.some.inj hd]
      exact ⟨rfl, Date.ofDays_valid _ hyear.1 hyear.2⟩
  have hdays : signedBytes 4 d.toDays = b := by
    rw [hdate.1, Date.toDays_ofDays, ← hlength, signedBytes_ofSignedBytes]
  have hencode : encode (.text d.toText) .date = sent b := by
    change sentOr .dateTime ((Calendar.date? (Text.trim d.toText)).map _) = _
    rw [Calendar.trim_toText, Calendar.date?_toText hdate.2, Option.map_some, hdays]
    rfl
  exact .of_sent (by simp) rfl hencode h

theorem uuid_written {bytes : Bytes} (h : bytes.length = 16) :
    RoundTrips (.text (Uuid.toText bytes)) .uuid := by
  have hencode : encode (.text (Uuid.toText bytes)) .uuid = sent bytes := by
    change sentOr .uuid (Uuid.read? (Text.trim (Uuid.toText bytes))) = _
    rw [Uuid.trim_toText, Uuid.read?_toText h]
    rfl
  refine .of_sent (by simp) rfl hencode ?_
  rw [exactly?_of_length h, Option.map_some]

/-- The text of such a document holds the same document. -/
theorem json_read {bytes : Bytes} {v : Value} (hexact : Holds Json.Exact bytes)
    (h : decodeJson? bytes = some v) : ∃ j : Json, v = .text j.write ∧
      Json.read? (Text.trim j.write) = some j ∧ decodeJson? (Utf8.encode j.write) = some v := by
  obtain ⟨t, j, hutf8, hread, hj⟩ := hexact
  have hback := Json.read?_write hread hj
  unfold decodeJson? at h
  rw [hutf8, Option.bind_some, hread, Option.map_some] at h
  refine ⟨j, (Option.some.inj h).symm, by rw [Json.trim_write hj, hback], ?_⟩
  rw [decodeJson?, Utf8.decode?_encode, Option.bind_some, hback, Option.map_some]
  exact h

theorem json_written {bytes : Bytes} {v : Value} (hexact : Holds Json.Exact bytes)
    (h : decodeJson? bytes = some v) : RoundTrips v .json := by
  obtain ⟨j, rfl, hread, hback⟩ := json_read hexact h
  have hencode : encode (.text j.write) .json = sent (Utf8.encode j.write) := by
    change sentOr .json ((Json.read? (Text.trim j.write)).map _) = _
    rw [hread]
    rfl
  exact .of_sent (by simp) rfl hencode hback

theorem jsonb_written {bytes : Bytes} {v : Value} (hexact : Holds Json.Exact bytes)
    (h : decodeJson? bytes = some v) : RoundTrips v .jsonb := by
  obtain ⟨j, rfl, hread, hback⟩ := json_read hexact h
  have hencode : encode (.text j.write) .jsonb = sent (1 :: Utf8.encode j.write) := by
    change sentOr .json ((Json.read? (Text.trim j.write)).map _) = _
    rw [hread]
    rfl
  exact .of_sent (by simp) rfl hencode hback

theorem micros_read {toText? : Int → Option Text} {bytes : Bytes} {v : Value}
    (h : decodeMicros? toText? bytes = some v) :
    bytes.length = 8 ∧ ∃ t, toText? (ofSignedBytes bytes) = some t ∧ v = .text t := by
  obtain ⟨b, hb, hv⟩ := Option.bind_eq_some_iff.mp h
  obtain ⟨hlength, rfl⟩ := exactly?_eq_some hb
  obtain ⟨t, ht, rfl⟩ := Option.map_eq_some_iff.mp hv
  exact ⟨hlength, t, ht, rfl⟩

/-- A time stamp is written with its zone in the years that have four digits, and only in those. -/
theorem timestamptz_written {bytes : Bytes} {v : Value}
    (h : decodeMicros? (fun n => (Calendar.instantText? 'T' n).map fun t => t ++ "+00:00".toList)
      bytes = some v) :
    (0 ≤ yearOf bytes ∧ yearOf bytes ≤ 9999 → RoundTrips v .timestamptz) ∧
      (¬(0 ≤ yearOf bytes ∧ yearOf bytes ≤ 9999) →
        encode v .timestamptz = .error .dateTime) := by
  obtain ⟨hlength, t, ht, rfl⟩ := micros_read h
  obtain ⟨u, hu, rfl⟩ := Option.map_eq_some_iff.mp ht
  have hencode : encode (.text (u ++ "+00:00".toList)) .timestamptz =
      sentOr .dateTime ((Calendar.zonedTimestamp? (u ++ "+00:00".toList)).map (signedBytes 8)) := by
    change sentOr .dateTime ((Calendar.zonedTimestamp? (Text.trim _)).map (signedBytes 8)) = _
    rw [Calendar.trim_zonedText hu]
  constructor
  · intro hyear
    have hbytes : signedBytes 8 (ofSignedBytes bytes) = bytes := by
      rw [← hlength, signedBytes_ofSignedBytes]
    have hsent : encode (.text (u ++ "+00:00".toList)) .timestamptz = sent bytes := by
      rw [hencode, Calendar.zonedTimestamp?_text hu hyear.1 hyear.2, Option.map_some, hbytes]
      rfl
    exact .of_sent (by simp) rfl hsent h
  · intro hyear
    rw [hencode, Calendar.zonedTimestamp?_signed hu hyear]
    rfl

theorem timestamp_unwritten {bytes : Bytes} {v : Value}
    (h : decodeMicros? (Calendar.instantText? ' ') bytes = some v) :
    encode v .timestamp = .error .dateTime := by
  obtain ⟨-, t, ht, rfl⟩ := micros_read h
  change sentOr .dateTime ((Calendar.timestamp? (Text.trim t)).map _) = _
  rw [Calendar.trim_instantText ht, Calendar.timestamp?_text ht]
  rfl

theorem text_written {version bytes : Bytes} {v : Value} {type : SqlType}
    (hversion : type.textVersion? = some version) (h : decodeText? version bytes = some v) :
    RoundTrips v type := by
  obtain ⟨b, -, hb⟩ := Option.bind_eq_some_iff.mp h
  obtain ⟨t, -, rfl⟩ := Option.map_eq_some_iff.mp hb
  exact .text t (textVersion?_eq_some_iff.mp hversion)

theorem reversible_written {type : SqlType} {bytes : Bytes} {v : Value}
    {decode : Bytes → Option Value} (hdecoder : decoder? type = some decode)
    (h : decode bytes = some v) (hnan : ∀ r, v = .real r → r.isNaN = false)
    (hreversible : Reversible bytes type) : RoundTrips v type := by
  cases htext : type.textVersion? with
  | some version =>
    obtain rfl := Option.some.inj ((decoder?_text htext).symm.trans hdecoder)
    exact text_written htext h
  | none =>
    cases type with
    | bool =>
      obtain rfl := Option.some.inj hdecoder
      obtain ⟨b, -, rfl⟩ := Option.map_eq_some_iff.mp h
      exact decode_encode (.bool _)
    | int2 =>
      obtain rfl := Option.some.inj hdecoder
      exact int_written (by decide) (by decide) rfl (fun _ => rfl) h
    | int4 =>
      obtain rfl := Option.some.inj hdecoder
      exact int_written (by decide) (by decide) rfl (fun _ => rfl) h
    | int8 =>
      obtain rfl := Option.some.inj hdecoder
      exact int_written (by decide) (by decide) rfl (fun _ => rfl) h
    | float4 =>
      obtain rfl := Option.some.inj hdecoder
      obtain ⟨b, hb, rfl⟩ := Option.map_eq_some_iff.mp h
      obtain ⟨-, rfl⟩ := exactly?_eq_some hb
      exact float4_written hb (hnan _ rfl)
    | float8 =>
      obtain rfl := Option.some.inj hdecoder
      obtain ⟨b, -, rfl⟩ := Option.map_eq_some_iff.mp h
      exact .real _
    | numeric =>
      obtain rfl := Option.some.inj hdecoder
      exact (numeric_written_iff h).mpr hreversible
    | date =>
      obtain rfl := Option.some.inj hdecoder
      exact date_written h
    | timestamptz =>
      obtain rfl := Option.some.inj hdecoder
      exact (timestamptz_written h).1 hreversible
    | uuid =>
      obtain rfl := Option.some.inj hdecoder
      obtain ⟨b, hb, rfl⟩ := Option.map_eq_some_iff.mp h
      obtain ⟨hlength, rfl⟩ := exactly?_eq_some hb
      exact uuid_written hlength
    | json =>
      obtain rfl := Option.some.inj hdecoder
      exact json_written hreversible h
    | jsonb =>
      obtain rfl := Option.some.inj hdecoder
      obtain ⟨document, rfl, hexact⟩ := hreversible
      exact jsonb_written hexact h
    | oid => exact hreversible.elim
    | time => exact hreversible.elim
    | timestamp => exact hreversible.elim
    | builtin name => cases hdecoder
    | custom schema name =>
      have hnone : decoder? (.custom schema name) = none := congrArg (Option.map decodeText?) htext
      rw [hnone] at hdecoder
      cases hdecoder
    | _ => simp [SqlType.textVersion?] at htext

/-- Of these types no value is written back that is not reversible. -/
theorem irreversible_unwritten {type : SqlType} {bytes : Bytes} {v : Value}
    {decode : Bytes → Option Value} (hdecoder : decoder? type = some decode)
    (h : decode bytes = some v) (htype : type ∈ [.oid, .time, .timestamp, .timestamptz])
    (hirreversible : ¬Reversible bytes type) : ∃ fault, encode v type = .error fault := by
  simp only [List.mem_cons, List.not_mem_nil, or_false] at htype
  obtain rfl | rfl | rfl | rfl := htype
  · obtain rfl := Option.some.inj hdecoder
    obtain ⟨b, -, rfl⟩ := Option.map_eq_some_iff.mp h
    exact ⟨_, rfl⟩
  · obtain rfl := Option.some.inj hdecoder
    obtain ⟨-, t, -, rfl⟩ := micros_read h
    exact ⟨_, rfl⟩
  · obtain rfl := Option.some.inj hdecoder
    exact ⟨_, timestamp_unwritten h⟩
  · obtain rfl := Option.some.inj hdecoder
    exact ⟨_, (timestamptz_written h).2 hirreversible⟩

/-- A value that comes back was read from reversible bytes. Of a document this is not known, since
its doubles could change and change back. -/
theorem written_reversible {type : SqlType} {bytes : Bytes} {v : Value}
    {decode : Bytes → Option Value} (hdecoder : decoder? type = some decode)
    (h : decode bytes = some v) (htype : type ∉ [.json, .jsonb]) (hwritten : RoundTrips v type) :
    Reversible bytes type := by
  have hlost (hlisted : type ∈ [.oid, .time, .timestamp, .timestamptz]) :
      Reversible bytes type := by
    by_contra hirreversible
    obtain ⟨fault, hfault⟩ := irreversible_unwritten hdecoder h hlisted hirreversible
    obtain ⟨sent, hencode, -⟩ := hwritten
    rw [hencode] at hfault
    cases hfault
  cases type with
  | oid => exact hlost (by simp)
  | time => exact hlost (by simp)
  | timestamp => exact hlost (by simp)
  | timestamptz => exact hlost (by simp)
  | numeric =>
    obtain rfl := Option.some.inj hdecoder
    exact (numeric_written_iff h).mp hwritten
  | json => simp at htype
  | jsonb => simp at htype
  | _ => trivial

/-- A value that was read, and is no NaN, is written for its type and read again if its bytes are
simple or else reversible, and outside of documents only if they are reversible. Object identifiers,
times and time stamps without a zone are never written, and nor is a time stamp with a zone in a year
that has not four digits. -/
theorem written_back {index : Nat} {name : Text} {type : SqlType} {bytes : Option Bytes} {v : Value}
    (h : decodeColumn index ⟨name, type⟩ bytes = .ok v)
    (hnan : ∀ r, v = .real r → r.isNaN = false) :
    ((∀ b ∈ bytes, Simple b type) → RoundTrips v type) ∧
      ((∀ b ∈ bytes, Reversible b type) → RoundTrips v type) ∧
      (type ∉ [.json, .jsonb] → RoundTrips v type → ∀ b ∈ bytes, Reversible b type) ∧
      (type ∈ [.oid, .time, .timestamp, .timestamptz] → ∀ b ∈ bytes, ¬Reversible b type →
        ∃ fault, encode v type = .error fault) := by
  cases bytes with
  | none =>
    have hnull := decodeColumn_none h
    refine ⟨fun _ => hnull, fun _ => hnull, by simp, by simp⟩
  | some bytes =>
    obtain ⟨decode, hdecoder, hread⟩ := decodeColumn_some h
    simp only [Option.mem_some_iff, forall_eq']
    have hwritten := reversible_written hdecoder hread hnan
    exact ⟨fun hsimple => hwritten hsimple.reversible, hwritten,
      written_reversible hdecoder hread, irreversible_unwritten hdecoder hread⟩

theorem written_back_price :
    let price : Value := .real ⟨0x4029000000000000⟩
    let bytes : Bytes := [0, 2, 0, 0, 0, 0, 0, 2, 0, 12, 0x13, 0x88]
    decodeColumn 0 ⟨"price".toList, .numeric⟩ (some bytes) = .ok price ∧
      RoundTrips price .numeric := by
  intro price bytes
  have hread : (Numeric.ofWire? bytes).map numericValue = some price := by decide +kernel
  have hcolumn : decodeColumn 0 ⟨"price".toList, .numeric⟩ (some bytes) = .ok price := by
    unfold decodeColumn
    simp only [decoder?, hread]
  have hsimple : Simple bytes .numeric := by
    intro a ha _
    have hdigits : Numeric.ofWire? bytes = some ⟨false, 1250, 2⟩ := by decide +kernel
    obtain rfl := Option.some.inj (hdigits.symm.trans ha)
    exact ⟨by decide, by decide, by decide, by decide⟩
  have hback := written_back hcolumn (by simp [price]; decide)
  exact ⟨hcolumn, hback.1 (by simpa using hsimple)⟩

/-- The first instant of the year 2000 is read, but it is not written again. -/
theorem timestamp_not_written :
    ¬∀ (bytes : Bytes) (v : Value), decodeColumn 0 ⟨"at".toList, .timestamp⟩ (some bytes) = .ok v →
      RoundTrips v .timestamp := by
  intro h
  have hread : decodeMicros? (Calendar.instantText? ' ') (List.replicate 8 0) =
      some (.text "2000-01-01 00:00:00".toList) := by
    decide +kernel
  have hcolumn : decodeColumn 0 ⟨"at".toList, .timestamp⟩ (some (List.replicate 8 0)) =
      .ok (.text "2000-01-01 00:00:00".toList) := by
    unfold decodeColumn
    simp only [decoder?, hread]
  obtain ⟨bytes, hencode, -⟩ := h _ _ hcolumn
  rw [timestamp_unwritten hread] at hencode
  cases hencode

end FluentSql.Wire
