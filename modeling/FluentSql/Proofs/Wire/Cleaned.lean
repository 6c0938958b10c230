import FluentSql.Proofs.Calendar.Plain
import FluentSql.Proofs.Json.Plain
import FluentSql.Proofs.Number.Plain
import FluentSql.Wire.Encode

namespace FluentSql

open Text (IsPlain PlainUntil)

variable {t : Text}

namespace Uuid

open Wire (Bytes)

variable {bytes : Bytes}

theorem readSimple?_plain (h : readSimple? t = some bytes) : IsPlain t := by
  unfold readSimple? at h
  rw [Option.ite_none_right_eq_some, Bool.and_eq_true] at h
  exact Text.isPlain_all rfl h.1.2

/-- Parts that are plain were parted from a plain text. -/
theorem isPlain_of_splitAt {c : Char} (hc : c ∉ Text.marks) {t : Text}
    (h : IsPlain (Text.splitAt c t).flatten) : IsPlain t := by
  induction t with
  | nil => trivial
  | cons d t ih =>
    rw [Text.splitAt] at h
    split_ifs at h with hd
    · exact .cons (hd ▸ hc) (ih (by simpa using h))
    · cases hparts : Text.splitAt c t with
      | nil =>
        rw [hparts] at h ih
        exact .cons ((Text.isPlain_iff _).mp h d (by simp)) (ih trivial)
      | cons p ps =>
        rw [hparts] at h ih
        obtain hfalse | ⟨hplain, hrest⟩ := h
        · exact hfalse.elim
        · exact .cons hplain (ih hrest)

theorem readHyphenated?_plain (h : readHyphenated? t = some bytes) : IsPlain t := by
  unfold readHyphenated? at h
  dsimp only at h
  rw [Option.ite_none_right_eq_some] at h
  exact isPlain_of_splitAt (by decide) (readSimple?_plain h.2)

theorem readBraced?_plain (h : readBraced? t = some bytes) : IsPlain t := by
  unfold readBraced? at h
  split at h
  · next t =>
    rw [Option.ite_none_right_eq_some] at h
    obtain ⟨hlast, h⟩ := h
    obtain ⟨u, rfl⟩ := List.getLast?_eq_some_iff.mp hlast
    rw [List.dropLast_concat] at h
    exact .cons (by decide) ((readHyphenated?_plain h).append (.cons (by decide) trivial))
  · cases h

theorem readUrn?_plain (h : readUrn? t = some bytes) : IsPlain t := by
  unfold readUrn? at h
  rw [Option.ite_none_right_eq_some] at h
  have hprefix : IsPlain (t.take 9) := by
    refine .of_lower ?_
    rw [h.1]
    exact Text.isPlain_all (p := fun c => c.isAlpha || c == ':') rfl rfl
  have happend := hprefix.append (readHyphenated?_plain h.2)
  rwa [List.take_append_drop] at happend

theorem read?_plain (h : read? t = some bytes) : IsPlain t := by
  unfold read? at h
  rw [Option.or_eq_some_iff, Option.or_eq_some_iff, Option.or_eq_some_iff] at h
  obtain h | ⟨-, h | ⟨-, h | ⟨-, h⟩⟩⟩ := h
  · exact readSimple?_plain h
  · exact readHyphenated?_plain h
  · exact readBraced?_plain h
  · exact readUrn?_plain h

end Uuid

namespace Wire

variable {type : SqlType} {bytes : Option Bytes}

theorem readBool?_plain {b : Bool} (h : readBool? t = some b) : IsPlain t := by
  have hwords : (trueWords ++ falseWords).all (·.all Char.isAlphanum) = true := rfl
  have hword : Text.lower (Text.trim t) ∈ trueWords ++ falseWords := by
    unfold readBool? at h
    dsimp only at h
    split_ifs at h with htrue hfalse
    · exact List.mem_append_left _ (List.contains_iff_mem.mp htrue)
    · exact List.mem_append_right _ (List.contains_iff_mem.mp hfalse)
  have hall := List.all_eq_true.mp hwords _ hword
  exact .of_trim (Text.IsPlain.of_lower (Text.isPlain_all rfl hall))

theorem encodeIntText_plain {width : Nat} (h : encodeIntText width t = .ok bytes) : IsPlain t := by
  unfold encodeIntText at h
  split at h
  · next i hread =>
    obtain ⟨j, hj⟩ := Integer.read_ok hread
    exact hj.plain
  · cases h

theorem encodeFloatText_plain {f : Binary.Format} {width : Nat}
    (h : encodeFloatText f width t = .ok bytes) : IsPlain t := by
  unfold encodeFloatText at h
  split at h
  · next bits hread => exact Double.read_plain hread
  · cases h

variable {fault : EncodeFault}

theorem sentOr_ok {sending : Option Bytes} (h : sentOr fault sending = .ok bytes) :
    ∃ b, sending = some b := by
  cases sending with
  | none => cases h
  | some b => exact ⟨b, rfl⟩

theorem sentOr_map_ok {α : Type} {read : Option α} {write : α → Bytes}
    (h : sentOr fault (read.map write) = .ok bytes) : ∃ a, read = some a := by
  obtain ⟨b, hb⟩ := sentOr_ok h
  obtain ⟨a, ha, -⟩ := Option.map_eq_some_iff.mp hb
  exact ⟨a, ha⟩

/-- The types that hold documents. -/
def documents : List SqlType := [.json, .jsonb]

/-- A text that is sent for a type that holds no text is plain, in a document up to the first
quote. -/
theorem encodeText_plain (htext : type.textVersion? = none) (h : encodeText t type = .ok bytes) :
    PlainUntil (fun c => type ∈ documents ∧ c = '"') t := by
  refine .of_trim ?_
  unfold encodeText at h
  rw [htext] at h
  dsimp only at h
  cases type with
  | bool =>
    obtain ⟨b, hb⟩ := sentOr_map_ok h
    exact (readBool?_plain hb).until _
  | int2 => exact (encodeIntText_plain h).until _
  | int4 => exact (encodeIntText_plain h).until _
  | int8 => exact (encodeIntText_plain h).until _
  | float4 => exact (encodeFloatText_plain h).until _
  | float8 => exact (encodeFloatText_plain h).until _
  | numeric =>
    obtain ⟨a, ha⟩ := sentOr_map_ok h
    exact (Numeric.read?_plain ha).until _
  | uuid =>
    obtain ⟨b, hb⟩ := sentOr_ok h
    exact (Uuid.read?_plain hb).until _
  | json =>
    obtain ⟨j, hj⟩ := sentOr_map_ok h
    exact (Json.read?_plainUntilQuote hj).mono fun c hc => ⟨by decide, hc⟩
  | jsonb =>
    obtain ⟨j, hj⟩ := sentOr_map_ok h
    exact (Json.read?_plainUntilQuote hj).mono fun c hc => ⟨by decide, hc⟩
  | date =>
    obtain ⟨d, hd⟩ := sentOr_map_ok h
    exact (Calendar.date?_plain hd).until _
  | timestamp =>
    obtain ⟨n, hn⟩ := sentOr_map_ok h
    exact (Calendar.timestamp?_plain hn).until _
  | timestamptz =>
    obtain ⟨n, hn⟩ := sentOr_map_ok h
    exact (Calendar.zonedTimestamp?_plain hn).until _
  | _ => cases h

/-- No document has an ampersand where a string should have begun. -/
theorem encodeText_ampersand (htype : type ∈ documents) {u : Text} (hquote : '"' ∉ u)
    (hampersand : '&' ∈ u) : encodeText u type = .error .json := by
  have hread : Json.read? (Text.trim u) = none := by
    cases hread : Json.read? (Text.trim u) with
    | none => rfl
    | some j =>
      have hplain : IsPlain u := (Json.read?_plainUntilQuote hread).of_trim.isPlain
        fun c hc hstop => hquote (hstop ▸ hc)
      exact absurd (by decide) ((Text.isPlain_iff u).mp hplain _ hampersand)
  obtain rfl | rfl : type = .json ∨ type = .jsonb := by simpa [documents] using htype
  · simp [encodeText, SqlType.textVersion?, hread, sentOr]
  · simp [encodeText, SqlType.textVersion?, hread, sentOr]

/-- A text that can be sent for a type that holds no text is sent alike after it is cleaned, unless
it is a document with a quote in it: that is refused once it is cleaned. -/
theorem cleaned_sent (htext : type.textVersion? = none)
    (h : encode (.text t) type = .ok bytes) :
    (type ∉ documents ∨ '"' ∉ t → encode (Value.text t).sanitized type = .ok bytes) ∧
      (type ∈ documents → '"' ∈ t → encode (Value.text t).sanitized type = .error .json) := by
  have hplain := encodeText_plain htext h
  constructor
  · intro hsafe
    have hclean : IsPlain t := by
      refine hplain.isPlain fun c hc hstop => ?_
      obtain ⟨htype, rfl⟩ := hstop
      exact hsafe.elim (fun hn => hn htype) fun hn => hn hc
    rw [Value.sanitized, Text.sanitize_plain hclean]
    exact h
  · intro htype hquote
    have hampersand := Text.ampersand_mem_sanitize (hplain.mono fun _ hc => hc.2) hquote
    have hnone : '"' ∉ Text.sanitize t := fun hm =>
      Text.sanitize_unmarked t _ hm (by decide)
    exact encodeText_ampersand htype hnone hampersand

theorem cleaned_sent_leap :
    let leap : Text := " 2024-02-29T23:59:60+01:00".toList
    let list : Text := "[1, \"a\"]".toList
    let sent : Bytes := [0, 2, 181, 139, 252, 208, 28, 0]
    (SqlType.textVersion? .timestamptz = none ∧
      encode (.text leap) .timestamptz = .ok (some sent) ∧ .timestamptz ∉ documents ∧
      encode (Value.text leap).sanitized .timestamptz = .ok (some sent)) ∧
    SqlType.textVersion? .jsonb = none ∧
      encode (.text list) .jsonb = .ok (some [1, 91, 49, 44, 34, 97, 34, 93]) ∧
      .jsonb ∈ documents ∧ '"' ∈ list ∧
      encode (Value.text list).sanitized .jsonb = .error .json := by
  intro leap list sent
  have hleap : encode (.text leap) .timestamptz = .ok (some sent) := by decide +kernel
  have hlist : encode (.text list) .jsonb = .ok (some [1, 91, 49, 44, 34, 97, 34, 93]) := by
    decide +kernel
  have htype : SqlType.timestamptz ∉ documents := by decide
  have hdocument : SqlType.jsonb ∈ documents := by decide
  have hquote : '"' ∈ list := by decide
  exact ⟨⟨rfl, hleap, htype, (cleaned_sent rfl hleap).1 (.inl htype)⟩, rfl, hlist, hdocument,
    hquote, (cleaned_sent rfl hlist).2 hdocument hquote⟩

/-- A document with a name in it can be sent, but not once it is cleaned. -/
theorem document_damaged :
    ¬∀ (t : Text) (bytes : Option Bytes), encode (.text t) .json = .ok bytes →
      encode (Value.text t).sanitized .json = .ok bytes := by
  intro h
  have hsent : encode (.text "\x7b\"a\":1\x7d".toList) .json =
      .ok (some [123, 34, 97, 34, 58, 49, 125]) := by
    decide +kernel
  have hcleaned : encode (Value.text "\x7b\"a\":1\x7d".toList).sanitized .json = .error .json := by
    decide +kernel
  rw [h _ _ hsent] at hcleaned
  cases hcleaned

end Wire

end FluentSql
