import FluentSql.Proofs.Session.Policies
import FluentSql.Proofs.Session.Writes
import FluentSql.Proofs.Value.Literal

namespace FluentSql

open Text (Trimmed)

namespace Condition

/-- A predicate that later steps take as it was written. Its column is a name of one part and a word
for a placeholder; its value stands for the text between quotes that it starts and ends with, for
null, or for itself. -/
structure Predicate.Usable (p : Predicate) : Prop where
  column : Identifier.ofText p.column = .ok ⟨[p.column]⟩
  seed : Identifier.seed ⟨[p.column]⟩ = p.column
  nonempty : p.value ≠ []
  trimmed : Trimmed p.value
  quoted : ∀ q t, q = '\'' ∨ q = '"' → p.value = q :: t →
    ∃ body, t = body ++ [q] ∧ Value.ofLiteral p.value = .text body
  null : Value.SpellsNull p.value → Value.ofLiteral p.value = .null
  plain : (∀ c ∈ p.value.head?, c ≠ '\'' ∧ c ≠ '"') → ¬Value.SpellsNull p.value →
    Value.ofLiteral p.value = .text p.value

variable {t rest : Text} {fs : List Fragment} {ps : List Predicate}

/-- The quotes that close a value in the condition are those that its literal loses. -/
theorem IsValue.quoted_literal {q : Char} {u : Text} (h : IsValue t rest) (hq : q = '\'' ∨ q = '"')
    (ht : t = q :: u) : ∃ body, u = body ++ [q] ∧ Value.ofLiteral t = .text body := by
  cases h with
  | @quoted q' body _ hq' =>
    obtain ⟨rfl, rfl⟩ := List.cons.inj ht
    exact ⟨body, rfl, Value.ofLiteral_quoted hq' body⟩
  | plain _ _ _ hplain =>
    have hne := hplain q (by simp [ht])
    tauto

theorem Piece.Reads.usable {p : Piece} (h : p.Reads rest) : p.predicate.Usable := by
  have hword : Text.isWord p.predicate.column = true := h.lead.column
  have htrimmed : Trimmed p.predicate.value := h.value.trimmed
  exact {
    column := Identifier.ofText_word hword
    seed := Identifier.seed_eq_self hword
    nonempty := h.value.ne_nil
    trimmed := htrimmed
    quoted := fun _ _ => h.value.quoted_literal
    null := Value.ofLiteral_null htrimmed
    plain := Value.ofLiteral_plain htrimmed }

/-- Every predicate that is read is that of a piece, whatever becomes of the other fragments. -/
theorem Divides.usable (h : Divides t fs) {f : Fragment} (hf : f ∈ fs) {n : Nat} {p : Predicate}
    (hp : f.parse n = .ok p) : p.Usable := by
  obtain ⟨u, rest, hfirst⟩ := h.exists_first hf
  obtain ⟨piece, -, hreads, rfl⟩ := exists_piece hfirst hp
  exact hreads.usable

theorem parseLenient_usable {r : Reading} (h : parseLenient t = .ok r) :
    ∀ p ∈ r.accepted, p.Usable := by
  obtain ⟨-, rfl⟩ := parseLenient_eq_ok.mp h
  intro p hp
  obtain ⟨f, hf, n, hread⟩ := mem_readFrom hp
  exact (divides_fragments t).usable hf hread

theorem parse_usable (h : parse t = .ok ps) : ∀ p ∈ ps, p.Usable :=
  parseLenient_usable (parse_ok_iff.mp h)

end Condition

namespace Session

open Condition

/-- A condition that is read has a term for each of its predicates, whatever is bound already. -/
theorem terms_read {policy : MalformedPolicy} {t : Text} {ps : List Predicate}
    (h : (readCondition policy t).1 = .ok ps) (bs : Bindings) :
    ∃ ts bs', terms bs ps = .ok (ts, bs') ∧ List.Forall₂ (FilterTerm.Tests bs') ps ts := by
  obtain ⟨-, hwords⟩ := readCondition_words h
  obtain ⟨⟨ts, bs'⟩, hterms⟩ := terms_words bs hwords
  exact ⟨ts, bs', hterms, (terms_filtered hterms).tests hwords⟩

/-- What the parser accepts of a condition, strictly or leniently, nothing refuses afterwards: names
and quotes are read alike at every step. So every predicate becomes a term of the filter, and the
only error that a filter records is that of its condition. -/
theorem accepted_usable :
    (∀ t ps, parse t = .ok ps → ∀ p ∈ ps, p.Usable) ∧
    (∀ t r, parseLenient t = .ok r → ∀ p ∈ r.accepted, p.Usable) ∧
    (∀ policy t ps, (readCondition policy t).1 = .ok ps → ∀ bs, ∃ ts bs',
      terms bs ps = .ok (ts, bs') ∧ List.Forall₂ (FilterTerm.Tests bs') ps ts) ∧
    ∀ (s : Session) t, (s.apply (.filter t)).1.fault =
      s.fault.or ((errorOf? (readCondition s.config.malformed t).1).map Error.condition) :=
  ⟨fun _ _ => parse_usable, fun _ _ => parseLenient_usable, fun _ _ _ => terms_read,
    setFilter_fault⟩

theorem accepted_usable_mixed :
    let t := "_a1 >= 'it''s, so' , b<>NuLL,c = O'Neil".toList
    let u := t ++ ",2x = 3".toList
    let ps : List Predicate := [⟨"_a1".toList, .gte, "'it''s, so'".toList⟩,
      ⟨"b".toList, .ltgt, "NuLL".toList⟩, ⟨"c".toList, .eq, "O'Neil".toList⟩]
    let r : Reading := ⟨ps, [⟨"2x = 3".toList, .missingColumn "2x = 3".toList⟩]⟩
    let s := start {} "users".toList
    parse t = .ok ps ∧ parseLenient u = .ok r ∧ (∀ p ∈ ps, p.Usable) ∧
      (∀ p ∈ r.accepted, p.Usable) ∧ ps.map (fun p => Value.ofLiteral p.value) =
        [.text "it''s, so".toList, .null, .text "O'Neil".toList] ∧
      (∃ ts bs, terms s.bindings ps = .ok (ts, bs) ∧ ts.length = 3) ∧
      (s.apply (.filter t)).1.fault = none ∧
      (s.apply (.filter u)).1.fault = some (.condition (.missingColumn "2x = 3".toList)) := by
  intro t u ps r s
  obtain ⟨hstrict, hlenient, hterms, hfault⟩ := accepted_usable
  have ht : parse t = .ok ps := rfl
  have hu : parseLenient u = .ok r := rfl
  obtain ⟨ts, bs, hts, htests⟩ := hterms .reject t ps ht s.bindings
  exact ⟨ht, hu, hstrict t ps ht, hlenient u r hu, rfl, ⟨ts, bs, hts, htests.length_eq.symm⟩,
    hfault s t, hfault s u⟩

end Session

end FluentSql
