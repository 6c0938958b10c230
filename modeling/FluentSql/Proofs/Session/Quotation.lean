import FluentSql.Proofs.Session.Policies
import FluentSql.Proofs.Value.Literal

namespace FluentSql

open Text (IsSpace isBlank)

/-- What stands behind a comparison cannot make another of it, unless it is part of one itself. -/
theorem Comparison.heads_of_next (op : Comparison) {t : Text}
    (h : ∀ c ∈ t.head?, c ≠ '=' ∧ c ≠ '>') : op.Heads (op.token ++ t) := by
  cases t with
  | nil => cases op <;> rfl
  | cons c t =>
    have hc := h c rfl
    cases op <;> simp [Heads, precedence, token, eq_comm, hc]

namespace Condition

theorem isColumnChar_blank {c : Char} (h : isBlank c = true) : isColumnChar c = false := by
  rw [Bool.eq_false_iff]
  intro hc
  rw [isColumnChar, Bool.or_eq_true, beq_iff_eq] at hc
  rcases hc with rfl | hc
  · revert h
    decide
  · rw [Text.isBlank_alphanum hc] at h
    cases h

theorem isColumnChar_token (op : Comparison) : ∀ c ∈ op.token, isColumnChar c = false := by
  have hall : op.token.all (fun c => !isColumnChar c) = true := by cases op <;> rfl
  intro c hc
  simpa using List.all_eq_true.mp hall c hc

theorem Piece.Reads.not_space {p : Piece} {rest : Text} (h : p.Reads rest) (t : Text) :
    ¬IsSpace (p.text ++ t) := by
  intro hspace
  obtain ⟨c, w, hc⟩ := List.exists_cons_of_ne_nil (Text.isWord_ne_nil h.lead.column)
  have hblank := (Text.isSpace_iff _).mp hspace c (by simp [Piece.text, Lead.text, hc])
  rw [Text.isBlank_word h.lead.column c (by simp [hc])] at hblank
  cases hblank

theorem Splits.not_space {t : Text} {pieces : List Piece} (h : Splits t pieces) : ¬IsSpace t := by
  cases h with
  | last hp => simpa using hp.not_space []
  | more hp _ => exact hp.not_space _

/-- A column compared with a text in quotes, and the white space around its parts. -/
structure Quotation extends Lead where
  quote : Char
  body : Text
  after : Text

namespace Quotation

/-- A quotation has a name for its column, and nothing in its text that would close the quotes. -/
structure Sound (x : Quotation) : Prop where
  before : IsSpace x.before
  column : Text.isWord x.column = true
  gap : IsSpace x.gap
  space : IsSpace x.space
  quote : x.quote = '\'' ∨ x.quote = '"'
  body : Quotable x.quote x.body
  after : IsSpace x.after

def literal (x : Quotation) : Text := x.quote :: x.body ++ [x.quote]

def piece (x : Quotation) : Piece := ⟨x.toLead, x.literal, x.after⟩

/-- The condition that quotations make with commas between them. -/
def condition (xs : List Quotation) : Text := Text.joinWith [','] (xs.map fun x => x.piece.text)

/-- The predicates that quotations are read as, with the quotes around their texts. -/
def predicates (xs : List Quotation) : List Predicate := xs.map fun x => ⟨x.column, x.op, x.literal⟩

variable {x : Quotation} {xs : List Quotation} {rest : Text}

theorem Sound.lead (h : x.Sound) (t : Text) : x.toLead.Reads (x.quote :: t) := by
  refine ⟨h.before, h.column, fun c hc => ?_, h.gap, x.op.heads_of_next fun c hc => ?_, h.space⟩
  · rcases List.mem_append.mp (List.mem_of_mem_head? hc) with hgap | htoken
    · exact isColumnChar_blank ((Text.isSpace_iff _).mp h.gap c hgap)
    · exact isColumnChar_token x.op c htoken
  · cases hspace : x.space with
    | nil =>
      obtain rfl : x.quote = c := by simpa [hspace] using hc
      rcases h.quote with hq | hq <;> rw [hq] <;> decide
    | cons d space =>
      obtain rfl : d = c := by simpa [hspace] using hc
      have hblank := h.space d (by simp [hspace])
      constructor <;> (rintro rfl; revert hblank; decide)

/-- A quotation is a piece of a condition, whatever piece comes next. -/
theorem Sound.reads (h : x.Sound) (hr : Stops rest) : x.piece.Reads rest :=
  ⟨h.lead _, .quoted h.quote ⟨x.after, rest, h.after, hr, rfl⟩
    ((quotable_iff h.quote _ _).mp h.body),
    h.after⟩

theorem splits (hne : xs ≠ []) (h : ∀ x ∈ xs, x.Sound) :
    Splits (condition xs) (xs.map Quotation.piece) := by
  induction xs with
  | nil => exact absurd rfl hne
  | cons x xs ih =>
    have hx : x.Sound := h x (by simp)
    cases xs with
    | nil => exact .last (hx.reads (by simp [Stops]))
    | cons y ys =>
      have hcondition : condition (x :: y :: ys) = x.piece.text ++ ',' :: condition (y :: ys) := by
        simp [condition, Text.joinWith]
      rw [hcondition]
      exact .more (hx.reads (by simp [Stops])) (ih (by simp) fun z hz => h z (by simp [hz]))

theorem parse_condition (hne : xs ≠ []) (h : ∀ x ∈ xs, x.Sound) :
    parse (condition xs) = .ok (predicates xs) := by
  have hsplits := splits hne h
  have hparse := hsplits.parseFrom 0
  rw [← (divides_fragments _).unique hsplits.divides, List.map_map] at hparse
  rw [parse, if_neg fun hv => hsplits.not_space ((isVoid_iff _).mp hv), hparse]
  rfl

/-- Quoted text is never taken for null, so a value is bound for each quotation. -/
theorem boundValues_predicates (h : ∀ x ∈ xs, x.Sound) :
    Predicate.boundValues (predicates xs) = xs.map fun x => .text x.body := by
  induction xs with
  | nil => rfl
  | cons x xs ih =>
    have hvalue := Value.ofLiteral_quoted (h x (by simp)).quote x.body
    have hnull : Predicate.asksNull ⟨x.column, x.op, x.literal⟩ = false := by
      rw [Predicate.asksNull, literal, hvalue]
      exact Bool.and_false _
    rw [predicates, List.map_cons, Predicate.boundValues_value hnull, List.map_cons,
      ← ih fun y hy => h y (by simp [hy])]
    exact congrArg (· :: _) hvalue

end Quotation

end Condition

namespace Session

open Condition

theorem readCondition_ok {t : Text} {ps : List Predicate} (h : parse t = .ok ps)
    (policy : MalformedPolicy) : readCondition policy t = (.ok ps, []) := by
  cases policy with
  | reject => rw [readCondition, h]
  | skip =>
    rw [readCondition_skip (parse_ok_iff.mp h), if_neg (by simpa using (parse_words h).1)]
    rfl

/-- Quotes carry any text through a filter in which they are not closed too early: the condition is
read as it was written under either policy, and each text is bound as it is, after the bindings of
other clauses. -/
theorem quoted_bound (xs : List Quotation) (hne : xs ≠ []) (h : ∀ x ∈ xs, x.Sound) :
    parse (Quotation.condition xs) = .ok (Quotation.predicates xs) ∧
    parseLenient (Quotation.condition xs) = .ok ⟨Quotation.predicates xs, []⟩ ∧
    ∀ (s : Session) (policy : MalformedPolicy),
      let next := (s.under policy).apply (.filter (Quotation.condition xs))
      next.1.fault = s.fault ∧ next.2 = [] ∧
      ∃ new : Bindings, next.1.bindings = s.bindings.removeClause .filter ++ new ∧
        (∀ b ∈ new, b.clause = .filter) ∧
        new.map Binding.value = xs.map fun x => .text x.body := by
  have hparse := Quotation.parse_condition hne h
  refine ⟨hparse, parse_ok_iff.mp hparse, fun s policy => ?_⟩
  have hread := readCondition_ok hparse policy
  obtain ⟨ts, bs, hterms, hset⟩ := (s.under policy).setFilter_ok (congrArg Prod.fst hread)
  obtain ⟨new, rfl, -, hvalues, hclause⟩ := (terms_filtered hterms).extends_bindings
  have hfault := congrArg Session.fault hset
  have hbindings := congrArg Session.bindings hset
  exact ⟨hfault, (setFilter_events _ _).trans (congrArg Prod.snd hread), new, hbindings, hclause,
    hvalues.trans (Quotation.boundValues_predicates h)⟩

theorem quoted_bound_traps :
    let xs : List Quotation :=
      [{ before := [' '], column := "a".toList, gap := [], op := .gt, space := [], quote := '\'',
         body := "O'Neil, 'it''s' = null''".toList, after := ['\n'] },
        { before := [], column := "a".toList, gap := [' '], op := .ne, space := ['\t'],
          quote := '"', body := [], after := [] },
        { before := [], column := "_b2".toList, gap := [], op := .eq, space := [], quote := '"',
          body := "null".toList, after := [] }]
    let s := (start {} "users".toList).run [.filter "a = 1, a = 2".toList]
    xs ≠ [] ∧ (∀ x ∈ xs, x.Sound) ∧
      Quotation.condition xs =
        " a>'O'Neil, 'it''s' = null'''\n,a !=\t\"\",_b2=\"null\"".toList ∧
      ((s.under .skip).apply (.filter (Quotation.condition xs))).1.bindings.map Binding.value =
        [.text "O'Neil, 'it''s' = null''".toList, .text [], .text "null".toList] := by
  intro xs s
  have hsound : ∀ x ∈ xs, x.Sound := by
    simp only [xs, List.forall_mem_cons, List.not_mem_nil, false_implies, implies_true, and_true]
    refine ⟨⟨?_, rfl, ?_, ?_, .inl rfl, by decide, ?_⟩, ⟨?_, rfl, ?_, ?_, .inr rfl, by decide, ?_⟩,
      ⟨?_, rfl, ?_, ?_, .inr rfl, by decide, ?_⟩⟩ <;> simp [IsSpace, Text.whiteSpace]
  obtain ⟨-, -, hbound⟩ := quoted_bound xs (by simp [xs]) hsound
  obtain ⟨-, -, new, hbindings, -, hvalues⟩ := hbound s .skip
  refine ⟨by simp [xs], hsound, by decide, ?_⟩
  have hkept : s.bindings.removeClause .filter = [] := by decide
  rw [hbindings, hkept, List.nil_append, hvalues]
  rfl

end Session

end FluentSql
