import FluentSql.Condition.Parse
import FluentSql.Proofs.Condition.Reading
import FluentSql.Proofs.Text.Blank

namespace FluentSql

namespace Comparison

/-- A comparison is the first in precedence whose token a text starts with. -/
def Heads (op : Comparison) (t : Text) : Prop :=
  (precedence.find? fun o => o.token <+: t) = some op

theorem read?_eq_some_iff {t r : Text} {op : Comparison} :
    read? t = some (op, r) ↔ op.Heads t ∧ t = op.token ++ r := by
  unfold read? Heads
  induction precedence with
  | nil => simp
  | cons o os ih =>
    cases ho : Text.after? o.token t with
    | some u =>
      obtain rfl := Text.after?_eq_some_iff.mp ho
      simp only [List.findSome?_cons, ho, Option.map_some, List.find?_cons, List.prefix_append,
        decide_true, Option.some.injEq, Prod.mk.injEq]
      constructor
      · rintro ⟨rfl, rfl⟩
        exact ⟨rfl, rfl⟩
      · rintro ⟨rfl, he⟩
        exact ⟨rfl, List.append_cancel_left he⟩
    | none =>
      have hprefix : ¬o.token <+: t := by
        rintro ⟨u, hu⟩
        rw [Text.after?_eq_some_iff.mpr hu.symm] at ho
        cases ho
      simpa [List.findSome?_cons, ho, List.find?_cons, hprefix] using ih

theorem token_chars (op : Comparison) :
    op.token ≠ [] ∧ op.token.length ≤ 2 ∧ ∀ c ∈ op.token, c ∈ ['!', '=', '<', '>'] := by
  have hall : op.token.all ['!', '=', '<', '>'].contains = true := by cases op <;> rfl
  refine ⟨by cases op <;> simp [Comparison.token], by cases op <;> simp [Comparison.token],
    fun c hc => ?_⟩
  exact List.contains_iff_mem.mp (List.all_eq_true.mp hall c hc)

/-- No token is longer than two characters, so no comparison looks further than that. -/
theorem heads_append {op : Comparison} {t u : Text} (h : 2 ≤ t.length) :
    op.Heads (t ++ u) ↔ op.Heads t := by
  have hprefix (o : Comparison) : o.token <+: t ++ u ↔ o.token <+: t := by
    constructor
    · intro ho
      have hlength := o.token_chars.2.1
      exact List.prefix_of_prefix_length_le ho (List.prefix_append t u) (by omega)
    · exact fun ho => ho.trans (List.prefix_append t u)
  simp only [Heads, hprefix]

end Comparison

namespace Condition

open Text (IsSpace isBlank Trimmed)

/-- What stands before the value of a predicate. -/
structure Lead where
  before : Text
  column : Text
  gap : Text
  op : Comparison
  space : Text

/-- A predicate as it is written, with the white space around its parts. -/
structure Piece extends Lead where
  value : Text
  after : Text

def Lead.text (l : Lead) : Text := l.before ++ (l.column ++ (l.gap ++ (l.op.token ++ l.space)))

def Piece.text (p : Piece) : Text := p.toLead.text ++ (p.value ++ p.after)

def Piece.predicate (p : Piece) : Predicate := ⟨p.column, p.op, p.value⟩

/-- A predicate ends at a comma or with the text. -/
def Stops (t : Text) : Prop := ∀ c ∈ t.head?, c = ','

/-- A quote closes a value if only white space comes between it and the end of the predicate. -/
def Ends (t : Text) : Prop := ∃ gap rest, IsSpace gap ∧ Stops rest ∧ t = gap ++ rest

/-- A value, given all the text after it. In quotes it ends with the first quote that can close it;
without them it holds no comma. -/
inductive IsValue : Text → Text → Prop
  | quoted {q : Char} {body rest : Text} : q = '\'' ∨ q = '"' → Ends rest →
      (∀ u v, body ++ q :: rest = u ++ q :: v → u.length < body.length → ¬Ends v) →
      IsValue (q :: body ++ [q]) rest
  | plain {t rest : Text} : t ≠ [] → Trimmed t → ',' ∉ t → (∀ c ∈ t.head?, c ≠ '\'' ∧ c ≠ '"') →
      IsValue t rest

/-- A lead is one before the given text: nothing else can be taken for its column or comparison. -/
structure Lead.Reads (l : Lead) (t : Text) : Prop where
  before : IsSpace l.before
  column : Text.isWord l.column = true
  longest : ∀ c ∈ (l.gap ++ l.op.token).head?, isColumnChar c = false
  gap : IsSpace l.gap
  op : l.op.Heads (l.op.token ++ (l.space ++ t))
  space : IsSpace l.space

structure Piece.Reads (p : Piece) (rest : Text) : Prop where
  lead : p.toLead.Reads (p.value ++ (p.after ++ rest))
  value : IsValue p.value (p.after ++ rest)
  after : IsSpace p.after

/-- A condition is pieces with commas between them. -/
inductive Splits : Text → List Piece → Prop
  | last {p : Piece} : p.Reads [] → Splits p.text [p]
  | more {p : Piece} {t : Text} {ps : List Piece} : p.Reads (',' :: t) → Splits t ps →
      Splits (p.text ++ ',' :: t) (p :: ps)

theorem splitColumn_append {w t : Text} (hw : Text.isWord w = true)
    (ht : ∀ c ∈ t.head?, isColumnChar c = false) : splitColumn (w ++ t) = (w, t) := by
  cases w with
  | nil => simp [Text.isWord] at hw
  | cons c w =>
    simp only [Text.isWord, Bool.and_eq_true, List.all_eq_true] at hw
    obtain ⟨hc, hrest⟩ := hw
    have hstart : isColumnStart c = true := hc
    have hchars : ∀ d ∈ w, isColumnChar d = true := hrest
    rw [List.cons_append, splitColumn, if_pos hstart, Text.takeWhile_span hchars ht,
      Text.dropWhile_span hchars ht]

theorem splitColumn_eq (t : Text) : (splitColumn t).1 ++ (splitColumn t).2 = t ∧
    ((splitColumn t).1 ≠ [] → ∀ c ∈ (splitColumn t).2.head?, isColumnChar c = false) := by
  cases t with
  | nil => simp [splitColumn]
  | cons c t =>
    rw [splitColumn]
    split_ifs
    · exact ⟨by simp [List.takeWhile_append_dropWhile],
        fun _ => Text.head_dropWhile isColumnChar t⟩
    · simp

theorem isBlank_token (op : Comparison) : ∀ c ∈ op.token, isBlank c = false := by
  have hall : op.token.all (fun c => !isBlank c) = true := by cases op <;> rfl
  intro c hc
  simpa using List.all_eq_true.mp hall c hc

theorem isBlank_head_word {w : Text} (hw : Text.isWord w = true) (t : Text) :
    ∀ c ∈ (w ++ t).head?, isBlank c = false := by
  rw [List.head?_append_of_ne_nil w (Text.isWord_ne_nil hw)]
  exact fun c hc => Text.isBlank_word hw c (List.mem_of_mem_head? hc)

theorem isBlank_head_token (op : Comparison) (t : Text) :
    ∀ c ∈ (op.token ++ t).head?, isBlank c = false := by
  rw [List.head?_append_of_ne_nil _ op.token_chars.1]
  exact fun c hc => isBlank_token op c (List.mem_of_mem_head? hc)

namespace Lead

variable {l : Lead} {t : Text} {c : Char}

/-- A lead is read back part by part. -/
theorem Reads.read (h : l.Reads t) (ht : ∀ c ∈ t.head?, isBlank c = false) :
    splitColumn (Text.trimStart (l.text ++ t)) =
        (l.column, l.gap ++ (l.op.token ++ (l.space ++ t))) ∧
      Comparison.read? (Text.trimStart (l.gap ++ (l.op.token ++ (l.space ++ t)))) =
        some (l.op, l.space ++ t) ∧
      Text.trimStart (l.space ++ t) = t := by
  have htext : l.text ++ t =
      l.before ++ (l.column ++ (l.gap ++ (l.op.token ++ (l.space ++ t)))) := by
    simp [Lead.text]
  refine ⟨?_, ?_, Text.trimStart_space h.space ht⟩
  · rw [htext, Text.trimStart_space h.before (isBlank_head_word h.column _)]
    refine splitColumn_append h.column ?_
    have hhead := h.longest
    rw [← List.append_assoc, List.head?_append_of_ne_nil]
    · exact hhead
    · simp [l.op.token_chars.1]
  · rw [Text.trimStart_space h.gap (isBlank_head_token l.op _)]
    exact Comparison.read?_eq_some_iff.mpr ⟨h.op, rfl⟩

/-- Whatever is read as a column and a comparison is a lead. -/
theorem exists_reads {op : Comparison} {v : Text}
    (hc : (splitColumn (Text.trimStart t)).1 ≠ [])
    (ho : Comparison.read? (Text.trimStart (splitColumn (Text.trimStart t)).2) = some (op, v)) :
    ∃ l : Lead, l.column = (splitColumn (Text.trimStart t)).1 ∧ l.op = op ∧
      t = l.text ++ Text.trimStart v ∧ l.Reads (Text.trimStart v) := by
  obtain ⟨hsplit, hlongest⟩ := splitColumn_eq (Text.trimStart t)
  have hword := splitColumn_word hc
  have hlongest := hlongest hc
  generalize (splitColumn (Text.trimStart t)).1 = column at hsplit hword ⊢
  generalize (splitColumn (Text.trimStart t)).2 = rest at ho hsplit hlongest
  obtain ⟨hop, hrest⟩ := Comparison.read?_eq_some_iff.mp ho
  have hgap := Text.takeWhile_trimStart rest
  have hspace := Text.takeWhile_trimStart v
  let l : Lead := ⟨t.takeWhile isBlank, column, rest.takeWhile isBlank, op, v.takeWhile isBlank⟩
  have hlead : l.gap ++ (l.op.token ++ (l.space ++ Text.trimStart v)) = rest := by
    change rest.takeWhile isBlank ++ (op.token ++ (v.takeWhile isBlank ++ Text.trimStart v)) = rest
    rw [hspace, ← hrest, hgap]
  refine ⟨l, rfl, rfl, ?_, ⟨Text.isSpace_takeWhile t, hword, ?_, Text.isSpace_takeWhile rest, ?_,
    Text.isSpace_takeWhile v⟩⟩
  · have hbefore := Text.takeWhile_trimStart t
    rw [← hsplit, ← hlead] at hbefore
    rw [← hbefore]
    simp [Lead.text, l]
  · rw [← hlead, ← List.append_assoc, List.head?_append_of_ne_nil] at hlongest
    · exact hlongest
    · simp [op.token_chars.1, l]
  · change op.Heads (op.token ++ (v.takeWhile isBlank ++ Text.trimStart v))
    rwa [hspace, ← hrest]

end Lead

end Condition

end FluentSql
