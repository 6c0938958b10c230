import FluentSql.Proofs.Condition.Lenient
import Mathlib.Data.List.Forall2
import Mathlib.Data.List.Infix

namespace FluentSql.Condition

open Text (IsSpace isBlank)

/-- Text that can stand in quotes: none of them in it has a comma behind it, with or without white
space between the two. -/
def Quotable (q : Char) (body : Text) : Prop :=
  ∀ u gap v, IsSpace gap → body ≠ u ++ q :: (gap ++ ',' :: v)

variable {t rest rest' : Text} {p : Piece}

/-- Before a quote, a value can only end at a comma. -/
theorem ends_quote_iff {q : Char} (hq : q = '\'' ∨ q = '"') (t rest : Text) :
    Ends (t ++ q :: rest) ↔ ∃ gap v, IsSpace gap ∧ t = gap ++ ',' :: v := by
  have hstart : Text.trimStart (t ++ q :: rest) = Text.trimStart t ++ q :: rest :=
    Text.dropWhile_stop (isBlank_quote hq) t rest
  have hcomma : (q == ',') = false := by rcases hq with rfl | rfl <;> decide
  rw [← endsValue_iff, endsValue, hstart]
  constructor
  · intro h
    refine ⟨t.takeWhile isBlank, (Text.trimStart t).tail, Text.isSpace_takeWhile t, ?_⟩
    cases hd : Text.trimStart t with
    | nil => simp [hd, hcomma] at h
    | cons d u =>
      obtain rfl : d = ',' := by simpa [hd] using h
      rw [List.tail_cons, ← hd, Text.takeWhile_trimStart]
  · rintro ⟨gap, v, hgap, rfl⟩
    rw [Text.trimStart_space hgap (by simp [isBlank])]
    rfl

/-- Whether the quotes around a text close where they should does not depend on what follows. -/
theorem quotable_iff {q : Char} (hq : q = '\'' ∨ q = '"') (body rest : Text) :
    Quotable q body ↔
      ∀ u v, body ++ q :: rest = u ++ q :: v → u.length < body.length → ¬Ends v := by
  constructor
  · intro h u v hsplit hlt hends
    rcases List.append_eq_append_iff.mp hsplit with ⟨a, rfl, -⟩ | ⟨a, rfl, ha⟩
    · rw [List.length_append] at hlt
      omega
    · cases a with
      | nil => simp at hlt
      | cons d a =>
        obtain ⟨rfl, rfl⟩ := List.cons.inj ha
        obtain ⟨gap, v, hgap, rfl⟩ := (ends_quote_iff hq a rest).mp hends
        exact h u gap v hgap rfl
  · rintro h u gap v hgap rfl
    refine h u (gap ++ ',' :: v ++ q :: rest) (by simp) (by simp) ?_
    exact (ends_quote_iff hq _ rest).mpr ⟨gap, v, hgap, rfl⟩

theorem quotable_iff_tails {q : Char} {body : Text} : Quotable q body ↔
    ∀ t ∈ body.tails, t.head? = some q → (Text.trimStart t.tail).head? ≠ some ',' := by
  simp only [List.mem_tails]
  constructor
  · rintro h t ⟨u, rfl⟩ hq hcomma
    obtain ⟨v, rfl⟩ := List.head?_eq_some_iff.mp hq
    obtain ⟨w, hw⟩ := List.head?_eq_some_iff.mp hcomma
    refine h u (v.takeWhile isBlank) w (Text.isSpace_takeWhile v) ?_
    rw [← hw, List.tail_cons, Text.takeWhile_trimStart]
  · rintro h u gap v hgap rfl
    refine h _ (List.suffix_append u _) rfl ?_
    rw [List.tail_cons, Text.trimStart_space hgap (by simp [isBlank])]
    rfl

instance (q : Char) (body : Text) : Decidable (Quotable q body) :=
  decidable_of_iff _ quotable_iff_tails.symm

/-- A piece stays what it is whatever other piece comes next. -/
theorem Piece.Reads.beside (h : p.Reads rest) (hr : Stops rest') : p.Reads rest' := by
  obtain ⟨l, value, after⟩ := p
  obtain ⟨hlead, hvalue, hafter⟩ := h
  dsimp only at hlead hvalue hafter
  have hreads : l.Reads (value ++ (after ++ rest')) :=
    (Lead.Reads.append_iff hvalue.ne_nil).mpr ((Lead.Reads.append_iff hvalue.ne_nil).mp hlead)
  refine ⟨hreads, ?_, hafter⟩
  cases hvalue with
  | quoted hq _ hfirst =>
    exact .quoted hq ⟨after, rest', hafter, hr, rfl⟩
      ((quotable_iff hq _ _).mp ((quotable_iff hq _ _).mpr hfirst))
  | plain hne ht hcomma hquote => exact .plain hne ht hcomma hquote

/-- What a reading comes to if nothing may be skipped. -/
def Reading.strict (r : Reading) : Except Fault (List Predicate) :=
  match r.skipped with
  | [] => .ok r.accepted
  | k :: _ => .error k.fault

theorem parseFrom_eq (n : Nat) (fs : List Fragment) : parseFrom n fs = (readFrom n fs).strict := by
  induction fs generalizing n with
  | nil => rfl
  | cons f fs ih =>
    rw [parseFrom, readFrom, ih]
    cases f.parse n with
    | error e => rfl
    | ok p =>
      dsimp only [Reading.strict]
      cases (readFrom (n + 1) fs).skipped <;> rfl

/-- To read strictly is to read leniently and to fail with the first fragment that was skipped. -/
theorem parse_eq (t : Text) : parse t = parseLenient t >>= Reading.strict := by
  unfold parse parseLenient
  split_ifs
  · rfl
  · exact parseFrom_eq 0 _

theorem parse_ok_iff {ps : List Predicate} : parse t = .ok ps ↔ parseLenient t = .ok ⟨ps, []⟩ := by
  rw [parse_eq]
  cases parseLenient t with
  | error e => simp [bind, Except.bind]
  | ok r =>
    obtain ⟨accepted, skipped⟩ := r
    cases skipped <;> simp [bind, Except.bind, Reading.strict]

theorem parse_error_iff {e : Fault} : parse t = .error e ↔ parseLenient t = .error e ∨
    ∃ r k ks, parseLenient t = .ok r ∧ r.skipped = k :: ks ∧ k.fault = e := by
  rw [parse_eq]
  cases parseLenient t with
  | error e => simp [bind, Except.bind]
  | ok r =>
    obtain ⟨accepted, skipped⟩ := r
    cases skipped <;> simp [bind, Except.bind, Reading.strict]

theorem parseLenient_error_iff {e : Fault} :
    parseLenient t = .error e ↔ IsSpace t ∧ e = .empty := by
  rw [← isVoid_iff, parseLenient]
  split_ifs with h
  · simp [h, eq_comm]
  · simp [h]

/-- Whether a fragment is read as a predicate, which does not depend on its position. -/
def Fragment.isAccepted (f : Fragment) : Bool := (f.parse 0).toBool

/-- The fragments of a condition that are read, without the others. -/
def acceptedPart (t : Text) : Text :=
  Text.joinWith [','] (((fragments t).filter Fragment.isAccepted).map Fragment.text)

/-- Fragments that are read are read alike without those that are skipped. -/
theorem readFrom_accepted (m n : Nat) (fs : List Fragment) :
    readFrom m (fs.filter Fragment.isAccepted) = ⟨(readFrom n fs).accepted, []⟩ := by
  induction fs generalizing m n with
  | nil => rfl
  | cons f fs ih =>
    have hmoved (k : Nat) : f.parse k = (f.parse 0).mapError (Fault.moved k) := by
      rw [← f.parse_moved, Nat.zero_add]
    rw [readFrom, hmoved n]
    cases hf : f.parse 0 with
    | error e =>
      have hnot : ¬f.isAccepted = true := by simp [Fragment.isAccepted, hf, Except.toBool]
      rw [List.filter_cons_of_neg hnot, ih m (n + 1)]
      rfl
    | ok q =>
      have his : f.isAccepted = true := by simp [Fragment.isAccepted, hf, Except.toBool]
      rw [List.filter_cons_of_pos his, readFrom, hmoved m, hf, ih (m + 1) (n + 1)]
      rfl

theorem Fragment.parse_of_isAccepted {f : Fragment} (h : f.isAccepted = true) :
    ∃ q, f.parse 0 = .ok q := by
  unfold Fragment.isAccepted at h
  cases hf : f.parse 0 with
  | error e => simp [hf, Except.toBool] at h
  | ok q => exact ⟨q, rfl⟩

/-- A fragment that is read is cut off alike if it stands alone. -/
theorem Divides.accepted_alone {fs : List Fragment} (h : Divides t fs) {f : Fragment} (hf : f ∈ fs)
    (ha : f.isAccepted = true) : Divides f.text [f] ∧ f.unterminated = false := by
  obtain ⟨q, hq⟩ := Fragment.parse_of_isAccepted ha
  obtain ⟨u, rest, hfirst⟩ := h.exists_first hf
  have hreads := firstFragment_reads (t := u) (by rw [hfirst]; exact hq)
  rw [hfirst] at hreads
  obtain ⟨p, rfl, -, hp⟩ := hreads
  have hlast : Splits p.text [p] := .last (hp.beside (by simp [Stops]))
  exact ⟨hlast.divides, rfl⟩

/-- The accepted part of a condition is read strictly as what the condition is read as leniently. -/
theorem parse_acceptedPart {r : Reading} (h : parseLenient t = .ok r) (hr : r.accepted ≠ []) :
    parse (acceptedPart t) = .ok r.accepted := by
  obtain ⟨-, rfl⟩ := parseLenient_eq_ok.mp h
  have hread := readFrom_accepted 0 0 (fragments t)
  have hall : ∀ f ∈ (fragments t).filter Fragment.isAccepted,
      Divides f.text [f] ∧ f.unterminated = false := fun f hf =>
    (divides_fragments t).accepted_alone (List.mem_filter.mp hf).1 (List.mem_filter.mp hf).2
  rw [acceptedPart]
  generalize (fragments t).filter Fragment.isAccepted = fs at hread hall
  have hne : fs ≠ [] := by
    rintro rfl
    exact hr (congrArg Reading.accepted hread).symm
  have hdivides : Divides (Text.joinWith [','] (fs.map Fragment.text)) fs := by
    refine divides_joinWith ?_ (by simpa using hne)
    rw [List.forall₂_map_left_iff, List.forall₂_same]
    exact hall
  have hspace : ¬IsSpace (Text.joinWith [','] (fs.map Fragment.text)) := by
    intro hspace
    -- White space would be one fragment, and that is not read.
    have hone := hdivides.unique (divides_space hspace)
    obtain ⟨-, hparse⟩ := Fragment.parse_space (f := ⟨_, false⟩) hspace 0
    rw [hone, readFrom, hparse] at hread
    exact hr (congrArg Reading.accepted hread).symm
  rw [parse, if_neg fun hv => hspace ((isVoid_iff _).mp hv),
    (divides_fragments _).unique hdivides, parseFrom_eq, hread]
  rfl

end FluentSql.Condition
