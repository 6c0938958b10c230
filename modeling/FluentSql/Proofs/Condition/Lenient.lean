import FluentSql.Proofs.Condition.Joining

namespace FluentSql.Condition

open Text (IsSpace)

/-- The fault as it is if the fragment comes a number of places later. -/
def Fault.moved (n : Nat) : Fault → Fault
  | emptyPredicate position => emptyPredicate (position + n)
  | fault => fault

def Skipped.moved (n : Nat) (k : Skipped) : Skipped := { k with fault := k.fault.moved n }

/-- A reading that goes on with another, after a number of fragments. -/
def Reading.followedBy (r : Reading) (n : Nat) (q : Reading) : Reading :=
  ⟨r.accepted ++ q.accepted, r.skipped ++ q.skipped.map (Skipped.moved n)⟩

/-- Nothing was skipped for a quote that nothing closes. -/
def Reading.Closed (r : Reading) : Prop := ∀ k ∈ r.skipped, ∀ t, k.fault ≠ .unterminatedQuote t

theorem Fragment.parse_moved (f : Fragment) (m n : Nat) :
    f.parse (m + n) = (f.parse m).mapError (Fault.moved n) := by
  unfold Fragment.parse
  split
  · rfl
  · dsimp only
    split
    · rfl
    · split
      · rfl
      · split_ifs <;> rfl

theorem readFrom_moved (m n : Nat) (fs : List Fragment) :
    readFrom (m + n) fs = Reading.followedBy ⟨[], []⟩ n (readFrom m fs) := by
  induction fs generalizing m with
  | nil => rfl
  | cons f fs ih =>
    have hnext : m + n + 1 = m + 1 + n := by omega
    rw [readFrom, readFrom, hnext, ih, f.parse_moved]
    cases f.parse m <;> rfl

theorem readFrom_append (n : Nat) (fs gs : List Fragment) :
    readFrom n (fs ++ gs) = (readFrom n fs).followedBy (n + fs.length) (readFrom 0 gs) := by
  induction fs generalizing n with
  | nil =>
    have hstart := readFrom_moved 0 n gs
    rwa [Nat.zero_add] at hstart
  | cons f fs ih =>
    have hnext : n + 1 + fs.length = n + (fs.length + 1) := by omega
    rw [List.cons_append, readFrom, readFrom, ih, hnext, List.length_cons]
    cases f.parse n <;> rfl

/-- Every fragment is either accepted or skipped. -/
theorem readFrom_count (n : Nat) (fs : List Fragment) :
    (readFrom n fs).accepted.length + (readFrom n fs).skipped.length = fs.length := by
  induction fs generalizing n with
  | nil => rfl
  | cons f fs ih =>
    have hrest := ih (n + 1)
    rw [readFrom]
    cases f.parse n <;> simp only [List.length_cons] <;> omega

theorem readFrom_skipped {n : Nat} {fs : List Fragment} {f : Fragment} {e : Fault} (hf : f ∈ fs)
    (h : ∀ n, f.parse n = .error e) : ⟨Text.trim f.text, e⟩ ∈ (readFrom n fs).skipped := by
  induction fs generalizing n with
  | nil => simp at hf
  | cons g fs ih =>
    rw [readFrom]
    rcases List.mem_cons.mp hf with rfl | hf
    · simp [h n]
    · cases g.parse n <;> simp [ih hf]

/-- A reading that skips no open quote comes of fragments that leave none open. -/
theorem Divides.closed {fs : List Fragment} (h : Divides t fs) (hr : (readFrom 0 fs).Closed) :
    ∀ f ∈ fs, f.unterminated = false := by
  intro f hf
  by_contra hopen
  rw [Bool.not_eq_false] at hopen
  exact hr _ (readFrom_skipped hf (h.unterminated hf hopen)) _ rfl

theorem parseLenient_eq_ok {t : Text} {r : Reading} :
    parseLenient t = .ok r ↔ ¬IsSpace t ∧ readFrom 0 (fragments t) = r := by
  rw [← isVoid_iff, parseLenient]
  split_ifs with h
  · simp [h]
  · simp [h]

theorem Divides.text_eq {t : Text} {f : Fragment} (h : Divides t [f]) : f.text = t := by
  cases h with
  | last hfirst =>
    have happend := (firstFragment_append t).1
    rwa [hfirst, List.append_nil] at happend
  | more _ hrest => cases hrest

theorem divides_space {t : Text} (h : IsSpace t) : Divides t [⟨t, false⟩] := by
  have hstart := Text.trimStart_eq_nil h
  have hcomma : ',' ∉ t := fun hm => absurd (h _ hm) (by decide)
  have hcut : toComma (t ++ []) = (t, []) := toComma_of_stops hcomma (by simp [Stops])
  rw [List.append_nil] at hcut
  refine .last ?_
  simp [firstFragment, openQuote?, hstart, splitColumn, hcut]

/-- Only a fragment of white space is read by its position. -/
theorem Fragment.parse_position {f : Fragment} (h : ¬IsSpace f.text) (m n : Nat) :
    f.parse m = f.parse n := by
  unfold Fragment.parse
  split
  · next hnil =>
    obtain ⟨s, s', hs, hs', htext⟩ := Text.trim_append f.text
    rw [hnil, List.append_nil] at htext
    exact absurd (htext ▸ hs.append hs') h
  · rfl

theorem Fragment.parse_space {f : Fragment} (h : IsSpace f.text) (n : Nat) :
    Text.trim f.text = [] ∧ f.parse n = .error (.emptyPredicate n) := by
  have htrim : Text.trim f.text = [] := by
    rw [Text.trim, Text.trimStart_eq_nil h]
    rfl
  refine ⟨htrim, ?_⟩
  unfold Fragment.parse
  rw [htrim]

/-- Texts that are each read on their own, from a position on: as one predicate, as one malformed
fragment that leaves no quote open, or as nothing. -/
inductive Listed : Nat → List Text → Reading → Prop
  | nil {n : Nat} : Listed n [] ⟨[], []⟩
  | predicate {n : Nat} {t : Text} {ts : List Text} {p : Predicate} {r : Reading} :
      parseLenient t = .ok ⟨[p], []⟩ → Listed (n + 1) ts r →
      Listed n (t :: ts) ⟨p :: r.accepted, r.skipped⟩
  | malformed {n : Nat} {t : Text} {ts : List Text} {k : Skipped} {r : Reading} :
      parseLenient t = .ok ⟨[], [k]⟩ → (∀ u, k.fault ≠ .unterminatedQuote u) →
      Listed (n + 1) ts r → Listed n (t :: ts) ⟨r.accepted, k :: r.skipped⟩
  | blank {n : Nat} {t : Text} {ts : List Text} {r : Reading} :
      IsSpace t → Listed (n + 1) ts r →
      Listed n (t :: ts) ⟨r.accepted, ⟨[], .emptyPredicate n⟩ :: r.skipped⟩

/-- A text with one fragment adds to every reading what it is read as alone. -/
theorem exists_fragment {t : Text} {r : Reading} (h : parseLenient t = .ok r) (hr : r.Closed)
    (hone : r.accepted.length + r.skipped.length = 1) :
    ∃ f : Fragment, (Divides t [f] ∧ f.unterminated = false) ∧
      ∀ n fs, readFrom n (f :: fs) = ⟨r.accepted ++ (readFrom (n + 1) fs).accepted,
        r.skipped ++ (readFrom (n + 1) fs).skipped⟩ := by
  obtain ⟨hspace, rfl⟩ := parseLenient_eq_ok.mp h
  rw [readFrom_count] at hone
  obtain ⟨f, hf⟩ := List.length_eq_one_iff.mp hone
  have hdivides := divides_fragments t
  rw [hf] at hr hdivides
  have htext : ¬IsSpace f.text := by rwa [hdivides.text_eq]
  refine ⟨f, ⟨hdivides, hdivides.closed hr f (by simp)⟩, fun n fs => ?_⟩
  rw [hf, readFrom, readFrom, Fragment.parse_position htext n 0]
  cases f.parse 0 <;> rfl

/-- What a listed text adds to the reading is the reading of a fragment of its own. -/
theorem Listed.exists_fragments {n : Nat} {ts : List Text} {r : Reading} (h : Listed n ts r) :
    ∃ fs, List.Forall₂ (fun t f => Divides t [f] ∧ f.unterminated = false) ts fs ∧
      readFrom n fs = r := by
  induction h with
  | nil => exact ⟨[], .nil, rfl⟩
  | predicate ht _ ih =>
    obtain ⟨fs, hfs, rfl⟩ := ih
    obtain ⟨f, hf, hadds⟩ := exists_fragment ht (by simp [Reading.Closed]) rfl
    exact ⟨f :: fs, .cons hf hfs, hadds _ fs⟩
  | malformed ht hk _ ih =>
    obtain ⟨fs, hfs, rfl⟩ := ih
    obtain ⟨f, hf, hadds⟩ := exists_fragment ht (by simpa [Reading.Closed] using hk) rfl
    exact ⟨f :: fs, .cons hf hfs, hadds _ fs⟩
  | @blank n t _ _ ht _ ih =>
    obtain ⟨fs, hfs, rfl⟩ := ih
    obtain ⟨htrim, hparse⟩ := Fragment.parse_space (f := ⟨t, false⟩) ht n
    refine ⟨⟨t, false⟩ :: fs, .cons ⟨divides_space ht, rfl⟩ hfs, ?_⟩
    rw [readFrom, htrim, hparse]

theorem divides_joinWith {ts : List Text} {fs : List Fragment}
    (h : List.Forall₂ (fun t f => Divides t [f] ∧ f.unterminated = false) ts fs) (hne : ts ≠ []) :
    Divides (Text.joinWith [','] ts) fs := by
  induction h with
  | nil => exact absurd rfl hne
  | @cons t f ts fs hf hfs ih =>
    cases hfs with
    | nil => exact hf.1
    | @cons u g us gs hg hgs =>
      have hjoin : Text.joinWith [','] (t :: u :: us) =
          t ++ ',' :: Text.joinWith [','] (u :: us) := by
        simp [Text.joinWith]
      rw [hjoin]
      exact hf.1.join (by simpa using hf.2) (ih (by simp))

/-- Two conditions with a comma between them are read like one and then the other, if the first
leaves no quote open. So in a list of texts each is read as it is read alone. -/
theorem lenient_joined :
    (∀ a b, ¬IsSpace a → ¬IsSpace b → ∃ r q, parseLenient a = .ok r ∧ parseLenient b = .ok q ∧
      (r.Closed → parseLenient (a ++ ',' :: b) = .ok (r.followedBy (fragments a).length q))) ∧
    ∀ ts r, Listed 0 ts r → ¬IsSpace (Text.joinWith [','] ts) →
      parseLenient (Text.joinWith [','] ts) = .ok r := by
  constructor
  · intro a b ha hb
    refine ⟨_, _, parseLenient_eq_ok.mpr ⟨ha, rfl⟩, parseLenient_eq_ok.mpr ⟨hb, rfl⟩, ?_⟩
    intro hclosed
    have hspace : ¬IsSpace (a ++ ',' :: b) := fun h => absurd (h ',' (by simp)) (by decide)
    have hjoin := (divides_fragments a).join ((divides_fragments a).closed hclosed)
      (divides_fragments b)
    rw [parseLenient_eq_ok, (divides_fragments _).unique hjoin, readFrom_append, Nat.zero_add]
    exact ⟨hspace, rfl⟩
  · intro ts r hlisted hspace
    obtain ⟨fs, hfs, rfl⟩ := hlisted.exists_fragments
    have hne : ts ≠ [] := by
      rintro rfl
      exact hspace (by simp [Text.joinWith, IsSpace])
    rw [parseLenient_eq_ok, (divides_fragments _).unique (divides_joinWith hfs hne)]
    exact ⟨hspace, rfl⟩

theorem lenient_joined_mixed :
    let a := "age >= 18,garbage".toList
    let b := ",city = 'Paris, France'".toList
    let r : Reading := ⟨[⟨"age".toList, .gte, "18".toList⟩],
      [⟨"garbage".toList, .missingOperator "garbage".toList⟩]⟩
    let ts := ["id = 1", "= 3", " ", "name = 'a,b'"].map String.toList
    (¬IsSpace a ∧ ¬IsSpace b ∧ parseLenient a = .ok r ∧ r.Closed ∧
      parseLenient (a ++ ',' :: b) = .ok
        ⟨r.accepted ++ [⟨"city".toList, .eq, "'Paris, France'".toList⟩],
          r.skipped ++ [⟨[], .emptyPredicate 2⟩]⟩) ∧
    ¬IsSpace (Text.joinWith [','] ts) ∧ parseLenient (Text.joinWith [','] ts) = .ok
      ⟨[⟨"id".toList, .eq, "1".toList⟩, ⟨"name".toList, .eq, "'a,b'".toList⟩],
        [⟨"= 3".toList, .missingColumn "= 3".toList⟩, ⟨[], .emptyPredicate 2⟩]⟩ := by
  intro a b r ts
  have ha : ¬IsSpace a := fun h => absurd (h 'a' (by decide)) (by decide)
  have hb : ¬IsSpace b := fun h => absurd (h 'c' (by decide)) (by decide)
  have hts : ¬IsSpace (Text.joinWith [','] ts) := fun h =>
    absurd (h 'i' (by decide)) (by decide)
  have hread : parseLenient a = .ok r := rfl
  have hclosed : r.Closed := by simp [Reading.Closed, r]
  refine ⟨⟨ha, hb, hread, hclosed, ?_⟩, hts, lenient_joined.2 ts _ ?_ hts⟩
  · obtain ⟨_, _, hr, hq, hjoined⟩ := lenient_joined.1 a b ha hb
    obtain rfl := Except.ok.inj (hread.symm.trans hr)
    obtain rfl := Except.ok.inj hq
    exact hjoined hclosed
  · have hspace : IsSpace [' '] := by simp [IsSpace, Text.whiteSpace]
    have hlast : Listed 3 ["name = 'a,b'".toList]
        ⟨[⟨"name".toList, .eq, "'a,b'".toList⟩], []⟩ := .predicate rfl .nil
    exact .predicate rfl (.malformed rfl (by simp) (.blank hspace hlast))

end FluentSql.Condition
