import FluentSql.Proofs.Condition.Grammar

namespace FluentSql.Condition

open Text (IsSpace isBlank Trimmed)

theorem Stops.head {t : Text} (h : Stops t) : ∀ c ∈ t.head?, isBlank c = false := by
  intro c hc
  rw [h c hc]
  decide

theorem endsValue_iff (t : Text) : endsValue t = true ↔ Ends t := by
  unfold endsValue
  constructor
  · intro h
    refine ⟨t.takeWhile isBlank, Text.trimStart t, Text.isSpace_takeWhile t, ?_,
      (Text.takeWhile_trimStart t).symm⟩
    intro c hc
    cases ht : Text.trimStart t with
    | nil => simp [ht] at hc
    | cons d u =>
      simp only [ht, beq_iff_eq] at h
      obtain rfl : d = c := by simpa [ht] using hc
      exact h
  · rintro ⟨gap, rest, hgap, hrest, rfl⟩
    rw [Text.trimStart_space hgap hrest.head]
    cases rest with
    | nil => rfl
    | cons c u => simpa using hrest c rfl

/-- The quote that closes a value is the first that can. -/
theorem closeQuote?_eq_some_iff {q : Char} {t inner rest : Text} :
    closeQuote? q t = some (inner, rest) ↔ ∃ body gap, inner = body ++ q :: gap ∧
      t = body ++ q :: (gap ++ rest) ∧ IsSpace gap ∧ Stops rest ∧
      ∀ u v, t = u ++ q :: v → u.length < body.length → ¬Ends v := by
  induction t generalizing inner with
  | nil => simp [closeQuote?]
  | cons c t ih =>
    rw [closeQuote?]
    by_cases hends : c = q ∧ Ends t
    · obtain ⟨rfl, hends⟩ := hends
      rw [if_pos (by simpa using (endsValue_iff t).mpr hends)]
      obtain ⟨gap, rest', hgap, hrest', rfl⟩ := hends
      rw [Text.takeWhile_space hgap hrest'.head, Text.trimStart_space hgap hrest'.head]
      constructor
      · intro h
        obtain ⟨rfl, rfl⟩ := Prod.mk.inj (Option.some.inj h)
        exact ⟨[], gap, rfl, rfl, hgap, hrest', fun u v _ hu => absurd hu (Nat.not_lt_zero _)⟩
      · rintro ⟨body, gap', rfl, ht, hgap', hrest, hfirst⟩
        cases body with
        | nil =>
          obtain ⟨rfl, rfl⟩ := Text.space_append_inj hgap hgap' hrest'.head hrest.head
            (List.cons.inj ht).2
          rfl
        | cons d body =>
          exact absurd ⟨gap, rest', hgap, hrest', rfl⟩ (hfirst [] _ rfl (Nat.zero_lt_succ _))
    · rw [if_neg (by simpa [endsValue_iff] using hends), Option.map_eq_some_iff]
      constructor
      · rintro ⟨⟨inner', rest'⟩, hclose, h⟩
        obtain ⟨rfl, rfl⟩ := Prod.mk.inj h
        obtain ⟨body, gap, rfl, rfl, hgap, hrest, hfirst⟩ := ih.mp hclose
        refine ⟨c :: body, gap, rfl, rfl, hgap, hrest, fun u v ht hu => ?_⟩
        cases u with
        | nil =>
          obtain ⟨rfl, rfl⟩ := List.cons.inj ht
          exact fun he => hends ⟨rfl, he⟩
        | cons d u => exact hfirst u v (List.cons.inj ht).2 (Nat.lt_of_succ_lt_succ hu)
      · rintro ⟨body, gap, rfl, ht, hgap, hrest, hfirst⟩
        cases body with
        | nil =>
          obtain ⟨rfl, rfl⟩ := List.cons.inj ht
          exact absurd ⟨rfl, gap, rest, hgap, hrest, rfl⟩ hends
        | cons d body =>
          obtain ⟨rfl, htail⟩ := List.cons.inj ht
          refine ⟨(body ++ q :: gap, rest), ih.mpr ⟨body, gap, rfl, htail, hgap, hrest, ?_⟩, rfl⟩
          intro u v hu hlt
          exact hfirst (c :: u) v (by rw [hu]; rfl) (Nat.succ_lt_succ hlt)

theorem isBlank_quote {q : Char} (h : q = '\'' ∨ q = '"') : isBlank q = false := by
  rcases h with rfl | rfl <;> decide

theorem IsValue.ne_nil {t rest : Text} (h : IsValue t rest) : t ≠ [] := by
  cases h with
  | quoted => simp
  | plain hne => exact hne

theorem IsValue.trimmed {t rest : Text} (h : IsValue t rest) : Trimmed t := by
  cases h with
  | @quoted q body _ hq =>
    have hspace : q.toNat ∉ Text.whiteSpace := by
      rw [← Text.isBlank_iff, isBlank_quote hq]
      simp
    constructor
    · intro c hc
      obtain rfl : q = c := by simpa using hc
      exact hspace
    · intro c hc
      rw [List.getLast?_concat] at hc
      obtain rfl : q = c := by simpa using hc
      exact hspace
  | plain _ ht => exact ht

theorem isBlank_head_value {t rest : Text} (h : IsValue t rest) (u : Text) :
    ∀ c ∈ (t ++ u).head?, isBlank c = false := by
  rw [List.head?_append_of_ne_nil t h.ne_nil]
  exact fun c hc => Text.isBlank_false (h.trimmed.head c hc)

/-- Behind a lead stands the quote that opens a value, or there is none. -/
theorem Lead.Reads.openQuote? {l : Lead} {c : Char} {t : Text} (h : l.Reads (c :: t))
    (hc : isBlank c = false) : openQuote? (l.text ++ c :: t) =
      if c = '\'' ∨ c = '"' then some (l.text, c, t) else none := by
  have hhead : ∀ d ∈ (c :: t).head?, isBlank d = false := by
    rintro d ⟨⟩
    exact hc
  obtain ⟨hcolumn, hop, hspace⟩ := h.read hhead
  have htake : (l.text ++ c :: t).take ((l.text ++ c :: t).length - (t.length + 1)) = l.text := by
    simp
  unfold Condition.openQuote?
  simp only [hcolumn, hop, hspace, htake, Bool.or_eq_true, decide_eq_true_eq]
  rw [if_neg (by simpa using Text.isWord_ne_nil h.column)]

theorem openQuote?_eq_some {t before body : Text} {q : Char}
    (h : openQuote? t = some (before, q, body)) : (q = '\'' ∨ q = '"') ∧
      ∃ l : Lead, before = l.text ∧ t = l.text ++ q :: body ∧ l.Reads (q :: body) := by
  unfold openQuote? at h
  dsimp only at h
  by_cases hcolumn : (splitColumn (Text.trimStart t)).1 = []
  · simp [hcolumn] at h
  · rw [if_neg (by simpa using hcolumn)] at h
    split at h
    · simp at h
    · next op v hop =>
      obtain ⟨l, -, -, ht, hreads⟩ := Lead.exists_reads hcolumn hop
      split at h
      · simp at h
      · next d u hv =>
        rw [hv] at ht hreads
        split_ifs at h with hd
        obtain ⟨rfl, rfl, rfl⟩ : _ = before ∧ d = q ∧ u = body := by simpa using h
        refine ⟨by simpa using hd, l, ?_, ht, hreads⟩
        rw [ht]
        simp

theorem toComma_append (t : Text) : (toComma t).1 ++ (toComma t).2 = t ∧ ',' ∉ (toComma t).1 ∧
    Stops (toComma t).2 := by
  refine ⟨List.takeWhile_append_dropWhile, ?_, ?_⟩
  · intro hm
    have hc := List.mem_takeWhile_imp hm
    simp at hc
  · intro c hc
    have hcomma := Text.head_dropWhile (fun d => d != ',') t c hc
    simpa using hcomma

theorem toComma_of_stops {t rest : Text} (ht : ',' ∉ t) (hr : Stops rest) :
    toComma (t ++ rest) = (t, rest) := by
  have hall : ∀ c ∈ t, (c != ',') = true := by
    intro c hc
    have hne : c ≠ ',' := fun he => ht (he ▸ hc)
    simpa using hne
  have hstop : ∀ c ∈ rest.head?, (c != ',') = false := fun c hc => by simp [hr c hc]
  rw [toComma, Text.takeWhile_span hall hstop, Text.dropWhile_span hall hstop]

/-- A fragment is cut off at a comma, or it is the rest of the text. -/
theorem firstFragment_append (t : Text) :
    (firstFragment t).1.text ++ (firstFragment t).2 = t ∧ Stops (firstFragment t).2 := by
  obtain ⟨happend, _, hstops⟩ := toComma_append t
  unfold firstFragment
  dsimp only
  split
  · exact ⟨happend, hstops⟩
  · next before q body hopen =>
    obtain ⟨_, l, rfl, ht, _⟩ := openQuote?_eq_some hopen
    split
    · next inner rest hclose =>
      obtain ⟨u, gap, rfl, rfl, _, hrest, _⟩ := closeQuote?_eq_some_iff.mp hclose
      exact ⟨by rw [ht]; simp, hrest⟩
    · exact ⟨happend, hstops⟩

end FluentSql.Condition
