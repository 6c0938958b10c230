import FluentSql.Proofs.Condition.Splitting

namespace FluentSql.Condition

open Text (IsSpace isBlank Trimmed)

namespace Lead.Reads

variable {l : Lead} {s t u : Text}

/-- Only the first character after a lead can change how it is read. -/
theorem append_iff (ht : t ≠ []) : l.Reads (t ++ u) ↔ l.Reads t := by
  have hlength : 2 ≤ (l.op.token ++ (l.space ++ t)).length := by
    have htoken := List.length_pos_of_ne_nil l.op.token_chars.1
    have htext := List.length_pos_of_ne_nil ht
    simp only [List.length_append]
    omega
  have hop : l.op.Heads (l.op.token ++ (l.space ++ (t ++ u))) ↔
      l.op.Heads (l.op.token ++ (l.space ++ t)) := by
    rw [← List.append_assoc l.space, ← List.append_assoc l.op.token]
    exact Comparison.heads_append hlength
  constructor
  · exact fun h => ⟨h.before, h.column, h.longest, h.gap, hop.mp h.op, h.space⟩
  · exact fun h => ⟨h.before, h.column, h.longest, h.gap, hop.mpr h.op, h.space⟩

theorem setBefore (h : l.Reads t) (hs : IsSpace s) : Lead.Reads { l with before := s } t :=
  ⟨hs, h.column, h.longest, h.gap, h.op, h.space⟩

theorem comma_notMem (h : l.Reads t) : ',' ∉ l.text := by
  have hspace : (',' : Char).toNat ∉ Text.whiteSpace := by decide
  have hword : ',' ∉ l.column := by
    intro hm
    have hc := Text.isWord_chars h.column _ hm
    revert hc
    decide
  have htoken : ',' ∉ l.op.token := by
    intro hm
    have hc := l.op.token_chars.2.2 _ hm
    revert hc
    decide
  simp only [Lead.text, List.mem_append, not_or]
  exact ⟨fun hm => hspace (h.before _ hm), hword, fun hm => hspace (h.gap _ hm), htoken,
    fun hm => hspace (h.space _ hm)⟩

end Lead.Reads

/-- A piece as the fragment that it is cut into. -/
def Piece.fragment (p : Piece) : Fragment := ⟨p.text, false⟩

/-- A lead with a value after it is read as a predicate, unless the value is known to have opened a
quote that nothing closes. -/
theorem Piece.parse_fragment (p : Piece) (hlead : p.toLead.Reads p.value) (hafter : IsSpace p.after)
    (hne : p.value ≠ []) (htrim : Trimmed p.value) (unterminated : Bool) (n : Nat) :
    Fragment.parse n ⟨p.text, unterminated⟩ =
      if unterminated then .error (.unterminatedQuote (Text.trim p.text)) else .ok p.predicate := by
  let l : Lead := { p.toLead with before := [] }
  have hreads : l.Reads p.value := hlead.setBefore (by simp [IsSpace])
  have hhead : ∀ c ∈ (l.text ++ p.value).head?, isBlank c = false := by
    have hword := isBlank_head_word hreads.column (l.gap ++ (l.op.token ++ l.space) ++ p.value)
    simpa [Lead.text, l] using hword
  have htrimmed : Trimmed (l.text ++ p.value) := by
    refine ⟨fun c hc hm => ?_, ?_⟩
    · have hblank := hhead c hc
      rw [(Text.isBlank_iff c).mpr hm] at hblank
      cases hblank
    · rw [List.getLast?_append_of_ne_nil _ hne]
      exact htrim.last
  have hnonempty : l.text ++ p.value ≠ [] := by simp [hne]
  have hinner : Text.trim p.text = l.text ++ p.value := by
    have htext : p.text = p.before ++ (l.text ++ p.value ++ p.after) := by
      simp [Piece.text, Lead.text, l]
    rw [htext]
    exact Text.trim_space hlead.before hafter htrimmed hnonempty
  have hstart : Text.trimStart (l.text ++ p.value) = l.text ++ p.value :=
    Text.trimStart_space (s := []) (by simp [IsSpace]) hhead
  obtain ⟨hcolumn, hop, -⟩ := hreads.read fun c hc => Text.isBlank_false (htrim.head c hc)
  rw [hstart] at hcolumn
  have hvalue : Text.trim (l.space ++ p.value) = p.value := by
    have hnone : IsSpace [] := by simp [IsSpace]
    have hspace := Text.trim_space hreads.space hnone htrim hne
    rwa [List.append_nil] at hspace
  unfold Fragment.parse
  dsimp only
  rw [hinner]
  split
  · next hnil => exact absurd hnil hnonempty
  · next c cs hcons =>
    rw [← hcons, hcolumn]
    dsimp only
    rw [if_neg (by simpa using Text.isWord_ne_nil hreads.column), hop]
    dsimp only
    rw [hvalue, if_neg (by simpa using hne)]
    rfl

namespace Piece.Reads

variable {p : Piece} {rest : Text}

/-- A piece is cut off as a whole, commas in its quotes included. -/
theorem firstFragment (h : p.Reads rest) (hr : Stops rest) :
    firstFragment (p.text ++ rest) = (p.fragment, rest) := by
  obtain ⟨l, value, after⟩ := p
  obtain ⟨hlead, hvalue, hafter⟩ := h
  dsimp only at hlead hvalue hafter
  have htext : Piece.text ⟨l, value, after⟩ ++ rest = l.text ++ (value ++ (after ++ rest)) := by
    simp [Piece.text]
  rw [htext]
  unfold Condition.firstFragment
  dsimp only
  cases hvalue with
  | @quoted q body _ hq hends hfirst =>
    have hquote : l.Reads (q :: (body ++ [q] ++ (after ++ rest))) := hlead
    have hopen := hquote.openQuote? (isBlank_quote hq)
    rw [if_pos hq] at hopen
    have hclose : closeQuote? q (body ++ [q] ++ (after ++ rest)) =
        some (body ++ q :: after, rest) := by
      refine closeQuote?_eq_some_iff.mpr ⟨body, after, rfl, by simp, hafter, hr, fun u v hu => ?_⟩
      exact hfirst u v (by rw [← hu]; simp)
    rw [List.cons_append, List.cons_append, hopen]
    dsimp only
    rw [hclose]
    simp [Piece.fragment, Piece.text]
  | plain hne ht hcomma hquote =>
    have hopen : openQuote? (l.text ++ (value ++ (after ++ rest))) = none := by
      cases value with
      | nil => exact absurd rfl hne
      | cons c u =>
        have hc := hquote c rfl
        have hread := hlead.openQuote? (Text.isBlank_false (ht.head c rfl))
        rwa [if_neg (by simp [hc])] at hread
    have hall : ',' ∉ Piece.text ⟨l, value, after⟩ := by
      simp only [Piece.text, List.mem_append, not_or]
      exact ⟨hlead.comma_notMem, hcomma, fun hm => absurd (hafter _ hm) (by decide)⟩
    rw [hopen, ← htext, toComma_of_stops hall hr]
    rfl

/-- A piece is read as the predicate that it is. -/
theorem parse (h : p.Reads rest) (n : Nat) : p.fragment.parse n = .ok p.predicate := by
  have hne := h.value.ne_nil
  exact p.parse_fragment ((Lead.Reads.append_iff hne).mp h.lead) h.after hne h.value.trimmed false n

end Piece.Reads

/-- What is read as a predicate has a lead, a value and white space after it. -/
theorem Fragment.parse_ok {f : Fragment} {n : Nat} {r : Predicate} (h : f.parse n = .ok r) :
    f.unterminated = false ∧ ∃ p : Piece, p.text = f.text ∧ p.predicate = r ∧
      p.toLead.Reads p.value ∧ IsSpace p.after ∧ p.value ≠ [] ∧ Trimmed p.value := by
  obtain ⟨s, s', hs, hs', htext⟩ := Text.trim_append f.text
  have htrimmed := Text.trim_trimmed f.text
  unfold Fragment.parse at h
  split at h
  · simp at h
  · next c cs hcons =>
    rw [hcons] at htext htrimmed
    have hstart : Text.trimStart (c :: cs) = c :: cs :=
      Text.trimStart_space (s := []) (by simp [IsSpace]) fun d hd =>
        Text.isBlank_false (htrimmed.head d hd)
    dsimp only at h
    by_cases hcolumn : (splitColumn (c :: cs)).1 = []
    · simp [hcolumn] at h
    · rw [if_neg (by simpa using hcolumn)] at h
      split at h
      · simp at h
      · next op v hop =>
        rw [← hstart] at hcolumn hop
        obtain ⟨l, hl, hlop, hsplit, hreads⟩ := Lead.exists_reads hcolumn hop
        rw [hstart] at hl
        obtain ⟨u, hu, hvalue⟩ := Text.trimEnd_append (Text.trimStart v)
        split_ifs at h with hempty hquote
        obtain rfl := Except.ok.inj h
        have hne : Text.trim v ≠ [] := by simpa using hempty
        rw [← hvalue] at hreads hsplit
        let p : Piece := ⟨{ l with before := s ++ l.before }, Text.trim v, u ++ s'⟩
        have hptext : p.text = f.text := by
          rw [← htext, hsplit]
          simp [Piece.text, Lead.text, p, Text.trim]
        have hppredicate : p.predicate = ⟨(splitColumn (c :: cs)).1, op, Text.trim v⟩ := by
          rw [← hl, ← hlop]
          rfl
        have hpreads : p.toLead.Reads p.value :=
          ((Lead.Reads.append_iff hne).mp hreads).setBefore (hs.append hreads.before)
        exact ⟨by simpa using hquote, p, hptext, hppredicate, hpreads, hu.append hs', hne,
          Text.trim_trimmed v⟩

/-- A first fragment that is read as a predicate is a piece. -/
theorem firstFragment_reads {t : Text} {n : Nat} {r : Predicate}
    (h : (Condition.firstFragment t).1.parse n = .ok r) :
    ∃ p : Piece, (Condition.firstFragment t).1 = p.fragment ∧ p.predicate = r ∧
      p.Reads (Condition.firstFragment t).2 := by
  cases hopen : openQuote? t with
  | none =>
    obtain ⟨happend, hcomma, -⟩ := toComma_append t
    have hfirst : Condition.firstFragment t = (⟨(toComma t).1, false⟩, (toComma t).2) := by
      simp [Condition.firstFragment, hopen]
    rw [hfirst] at h ⊢
    dsimp only at h ⊢
    generalize (toComma t).1 = head, (toComma t).2 = rest at h happend hcomma ⊢
    obtain ⟨-, p, htext, hpredicate, hlead, hafter, hne, htrimmed⟩ := Fragment.parse_ok h
    dsimp only at htext
    subst htext
    have hreads : p.toLead.Reads (p.value ++ (p.after ++ rest)) :=
      (Lead.Reads.append_iff hne).mpr hlead
    refine ⟨p, rfl, hpredicate, hreads, .plain hne htrimmed (fun hm => ?_) (fun c hc => ?_), hafter⟩
    · exact hcomma (by simp [Piece.text, hm])
    · -- A quote here would have been seen when the text was cut.
      by_contra hquote
      obtain ⟨u, hu⟩ : ∃ u, p.value = c :: u := List.head?_eq_some_iff.mp hc
      have hwhole : t = p.toLead.text ++ c :: (u ++ (p.after ++ rest)) := by
        rw [← happend, Piece.text, hu]
        simp
      have hquoted : p.toLead.Reads (c :: (u ++ (p.after ++ rest))) := by
        simpa [hu] using hreads
      have hread := hquoted.openQuote? (Text.isBlank_false (htrimmed.head c hc))
      rw [← hwhole, hopen, if_pos] at hread
      · cases hread
      · tauto
  | some opened =>
    obtain ⟨before, q, body⟩ := opened
    obtain ⟨hq, l, rfl, rfl, hlead⟩ := openQuote?_eq_some hopen
    cases hclose : closeQuote? q body with
    | none =>
      have hunterminated :
          (Condition.firstFragment (l.text ++ q :: body)).1.unterminated = true := by
        simp [Condition.firstFragment, hopen, hclose]
      rw [(Fragment.parse_ok h).1] at hunterminated
      cases hunterminated
    | some closed =>
      obtain ⟨inner, rest⟩ := closed
      obtain ⟨inside, gap, rfl, rfl, hgap, hrest, hfirst⟩ := closeQuote?_eq_some_iff.mp hclose
      let p : Piece := ⟨l, q :: inside ++ [q], gap⟩
      have hvalue : IsValue p.value (p.after ++ rest) :=
        .quoted hq ⟨gap, rest, hgap, hrest, rfl⟩ hfirst
      have hreads : p.toLead.Reads (p.value ++ (p.after ++ rest)) := by
        simpa [p] using hlead
      have hpiece : p.Reads rest := ⟨hreads, hvalue, hgap⟩
      have hcut : Condition.firstFragment (l.text ++ q :: (inside ++ q :: (gap ++ rest))) =
          (p.fragment, rest) := by
        have hpcut := hpiece.firstFragment hrest
        simpa [Piece.text, p] using hpcut
      rw [hcut] at h ⊢
      exact ⟨p, rfl, Except.ok.inj ((hpiece.parse n).symm.trans h), hpiece⟩

theorem exists_piece {t rest : Text} {f : Fragment} {n : Nat} {r : Predicate}
    (hf : Condition.firstFragment t = (f, rest)) (h : f.parse n = .ok r) :
    ∃ p : Piece, t = p.text ++ rest ∧ p.Reads rest ∧ p.predicate = r := by
  have happend := (firstFragment_append t).1
  rw [hf] at happend
  have hreads := firstFragment_reads (t := t) (by rw [hf]; exact h)
  rw [hf] at hreads
  obtain ⟨p, rfl, hpredicate, hp⟩ := hreads
  exact ⟨p, happend.symm, hp, hpredicate⟩

/-- A piece can be told from its text, down to the white space. -/
theorem Piece.Reads.text_inj {p q : Piece} {rest rest' : Text} (hp : p.Reads rest)
    (hq : q.Reads rest') (ht : p.text = q.text) : p = q := by
  have hpredicate : p.predicate = q.predicate := by
    have hparse := hp.parse 0
    rw [Piece.fragment, ht] at hparse
    exact Except.ok.inj (hparse.symm.trans (hq.parse 0))
  obtain ⟨⟨before, column, gap, op, space⟩, value, after⟩ := p
  obtain ⟨⟨before', column', gap', op', space'⟩, value', after'⟩ := q
  obtain ⟨rfl, rfl, rfl⟩ : column = column' ∧ op = op' ∧ value = value' := by
    simpa [Piece.predicate] using hpredicate
  simp only [Piece.text, Lead.text, List.append_assoc] at ht
  obtain ⟨rfl, hcolumn⟩ := Text.space_append_inj hp.lead.before hq.lead.before
    (isBlank_head_word hp.lead.column _) (isBlank_head_word hq.lead.column _) ht
  obtain ⟨rfl, hop⟩ := Text.space_append_inj hp.lead.gap hq.lead.gap (isBlank_head_token op _)
    (isBlank_head_token op _) (List.append_cancel_left hcolumn)
  obtain ⟨rfl, hvalue⟩ := Text.space_append_inj hp.lead.space hq.lead.space
    (isBlank_head_value hp.value _) (isBlank_head_value hq.value _) (List.append_cancel_left hop)
  obtain rfl := List.append_cancel_left hvalue
  rfl

end FluentSql.Condition
