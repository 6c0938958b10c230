import FluentSql.Proofs.Condition.Parsing

namespace FluentSql.Condition

open Text (IsSpace isBlank)

variable {t u rest : Text}

theorem trimStart_comma (t u : Text) :
    Text.trimStart (t ++ ',' :: u) = Text.trimStart t ++ ',' :: u :=
  Text.dropWhile_stop (by decide) t u

theorem splitColumn_comma (t u : Text) :
    splitColumn (t ++ ',' :: u) = ((splitColumn t).1, (splitColumn t).2 ++ ',' :: u) := by
  cases t with
  | nil => rfl
  | cons c t =>
    have hcomma : isColumnChar ',' = false := by decide
    rw [List.cons_append, splitColumn, splitColumn]
    split_ifs
    · rw [Text.takeWhile_stop hcomma, Text.dropWhile_stop hcomma]
    · rfl

theorem read?_comma (t u : Text) : Comparison.read? (t ++ ',' :: u) =
    (Comparison.read? t).map fun r => (r.1, r.2 ++ ',' :: u) := by
  have hafter (o : Comparison) : Text.after? o.token (t ++ ',' :: u) =
      (Text.after? o.token t).map (· ++ ',' :: u) := by
    refine Text.after?_stop (fun hm => ?_) t u
    have hc := o.token_chars.2.2 _ hm
    revert hc
    decide
  unfold Comparison.read?
  induction Comparison.precedence with
  | nil => rfl
  | cons o os ih =>
    rw [List.findSome?_cons, List.findSome?_cons, hafter, ih]
    cases Text.after? o.token t <;> rfl

/-- Where a value opens a quote is decided before the first comma. -/
theorem openQuote?_comma (t u : Text) : openQuote? (t ++ ',' :: u) =
    (openQuote? t).map fun r => (r.1, r.2.1, r.2.2 ++ ',' :: u) := by
  unfold openQuote?
  rw [trimStart_comma, splitColumn_comma]
  dsimp only
  rw [trimStart_comma, read?_comma]
  split_ifs
  · rfl
  · cases Comparison.read? (Text.trimStart (splitColumn (Text.trimStart t)).2) with
    | none => rfl
    | some r =>
      obtain ⟨op, value⟩ := r
      simp only [Option.map_some, trimStart_comma]
      cases hv : Text.trimStart value with
      | nil => rfl
      | cons q body =>
        simp only [List.cons_append]
        split_ifs
        · have hle : t.length - (body.length + 1) ≤ t.length := Nat.sub_le _ _
          have hlength : (t ++ ',' :: u).length - ((body ++ ',' :: u).length + 1) =
              t.length - (body.length + 1) := by
            simp only [List.length_append, List.length_cons]
            omega
          rw [hlength, List.take_append_of_le_length hle]
          rfl
        · rfl

theorem endsValue_comma (t u : Text) : endsValue (t ++ ',' :: u) = endsValue t := by
  unfold endsValue
  rw [trimStart_comma]
  cases Text.trimStart t <;> rfl

/-- A quote that closes a value still does so if the text goes on after a comma. -/
theorem closeQuote?_comma {q : Char} {inner : Text} (h : closeQuote? q t = some (inner, rest))
    (u : Text) : closeQuote? q (t ++ ',' :: u) = some (inner, rest ++ ',' :: u) := by
  have hcomma : isBlank ',' = false := by decide
  induction t generalizing inner with
  | nil => simp [closeQuote?] at h
  | cons c t ih =>
    rw [closeQuote?] at h
    rw [List.cons_append, closeQuote?, endsValue_comma]
    split_ifs at h ⊢ with hends
    · obtain ⟨rfl, rfl⟩ := Prod.mk.inj (Option.some.inj h)
      rw [Text.takeWhile_stop hcomma, trimStart_comma]
    · obtain ⟨⟨inner', rest'⟩, hclose, h⟩ := Option.map_eq_some_iff.mp h
      obtain ⟨rfl, rfl⟩ := Prod.mk.inj h
      rw [ih hclose]
      rfl

/-- A first fragment that leaves no quote open is cut off alike, whatever comes after a comma. -/
theorem firstFragment_comma {f : Fragment} (h : firstFragment t = (f, rest))
    (hf : f.unterminated = false) (u : Text) :
    firstFragment (t ++ ',' :: u) = (f, rest ++ ',' :: u) := by
  have hplain : toComma (t ++ ',' :: u) = ((toComma t).1, (toComma t).2 ++ ',' :: u) := by
    rw [toComma, toComma, Text.takeWhile_stop (by decide), Text.dropWhile_stop (by decide)]
  unfold firstFragment at h ⊢
  dsimp only at h ⊢
  rw [hplain, openQuote?_comma]
  cases hopen : openQuote? t with
  | none =>
    rw [hopen] at h
    obtain ⟨rfl, rfl⟩ := Prod.mk.inj h
    rfl
  | some opened =>
    obtain ⟨before, q, body⟩ := opened
    rw [hopen] at h
    dsimp only [Option.map_some] at h ⊢
    cases hclose : closeQuote? q body with
    | none =>
      rw [hclose] at h
      obtain ⟨rfl, rfl⟩ := Prod.mk.inj h
      cases hf
    | some closed =>
      obtain ⟨inner, rest'⟩ := closed
      rw [hclose] at h
      obtain ⟨rfl, rfl⟩ := Prod.mk.inj h
      rw [closeQuote?_comma hclose]

theorem Divides.join {s : Text} {fs gs : List Fragment} (hs : Divides s fs)
    (hclosed : ∀ f ∈ fs, f.unterminated = false) (ht : Divides t gs) :
    Divides (s ++ ',' :: t) (fs ++ gs) := by
  induction hs with
  | last hfirst => exact .more (firstFragment_comma hfirst (hclosed _ (by simp)) t) ht
  | more hfirst _ ih =>
    exact .more (firstFragment_comma hfirst (hclosed _ (by simp)) t)
      (ih fun g hg => hclosed g (by simp [hg]))

/-- A lead with an opened quote after it is whole, so nothing but the quote is wrong with it. -/
theorem Lead.Reads.parse_open {l : Lead} {q : Char} (h : l.Reads (q :: t))
    (hq : q = '\'' ∨ q = '"') (u : Text) (n : Nat) :
    Fragment.parse n ⟨l.text ++ q :: u, true⟩ =
      .error (.unterminatedQuote (Text.trim (l.text ++ q :: u))) := by
  have hblank := isBlank_quote hq
  obtain ⟨after, hafter, hvalue⟩ := Text.trimEnd_append (q :: u)
  have hne : Text.trimEnd (q :: u) ≠ [] := by
    intro hnil
    rw [hnil, List.nil_append] at hvalue
    have hspace := (Text.isSpace_iff after).mp hafter q (by simp [hvalue])
    rw [hblank] at hspace
    cases hspace
  have htrimmed := Text.trim_trimmed (q :: u)
  have hstart : Text.trimStart (q :: u) = q :: u :=
    Text.trimStart_space (s := []) (by simp [IsSpace]) (by simpa using hblank)
  rw [Text.trim, hstart] at htrimmed
  have hreads : l.Reads (Text.trimEnd (q :: u)) := by
    rw [← Lead.Reads.append_iff hne (u := after), hvalue]
    have hquote : l.Reads [q] := (Lead.Reads.append_iff (u := t) (by simp)).mp h
    exact (Lead.Reads.append_iff (t := [q]) (by simp)).mpr hquote
  have hparse := Piece.parse_fragment ⟨l, Text.trimEnd (q :: u), after⟩ hreads hafter hne
    htrimmed true n
  rwa [if_pos rfl, Piece.text, hvalue] at hparse

theorem firstFragment_unterminated {f : Fragment} (h : firstFragment t = (f, rest))
    (hf : f.unterminated = true) (n : Nat) :
    f.parse n = .error (.unterminatedQuote (Text.trim f.text)) := by
  unfold firstFragment at h
  dsimp only at h
  cases hopen : openQuote? t with
  | none =>
    rw [hopen] at h
    obtain ⟨rfl, rfl⟩ := Prod.mk.inj h
    cases hf
  | some opened =>
    obtain ⟨before, q, body⟩ := opened
    rw [hopen] at h
    dsimp only at h
    cases hclose : closeQuote? q body with
    | some closed =>
      rw [hclose] at h
      obtain ⟨rfl, rfl⟩ := Prod.mk.inj h
      cases hf
    | none =>
      rw [hclose] at h
      obtain ⟨rfl, rfl⟩ := Prod.mk.inj h
      obtain ⟨hq, l, rfl, rfl, hlead⟩ := openQuote?_eq_some hopen
      have hbefore : ∀ c ∈ l.text, (c != ',') = true := by
        intro c hc
        have hne : c ≠ ',' := fun he => hlead.comma_notMem (he ▸ hc)
        simpa using hne
      have hquote : (q != ',') = true := by rcases hq with rfl | rfl <;> decide
      have htext : (toComma (l.text ++ q :: body)).1 =
          l.text ++ q :: body.takeWhile (· != ',') := by
        rw [toComma, List.takeWhile_append_of_pos hbefore,
          List.takeWhile_cons_of_pos (p := (· != ',')) hquote]
      rw [htext]
      exact hlead.parse_open hq _ n

theorem Divides.unterminated {fs : List Fragment} (h : Divides t fs) {f : Fragment} (hf : f ∈ fs)
    (hopen : f.unterminated = true) (n : Nat) :
    f.parse n = .error (.unterminatedQuote (Text.trim f.text)) := by
  obtain ⟨u, rest, hfirst⟩ := h.exists_first hf
  exact firstFragment_unterminated hfirst hopen n

end FluentSql.Condition
