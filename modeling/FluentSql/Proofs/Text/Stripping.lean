import FluentSql.Proofs.Text.Mark
import Mathlib.Logic.ExistsUnique

namespace FluentSql.Text

/-- No comment and no tag begins in a text, whose end may lie in what follows it. -/
def Unmarked (t rest : Text) : Prop :=
  ∀ a b, t = a ++ '<' :: b → ¬StartsMark ('<' :: (b ++ rest))

/-- A text as what stands before each of its marks, with that mark, and what stands after them. -/
inductive Factors : Text → List (Text × Text) → Text → Prop
  | last {t : Text} : Unmarked t [] → Factors t [] t
  | mark {t m rest last : Text} {ms : List (Text × Text)} : Unmarked t (m ++ rest) →
      IsMark m rest → Factors rest ms last → Factors (t ++ (m ++ rest)) ((t, m) :: ms) last

variable {t u m rest last : Text} {ms : List (Text × Text)} {c : Char}

theorem unmarked_of_notMem (h : '<' ∉ t) (rest : Text) : Unmarked t rest := by
  intro a b ht
  exact absurd (by simp [ht]) h

theorem Unmarked.tail (h : Unmarked (c :: t) rest) : Unmarked t rest := by
  intro a b ht
  exact h (c :: a) b (by rw [ht]; rfl)

theorem Unmarked.cons (hc : ¬StartsMark (c :: (t ++ rest))) (h : Unmarked t rest) :
    Unmarked (c :: t) rest := by
  intro a b ht
  cases a with
  | nil =>
    obtain ⟨rfl, rfl⟩ := List.cons.inj ht
    exact hc
  | cons d a => exact h a b (List.cons.inj ht).2

theorem stripFrom_append (s t : Text) : stripFrom s.length (s ++ t) = stripTags t := by
  induction s with
  | nil => rfl
  | cons c s ih => simpa [stripFrom] using ih

theorem stripTags_mark (h : IsMark m rest) : stripTags (m ++ rest) = stripTags rest := by
  have hlength := (isMark_iff m rest).mp h
  obtain ⟨u, rfl⟩ := h.cons
  rw [List.cons_append] at hlength
  rw [stripTags, List.cons_append, stripFrom, hlength]
  exact stripFrom_append u rest

theorem stripTags_unmarked (h : Unmarked t rest) :
    stripTags (t ++ rest) = t ++ stripTags rest := by
  induction t with
  | nil => rfl
  | cons c t ih =>
    have hnone : markLength? (c :: (t ++ rest)) = none := by
      apply markLength?_unmarked
      intro hstarts
      obtain ⟨u, hu⟩ := hstarts.cons
      obtain ⟨rfl, -⟩ := List.cons.inj hu
      exact h [] t rfl hstarts
    rw [List.cons_append, stripTags, stripFrom, hnone]
    exact congrArg (List.cons c) (ih h.tail)

theorem Factors.stripTags (h : Factors t ms last) :
    stripTags t = (ms.map Prod.fst).flatten ++ last := by
  induction h with
  | @last t ht =>
    have hkept := stripTags_unmarked ht
    have hnil : Text.stripTags [] = [] := rfl
    rwa [hnil, List.append_nil] at hkept
  | mark ht hm _ ih =>
    rw [stripTags_unmarked ht, stripTags_mark hm, ih]
    simp

theorem Factors.cons (hc : ¬StartsMark (c :: t)) (h : Factors t ms last) :
    ∃ ms' last', Factors (c :: t) ms' last' := by
  cases h with
  | last ht =>
    refine ⟨[], c :: t, .last (.cons ?_ ht)⟩
    rwa [List.append_nil]
  | @mark t m rest _ ms ht hm hrest =>
    exact ⟨(c :: t, m) :: ms, last, .mark (.cons hc ht) hm hrest⟩

theorem exists_factors (t : Text) : ∃ ms last, Factors t ms last := by
  -- A mark takes any number of characters at once, so the induction is on the length.
  induction hn : t.length using Nat.strongRecOn generalizing t with
  | ind n ih =>
    subst hn
    cases t with
    | nil => exact ⟨[], [], .last (unmarked_of_notMem List.not_mem_nil [])⟩
    | cons c t =>
      cases hlength : markLength? (c :: t) with
      | none =>
        obtain ⟨ms, last, hfactors⟩ := ih t.length (by simp) t rfl
        exact hfactors.cons (markLength?_none hlength)
      | some n =>
        obtain ⟨m, rest, ht, hm, -⟩ := markLength?_some hlength
        obtain ⟨u, hu⟩ := hm.cons
        have hlt : rest.length < (c :: t).length := by
          rw [ht, hu, List.length_append, List.length_cons]
          omega
        obtain ⟨ms, last, hfactors⟩ := ih rest.length hlt rest rfl
        rw [ht]
        exact ⟨([], m) :: ms, last, .mark (unmarked_of_notMem List.not_mem_nil _) hm hfactors⟩

theorem Unmarked.no_mark (h : Unmarked t []) (hm : IsMark m rest) (s : Text) :
    t ≠ s ++ (m ++ rest) := by
  intro he
  have hstarts := hm.starts
  obtain ⟨v, rfl⟩ := hm.cons
  have hnone := h s (v ++ rest) he
  rw [List.append_nil] at hnone
  exact hnone hstarts

/-- What is unmarked ends where a mark begins, or before. -/
theorem Unmarked.length_le (h : Unmarked t rest) (hu : StartsMark u) {s : Text}
    (he : t ++ rest = s ++ u) : t.length ≤ s.length := by
  apply Nat.le_of_not_lt
  intro hlt
  obtain ⟨d, hd⟩ := List.prefix_of_prefix_length_le ⟨u, he.symm⟩ ⟨rest, rfl⟩ (by omega)
  subst hd
  rw [List.append_assoc] at he
  have hrest := List.append_cancel_left he
  obtain ⟨v, rfl⟩ := hu.cons
  cases d with
  | nil => simp at hlt
  | cons c d =>
    obtain ⟨rfl, rfl⟩ := List.cons.inj hrest
    exact h s d rfl hu

/-- Both ways begin with the same kept text, since neither can pass over the other's first mark. -/
theorem Factors.unique {ms' : List (Text × Text)} {last' : Text} (h : Factors t ms last)
    (h' : Factors u ms' last') (he : t = u) : ms = ms' ∧ last = last' := by
  induction h generalizing u ms' last' with
  | @last t ht =>
    cases h' with
    | last _ => exact ⟨rfl, he⟩
    | @mark s m rest _ _ _ hm _ => exact absurd he (ht.no_mark hm s)
  | @mark s m rest _ ms hs hm _ ih =>
    cases h' with
    | last hu => exact absurd he.symm (hu.no_mark hm s)
    | @mark s' m' rest' _ ms' hs' hm' hrest' =>
      have hlength := Nat.le_antisymm (hs.length_le hm'.starts he)
        (hs'.length_le hm.starts he.symm)
      obtain ⟨rfl, hmarks⟩ := List.append_inj he hlength
      obtain rfl := hm.unique hm' hmarks
      obtain ⟨rfl, rfl⟩ := ih hrest' (List.append_cancel_left hmarks)
      exact ⟨rfl, rfl⟩

/-- A text falls in one way into what is kept and the comments and tags that come first from the
left, and these are what is removed. Without an opening bracket all of it is kept. -/
theorem stripTags_factors (t : Text) :
    (∃! f : List (Text × Text) × Text, Factors t f.1 f.2) ∧
      (∀ ms last, Factors t ms last → stripTags t = (ms.map Prod.fst).flatten ++ last) ∧
      ('<' ∉ t → Factors t [] t ∧ stripTags t = t) := by
  obtain ⟨ms, last, hfactors⟩ := exists_factors t
  refine ⟨⟨(ms, last), hfactors, ?_⟩, ?_, ?_⟩
  · rintro ⟨ms', last'⟩ h'
    obtain ⟨rfl, rfl⟩ := h'.unique hfactors rfl
    rfl
  · intro ms last h
    exact h.stripTags
  · intro hlt
    exact ⟨.last (unmarked_of_notMem hlt []), stripTags_eq_self hlt⟩

theorem stripTags_factors_nested :
    let t := "a<<b>><!--<i>\n-->--><!-->x<!-- y".toList
    let ms := [("a<".toList, "<b>".toList), (">".toList, "<!--<i>\n-->".toList),
      ("-->".toList, "<!-->".toList)]
    Factors t ms "x<!-- y".toList ∧ stripTags t = "a<>-->x<!-- y".toList ∧
      Factors "a-->b".toList [] "a-->b".toList := by
  intro t ms
  have hend : Unmarked "x<!-- y".toList [] :=
    .cons (markLength?_none (by decide)) (.cons (markLength?_none (by decide))
      (unmarked_of_notMem (by decide) []))
  have hthird : Factors "--><!-->x<!-- y".toList [("-->".toList, "<!-->".toList)]
      "x<!-- y".toList :=
    @Factors.mark "-->".toList "<!-->".toList "x<!-- y".toList _ _
      (unmarked_of_notMem (by decide) _) ((isMark_iff _ _).mpr (by decide)) (.last hend)
  have hsecond := @Factors.mark ">".toList "<!--<i>\n-->".toList _ _ _
    (unmarked_of_notMem (by decide) _) ((isMark_iff _ _).mpr (by decide)) hthird
  have hbegin : Unmarked "a<".toList "<b>><!--<i>\n-->--><!-->x<!-- y".toList :=
    .cons (markLength?_none (by decide)) (.cons (markLength?_none (by decide))
      (unmarked_of_notMem (by decide) _))
  have hfactors : Factors t ms "x<!-- y".toList :=
    @Factors.mark "a<".toList "<b>".toList _ _ _ hbegin ((isMark_iff _ _).mpr (by decide)) hsecond
  exact ⟨hfactors, (stripTags_factors t).2.1 ms _ hfactors,
    ((stripTags_factors "a-->b".toList).2.2 (by decide)).1⟩

end FluentSql.Text
