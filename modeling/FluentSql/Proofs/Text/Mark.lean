import FluentSql.Proofs.Text.Clean

namespace FluentSql.Text

/-- A text that begins with a comment: something opens it, and something later closes it. -/
def StartsComment (t : Text) : Prop :=
  ∃ body rest, t = "<!--".toList ++ (body ++ ("-->".toList ++ rest))

/-- A text that begins with a tag: there is no angle bracket between its own two. -/
def StartsTag (t : Text) : Prop :=
  ∃ inner rest, t = '<' :: (inner ++ '>' :: rest) ∧ '<' ∉ inner ∧ '>' ∉ inner

def StartsMark (t : Text) : Prop := StartsComment t ∨ StartsTag t

/-- What is removed at a place, given the text after it: a comment with the shortest body, or a tag
where no comment begins. -/
inductive IsMark : Text → Text → Prop
  | comment {body rest : Text} :
      (∀ b r, body ++ ("-->".toList ++ rest) = b ++ ("-->".toList ++ r) →
        body.length ≤ b.length) →
      IsMark ("<!--".toList ++ (body ++ "-->".toList)) rest
  | tag {inner rest : Text} : '<' ∉ inner → '>' ∉ inner →
      ¬StartsComment ('<' :: (inner ++ '>' :: rest)) → IsMark ('<' :: (inner ++ ['>'])) rest

variable {t m rest : Text} {n : Nat}

theorem commentEnd?_some (h : commentEnd? t = some n) :
    ∃ body rest, t = body ++ ("-->".toList ++ rest) ∧ n = body.length + 3 ∧
      ∀ b r, t = b ++ ("-->".toList ++ r) → body.length ≤ b.length := by
  induction t generalizing n with
  | nil => simp [commentEnd?] at h
  | cons c t ih =>
    rw [commentEnd?] at h
    cases hclose : after? ['-', '-', '>'] (c :: t) with
    | some rest =>
      rw [hclose] at h
      obtain rfl : 3 = n := by simpa using h
      have hrest : c :: t = ['-', '-', '>'] ++ rest := after?_eq_some_iff.mp hclose
      exact ⟨[], rest, hrest, rfl, fun b r _ => Nat.zero_le _⟩
    | none =>
      rw [hclose] at h
      obtain ⟨k, hk, rfl⟩ := Option.map_eq_some_iff.mp h
      obtain ⟨body, rest, rfl, rfl, hshort⟩ := ih hk
      refine ⟨c :: body, rest, rfl, by simp, fun b r hb => ?_⟩
      cases b with
      | nil =>
        have hopen : after? ['-', '-', '>'] (c :: _) = some r := after?_eq_some_iff.mpr hb
        rw [hopen] at hclose
        cases hclose
      | cons d b =>
        have hle := hshort b r (List.cons.inj hb).2
        simpa using hle

theorem commentEnd?_none (h : commentEnd? t = none) (b r : Text) :
    t ≠ b ++ ("-->".toList ++ r) := by
  induction t generalizing b with
  | nil => simp
  | cons c t ih =>
    rw [commentEnd?] at h
    split_ifs at h with hclose
    intro hb
    cases b with
    | nil =>
      have hopen : after? ['-', '-', '>'] (c :: t) = some r := after?_eq_some_iff.mpr hb
      rw [hopen] at hclose
      exact hclose rfl
    | cons d b => exact ih (Option.map_eq_none_iff.mp h) b (List.cons.inj hb).2

theorem tagEnd?_some (h : tagEnd? t = some n) :
    ∃ inner rest, t = inner ++ '>' :: rest ∧ n = inner.length + 1 ∧ '<' ∉ inner ∧ '>' ∉ inner := by
  induction t generalizing n with
  | nil => simp [tagEnd?] at h
  | cons c t ih =>
    rw [tagEnd?] at h
    split_ifs at h with hclose hopen
    · obtain rfl := Option.some.inj h
      exact ⟨[], t, by rw [hclose]; rfl, rfl, by simp, by simp⟩
    · obtain ⟨k, hk, rfl⟩ := Option.map_eq_some_iff.mp h
      obtain ⟨inner, rest, rfl, rfl, hlt, hgt⟩ := ih hk
      refine ⟨c :: inner, rest, rfl, by simp, ?_, ?_⟩
      · simp [Ne.symm hopen, hlt]
      · simp [Ne.symm hclose, hgt]

theorem tagEnd?_none (h : tagEnd? t = none) (inner r : Text) (ht : t = inner ++ '>' :: r) :
    '<' ∈ inner ∨ '>' ∈ inner := by
  induction t generalizing inner with
  | nil => simp at ht
  | cons c t ih =>
    rw [tagEnd?] at h
    split_ifs at h with hclose hopen
    · cases inner with
      | nil =>
        obtain ⟨rfl, -⟩ := List.cons.inj ht
        exact absurd hopen (by decide)
      | cons d inner =>
        obtain ⟨rfl, -⟩ := List.cons.inj ht
        simp [hopen]
    · cases inner with
      | nil => exact absurd (List.cons.inj ht).1 hclose
      | cons d inner =>
        have hin := ih (Option.map_eq_none_iff.mp h) inner (List.cons.inj ht).2
        exact hin.imp (List.mem_cons_of_mem d) (List.mem_cons_of_mem d)

theorem IsMark.starts (h : IsMark m rest) : StartsMark (m ++ rest) := by
  cases h with
  | @comment body _ _ => exact .inl ⟨body, rest, by simp⟩
  | @tag inner _ hlt hgt _ => exact .inr ⟨inner, rest, by simp, hlt, hgt⟩

theorem StartsMark.cons (h : StartsMark t) : ∃ u, t = '<' :: u := by
  obtain ⟨body, rest, rfl⟩ | ⟨inner, rest, rfl, -, -⟩ := h
  · exact ⟨_, rfl⟩
  · exact ⟨_, rfl⟩

theorem IsMark.cons (h : IsMark m rest) : ∃ u, m = '<' :: u := by
  cases h with
  | comment _ => exact ⟨_, rfl⟩
  | tag _ _ _ => exact ⟨_, rfl⟩

/-- At one place there is one mark. -/
theorem IsMark.unique {m' rest' : Text} (h : IsMark m rest) (h' : IsMark m' rest')
    (he : m ++ rest = m' ++ rest') : m = m' := by
  cases h with
  | @comment body _ hshort =>
    cases h' with
    | @comment body' _ hshort' =>
      have hbody : body ++ ("-->".toList ++ rest) = body' ++ ("-->".toList ++ rest') := by
        simpa using he
      have hlength := Nat.le_antisymm (hshort _ _ hbody) (hshort' _ _ hbody.symm)
      rw [(List.append_inj hbody hlength).1]
    | tag _ _ hnone => exact absurd ⟨body, rest, by simpa using he.symm⟩ hnone
  | @tag inner _ _ hgt hnone =>
    cases h' with
    | @comment body' _ _ => exact absurd ⟨body', rest', by simpa using he⟩ hnone
    | @tag inner' _ _ hgt' _ =>
      have hinner : inner ++ '>' :: rest = inner' ++ '>' :: rest' := by simpa using he
      rw [append_cut_inj hgt hgt' hinner]

theorem startsComment_iff (t : Text) : StartsComment ('<' :: t) ↔
    ∃ n, (after? ['!', '-', '-'] t).bind commentEnd? = some n := by
  constructor
  · rintro ⟨body, rest, ht⟩
    have hopen : after? ['!', '-', '-'] t = some (body ++ ("-->".toList ++ rest)) :=
      after?_eq_some_iff.mpr (List.cons.inj ht).2
    rw [hopen, Option.bind_some]
    cases hend : commentEnd? (body ++ ("-->".toList ++ rest)) with
    | none => exact absurd rfl (commentEnd?_none hend body rest)
    | some n => exact ⟨n, rfl⟩
  · rintro ⟨n, hn⟩
    obtain ⟨s, hs, hend⟩ := Option.bind_eq_some_iff.mp hn
    obtain ⟨body, rest, rfl, -⟩ := commentEnd?_some hend
    exact ⟨body, rest, by rw [after?_eq_some_iff.mp hs]; rfl⟩

theorem markLength?_some (h : markLength? t = some n) :
    ∃ m rest, t = m ++ rest ∧ IsMark m rest ∧ n = m.length := by
  cases t with
  | nil => simp [markLength?] at h
  | cons c t =>
    rw [markLength?] at h
    split_ifs at h with hc
    subst hc
    cases hcomment : (after? ['!', '-', '-'] t).bind commentEnd? with
    | some k =>
      rw [hcomment] at h
      obtain rfl := Option.some.inj h
      obtain ⟨s, hs, hend⟩ := Option.bind_eq_some_iff.mp hcomment
      obtain ⟨body, rest, rfl, rfl, hshort⟩ := commentEnd?_some hend
      rw [after?_eq_some_iff.mp hs]
      exact ⟨"<!--".toList ++ (body ++ "-->".toList), rest, by simp, .comment hshort, by simp⟩
    | none =>
      rw [hcomment] at h
      obtain ⟨k, hk, rfl⟩ := Option.map_eq_some_iff.mp h
      obtain ⟨inner, rest, rfl, rfl, hlt, hgt⟩ := tagEnd?_some hk
      have hnone : ¬StartsComment ('<' :: (inner ++ '>' :: rest)) := by
        rw [startsComment_iff, hcomment]
        simp
      exact ⟨'<' :: (inner ++ ['>']), rest, by simp, .tag hlt hgt hnone, by simp⟩

theorem markLength?_none (h : markLength? t = none) : ¬StartsMark t := by
  intro hstarts
  obtain ⟨u, rfl⟩ := hstarts.cons
  rw [markLength?, if_pos rfl] at h
  cases hcomment : (after? ['!', '-', '-'] u).bind commentEnd? with
  | some k =>
    rw [hcomment] at h
    cases h
  | none =>
    rw [hcomment] at h
    obtain hstarts | ⟨inner, rest, he, hlt, hgt⟩ := hstarts
    · rw [startsComment_iff, hcomment] at hstarts
      simp at hstarts
    · have hin := tagEnd?_none (Option.map_eq_none_iff.mp h) inner rest (List.cons.inj he).2
      exact hin.elim hlt hgt

theorem isMark_iff (m rest : Text) : IsMark m rest ↔ markLength? (m ++ rest) = some m.length := by
  constructor
  · intro h
    cases hlength : markLength? (m ++ rest) with
    | none => exact absurd h.starts (markLength?_none hlength)
    | some n =>
      obtain ⟨m', rest', he, hm', rfl⟩ := markLength?_some hlength
      rw [h.unique hm' he]
  · intro h
    obtain ⟨m', rest', he, hm', hlength⟩ := markLength?_some h
    obtain ⟨rfl, rfl⟩ := List.append_inj he hlength
    exact hm'

theorem markLength?_unmarked (h : ¬StartsMark t) : markLength? t = none := by
  cases hlength : markLength? t with
  | none => rfl
  | some n =>
    obtain ⟨m, rest, rfl, hm, -⟩ := markLength?_some hlength
    exact absurd hm.starts h

end FluentSql.Text
