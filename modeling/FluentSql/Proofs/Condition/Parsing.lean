import FluentSql.Proofs.Condition.Pieces

namespace FluentSql.Condition

open Text (IsSpace)

/-- The loop that cuts a condition, which goes on as long as there is a comma. -/
inductive Divides : Text → List Fragment → Prop
  | last {t : Text} {f : Fragment} : Condition.firstFragment t = (f, []) → Divides t [f]
  | more {t rest : Text} {f : Fragment} {fs : List Fragment} :
      Condition.firstFragment t = (f, ',' :: rest) → Divides rest fs → Divides t (f :: fs)

/-- The loop ends, since every fragment is followed by less text. -/
theorem divides_fragmentsWithin {n : Nat} {t : Text} (h : t.length < n) :
    Divides t (fragmentsWithin n t) := by
  induction n generalizing t with
  | zero => omega
  | succ n ih =>
    obtain ⟨happend, hstops⟩ := firstFragment_append t
    rw [fragmentsWithin]
    split
    · next f hfirst => exact .last hfirst
    · next f c rest hfirst =>
      rw [hfirst] at happend hstops
      obtain rfl : c = ',' := hstops c rfl
      have hlength := congrArg List.length happend
      simp only [List.length_append, List.length_cons] at hlength
      exact .more hfirst (ih (by omega))

theorem divides_fragments (t : Text) : Divides t (fragments t) :=
  divides_fragmentsWithin (Nat.lt_succ_self _)

/-- Every fragment is the first one of some text that the loop comes to. -/
theorem Divides.exists_first {t : Text} {fs : List Fragment} (h : Divides t fs) {f : Fragment}
    (hf : f ∈ fs) : ∃ u rest, firstFragment u = (f, rest) := by
  induction h with
  | last hfirst =>
    obtain rfl := List.mem_singleton.mp hf
    exact ⟨_, _, hfirst⟩
  | more hfirst _ ih =>
    rcases List.mem_cons.mp hf with rfl | hf
    · exact ⟨_, _, hfirst⟩
    · exact ih hf

theorem Divides.unique {t : Text} {fs gs : List Fragment} (hf : Divides t fs) (hg : Divides t gs) :
    fs = gs := by
  induction hf generalizing gs with
  | last hfirst =>
    cases hg with
    | last hother => rw [(Prod.mk.inj (hfirst.symm.trans hother)).1]
    | more hother => simp [hfirst] at hother
  | more hfirst _ ih =>
    cases hg with
    | last hother => simp [hfirst] at hother
    | more hother hrest =>
      obtain ⟨rfl, htail⟩ := Prod.mk.inj (hfirst.symm.trans hother)
      obtain rfl := (List.cons.inj htail).2
      rw [ih hrest]

theorem parseFrom_cons {n : Nat} {f : Fragment} {fs : List Fragment} {ps : List Predicate} :
    parseFrom n (f :: fs) = .ok ps ↔
      ∃ p qs, f.parse n = .ok p ∧ parseFrom (n + 1) fs = .ok qs ∧ p :: qs = ps := by
  rw [parseFrom]
  constructor
  · intro h
    split at h
    · simp at h
    · next p hp =>
      obtain ⟨qs, hqs, rfl⟩ := map_ok h
      exact ⟨p, qs, hp, hqs, rfl⟩
  · rintro ⟨p, qs, hp, hqs, rfl⟩
    rw [hp, hqs]
    rfl

theorem Splits.divides {t : Text} {pieces : List Piece} (h : Splits t pieces) :
    Divides t (pieces.map Piece.fragment) := by
  induction h with
  | @last p hp =>
    have hcut := hp.firstFragment (by simp [Stops])
    rw [List.append_nil] at hcut
    exact .last hcut
  | more hp _ ih => exact .more (hp.firstFragment (by simp [Stops])) ih

theorem Splits.parseFrom {t : Text} {pieces : List Piece} (h : Splits t pieces) (n : Nat) :
    parseFrom n (pieces.map Piece.fragment) = .ok (pieces.map Piece.predicate) := by
  induction h generalizing n with
  | last hp => exact parseFrom_cons.mpr ⟨_, [], hp.parse n, rfl, rfl⟩
  | more hp _ ih => exact parseFrom_cons.mpr ⟨_, _, hp.parse n, ih (n + 1), rfl⟩

theorem Divides.splits {t : Text} {fs : List Fragment} (h : Divides t fs) {n : Nat}
    {ps : List Predicate} (hp : Condition.parseFrom n fs = .ok ps) :
    ∃ pieces, Splits t pieces ∧ pieces.map Piece.predicate = ps := by
  induction h generalizing n ps with
  | last hfirst =>
    obtain ⟨r, qs, hr, hqs, rfl⟩ := parseFrom_cons.mp hp
    obtain rfl := Except.ok.inj hqs
    obtain ⟨p, rfl, hreads, rfl⟩ := exists_piece hfirst hr
    rw [List.append_nil]
    exact ⟨[p], .last hreads, rfl⟩
  | more hfirst _ ih =>
    obtain ⟨r, qs, hr, hqs, rfl⟩ := parseFrom_cons.mp hp
    obtain ⟨p, rfl, hreads, rfl⟩ := exists_piece hfirst hr
    obtain ⟨pieces, hsplits, rfl⟩ := ih hqs
    exact ⟨p :: pieces, .more hreads hsplits, rfl⟩

theorem Splits.reads {t : Text} {pieces : List Piece} (h : Splits t pieces) :
    ∀ p ∈ pieces, ∃ rest, p.Reads rest := by
  induction h with
  | last hp => simpa using ⟨_, hp⟩
  | more hp _ ih =>
    intro q hq
    rcases List.mem_cons.mp hq with rfl | hq
    · exact ⟨_, hp⟩
    · exact ih q hq

theorem Splits.unique {t : Text} {pieces others : List Piece} (hp : Splits t pieces)
    (ho : Splits t others) : pieces = others := by
  have hcut := hp.divides.unique ho.divides
  replace hp := hp.reads
  replace ho := ho.reads
  induction pieces generalizing others with
  | nil => simpa [eq_comm] using hcut
  | cons p pieces ih =>
    cases others with
    | nil => simp at hcut
    | cons q others =>
      obtain ⟨hfragment, hrest⟩ := List.cons.inj hcut
      obtain ⟨_, hpreads⟩ := hp p List.mem_cons_self
      obtain ⟨_, hqreads⟩ := ho q List.mem_cons_self
      obtain rfl := hpreads.text_inj hqreads (congrArg Fragment.text hfragment)
      rw [ih hrest (fun r hr => hp r (by simp [hr])) fun r hr => ho r (by simp [hr])]

theorem isVoid_iff (t : Text) : isVoid t = true ↔ IsSpace t := by
  rw [Text.isSpace_iff, isVoid, List.all_eq_true]

/-- A condition is read if and only if it splits into pieces, as the predicates of these; there is
one way at most to split it. The loop that cuts it ends on every text. -/
theorem parse_iff_splits :
    (∀ t ps, parse t = .ok ps ↔
      ¬IsSpace t ∧ ∃ pieces, Splits t pieces ∧ pieces.map Piece.predicate = ps) ∧
    (∀ t pieces others, Splits t pieces → Splits t others → pieces = others) ∧
    ∀ t, Divides t (fragments t) := by
  refine ⟨fun t ps => ?_, fun t pieces others => Splits.unique, divides_fragments⟩
  unfold parse
  constructor
  · intro h
    split_ifs at h with ht
    exact ⟨fun hspace => ht ((isVoid_iff t).mpr hspace), (divides_fragments t).splits h⟩
  · rintro ⟨hspace, pieces, hsplits, rfl⟩
    rw [if_neg fun ht => hspace ((isVoid_iff t).mp ht),
      (divides_fragments t).unique hsplits.divides]
    exact hsplits.parseFrom 0

theorem parse_iff_splits_quoted :
    let t := " city = 'Paris, ''France'' , id>=3".toList
    ∃ pieces, Splits t pieces ∧ (∀ others, Splits t others → pieces = others) ∧
      pieces.map Piece.predicate =
        [⟨"city".toList, .eq, "'Paris, ''France''".toList⟩, ⟨"id".toList, .gte, "3".toList⟩] := by
  intro t
  obtain ⟨-, pieces, hsplits, hpredicates⟩ := (parse_iff_splits.1 t _).mp rfl
  refine ⟨pieces, hsplits, fun others => parse_iff_splits.2.1 t pieces others hsplits, ?_⟩
  rw [hpredicates]
  decide

end FluentSql.Condition
