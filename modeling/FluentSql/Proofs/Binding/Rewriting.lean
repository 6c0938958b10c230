import FluentSql.Proofs.Binding.Labels
import FluentSql.Proofs.Binding.Occurrence
import FluentSql.Proofs.Binding.Position
import FluentSql.Session.Statement

namespace FluentSql.Bindings

open Placeholder

/-- A change to the bindings of a statement. -/
inductive Change where
  | register (clause : Clause) (seed : Text) (value : Value)
  | removeClause (clause : Clause)
  | clear
  deriving DecidableEq, Repr

def change (bs : Bindings) : Change → Bindings
  | .register clause seed value => (bs.register clause seed value).2
  | .removeClause clause => bs.removeClause clause
  | .clear => []

/-- The bindings after a sequence of changes to none. -/
def after (changes : List Change) : Bindings := changes.foldl change []

theorem change_nodup {bs : Bindings} (h : bs.names.Nodup) (c : Change) :
    (bs.change c).names.Nodup := by
  cases c with
  | register clause seed value => exact register_nodup h clause seed value
  | removeClause clause => exact h.sublist (List.filter_sublist.map Binding.name)
  | clear => exact List.nodup_nil

theorem after_nodup (changes : List Change) : (after changes).names.Nodup := by
  induction changes using List.reverseRecOn with
  | nil => exact List.nodup_nil
  | append_singleton changes c ih =>
    rw [after, List.foldl_append]
    exact change_nodup ih c

/-- The first placeholder of a statement that no value is bound to. -/
def FirstUnbound (bs : Bindings) (sql n : Text) : Prop :=
  ∃ pre, Occurs sql pre n ∧ ':' :: n ∉ bs.names ∧
    ∀ p m, Occurs sql p m → p.length < pre.length → ':' :: m ∈ bs.names

/-- A placeholder as it is written once it is numbered. -/
def byNumber (number : Text → Nat) (n : Text) : Text := '$' :: Text.decimal (number n)

/-- A statement with each placeholder `:n` as `$k`, where the k-th of the names is `:n`; with the
names and cleaned values of the bindings that occur in it, in the order in which they were made. -/
structure Rewrites (bs : Bindings) (sql : Text) (c : Compiled) : Prop where
  used : ∃ used : Bindings, used.Sublist bs ∧
    (∀ b ∈ bs, b ∈ used ↔ ∃ pre n, Occurs sql pre n ∧ b.name = ':' :: n) ∧
    c.names = used.names ∧ c.params = used.map fun b => b.value.sanitized
  nodup : c.names.Nodup
  text : ∃ (ps : List Piece) (number : Text → Nat), Covers sql ps ∧
    c.sql = spell (byNumber number) ps ∧
    (∀ pre n, Occurs sql pre n → 0 < number n ∧ c.names[number n - 1]? = some (':' :: n)) ∧
    ∀ l n r, ps = l ++ .name n :: r →
      ∀ d ∈ (spell (byNumber number) r).head?, d.isDigit = false

theorem isBound_iff (bs : Bindings) (n : Text) : bs.isBound n = true ↔ ':' :: n ∈ bs.names :=
  isTaken_iff bs (':' :: n)

theorem write_eq_spell (bs : Bindings) (sql : Text) :
    bs.write sql = spell (byNumber bs.position) (pieces sql) := by
  have hpiece : bs.writePiece = Piece.spell (byNumber bs.position) := by
    funext p
    cases p <;> rfl
  rw [write, hpiece]
  rfl

/-- A binding is in use if its name is that of a placeholder. -/
theorem mem_referenced {bs : Bindings} {sql : Text} {b : Binding} (hb : b ∈ bs) :
    b ∈ bs.referenced sql ↔ ∃ pre n, Occurs sql pre n ∧ b.name = ':' :: n := by
  simp only [referenced, List.mem_filter, hb, true_and, List.any_eq_true, decide_eq_true_eq,
    mem_occurrences]
  constructor
  · rintro ⟨n, ⟨pre, ho⟩, hn⟩
    exact ⟨pre, n, ho, hn⟩
  · rintro ⟨pre, n, ho, hn⟩
    exact ⟨n, ⟨pre, ho⟩, hn⟩

/-- A placeholder that has a binding is numbered by its place among the bindings in use. -/
theorem getElem?_referenced {bs : Bindings} {sql pre n : Text} (ho : Occurs sql pre n)
    (hn : ':' :: n ∈ bs.names) :
    (bs.referenced sql).names[(bs.referenced sql).position n - 1]? = some (':' :: n) := by
  obtain ⟨b, hb, hname⟩ := List.mem_map.mp hn
  have hused : b ∈ bs.referenced sql := (mem_referenced hb).mpr ⟨pre, n, ho, hname⟩
  exact getElem?_position (List.mem_map.mpr ⟨b, hused, hname⟩)

theorem isDigit_after {sql n : Text} {l r : List Piece} (h : pieces sql = l ++ .name n :: r)
    (number : Text → Nat) : ∀ d ∈ (spell (byNumber number) r).head?, d.isDigit = false := by
  have hends : Ends (spell (byNumber number) r) :=
    (scans_pieces sql).apart (fun n => ⟨Text.decimal (number n), rfl⟩) h
  exact hends.isDigit

theorem Rewrites.of_compile {bs : Bindings} (h : bs.names.Nodup) {sql : Text} {c : Compiled}
    (hc : bs.compile sql = .ok c) : Rewrites bs sql c := by
  obtain ⟨hbound, rfl⟩ := compile_ok hc
  refine ⟨⟨bs.referenced sql, List.filter_sublist, fun b => mem_referenced, rfl, rfl⟩,
    h.sublist (List.filter_sublist.map Binding.name), pieces sql, (bs.referenced sql).position,
    covers_pieces sql, write_eq_spell _ sql, fun pre n ho => ?_, fun l n r hps => ?_⟩
  · have hn := (isBound_iff bs n).mp (hbound n (mem_occurrences.mpr ⟨pre, ho⟩))
    exact ⟨Nat.succ_pos _, getElem?_referenced ho hn⟩
  · exact isDigit_after hps _

theorem FirstUnbound.unique {bs : Bindings} {sql m n : Text} (hm : FirstUnbound bs sql m)
    (hn : FirstUnbound bs sql n) : m = n := by
  obtain ⟨p, hop, hp, hbefore⟩ := hm
  obtain ⟨q, hoq, hq, hbefore'⟩ := hn
  have hle : q.length ≤ p.length := by
    by_contra hlt
    exact hp (hbefore' p m hop (by omega))
  have hge : p.length ≤ q.length := by
    by_contra hlt
    exact hq (hbefore q n hoq (by omega))
  obtain ⟨s, hs, -⟩ := hop.text
  obtain ⟨t, ht, -⟩ := hoq.text
  obtain ⟨rfl, -⟩ := List.append_inj (hs.symm.trans ht) (Nat.le_antisymm hge hle)
  exact hop.name_inj hoq

theorem compile_error {bs : Bindings} {sql n : Text} (h : bs.compile sql = .error n) :
    FirstUnbound bs sql n := by
  unfold compile at h
  split at h
  · next m hfind =>
    obtain rfl := Except.error.inj h
    obtain ⟨hm, before, rest, happend, hbefore⟩ := List.find?_eq_some_iff_append.mp hfind
    obtain ⟨pre, ho, hleft⟩ := occurrences_append happend
    refine ⟨pre, ho, ?_, fun p w hw hlt => ?_⟩
    · intro hmem
      rw [(isBound_iff bs m).mpr hmem] at hm
      cases hm
    · have hbound := hbefore w (hleft p w hw hlt)
      rw [Bool.not_not] at hbound
      exact (isBound_iff bs w).mp hbound
  · simp at h

theorem compile_ok_iff (bs : Bindings) (sql : Text) :
    (∃ c, bs.compile sql = .ok c) ↔ ∀ pre n, Occurs sql pre n → ':' :: n ∈ bs.names := by
  constructor
  · rintro ⟨c, hc⟩ pre n ho
    exact (isBound_iff bs n).mp ((compile_ok hc).1 n (mem_occurrences.mpr ⟨pre, ho⟩))
  · intro h
    cases hc : bs.compile sql with
    | ok c => exact ⟨c, rfl⟩
    | error n =>
      obtain ⟨pre, ho, hn, -⟩ := compile_error hc
      exact absurd (h pre n ho) hn

theorem compile_error_iff (bs : Bindings) (sql n : Text) :
    bs.compile sql = .error n ↔ FirstUnbound bs sql n := by
  constructor
  · exact compile_error
  · intro h
    cases hc : bs.compile sql with
    | ok c =>
      obtain ⟨pre, ho, hn, -⟩ := h
      exact absurd ((compile_ok_iff bs sql).mp ⟨c, hc⟩ pre n ho) hn
    | error m => rw [(compile_error hc).unique h]

/-- Of bindings that were made in any way, a statement gets the numbers of those it refers to, and
is left as it is otherwise; it is refused for the first placeholder that none is made for. -/
theorem compile_rewrites (changes : List Change) (tag sql : Text) :
    ((∃ c, (after changes).compile sql = .ok c) ↔
        ∀ pre n, Occurs sql pre n → ':' :: n ∈ (after changes).names) ∧
      (∀ n, (after changes).compile sql = .error n ↔ FirstUnbound (after changes) sql n) ∧
      (∀ n, (after changes).compile sql = .error n →
        Session.finish tag sql (after changes) = .error (.binding (.unbound n))) ∧
      ∀ c, (after changes).compile sql = .ok c → Rewrites (after changes) sql c := by
  refine ⟨compile_ok_iff _ sql, compile_error_iff _ sql, fun n hn => ?_, fun c hc => ?_⟩
  · rw [Session.finish, hn]
  · exact .of_compile (after_nodup changes) hc

theorem compile_rewrites_mixed :
    let changes : List Change := [.register .filter "a".toList (.int 0), .clear,
      .register .insert "b".toList (.int 2), .register .filter "b".toList (.int 4),
      .removeClause .filter, .register .insert "c".toList (.int 3),
      .register .insert "a".toList (.text "<i>Ann".toList)]
    let sql := ":a:b ::a :::a ':a'::b \":b".toList
    Rewrites (after changes) sql
        ⟨"$2$1 ::a ::$2 ':a'::b \":b".toList, [.int 2, .text "Ann".toList],
          [":b".toList, ":a".toList]⟩ ∧
      Session.finish [] ":a :b_where :d".toList (after changes) =
        .error (.binding (.unbound "b_where".toList)) := by
  intro changes sql
  exact ⟨(compile_rewrites changes [] sql).2.2.2 _ (by decide),
    (compile_rewrites changes [] ":a :b_where :d".toList).2.2.1 _ (by decide)⟩

end FluentSql.Bindings
