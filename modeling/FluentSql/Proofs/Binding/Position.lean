import FluentSql.Proofs.Binding.Fresh
import FluentSql.Proofs.Statement.Numbering

namespace FluentSql.Bindings

open Placeholder Statement

theorem names_append (pre post : Bindings) : names (pre ++ post) = pre.names ++ post.names :=
  List.map_append

/-- A binding whose name comes up for the first time has the number after all before it. -/
theorem position_append {pre post : Bindings} {b : Binding} {w : Text} (hb : b.name = ':' :: w)
    (h : b.name ∉ pre.names) : position (pre ++ b :: post) w = pre.length + 1 := by
  have hpre : pre.findIdx (fun c => c.name = ':' :: w) = pre.length := by
    refine List.findIdx_eq_length.mpr fun c hc => decide_eq_false fun he => ?_
    exact h (List.mem_map.mpr ⟨c, hc, he.trans hb.symm⟩)
  rw [position, List.findIdx_append, hpre, if_neg (Nat.lt_irrefl _), List.findIdx_cons]
  simp [hb]

/-- Names that are bound in a row have numbers in a row. -/
theorem positions_block {pre new post : Bindings} {ws : List Text}
    (hn : (names (pre ++ new ++ post)).Nodup) (hw : new.names = ws.map (':' :: ·)) :
    ws.map (position (pre ++ new ++ post)) = List.range' (pre.length + 1) ws.length := by
  induction new generalizing pre ws with
  | nil =>
    cases ws with
    | nil => rfl
    | cons w ws => simp [names] at hw
  | cons b new ih =>
    cases ws with
    | nil => simp [names] at hw
    | cons w ws =>
      obtain ⟨hb, hrest⟩ := List.cons.inj hw
      have happend : pre ++ b :: new ++ post = pre ++ [b] ++ new ++ post := by simp
      have hfresh : b.name ∉ pre.names := by
        rw [List.append_assoc, names_append, List.nodup_append] at hn
        intro hm
        exact hn.2.2 b.name hm b.name (by simp [names]) rfl
      have hposition : position (pre ++ b :: new ++ post) w = pre.length + 1 := by
        rw [List.append_assoc, List.cons_append]
        exact position_append hb hfresh
      have htail : ws.map (position (pre ++ [b] ++ new ++ post)) =
          List.range' ((pre ++ [b]).length + 1) ws.length := ih (happend ▸ hn) hrest
      rw [List.map_cons, hposition, happend, htail, List.length_append, List.length_singleton,
        List.length_cons, List.range'_succ]

/-- Placeholders that are bound in a row are numbered in a row. -/
theorem write_names {pre new post : Bindings} (hn : (names (pre ++ new ++ post)).Nodup)
    (hw : ∀ m ∈ new.names, IsNamed m) :
    new.names.map (write (pre ++ new ++ post)) =
      (List.range' (pre.length + 1) new.length).map fun n => '$' :: Text.decimal n := by
  have htail : new.names = (new.names.map List.tail).map (':' :: ·) := by
    rw [List.map_map]
    refine (List.map_id _).symm.trans (List.map_congr_left fun m hm => ?_)
    obtain ⟨w, _, rfl⟩ := hw m hm
    rfl
  have hblock := positions_block hn htail
  rw [List.length_map, names, List.length_map] at hblock
  rw [← hblock, List.map_map, List.map_map]
  refine List.map_congr_left fun m hm => ?_
  obtain ⟨w, hword, rfl⟩ := hw m hm
  have hmark := write_mark (pre ++ new ++ post) hword (t := []) rfl
  rw [List.append_nil] at hmark
  rw [hmark]
  exact List.append_nil _

/-- The name at the number of a bound name is that name. -/
theorem getElem?_position {bs : Bindings} {w : Text} (h : ':' :: w ∈ bs.names) :
    bs.names[bs.position w - 1]? = some (':' :: w) := by
  obtain ⟨b, hb, he⟩ := List.mem_map.mp h
  have hlt : (bs.findIdx fun b => b.name = ':' :: w) < bs.length :=
    List.findIdx_lt_length_of_exists ⟨b, hb, by simp [he]⟩
  have hname := List.findIdx_getElem (w := hlt)
  rw [position, Nat.add_sub_cancel, names, List.getElem?_map, List.getElem?_eq_getElem hlt]
  simpa using hname

/-- A statement whose placeholders are the last names refers to those bindings and no others. -/
theorem referenced_tail {pre new : Bindings} {sql : Text} {ms : List Text}
    (hw : Written IsNamed sql ms) (hn : (names (pre ++ new)).Nodup)
    (hm : ∀ m, m ∈ ms ↔ m ∈ new.names) : referenced (pre ++ new) sql = new := by
  have hmarks (b : Binding) :
      ((occurrences sql).any fun n => b.name = ':' :: n) = true ↔ b.name ∈ new.names := by
    rw [← hm, hw.occurrences_eq, List.any_eq_true, List.mem_map]
    simp only [decide_eq_true_eq, eq_comm (a := b.name)]
  rw [names_append, List.nodup_append] at hn
  have hpre : referenced pre sql = [] := by
    refine List.filter_eq_nil_iff.mpr fun b hb hany => ?_
    exact hn.2.2 b.name (List.mem_map.mpr ⟨b, hb, rfl⟩) b.name ((hmarks b).mp hany) rfl
  have hnew : referenced new sql = new :=
    List.filter_eq_self.mpr fun b hb => (hmarks b).mpr (List.mem_map.mpr ⟨b, hb, rfl⟩)
  rw [referenced, List.filter_append]
  exact (congrArg₂ (· ++ ·) hpre hnew).trans (List.nil_append new)

end FluentSql.Bindings
