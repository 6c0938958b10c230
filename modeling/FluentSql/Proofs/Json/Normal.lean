import FluentSql.Json.Reader
import Mathlib.Data.Char
import Mathlib.Data.List.Lex

namespace FluentSql

theorem Text.comesBefore_iff (s t : Text) : comesBefore s t = true ↔ s < t := by
  induction s generalizing t with
  | nil => cases t <;> simp [comesBefore]
  | cons a s ih =>
    cases t with
    | nil => simp [comesBefore]
    | cons b t =>
      rw [List.cons_lt_cons_iff, comesBefore]
      by_cases hab : a = b
      · simp [hab, ih]
      · simp [hab]

namespace Json

/-- The members of an object as they are kept: by key, and one for each. -/
def Sorted (members : List (Text × Json)) : Prop := members.Pairwise fun m n => m.1 < n.1

/-- A value as it is read: with at most so many levels, whole numbers of 64 bits, and sorted
members. -/
inductive Normal : Nat → Json → Prop
  | null {depth : Nat} : Normal depth .null
  | bool {depth : Nat} (b : Bool) : Normal depth (.bool b)
  | int {depth : Nat} {i : Int} (h : -9223372036854775808 ≤ i) (h' : i ≤ mostSignificand) :
      Normal depth (.int i)
  | real {depth : Nat} (r : Double) : Normal depth (.real r)
  | text {depth : Nat} (t : Text) : Normal depth (.text t)
  | array {depth : Nat} {items : List Json} (h : ∀ v ∈ items, Normal depth v) :
      Normal (depth + 1) (.array items)
  | object {depth : Nat} {members : List (Text × Json)} (hsorted : Sorted members)
      (h : ∀ m ∈ members, Normal depth m.2) : Normal (depth + 1) (.object members)

theorem mem_insert {key : Text} {v : Json} {members : List (Text × Json)} {m : Text × Json}
    (h : m ∈ insert key v members) : m = (key, v) ∨ m ∈ members := by
  induction members with
  | nil => exact .inl (List.mem_singleton.mp h)
  | cons n members ih =>
    obtain ⟨k, w⟩ := n
    rw [insert] at h
    split_ifs at h
    · obtain h | h := List.mem_cons.mp h
      · exact .inl h
      · exact .inr (List.mem_cons_of_mem _ h)
    · exact (List.mem_cons.mp h).imp_right fun h => h
    · obtain h | h := List.mem_cons.mp h
      · exact .inr (h ▸ List.mem_cons_self)
      · exact (ih h).imp_right (List.mem_cons_of_mem _)

theorem sorted_insert {key : Text} {v : Json} {members : List (Text × Json)} (h : Sorted members) :
    Sorted (insert key v members) := by
  induction members with
  | nil => exact List.pairwise_singleton _ _
  | cons n members ih =>
    obtain ⟨k, w⟩ := n
    obtain ⟨hfirst, hrest⟩ := List.pairwise_cons.mp h
    rw [insert]
    split_ifs with heq hbefore
    · subst heq
      exact List.pairwise_cons.mpr ⟨hfirst, hrest⟩
    · rw [Text.comesBefore_iff] at hbefore
      refine List.pairwise_cons.mpr ⟨?_, h⟩
      intro m hm
      obtain rfl | hm := List.mem_cons.mp hm
      · exact hbefore
      · exact hbefore.trans (hfirst m hm)
    · rw [Text.comesBefore_iff] at hbefore
      refine List.pairwise_cons.mpr ⟨?_, ih hrest⟩
      intro m hm
      obtain rfl | hm := mem_insert hm
      · exact lt_of_le_of_ne (not_lt.mp hbefore) (Ne.symm heq)
      · exact hfirst m hm

/-- A key after all others goes to the end. -/
theorem insert_last {key : Text} {v : Json} {members : List (Text × Json)}
    (h : ∀ m ∈ members, m.1 < key) : insert key v members = members ++ [(key, v)] := by
  induction members with
  | nil => rfl
  | cons n members ih =>
    obtain ⟨k, w⟩ := n
    have hk : k < key := h (k, w) (by simp)
    have hbefore : ¬Text.comesBefore key k = true := by
      rw [Text.comesBefore_iff]
      exact hk.not_gt
    rw [insert, if_neg hk.ne', if_neg hbefore, ih fun m hm => h m (List.mem_cons_of_mem _ hm)]
    rfl

theorem significand_le {n taken : Nat} (h : n ≤ mostSignificand) (t : Text) :
    (significand n taken t).1 ≤ mostSignificand := by
  induction t generalizing n taken with
  | nil => exact h
  | cons c t ih =>
    rw [significand]
    split_ifs with hnext
    · exact ih hnext
    · exact h

theorem readNumber?_normal {negative : Bool} {t rest : Text} {v : Json} (depth : Nat)
    (h : readNumber? negative t = some (v, rest)) : Normal depth v := by
  have hle : (significand 0 0 (t.takeWhile Char.isDigit)).1 ≤ 18446744073709551615 :=
    significand_le (Nat.zero_le _) (t.takeWhile Char.isDigit)
  have hmost : mostSignificand = 18446744073709551615 := rfl
  unfold readNumber? at h
  dsimp only at h
  split at h
  · cases h
  · cases h
  · split at h
    · have h := (Option.ite_none_left_eq_some.mp h).2
      obtain ⟨⟨hasExponent, e, rest'⟩, -, h⟩ := Option.bind_eq_some_iff.mp h
      rw [if_pos (by simp)] at h
      obtain ⟨r, -, hr⟩ := Option.map_eq_some_iff.mp h
      rw [← (Prod.mk.inj hr).1]
      exact .real _
    · have h := (Option.ite_none_left_eq_some.mp h).2
      obtain ⟨⟨hasExponent, e, rest'⟩, -, h⟩ := Option.bind_eq_some_iff.mp h
      obtain ⟨-, h⟩ | ⟨-, h⟩ := ite_eq_iff.mp h
      · obtain ⟨r, -, hr⟩ := Option.map_eq_some_iff.mp h
        rw [← (Prod.mk.inj hr).1]
        exact .real _
      obtain ⟨-, h⟩ | ⟨-, h⟩ := ite_eq_iff.mp h
      · rw [← (Prod.mk.inj (Option.some.inj h)).1]
        exact .int (by omega) (by omega)
      obtain ⟨-, h⟩ | ⟨hlarge, h⟩ := ite_eq_iff.mp h
      · rw [← (Prod.mk.inj (Option.some.inj h)).1]
        exact .real _
      · rw [← (Prod.mk.inj (Option.some.inj h)).1]
        simp only [Bool.or_eq_true, decide_eq_true_eq, not_or, not_lt] at hlarge
        exact .int (by omega) (by omega)

/-- What is read with so much fuel is normal. -/
structure ReadsNormal (fuel : Nat) : Prop where
  value : ∀ depth t v rest, readValue? fuel depth t = some (v, rest) → Normal depth v
  items : ∀ depth t vs rest, readItems? fuel depth t = some (vs, rest) → ∀ v ∈ vs, Normal depth v
  members : ∀ depth before t ms rest, readMembers? fuel depth before t = some (ms, rest) →
    Sorted before → (∀ m ∈ before, Normal depth m.2) → Sorted ms ∧ ∀ m ∈ ms, Normal depth m.2

theorem ReadsNormal.value_succ {fuel : Nat} (ih : ReadsNormal fuel) {depth : Nat} {t rest : Text}
    {v : Json} (h : readValue? (fuel + 1) depth t = some (v, rest)) : Normal depth v := by
  rw [readValue?] at h
  split at h
  · cases h
  · obtain ⟨r, -, hr⟩ := Option.map_eq_some_iff.mp h
    rw [← (Prod.mk.inj hr).1]
    exact .text _
  · split at h
    · cases h
    · split at h
      · rw [← (Prod.mk.inj (Option.some.inj h)).1]
        exact .array (by simp)
      · obtain ⟨r, hread, hr⟩ := Option.map_eq_some_iff.mp h
        rw [← (Prod.mk.inj hr).1]
        exact .array (ih.items _ _ _ _ hread)
  · split at h
    · cases h
    · split at h
      · rw [← (Prod.mk.inj (Option.some.inj h)).1]
        exact .object List.Pairwise.nil (by simp)
      · obtain ⟨r, hread, hr⟩ := Option.map_eq_some_iff.mp h
        rw [← (Prod.mk.inj hr).1]
        obtain ⟨hsorted, hmembers⟩ := ih.members _ _ _ _ _ hread List.Pairwise.nil (by simp)
        exact .object hsorted hmembers
  · exact readNumber?_normal depth h
  · split_ifs at h
    · exact readNumber?_normal depth h
    · simp only [Option.or_eq_some_iff, Option.map_eq_some_iff] at h
      obtain ⟨r, -, hr⟩ | ⟨-, ⟨r, -, hr⟩ | ⟨-, r, -, hr⟩⟩ := h
      · rw [← (Prod.mk.inj hr).1]
        exact .null
      · rw [← (Prod.mk.inj hr).1]
        exact .bool true
      · rw [← (Prod.mk.inj hr).1]
        exact .bool false

theorem ReadsNormal.items_succ {fuel : Nat} (ih : ReadsNormal fuel) {depth : Nat} {t rest : Text}
    {vs : List Json} (h : readItems? (fuel + 1) depth t = some (vs, rest)) :
    ∀ v ∈ vs, Normal depth v := by
  rw [readItems?] at h
  split at h
  · cases h
  · next v u hread =>
    have hv := ih.value _ _ _ _ hread
    split at h
    · obtain ⟨r, hrest, hr⟩ := Option.map_eq_some_iff.mp h
      rw [← (Prod.mk.inj hr).1]
      intro w hw
      obtain rfl | hw := List.mem_cons.mp hw
      · exact hv
      · exact ih.items _ _ _ _ hrest w hw
    · rw [← (Prod.mk.inj (Option.some.inj h)).1]
      simpa using hv
    · cases h

theorem ReadsNormal.members_succ {fuel : Nat} (ih : ReadsNormal fuel) {depth : Nat} {t rest : Text}
    {before ms : List (Text × Json)} (h : readMembers? (fuel + 1) depth before t = some (ms, rest))
    (hsorted : Sorted before) (hbefore : ∀ m ∈ before, Normal depth m.2) :
    Sorted ms ∧ ∀ m ∈ ms, Normal depth m.2 := by
  rw [readMembers?] at h
  split at h
  · split at h
    · cases h
    · next key u hkey =>
      split at h
      · split at h
        · cases h
        · next v w hread =>
          have hv := ih.value _ _ _ _ hread
          have hsorted' : Sorted (insert key v before) := sorted_insert hsorted
          have hmembers' : ∀ m ∈ insert key v before, Normal depth m.2 := by
            intro m hm
            obtain rfl | hm := mem_insert hm
            · exact hv
            · exact hbefore m hm
          split at h
          · exact ih.members _ _ _ _ _ h hsorted' hmembers'
          · rw [← (Prod.mk.inj (Option.some.inj h)).1]
            exact ⟨hsorted', hmembers'⟩
          · cases h
      · cases h
  · cases h

theorem readsNormal (fuel : Nat) : ReadsNormal fuel := by
  induction fuel with
  | zero => exact ⟨by simp [readValue?], by simp [readItems?], by simp [readMembers?]⟩
  | succ fuel ih =>
    exact ⟨fun _ _ _ _ h => ih.value_succ h, fun _ _ _ _ h => ih.items_succ h,
      fun _ _ _ _ _ h hs hb => ih.members_succ h hs hb⟩

/-- Every document that is read is normal. -/
theorem read?_normal {t : Text} {v : Json} (h : read? t = some v) : Normal maxDepth v := by
  unfold read? at h
  split at h
  · next w rest hread =>
    obtain ⟨-, h⟩ | ⟨-, h⟩ := ite_eq_iff.mp h
    · rw [← Option.some.inj h]
      exact (readsNormal _).value _ _ _ _ hread
    · cases h
  · cases h

end Json

end FluentSql
