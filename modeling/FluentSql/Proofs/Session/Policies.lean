import FluentSql.Proofs.Condition.Accepted
import FluentSql.Proofs.Session.Failure

namespace FluentSql.Session

open Condition
open Text (IsSpace)

/-- The session under another policy for malformed conditions. -/
def under (s : Session) (policy : MalformedPolicy) : Session :=
  { s with config := { s.config with malformed := policy } }

/-- What is logged for a fragment that is left out. -/
def warning (k : Skipped) : Event := .skipped k.fragment k.fault

/-- How a filter that may skip compares with one that may not, for a condition that is read
leniently in some way. -/
structure FiltersAlike (s : Session) (t : Text) (r : Reading) : Prop where
  /-- Every skipped fragment is logged once, in their order, and nothing else is. -/
  logged : ((s.under .skip).apply (.filter t)).2 = r.skipped.map warning ∧
    ((s.under .reject).apply (.filter t)).2 = []
  /-- If nothing is skipped, the sessions differ in their policy only. -/
  whole : r.skipped = [] → ((s.under .skip).apply (.filter t)).1 =
    ((s.under .reject).apply (.filter t)).1.under .skip
  /-- If not everything is skipped, it is as if the skipped fragments had never been written. -/
  part : r.skipped ≠ [] → r.accepted ≠ [] → ((s.under .skip).apply (.filter t)).1 =
    ((s.under .reject).apply (.filter (acceptedPart t))).1.under .skip
  /-- If everything is skipped, the filter fails under both policies. -/
  nothing : r.accepted = [] → ((s.under .skip).apply (.filter t)).1.fault =
      s.fault.or (some (.condition (.nothingAccepted (fragments t).length))) ∧
    ∃ k ks, r.skipped = k :: ks ∧ ((s.under .reject).apply (.filter t)).1.fault =
      s.fault.or (some (.condition k.fault))

variable {s : Session} {t u : Text} {r : Reading}

/-- A filter depends on its condition, and on the policy, only by what is read. -/
theorem setFilter_congr (s : Session) {policy policy' : MalformedPolicy}
    (h : (readCondition policy t).1 = (readCondition policy' u).1) :
    ((s.under policy).setFilter t).1 = ((s.under policy').setFilter u).1.under policy := by
  unfold setFilter under
  dsimp only
  rw [h]
  cases (readCondition policy' u).1 with
  | error e => rfl
  | ok ps =>
    dsimp only
    cases terms (s.bindings.removeClause .filter) ps <;> rfl

theorem setFilter_events (s : Session) (t : Text) :
    (s.setFilter t).2 = (readCondition s.config.malformed t).2 := by
  unfold setFilter
  dsimp only
  cases (readCondition s.config.malformed t).1 with
  | error e => rfl
  | ok ps =>
    dsimp only
    cases terms (s.bindings.removeClause .filter) ps <;> rfl

theorem readCondition_skip (h : parseLenient t = .ok r) : readCondition .skip t =
    (if r.accepted.isEmpty then .error (.nothingAccepted r.skipped.length) else .ok r.accepted,
      r.skipped.map warning) := by
  unfold readCondition
  rw [h]
  dsimp only
  split <;> rfl

theorem readCondition_reject (h : parseLenient t = .ok r) :
    readCondition .reject t = (r.strict, []) := by
  have hstrict : parse t = r.strict := by rw [parse_eq, h]; rfl
  rw [readCondition, hstrict]

theorem filtersAlike (s : Session) (h : parseLenient t = .ok r) : s.FiltersAlike t r := by
  have hskip := readCondition_skip h
  have hreject := readCondition_reject h
  have hcount : r.accepted.length + r.skipped.length = (fragments t).length := by
    obtain ⟨-, rfl⟩ := parseLenient_eq_ok.mp h
    exact readFrom_count 0 _
  have hfragments := List.length_pos_of_ne_nil (fragments_ne_nil t)
  refine ⟨⟨?_, ?_⟩, fun hnone => ?_, fun _ hsome => ?_, fun hnone => ?_⟩
  · exact (setFilter_events _ t).trans (congrArg Prod.snd hskip)
  · exact (setFilter_events _ t).trans (congrArg Prod.snd hreject)
  · have hsome : r.accepted ≠ [] := by
      intro hnil
      rw [hnil, hnone] at hcount
      exact absurd hcount hfragments.ne
    refine s.setFilter_congr ?_
    rw [hskip, hreject, if_neg (by simpa using hsome), Reading.strict, hnone]
  · refine s.setFilter_congr ?_
    have hpart : readCondition .reject (acceptedPart t) = (.ok r.accepted, []) := by
      rw [readCondition, parse_acceptedPart h hsome]
    rw [hskip, hpart, if_neg (by simpa using hsome)]
  · rw [hnone, List.length_nil, Nat.zero_add] at hcount
    cases hskipped : r.skipped with
    | nil => simp [hskipped] at hcount; omega
    | cons k ks =>
      refine ⟨(setFilter_fault _ t).trans ?_, k, ks, rfl, (setFilter_fault _ t).trans ?_⟩
      · change s.fault.or ((errorOf? (readCondition .skip t).1).map Error.condition) = _
        rw [hskip, hnone, hcount]
        rfl
      · change s.fault.or ((errorOf? (readCondition .reject t).1).map Error.condition) = _
        rw [hreject, Reading.strict, hskipped]
        rfl

/-- The strict reading of a condition is the lenient one, if that skips nothing, and fails with the
first fragment that it skips otherwise. So a filter under the lenient policy does what one under the
strict policy does with the fragments that are accepted. -/
theorem policies_agree :
    (∀ t ps, parse t = .ok ps ↔ parseLenient t = .ok ⟨ps, []⟩) ∧
    (∀ t e, parse t = .error e ↔ parseLenient t = .error e ∨
      ∃ r k ks, parseLenient t = .ok r ∧ r.skipped = k :: ks ∧ k.fault = e) ∧
    (∀ t e, parseLenient t = .error e ↔ IsSpace t ∧ e = .empty) ∧
    (∀ (s : Session) t, IsSpace t → (s.under .skip).apply (.filter t) =
      (((s.under .reject).apply (.filter t)).1.under .skip, [])) ∧
    ∀ (s : Session) t r, parseLenient t = .ok r → s.FiltersAlike t r := by
  refine ⟨fun t ps => parse_ok_iff, fun t e => parse_error_iff, fun t e => parseLenient_error_iff,
    fun s t ht => ?_, fun s t r h => s.filtersAlike h⟩
  have hempty : parseLenient t = .error .empty := parseLenient_error_iff.mpr ⟨ht, rfl⟩
  have hskip : readCondition .skip t = (.error .empty, []) := by rw [readCondition, hempty]
  have hreject : readCondition .reject t = (.error .empty, []) := by
    rw [readCondition, parse_error_iff.mpr (.inl hempty)]
  refine Prod.ext (s.setFilter_congr ?_) ((setFilter_events _ t).trans (congrArg Prod.snd hskip))
  rw [hskip, hreject]

theorem policies_agree_part :
    let s := start {} "users".toList
    let t := "age >= 18, garbage, city = 'Paris, France', = 3".toList
    let r : Reading := ⟨[⟨"age".toList, .gte, "18".toList⟩,
        ⟨"city".toList, .eq, "'Paris, France'".toList⟩],
      [⟨"garbage".toList, .missingOperator "garbage".toList⟩,
        ⟨"= 3".toList, .missingColumn "= 3".toList⟩]⟩
    parseLenient t = .ok r ∧ r.skipped ≠ [] ∧ r.accepted ≠ [] ∧
      parse t = .error (.missingOperator "garbage".toList) ∧
      ((s.under .skip).apply (.filter t)).2.length = 2 ∧
      ((s.under .skip).apply (.filter t)).1 =
        ((s.under .reject).apply (.filter "age >= 18, city = 'Paris, France'".toList)).1.under
          .skip := by
  intro s t r
  obtain ⟨-, hfails, -, -, hfilters⟩ := policies_agree
  have hr : parseLenient t = .ok r := rfl
  have halike := hfilters s t r hr
  refine ⟨hr, by simp [r], by simp [r], (hfails t _).mpr (.inr ⟨r, _, _, hr, rfl, rfl⟩), ?_,
    halike.part (by simp [r]) (by simp [r])⟩
  rw [halike.logged.1]
  rfl

end FluentSql.Session
