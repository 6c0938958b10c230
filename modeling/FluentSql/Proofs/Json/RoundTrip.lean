import FluentSql.Proofs.Json.Normal
import FluentSql.Proofs.Json.Quoted
import FluentSql.Proofs.Json.Real

namespace FluentSql.Json

/-- A value whose doubles all have a property. -/
inductive Doubles (P : Double → Prop) : Json → Prop
  | null : Doubles P .null
  | bool (b : Bool) : Doubles P (.bool b)
  | int (i : Int) : Doubles P (.int i)
  | real {r : Double} (h : P r) : Doubles P (.real r)
  | text (t : Text) : Doubles P (.text t)
  | array {items : List Json} (h : ∀ v ∈ items, Doubles P v) : Doubles P (.array items)
  | object {members : List (Text × Json)} (h : ∀ m ∈ members, Doubles P m.2) :
      Doubles P (.object members)

/-- A value whose doubles are all read from their own text. -/
abbrev Exact : Json → Prop := Doubles Restored

/-- A value without doubles. -/
abbrev Whole : Json → Prop := Doubles fun _ => False

theorem Doubles.mono {P Q : Double → Prop} (hPQ : ∀ r, P r → Q r) {v : Json} (h : Doubles P v) :
    Doubles Q v := by
  induction h with
  | null => exact .null
  | bool b => exact .bool b
  | int i => exact .int i
  | real h => exact .real (hPQ _ h)
  | text t => exact .text t
  | array _ ih => exact .array ih
  | object _ ih => exact .object ih

theorem readValue?_text (t : Text) (fuel depth : Nat) (rest : Text) :
    readValue? (fuel + 1) depth (quoted t ++ rest) = some (.text t, rest) := by
  have hquoted : quoted t ++ rest = '"' :: (t.flatMap quotedChar ++ '"' :: rest) := by
    simp [quoted]
  have hskip : skipBlank ('"' :: (t.flatMap quotedChar ++ '"' :: rest)) = _ :=
    skipBlank_cons (by decide) _
  rw [hquoted, readValue?, hskip]
  change (readString? _).map _ = _
  rw [readString?_quoted]
  rfl

/-- How the text of an item begins. -/
def Begins (t : Text) : Prop := ∃ c u, t = c :: u ∧ isBlank c = false ∧ c ≠ ']'

theorem begins_write {v : Json} (h : Exact v) : Begins v.write := by
  cases h with
  | null => exact ⟨_, _, rfl, by decide, by decide⟩
  | bool b => cases b <;> exact ⟨_, _, rfl, by decide, by decide⟩
  | int i =>
    cases i with
    | ofNat n =>
      obtain ⟨c, t, hc, hdigit⟩ := decimal_cons n
      exact ⟨c, t, hc, isBlank_digit hdigit, digit_ne hdigit rfl⟩
    | negSucc n => exact ⟨_, _, rfl, by decide, by decide⟩
  | real h =>
    obtain ⟨u, ht, -⟩ | ⟨c, u, ht, hdigit, -⟩ := readNumber?_of_read (write_restored h) h
    · exact ⟨_, _, ht, by decide, by decide⟩
    · exact ⟨c, u, ht, isBlank_digit hdigit, digit_ne hdigit rfl⟩
  | text t => exact ⟨_, _, rfl, by decide, by decide⟩
  | array h => exact ⟨_, _, rfl, by decide, by decide⟩
  | object h => exact ⟨_, _, rfl, by decide, by decide⟩

theorem begins_writeItems {v : Json} {vs : List Json} (h : Exact v) :
    Begins (writeItems (v :: vs)) := by
  obtain ⟨c, u, hu, hc⟩ := begins_write h
  cases vs with
  | nil => exact ⟨c, u, hu, hc⟩
  | cons w vs => exact ⟨c, _, by rw [writeItems, hu]; rfl, hc⟩

theorem Begins.append {t : Text} (h : Begins t) (rest : Text) : Begins (t ++ rest) := by
  obtain ⟨c, u, rfl, hc⟩ := h
  exact ⟨c, u ++ rest, rfl, hc⟩

theorem writeMembers_cons (m : Text × Json) (ms : List (Text × Json)) :
    ∃ u, writeMembers (m :: ms) = '"' :: u := by
  cases ms with
  | nil => exact ⟨_, rfl⟩
  | cons n ms => exact ⟨_, rfl⟩

theorem readValue?_bracket (fuel depth : Nat) (t : Text) :
    readValue? (fuel + 1) (depth + 1) ('[' :: t) =
      match skipBlank t with
      | ']' :: t => some (array [], t)
      | t => (readItems? fuel depth t).map fun r => (array r.1, r.2) := by
  rw [readValue?]
  rfl

theorem readValue?_brace (fuel depth : Nat) (t : Text) :
    readValue? (fuel + 1) (depth + 1) ('\x7b' :: t) =
      match skipBlank t with
      | '\x7d' :: t => some (object [], t)
      | t => (readMembers? fuel depth [] t).map fun r => (object r.1, r.2) := by
  rw [readValue?]
  rfl

theorem readValue?_array {t : Text} (h : Begins t) (fuel depth : Nat) :
    readValue? (fuel + 1) (depth + 1) ('[' :: t) =
      (readItems? fuel depth t).map fun r => (array r.1, r.2) := by
  obtain ⟨c, u, rfl, hblank, hclose⟩ := h
  rw [readValue?_bracket, skipBlank_cons hblank]
  split
  · next he => exact absurd (List.cons.inj he).1 hclose
  · rfl

theorem readValue?_object (fuel depth : Nat) (t : Text) :
    readValue? (fuel + 1) (depth + 1) ('\x7b' :: '"' :: t) =
      (readMembers? fuel depth [] ('"' :: t)).map fun r => (object r.1, r.2) := by
  rw [readValue?_brace, skipBlank_cons (by decide)]
  rfl

/-- What the three readers give on what is written, with so much fuel. -/
structure ReadsBack (fuel : Nat) : Prop where
  value : ∀ depth v rest, Normal depth v → Exact v → Stops rest → 2 * v.write.length ≤ fuel →
    readValue? fuel depth (v.write ++ rest) = some (v, rest)
  items : ∀ depth vs rest, vs ≠ [] → (∀ v ∈ vs, Normal depth v ∧ Exact v) →
    2 * (writeItems vs).length + 1 ≤ fuel →
    readItems? fuel depth (writeItems vs ++ ']' :: rest) = some (vs, rest)
  members : ∀ depth before ms rest, ms ≠ [] → Sorted (before ++ ms) →
    (∀ m ∈ ms, Normal depth m.2 ∧ Exact m.2) → 2 * (writeMembers ms).length + 1 ≤ fuel →
    readMembers? fuel depth before (writeMembers ms ++ '\x7d' :: rest) = some (before ++ ms, rest)

theorem ReadsBack.value_succ {fuel : Nat} (ih : ReadsBack fuel) {depth : Nat} {v : Json}
    {rest : Text} (hn : Normal depth v) (he : Exact v) (hrest : Stops rest)
    (hfuel : 2 * v.write.length ≤ fuel + 1) :
    readValue? (fuel + 1) depth (v.write ++ rest) = some (v, rest) := by
  cases hn with
  | null =>
    rw [readValue?]
    rfl
  | bool b =>
    rw [readValue?]
    cases b <;> rfl
  | int h h' => exact readValue?_int h h' fuel depth hrest
  | real r =>
    cases he with
    | real h => exact readValue?_real h fuel depth hrest
  | text t => exact readValue?_text t fuel depth rest
  | @array depth items h =>
    have hexact : ∀ w ∈ items, Exact w := by
      cases he
      assumption
    have hwrite : (array items).write ++ rest = '[' :: (writeItems items ++ ']' :: rest) := by
      simp [write]
    have hlength : (array items).write.length = (writeItems items).length + 2 := by simp [write]
    rw [hwrite]
    cases items with
    | nil =>
      rw [readValue?_bracket]
      rfl
    | cons w ws =>
      have hitem : Begins (writeItems (w :: ws)) := begins_writeItems (hexact w (by simp))
      have hbegins := hitem.append (']' :: rest)
      have hitems := ih.items depth (w :: ws) rest (by simp) (fun u hu => ⟨h u hu, hexact u hu⟩)
        (by omega)
      rw [readValue?_array hbegins, hitems]
      rfl
  | @object depth members hsorted h =>
    have hexact : ∀ m ∈ members, Exact m.2 := by
      cases he
      assumption
    have hwrite : (object members).write ++ rest =
        '\x7b' :: (writeMembers members ++ '\x7d' :: rest) := by
      simp [write]
    have hlength : (object members).write.length = (writeMembers members).length + 2 := by
      simp [write]
    rw [hwrite]
    cases members with
    | nil =>
      rw [readValue?_brace]
      rfl
    | cons m ms =>
      obtain ⟨u, hu⟩ := writeMembers_cons m ms
      have hmembers := ih.members depth [] (m :: ms) rest (by simp) hsorted
        (fun n hn => ⟨h n hn, hexact n hn⟩) (by omega)
      rw [hu, List.cons_append] at hmembers ⊢
      rw [readValue?_object, hmembers]
      rfl

theorem ReadsBack.items_succ {fuel : Nat} (ih : ReadsBack fuel) {depth : Nat} {vs : List Json}
    {rest : Text} (hne : vs ≠ []) (h : ∀ v ∈ vs, Normal depth v ∧ Exact v)
    (hfuel : 2 * (writeItems vs).length + 1 ≤ fuel + 1) :
    readItems? (fuel + 1) depth (writeItems vs ++ ']' :: rest) = some (vs, rest) := by
  cases vs with
  | nil => exact absurd rfl hne
  | cons v vs =>
    obtain ⟨hn, he⟩ := h v (by simp)
    cases vs with
    | nil =>
      have hvalue := ih.value depth v (']' :: rest) hn he (stops_cons (by decide) rest)
        (by simpa [writeItems] using hfuel)
      rw [readItems?, writeItems, hvalue]
      rfl
    | cons w vs =>
      have hwrite : writeItems (v :: w :: vs) ++ ']' :: rest =
          v.write ++ ',' :: (writeItems (w :: vs) ++ ']' :: rest) := by
        simp [writeItems]
      have hlength : (writeItems (v :: w :: vs)).length =
          v.write.length + (writeItems (w :: vs)).length + 1 := by
        simp [writeItems]
        omega
      have hvalue := ih.value depth v (',' :: (writeItems (w :: vs) ++ ']' :: rest)) hn he
        (stops_cons (by decide) _) (by omega)
      have hitems := ih.items depth (w :: vs) rest (by simp)
        (fun u hu => h u (List.mem_cons_of_mem v hu)) (by omega)
      rw [readItems?, hwrite, hvalue]
      change (readItems? fuel depth _).map _ = _
      rw [hitems]
      rfl

theorem quoted_append (key t : Text) :
    quoted key ++ ':' :: t = '"' :: (key.flatMap quotedChar ++ '"' :: ':' :: t) := by
  simp [quoted]

theorem readMembers?_last {fuel depth : Nat} {t rest : Text} {v : Json}
    (h : readValue? fuel depth t = some (v, '\x7d' :: rest)) (before : List (Text × Json))
    (key : Text) :
    readMembers? (fuel + 1) depth before (quoted key ++ ':' :: t) =
      some (insert key v before, rest) := by
  have hcolon : skipBlank (':' :: t) = ':' :: t := rfl
  rw [quoted_append, readMembers?, skipBlank_cons (by decide)]
  simp only [readString?_quoted, hcolon, h]
  rfl

theorem readMembers?_next {fuel depth : Nat} {t rest : Text} {v : Json}
    (h : readValue? fuel depth t = some (v, ',' :: rest)) (before : List (Text × Json))
    (key : Text) :
    readMembers? (fuel + 1) depth before (quoted key ++ ':' :: t) =
      readMembers? fuel depth (insert key v before) rest := by
  have hcolon : skipBlank (':' :: t) = ':' :: t := rfl
  rw [quoted_append, readMembers?, skipBlank_cons (by decide)]
  simp only [readString?_quoted, hcolon, h]
  rfl

theorem ReadsBack.members_succ {fuel : Nat} (ih : ReadsBack fuel) {depth : Nat}
    {before ms : List (Text × Json)} {rest : Text} (hne : ms ≠ []) (hsorted : Sorted (before ++ ms))
    (h : ∀ m ∈ ms, Normal depth m.2 ∧ Exact m.2)
    (hfuel : 2 * (writeMembers ms).length + 1 ≤ fuel + 1) :
    readMembers? (fuel + 1) depth before (writeMembers ms ++ '\x7d' :: rest) =
      some (before ++ ms, rest) := by
  cases ms with
  | nil => exact absurd rfl hne
  | cons m ms =>
    obtain ⟨key, v⟩ := m
    obtain ⟨hn, he⟩ := h (key, v) (by simp)
    have hlast : insert key v before = before ++ [(key, v)] :=
      insert_last fun n hb => (List.pairwise_append.mp hsorted).2.2 n hb (key, v) (by simp)
    cases ms with
    | nil =>
      have hwrite : writeMembers [(key, v)] ++ '\x7d' :: rest =
          quoted key ++ ':' :: (v.write ++ '\x7d' :: rest) := by
        simp [writeMembers]
      have hlength : (writeMembers [(key, v)]).length = (quoted key).length + 1 + v.write.length := by
        simp [writeMembers]
        omega
      have hvalue := ih.value depth v ('\x7d' :: rest) hn he (stops_cons (by decide) rest) (by omega)
      rw [hwrite, readMembers?_last hvalue, hlast]
    | cons n ms =>
      have hwrite : writeMembers ((key, v) :: n :: ms) ++ '\x7d' :: rest =
          quoted key ++ ':' :: (v.write ++ ',' :: (writeMembers (n :: ms) ++ '\x7d' :: rest)) := by
        simp [writeMembers]
      have hlength : (writeMembers ((key, v) :: n :: ms)).length =
          (quoted key).length + 1 + v.write.length + 1 + (writeMembers (n :: ms)).length := by
        simp [writeMembers]
        omega
      have hvalue := ih.value depth v (',' :: (writeMembers (n :: ms) ++ '\x7d' :: rest)) hn he
        (stops_cons (by decide) _) (by omega)
      have hsorted' : Sorted (before ++ [(key, v)] ++ n :: ms) := by simpa using hsorted
      have hmembers := ih.members depth (before ++ [(key, v)]) (n :: ms) rest (by simp) hsorted'
        (fun u hu => h u (List.mem_cons_of_mem _ hu)) (by omega)
      rw [hwrite, readMembers?_next hvalue, hlast, hmembers, List.append_assoc]
      rfl

theorem readsBack (fuel : Nat) : ReadsBack fuel := by
  induction fuel with
  | zero =>
    refine ⟨?_, fun _ _ _ _ _ h => by omega, fun _ _ _ _ _ _ _ h => by omega⟩
    intro depth v rest _ he _ h
    obtain ⟨c, u, hu, -⟩ := begins_write he
    rw [hu, List.length_cons] at h
    omega
  | succ fuel ih =>
    exact ⟨fun _ _ _ hn he hr hf => ih.value_succ hn he hr hf,
      fun _ _ _ hne h hf => ih.items_succ hne h hf,
      fun _ _ _ _ hne hs h hf => ih.members_succ hne hs h hf⟩

/-- A document whose doubles are read from their own text is so as well. -/
theorem read?_write {t : Text} {v : Json} (h : read? t = some v) (he : Exact v) :
    read? v.write = some v := by
  have hvalue := (readsBack (2 * v.write.length + 2)).value maxDepth v [] (read?_normal h) he
    (by simp [Stops]) (by omega)
  rw [List.append_nil] at hvalue
  unfold read?
  rw [hvalue]
  rfl

theorem trim_enclosed {a b : Char} (ha : Text.isBlank a = false) (hb : Text.isBlank b = false)
    (t : Text) : Text.trim (a :: t ++ [b]) = a :: t ++ [b] :=
  Text.trim_eq_self (by simpa using ha) (by rw [List.getLast?_concat]; simpa using hb)

/-- Nothing is trimmed off a document. -/
theorem trim_write {v : Json} (h : Exact v) : Text.trim v.write = v.write := by
  cases h with
  | null => decide
  | bool b => cases b <;> decide
  | int i =>
    refine Text.trim_solid ?_
    cases i with
    | ofNat n => exact fun c hc => Text.isBlank_digit (Text.decimal_chars n c hc)
    | negSucc n =>
      intro c hc
      obtain rfl | hc := List.mem_cons.mp hc
      · decide
      · exact Text.isBlank_digit (Text.decimal_chars (n + 1) c hc)
  | real h => exact trim_restored h
  | text t => exact trim_enclosed (by decide) (by decide) _
  | array h => exact trim_enclosed (by decide) (by decide) _
  | object h => exact trim_enclosed (by decide) (by decide) _

end FluentSql.Json
