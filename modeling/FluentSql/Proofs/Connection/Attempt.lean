import FluentSql.Client.Recorded
import FluentSql.Connection.Provider
import FluentSql.Wire.Server
import Mathlib.Data.List.Induction

namespace FluentSql.Connection

open Recorded (Request)

/-- What is done over a network. -/
inductive Deed (η : Type) where
  | dialed (e : Endpoint)
  | sent (handle : η) (q : Request)
  | released (handle : η)
  deriving DecidableEq, Repr

variable {η σ : Type}

/-- Answers a request over a handle, which is put to the deeds before it. -/
def Deed.noting {α : Type} (handle : η) (q : Request) (answer : σ → Step σ α)
    (w : σ × List (Deed η)) : Step (σ × List (Deed η)) α :=
  let a := answer w.1
  ⟨a.result, a.events, (a.state, w.2 ++ [.sent handle q])⟩

/-- A network that keeps what is done over it. -/
def Network.noted (net : Network η σ) : Network η (σ × List (Deed η)) where
  dial e w := ((net.dial e w.1).1, ((net.dial e w.1).2, w.2 ++ [.dialed e]))
  client handle :=
    { query := fun sql params =>
        Deed.noting handle ⟨.query, none, sql, params⟩ ((net.client handle).query sql params)
      execute := fun sql params =>
        Deed.noting handle ⟨.execute, none, sql, params⟩ ((net.client handle).execute sql params) }
  isOpen handle w := net.isOpen handle w.1
  release handle w := (net.release handle w.1, w.2 ++ [.released handle])

/-- A call on a provider, or a change of the world between two calls. -/
inductive Act (σ : Type) where
  | handle
  | query (sql : Text) (params : List Value)
  | execute (sql : Text) (params : List Value)
  | isConnected
  | reconfigure (c : Config)
  | elapse (change : σ → σ)

inductive Reply (η : Type) where
  | handle (held : η)
  | rows (rs : List Record)
  | affected (count : Nat)
  | connected (status : Bool)
  | done

namespace Act

/-- Whether a call needs a connection. -/
def isUse : Act σ → Bool
  | handle => true
  | query _ _ => true
  | execute _ _ => true
  | _ => false

def isReconfigure : Act σ → Bool
  | reconfigure _ => true
  | _ => false

/-- The configuration after calls is the first one, or that of a last call. -/
def Configures (first : Config) (acts : List (Act σ)) (c : Config) : Prop :=
  (acts = [] ∧ c = first) ∨ ∃ before, acts = before ++ [.reconfigure c]

end Act

/-- A provider, with the world that its network leads to and the deeds there so far. -/
abbrev Situation (η σ : Type) := Provider η × σ × List (Deed η)

/-- What comes of a call. -/
def Situation.step (net : Network η σ) (p : Situation η σ) :
    Act σ → Step (Situation η σ) (Reply η)
  | .handle => (p.1.handle net.noted p.2).map .handle
  | .query sql params => ((Provider.client net.noted).query sql params p).map .rows
  | .execute sql params => ((Provider.client net.noted).execute sql params p).map .affected
  | .isConnected => ⟨.ok (.connected (p.1.isConnected net.noted p.2)), [], p⟩
  | .reconfigure c => ⟨.ok .done, [], p.1.reconfigure net.noted c p.2⟩
  | .elapse change => ⟨.ok .done, [], (p.1, change p.2.1, p.2.2)⟩

def Situation.after (net : Network η σ) (p : Situation η σ) (acts : List (Act σ)) :
    Situation η σ :=
  acts.foldl (fun p a => (p.step net a).state) p

/-- Calls are refused with what went wrong before, and nothing is done for them. -/
structure Situation.Refuses (net : Network η σ) (fault : ConnectionFault) (p : Situation η σ) :
    Prop where
  use : ∀ a : Act σ, a.isUse = true → p.step net a = ⟨.error (.connection fault), [], p⟩
  status : p.step net .isConnected = ⟨.ok (.connected false), [], p⟩

/-- Calls go over a handle that is there. -/
structure Situation.Holds (net : Network η σ) (held : η) (p : Situation η σ) : Prop where
  handle : p.step net .handle = ⟨.ok (.handle held), [], p⟩
  query : ∀ sql params, p.step net (.query sql params) =
    let a := (net.client held).query sql params p.2.1
    ⟨a.result.map .rows, a.events,
      (p.1, a.state, p.2.2 ++ [.sent held ⟨.query, none, sql, params⟩])⟩
  execute : ∀ sql params, p.step net (.execute sql params) =
    let a := (net.client held).execute sql params p.2.1
    ⟨a.result.map .affected, a.events,
      (p.1, a.state, p.2.2 ++ [.sent held ⟨.execute, none, sql, params⟩])⟩
  status : p.step net .isConnected =
    ⟨.ok (.connected (net.isOpen held p.2.1)), [], p⟩

namespace Situation

variable {net : Network η σ} {p : Situation η σ} {c : Config} {fault : ConnectionFault}
  {held : η} {a : Act σ}

theorem refuses (h : p.1.slot = .failed fault) : p.Refuses net fault := by
  obtain ⟨⟨config, slot⟩, w⟩ := p
  obtain rfl : slot = .failed fault := h
  constructor
  · intro a ha
    cases a with
    | handle => rfl
    | query => rfl
    | execute => rfl
    | _ => simp [Act.isUse] at ha
  · rfl

theorem holds (h : p.1.slot = .connected held) : p.Holds net held := by
  obtain ⟨⟨config, slot⟩, w⟩ := p
  obtain rfl : slot = .connected held := h
  exact ⟨rfl, fun _ _ => rfl, fun _ _ => rfl, rfl⟩

/-- Without a use nothing is done, whatever the provider remembers. -/
theorem step_quiet (hu : a.isUse = false) (hr : a.isReconfigure = false) :
    (p.step net a).state.1 = p.1 ∧ (p.step net a).state.2.2 = p.2.2 := by
  cases a with
  | isConnected => exact ⟨rfl, rfl⟩
  | elapse => exact ⟨rfl, rfl⟩
  | reconfigure => simp [Act.isReconfigure] at hr
  | _ => simp [Act.isUse] at hu

theorem step_failed (h : p.1.slot = .failed fault) (hr : a.isReconfigure = false) :
    (p.step net a).state.1 = p.1 ∧ (p.step net a).state.2.2 = p.2.2 := by
  by_cases hu : a.isUse = true
  · rw [(refuses h).use a hu]
    exact ⟨rfl, rfl⟩
  · exact step_quiet (by simpa using hu) hr

theorem step_connected (h : p.1.slot = .connected held) (hr : a.isReconfigure = false) :
    (p.step net a).state.1 = p.1 ∧ ∃ qs : List Request,
      (p.step net a).state.2.2 = p.2.2 ++ qs.map (.sent held) := by
  have hp : p.Holds net held := holds h
  cases a with
  | handle =>
    rw [hp.handle]
    exact ⟨rfl, [], (List.append_nil _).symm⟩
  | query sql params =>
    rw [hp.query]
    exact ⟨rfl, [_], rfl⟩
  | execute sql params =>
    rw [hp.execute]
    exact ⟨rfl, [_], rfl⟩
  | isConnected => exact ⟨rfl, [], (List.append_nil _).symm⟩
  | elapse => exact ⟨rfl, [], (List.append_nil _).symm⟩
  | reconfigure => simp [Act.isReconfigure] at hr

theorem after_append (acts more : List (Act σ)) :
    p.after net (acts ++ more) = (p.after net acts).after net more :=
  List.foldl_append

theorem after_quiet (acts : List (Act σ))
    (h : ∀ a ∈ acts, a.isUse = false ∧ a.isReconfigure = false) :
    (p.after net acts).1 = p.1 ∧ (p.after net acts).2.2 = p.2.2 := by
  induction acts generalizing p with
  | nil => exact ⟨rfl, rfl⟩
  | cons a acts ih =>
    have ha := h a (by simp)
    have hstep : (p.step net a).state.1 = p.1 ∧ _ := step_quiet ha.1 ha.2
    have hrest := ih (p := (p.step net a).state) fun b hb => h b (by simp [hb])
    exact ⟨hrest.1.trans hstep.1, hrest.2.trans hstep.2⟩

theorem after_failed (acts : List (Act σ)) (hp : p.1.slot = .failed fault)
    (h : ∀ a ∈ acts, a.isReconfigure = false) :
    (p.after net acts).1 = p.1 ∧ (p.after net acts).2.2 = p.2.2 := by
  induction acts generalizing p with
  | nil => exact ⟨rfl, rfl⟩
  | cons a acts ih =>
    have hstep : (p.step net a).state.1 = p.1 ∧ _ := step_failed hp (h a (by simp))
    have hslot : (p.step net a).state.1.slot = .failed fault := by rw [hstep.1, hp]
    have hrest := ih hslot fun b hb => h b (by simp [hb])
    exact ⟨hrest.1.trans hstep.1, hrest.2.trans hstep.2⟩

theorem after_connected (acts : List (Act σ)) (hp : p.1.slot = .connected held)
    (h : ∀ a ∈ acts, a.isReconfigure = false) :
    (p.after net acts).1 = p.1 ∧ ∃ qs : List Request,
      (p.after net acts).2.2 = p.2.2 ++ qs.map (.sent held) := by
  induction acts generalizing p with
  | nil => exact ⟨rfl, [], (List.append_nil _).symm⟩
  | cons a acts ih =>
    obtain ⟨hstep, qs, hqs⟩ : (p.step net a).state.1 = p.1 ∧ _ :=
      step_connected hp (h a (by simp))
    have hslot : (p.step net a).state.1.slot = .connected held := by rw [hstep, hp]
    obtain ⟨hrest, more, hmore⟩ := ih hslot fun b hb => h b (by simp [hb])
    refine ⟨hrest.trans hstep, qs ++ more, ?_⟩
    change ((p.step net a).state.after net acts).2.2 = _
    rw [hmore, hqs, List.map_append, List.append_assoc]

theorem step_idle_error (h : p.1 = ⟨c, .idle⟩) (hu : a.isUse = true) {events : List Event}
    {w : σ × List (Deed η)}
    (hat : Provider.attempt net.noted c p.2 = (.error fault, events, w)) :
    p.step net a = ⟨.error (.connection fault), events, (⟨c, .failed fault⟩, w)⟩ := by
  obtain ⟨provider, world⟩ := p
  obtain rfl : provider = ⟨c, .idle⟩ := h
  have hhandle : Provider.handle net.noted ⟨c, .idle⟩ world =
      ⟨.error (.connection fault), events, (⟨c, .failed fault⟩, w)⟩ := by
    simp only [Provider.handle, hat]
  cases a with
  | handle => simp only [step, hhandle, Step.map, Except.map]
  | query => simp only [step, Provider.client, hhandle, Step.andThen, Step.map, Except.map]
  | execute => simp only [step, Provider.client, hhandle, Step.andThen, Step.map, Except.map]
  | _ => simp [Act.isUse] at hu

/-- A first use goes over the new handle as any later one does, after the events of the attempt. -/
theorem step_idle_ok (h : p.1 = ⟨c, .idle⟩) (hu : a.isUse = true) {events : List Event}
    {w : σ × List (Deed η)} (hat : Provider.attempt net.noted c p.2 = (.ok held, events, w)) :
    p.step net a =
      let n := step net (⟨c, .connected held⟩, w) a
      ⟨n.result, events ++ n.events, n.state⟩ := by
  obtain ⟨provider, world⟩ := p
  obtain rfl : provider = ⟨c, .idle⟩ := h
  have hhandle : Provider.handle net.noted ⟨c, .idle⟩ world =
      ⟨.ok held, events, (⟨c, .connected held⟩, w)⟩ := by
    simp only [Provider.handle, hat]
  cases a with
  | handle =>
    simp only [step, hhandle]
    simp [Provider.handle, Step.map]
  | query =>
    simp only [step, Provider.client, hhandle]
    simp [Provider.handle, Step.map, Step.andThen]
  | execute =>
    simp only [step, Provider.client, hhandle]
    simp [Provider.handle, Step.map, Step.andThen]
  | _ => simp [Act.isUse] at hu

/-- An attempt dials where its configuration says, and nowhere if that says nothing. -/
theorem attempt_deeds (net : Network η σ) (c : Config) (w : σ × List (Deed η)) :
    (Provider.attempt net.noted c w).2.2.2 =
      w.2 ++ c.endpoint.toOption.toList.map .dialed := by
  unfold Provider.attempt
  cases hc : c.endpoint with
  | error e => exact (List.append_nil w.2).symm
  | ok e =>
    dsimp only [Network.noted]
    cases net.dial e w.1 with
    | mk outcome s => cases outcome <;> rfl

theorem after_configured (net : Network η σ) (first : Config) (s : σ) {past : List (Act σ)}
    (hc : Act.Configures first past c) :
    let start : Situation η σ := (⟨first, .idle⟩, s, [])
    (start.after net past).1 = ⟨c, .idle⟩ ∧
      ∃ gone : List η,
        (start.after net past).2.2 = (start.after net past.dropLast).2.2 ++ gone.map .released := by
  intro start
  obtain ⟨rfl, rfl⟩ | ⟨before, rfl⟩ := hc
  · exact ⟨rfl, [], rfl⟩
  · rw [List.dropLast_concat, after_append]
    refine ⟨rfl, ?_⟩
    change ∃ gone : List η,
      (Provider.reconfigure net.noted (start.after net before).1 c
        (start.after net before).2).2.2 = _
    unfold Provider.reconfigure
    cases (start.after net before).1.slot with
    | connected held => exact ⟨[held], rfl⟩
    | _ => exact ⟨[], (List.append_nil _).symm⟩

/-- How the one attempt of a configuration decides its first use, and every call after that. -/
structure Attempts (net : Network η σ) (c : Config) (p : Situation η σ) (use : Act σ)
    (rest : List (Act σ)) : Prop where
  dialed : (Provider.attempt net.noted c p.2).2.2.2 =
    p.2.2 ++ c.endpoint.toOption.toList.map .dialed
  failed : ∀ fault events w, Provider.attempt net.noted c p.2 = (.error fault, events, w) →
    let used := p.step net use
    let later := used.state.after net rest
    used = ⟨.error (.connection fault), events, (⟨c, .failed fault⟩, w)⟩ ∧
      later.Refuses net fault ∧ later.2.2 = w.2
  made : ∀ held events w, Provider.attempt net.noted c p.2 = (.ok held, events, w) →
    let there : Situation η σ := (⟨c, .connected held⟩, w)
    let used := p.step net use
    let later := used.state.after net rest
    used = ⟨(there.step net use).result, events ++ (there.step net use).events,
        (there.step net use).state⟩ ∧
      there.Holds net held ∧ later.Holds net held ∧
      ∃ qs : List Request, later.2.2 = w.2 ++ qs.map (.sent held)

theorem attempts (h : p.1 = ⟨c, .idle⟩) (hu : a.isUse = true) {rest : List (Act σ)}
    (hr : ∀ b ∈ rest, b.isReconfigure = false) : p.Attempts net c a rest := by
  refine ⟨attempt_deeds net c p.2, ?_, ?_⟩
  · intro fault events w hat used later
    have hused : used = _ := step_idle_error h hu hat
    have hslot : used.state.1.slot = .failed fault := by rw [hused]
    obtain ⟨hprovider, hdeeds⟩ : later.1 = used.state.1 ∧ _ := after_failed rest hslot hr
    refine ⟨hused, refuses ?_, ?_⟩
    · exact (congrArg Provider.slot hprovider).trans hslot
    · exact hdeeds.trans (by rw [hused])
  · intro held events w hat there used later
    have hused : used = _ := step_idle_ok h hu hat
    have hreconfigure : a.isReconfigure = false := by
      cases a <;> simp_all [Act.isUse, Act.isReconfigure]
    have hthere : there.1.slot = .connected held := rfl
    obtain ⟨hfirst, first, hsent⟩ : (there.step net a).state.1 = there.1 ∧ _ :=
      step_connected hthere hreconfigure
    have hslot : used.state.1.slot = .connected held := by
      rw [hused]
      exact congrArg Provider.slot hfirst
    obtain ⟨hprovider, more, hmore⟩ : later.1 = used.state.1 ∧ _ :=
      after_connected rest hslot hr
    refine ⟨hused, holds hthere, holds ?_, first ++ more, ?_⟩
    · exact (congrArg Provider.slot hprovider).trans hslot
    · have hdeeds : used.state.2.2 = w.2 ++ first.map (.sent held) := by rw [hused]; exact hsent
      change (used.state.after net rest).2.2 = _
      rw [hmore, hdeeds, List.map_append, List.append_assoc]

end Situation

/-- A sequence of calls in its parts: what led to the last configuration, calls that need no
connection, and the rest from the first use on. -/
structure Act.Phases (first : Config) (acts past quiet tail : List (Act σ)) (c : Config) : Prop where
  split : acts = past ++ quiet ++ tail
  configured : Configures first past c
  unused : ∀ a ∈ quiet, a.isUse = false ∧ a.isReconfigure = false
  kept : ∀ a ∈ tail, a.isReconfigure = false
  used : ∀ use ∈ tail.head?, use.isUse = true

/-- Every sequence of calls has these parts. -/
theorem Act.exists_phases (first : Config) (acts : List (Act σ)) :
    ∃ past quiet tail c, Phases first acts past quiet tail c := by
  induction acts using List.reverseRecOn with
  | nil => exact ⟨[], [], [], first, rfl, .inl ⟨rfl, rfl⟩, by simp, by simp, by simp⟩
  | append_singleton acts a ih =>
    obtain ⟨past, quiet, tail, c, rfl, hc, hquiet, htail, huse⟩ := ih
    by_cases hr : a.isReconfigure = true
    · cases a with
      | reconfigure next =>
        exact ⟨past ++ quiet ++ tail ++ [.reconfigure next], [], [], next, by simp,
          .inr ⟨_, rfl⟩, by simp, by simp, by simp⟩
      | _ => simp [isReconfigure] at hr
    have hr : a.isReconfigure = false := by simpa using hr
    cases tail with
    | cons use rest =>
      refine ⟨past, quiet, use :: rest ++ [a], c, by simp, hc, hquiet, ?_, by simpa using huse⟩
      intro b hb
      obtain hb | hb := List.mem_append.mp hb
      · exact htail b hb
      · rwa [List.mem_singleton.mp hb]
    | nil =>
      by_cases hu : a.isUse = true
      · exact ⟨past, quiet, [a], c, by simp, hc, hquiet, by simpa using hr, by simpa using hu⟩
      · refine ⟨past, quiet ++ [a], [], c, by simp, hc, ?_, by simp, by simp⟩
        intro b hb
        obtain hb | hb := List.mem_append.mp hb
        · exact hquiet b hb
        · rw [List.mem_singleton.mp hb]
          exact ⟨by simpa using hu, hr⟩

/-- A provider that was made or configured remembers nothing and does nothing until its first use.
That use makes the one attempt, which decides all calls until another configuration. Every sequence
of calls is made up of such phases. -/
theorem attempted_once (net : Network η σ) (first : Config) (s : σ) (acts : List (Act σ)) :
    (∃ past quiet tail c, Act.Phases first acts past quiet tail c) ∧
    ∀ past quiet tail c, Act.Phases first acts past quiet tail c →
      let start : Situation η σ := (⟨first, .idle⟩, s, [])
      let opened := start.after net past
      let ready := opened.after net quiet
      (∃ gone : List η,
        opened.2.2 = (start.after net past.dropLast).2.2 ++ gone.map .released) ∧
      opened.1 = ⟨c, .idle⟩ ∧ ready.1 = ⟨c, .idle⟩ ∧ ready.2.2 = opened.2.2 ∧
      ready.step net .isConnected = ⟨.ok (.connected false), [], ready⟩ ∧
      ∀ use rest, tail = use :: rest → use.isUse = true ∧ ready.Attempts net c use rest := by
  refine ⟨Act.exists_phases first acts, fun past quiet tail c h => ?_⟩
  intro start opened ready
  have hopened := Situation.after_configured net first s h.configured
  have hready : ready.1 = opened.1 ∧ ready.2.2 = opened.2.2 :=
    Situation.after_quiet quiet h.unused
  have hidle : ready.1 = ⟨c, .idle⟩ := hready.1.trans hopened.1
  have hstatus : ready.1.isConnected net.noted ready.2 = false := by
    rw [hidle]
    rfl
  refine ⟨hopened.2, hopened.1, hidle, hready.2, ?_, ?_⟩
  · change (⟨.ok (.connected _), [], ready⟩ : Step (Situation η σ) (Reply η)) = _
    rw [hstatus]
  · rintro use rest rfl
    have huse : use.isUse = true := h.used use rfl
    exact ⟨huse, Situation.attempts hidle huse fun b hb => h.kept b (by simp [hb])⟩

theorem attempted_once_server :
    let net := Wire.Server.network fun _ => true
    let first : Config := { driver := "mysql".toList }
    let past : List (Act Wire.Server) := [.handle, .reconfigure {}]
    let quiet : List (Act Wire.Server) := [.isConnected]
    let use : Act Wire.Server := .query "SELECT 1".toList []
    let rest : List (Act Wire.Server) := [.isConnected, .handle]
    let ready := Situation.after net (Situation.after net (⟨first, .idle⟩, {}, []) past) quiet
    let later := (ready.step net use).state.after net rest
    Act.Phases first (past ++ quiet ++ use :: rest) past quiet (use :: rest) {} ∧
      ready.1 = ⟨{}, .idle⟩ ∧ ready.2.2 = [] ∧
      (ready.step net use).state.2.2 =
        [.dialed ⟨.tcp "localhost".toList, 5432, none, none, none, "pgchain".toList⟩,
          .sent 0 ⟨.query, none, "SELECT 1".toList, []⟩] ∧
      later.Holds net 0 := by
  intro net first past quiet use rest ready later
  have hphases : Act.Phases first (past ++ quiet ++ use :: rest) past quiet (use :: rest) {} :=
    ⟨rfl, .inr ⟨[.handle], rfl⟩, by simp [quiet, Act.isUse, Act.isReconfigure],
      by simp [use, rest, Act.isReconfigure], by simp [use, Act.isUse]⟩
  obtain ⟨-, h⟩ := attempted_once net first {} (past ++ quiet ++ use :: rest)
  obtain ⟨-, -, hready, hdeeds, -, huse⟩ := h past quiet (use :: rest) {} hphases
  obtain ⟨hused, -, hlater, -⟩ := (huse use rest rfl).2.made 0 _ _ rfl
  exact ⟨hphases, hready, hdeeds, congrArg (fun r => r.state.2.2) hused, hlater⟩

end FluentSql.Connection
