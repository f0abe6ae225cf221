import Mathlib.Data.List.Nodup
import Mathlib.Tactic.Cases
import PyLibssh2.Base.Loop

/-!
# `Session.userauth_agent`

The method connects to the ssh agent, lists its identities and offers one after the other to the server
until one is accepted.  `store` is at once the cursor of `libssh2_agent_get_identity` and the identity
that is offered, and the end of the list is only looked at after the offer.

* `agentRound`                 one round of `while(rc == 0)`;
* `Ending`                     the three ways the loop ends;
* `userauthAgent_outcome_iff`  when the method returns exactly if an identity was accepted: an agent that
  cannot be connected to goes unnoticed;
* `userauthAgent_offers_iff`   when the identities offered are the list, cut where it should be: if all
  of them are rejected the last one is offered twice, and `NULL` is offered for an empty list.
-/

set_option linter.unusedSectionVars false
set_option linter.unusedVariables false

namespace PyLibssh2.Auth

open Loop

variable {ι : Type*}

/-! ## the agent and the server -/

/-- what `userauth_agent` meets -/
structure Agent (ι : Type*) where
  /-- `libssh2_agent_init` does not return `NULL` -/
  init : Bool
  /-- what `libssh2_agent_connect` returns -/
  connect : Int
  /-- what `libssh2_agent_list_identities` returns -/
  listing : Int
  ids : List ι
  /-- `some k` if `libssh2_agent_get_identity` returns `-(k + 1)` at this position -/
  fails : Nat → Option Nat
  /-- what `libssh2_agent_userauth` returns at its call of this number, given an identity -/
  answer : Nat → Int
  /-- what it returns when it is given `NULL`, if it returns -/
  nullAnswer : Option Int

/-- `libssh2_agent_get_identity(agent, &store, store)` when `i` identities have been fetched: the code and
the new `store` -/
def Agent.getIdentity (agent : Agent ι) (i : Nat) (store : Option ι) : Int × Option ι :=
  match agent.fails i with
  | some k => (-(k + 1), store)
  | none =>
    match agent.ids[i]? with
    | some x => (0, some x)
    | none => (1, store)

/-- `libssh2_agent_userauth(agent, username, store)`, its call of number `n` -/
def Agent.userauth (agent : Agent ι) (n : Nat) : Option ι → Option Int
  | some _ => some (agent.answer n)
  | none => agent.nullAnswer

/-! ## the method -/

inductive Outcome
  | returned
  /-- `PYLIBSSH2_Error` -/
  | raised (msg : String)
  /-- a call of libssh2 that does not come back -/
  | crashed
  deriving DecidableEq

/-- an offer: the argument of `libssh2_agent_userauth` and what it returned -/
abbrev Offer (ι : Type*) := Option ι × Option Int

/-- `i` identities have been fetched and offered; `store`, and the offers in their order -/
structure AgentState (ι : Type*) where
  i : Nat
  store : Option ι
  offers : List (Offer ι)

structure AgentEnd (ι : Type*) where
  outcome : Outcome
  offers : List (Offer ι)

/-- one round of `while(rc == 0)` -/
def agentRound (agent : Agent ι) (st : AgentState ι) : Round (AgentState ι) (AgentEnd ι) :=
  let (rc, store) := agent.getIdentity st.i st.store
  if rc < 0 then .stop ⟨.raised "Unable to get identity", st.offers⟩
  else
    let code := agent.userauth st.i store
    let offers := st.offers ++ [(store, code)]
    match code with
    | none => .stop ⟨.crashed, offers⟩
    | some c =>
      if c = 0 then .stop ⟨.returned, offers⟩
      else if rc = 1 then .stop ⟨.raised "Unable userauth using agent identities", offers⟩
      else .next ⟨st.i + 1, store, offers⟩

def agentStart : AgentState ι := ⟨0, none, []⟩

/-- `PYLIBSSH2_Session_userauth_agent`; a round for each identity and one for the end of the list -/
def userauthAgent (agent : Agent ι) : AgentEnd ι :=
  if agent.init then
    if agent.connect = 0 then
      if agent.listing = 0 then
        (iter (agentRound agent) (agent.ids.length + 1) agentStart).getD ⟨.crashed, []⟩
      else ⟨.raised "Unable to list identities", []⟩
    -- no exception is set
    else ⟨.returned, []⟩
  else ⟨.raised "Unable to initialize agent", []⟩

variable {agent : Agent ι} {i : Nat} {st st' : AgentState ι} {r : AgentEnd ι}

/-! ## one round -/

/-- the first `i` identities have been fetched and rejected -/
def Rejected (agent : Agent ι) (i : Nat) : Prop := ∀ j < i, agent.fails j = none ∧ agent.answer j ≠ 0

def offersTo (agent : Agent ι) (i : Nat) : List (Offer ι) :=
  (List.range i).map fun j => (agent.ids[j]?, some (agent.answer j))

theorem offersTo_succ (agent : Agent ι) (i : Nat) :
    offersTo agent (i + 1) = offersTo agent i ++ [(agent.ids[i]?, some (agent.answer i))] := by
  rw [offersTo, List.range_succ, List.map_append]
  rfl

/-- what is offered after the last identity: `store` still is the last one -/
def lastOffer (agent : Agent ι) : Offer ι :=
  (agent.ids.getLast?, agent.userauth agent.ids.length agent.ids.getLast?)

def lastOutcome (agent : Agent ι) : Outcome :=
  match (lastOffer agent).2 with
  | none => .crashed
  | some c => if c = 0 then .returned else .raised "Unable userauth using agent identities"

inductive Ending (agent : Agent ι) : AgentEnd ι → Prop
  | fetch (i : Nat) : i ≤ agent.ids.length → Rejected agent i → agent.fails i ≠ none →
      Ending agent ⟨.raised "Unable to get identity", offersTo agent i⟩
  | accepted (i : Nat) : i < agent.ids.length → Rejected agent i → agent.fails i = none →
      agent.answer i = 0 → Ending agent ⟨.returned, offersTo agent (i + 1)⟩
  | exhausted : Rejected agent agent.ids.length → agent.fails agent.ids.length = none →
      Ending agent ⟨lastOutcome agent, offersTo agent agent.ids.length ++ [lastOffer agent]⟩

structure Trying (agent : Agent ι) (st : AgentState ι) : Prop where
  bound : st.i ≤ agent.ids.length
  store : st.store = (agent.ids.take st.i).getLast?
  offers : st.offers = offersTo agent st.i
  rejected : Rejected agent st.i

theorem trying_start (agent : Agent ι) : Trying agent agentStart :=
  ⟨Nat.zero_le _, rfl, rfl, fun j hj => absurd hj (Nat.not_lt_zero j)⟩

theorem agentRound_fails {k : Nat} (h : agent.fails st.i = some k) :
    agentRound agent st = .stop ⟨.raised "Unable to get identity", st.offers⟩ := by
  have hneg : (-((k : Int) + 1)) < 0 := by omega
  simp only [agentRound, Agent.getIdentity, h, if_pos hneg]

theorem agentRound_fetched {x : ι} (hf : agent.fails st.i = none) (hx : agent.ids[st.i]? = some x) :
    agentRound agent st =
      if agent.answer st.i = 0 then
        .stop ⟨.returned, st.offers ++ [(some x, some (agent.answer st.i))]⟩
      else .next ⟨st.i + 1, some x, st.offers ++ [(some x, some (agent.answer st.i))]⟩ := by
  have h0 : ¬ (0 : Int) < 0 := Int.lt_irrefl 0
  have h1 : ¬ (0 : Int) = 1 := by decide
  simp only [agentRound, Agent.getIdentity, hf, hx, if_neg h0, Agent.userauth, if_neg h1]

theorem agentRound_end (hf : agent.fails st.i = none) (hx : agent.ids[st.i]? = none) :
    agentRound agent st =
      match agent.userauth st.i st.store with
      | none => .stop ⟨.crashed, st.offers ++ [(st.store, none)]⟩
      | some c =>
        if c = 0 then .stop ⟨.returned, st.offers ++ [(st.store, some c)]⟩
        else .stop ⟨.raised "Unable userauth using agent identities",
          st.offers ++ [(st.store, some c)]⟩ := by
  have h0 : ¬ (1 : Int) < 0 := by decide
  simp only [agentRound, Agent.getIdentity, hf, hx, if_neg h0, if_true]
  cases agent.userauth st.i st.store <;> rfl

theorem Rejected.succ (h : Rejected agent i) (hf : agent.fails i = none) (ha : agent.answer i ≠ 0) :
    Rejected agent (i + 1) := by
  intro j hj
  rcases Nat.lt_succ_iff_lt_or_eq.mp hj with h1 | h1
  · exact h j h1
  · rw [h1]
    exact ⟨hf, ha⟩

/-- a round offers the next identity, or the loop ends -/
theorem trying_step (h : Trying agent st) :
    (∃ st', agentRound agent st = .next st' ∧ Trying agent st' ∧ st'.i = st.i + 1) ∨
    ∃ r, agentRound agent st = .stop r ∧ Ending agent r := by
  cases hf : agent.fails st.i with
  | some k =>
    refine Or.inr ⟨_, agentRound_fails hf, ?_⟩
    rw [h.offers]
    exact .fetch st.i h.bound h.rejected (by rw [hf]; exact Option.some_ne_none k)
  | none =>
    cases hx : agent.ids[st.i]? with
    | some x =>
      have hlt : st.i < agent.ids.length := (List.getElem?_eq_some_iff.mp hx).1
      have hoffers : st.offers ++ [(some x, some (agent.answer st.i))] = offersTo agent (st.i + 1) := by
        rw [offersTo_succ, hx, h.offers]
      have hround := agentRound_fetched hf hx
      rw [hoffers] at hround
      by_cases ha : agent.answer st.i = 0
      · rw [if_pos ha] at hround
        exact Or.inr ⟨_, hround, .accepted st.i hlt h.rejected hf ha⟩
      · rw [if_neg ha] at hround
        refine Or.inl ⟨_, hround, ⟨hlt, ?_, rfl, h.rejected.succ hf ha⟩, rfl⟩
        show some x = (agent.ids.take (st.i + 1)).getLast?
        rw [List.take_add_one, hx, Option.toList_some, List.getLast?_append]
        rfl
    | none =>
      have hlen : st.i = agent.ids.length :=
        Nat.le_antisymm h.bound (List.getElem?_eq_none_iff.mp hx)
      have hstore : st.store = agent.ids.getLast? := by rw [h.store, hlen, List.take_length]
      have hround := agentRound_end hf hx
      have hend := Ending.exhausted (hlen ▸ h.rejected) (hlen ▸ hf)
      rw [h.offers, hstore, hlen] at hround
      refine Or.inr ⟨_, ?_, hend⟩
      rw [hround, lastOutcome, lastOffer]
      cases agent.userauth agent.ids.length agent.ids.getLast? with
      | none => rfl
      | some c =>
        by_cases hc : c = 0
        · simp only [hc, if_true]
        · simp only [if_neg hc]

/-! ## the loop -/

theorem iter_agentRound (n : Nat) (h : Trying agent st) (hn : agent.ids.length < n + st.i) :
    ∃ r, iter (agentRound agent) n st = some r ∧ Ending agent r := by
  induction n generalizing st with
  | zero =>
    have := h.bound
    omega
  | succ n ih =>
    rcases trying_step h with ⟨st', hr, h', hi⟩ | ⟨r, hr, hend⟩
    · rw [iter_succ_next hr]
      exact ih h' (by omega)
    · exact ⟨r, iter_succ_stop hr n, hend⟩

def Listed (agent : Agent ι) : Prop := agent.init = true ∧ agent.connect = 0 ∧ agent.listing = 0

theorem userauthAgent_ends (h : Listed agent) : Ending agent (userauthAgent agent) ∧
    Halts (agentRound agent) agentStart (userauthAgent agent) := by
  obtain ⟨r, hr, hend⟩ := iter_agentRound (agent.ids.length + 1) (trying_start agent)
    (Nat.lt_succ_self _)
  have heq : userauthAgent agent = r := by
    rw [userauthAgent, if_pos h.1, if_pos h.2.1, if_pos h.2.2, hr]
    rfl
  rw [heq]
  exact ⟨hend, _, hr⟩

/-! ## the outcome -/

def AgentEnd.Accepted (r : AgentEnd ι) : Prop := ∃ x, (some x, some 0) ∈ r.offers

/-- the method returns exactly if an identity was accepted, and raises otherwise -/
structure Faithful (r : AgentEnd ι) : Prop where
  returns : r.outcome = .returned ↔ r.Accepted
  raises : r.outcome = .returned ∨ ∃ msg, r.outcome = .raised msg

theorem not_accepted_offersTo (h : Rejected agent i) (msg : Outcome) :
    ¬ AgentEnd.Accepted ⟨msg, offersTo agent i⟩ := by
  rintro ⟨x, hx⟩
  obtain ⟨j, hj, heq⟩ := List.mem_map.mp hx
  exact (h j (List.mem_range.mp hj)).2 (Option.some.inj (Prod.mk.inj heq).2)

theorem getLast?_isSome {ids : List ι} (h : ids ≠ []) : ∃ x, ids.getLast? = some x :=
  ⟨ids.getLast h, List.getLast?_eq_some_getLast h⟩

theorem faithful_exhausted (h : Rejected agent agent.ids.length) :
    Faithful ⟨lastOutcome agent, offersTo agent agent.ids.length ++ [lastOffer agent]⟩ ↔
      agent.ids ≠ [] ∨ ∃ c, agent.nullAnswer = some c ∧ c ≠ 0 := by
  have hacc : AgentEnd.Accepted ⟨lastOutcome agent,
      offersTo agent agent.ids.length ++ [lastOffer agent]⟩ ↔ ∃ x, lastOffer agent = (some x, some 0) := by
    constructor
    · rintro ⟨x, hx⟩
      rcases List.mem_append.mp hx with h1 | h1
      · exact absurd ⟨x, h1⟩ (not_accepted_offersTo h (lastOutcome agent))
      · exact ⟨x, (List.mem_singleton.mp h1).symm⟩
    · rintro ⟨x, hx⟩
      exact ⟨x, List.mem_append_right _ (List.mem_singleton.mpr hx.symm)⟩
  by_cases hids : agent.ids = []
  · have hoffer : lastOffer agent = (none, agent.nullAnswer) := by
      rw [lastOffer, hids]
      rfl
    have hno : ¬ ∃ x, lastOffer agent = (some x, some 0) := by
      rintro ⟨x, hx⟩
      rw [hoffer] at hx
      cases (Prod.mk.inj hx).1
    constructor
    · intro hf
      apply Or.inr
      have h1 := mt hf.returns.mp (mt hacc.mp hno)
      obtain ⟨msg, h2⟩ := hf.raises.resolve_left h1
      simp only [lastOutcome, hoffer] at h1 h2
      cases hn : agent.nullAnswer with
      | none =>
        rw [hn] at h2
        cases h2
      | some c =>
        refine ⟨c, rfl, fun hc => h1 ?_⟩
        rw [hn]
        exact if_pos hc
    · intro h1
      obtain ⟨c, hn, hc⟩ := h1.resolve_left fun h2 => h2 hids
      have hout : lastOutcome agent = .raised "Unable userauth using agent identities" := by
        simp only [lastOutcome, hoffer, hn]
        exact if_neg hc
      refine ⟨⟨fun h2 => ?_, fun h2 => absurd (hacc.mp h2) hno⟩, Or.inr ⟨_, hout⟩⟩
      rw [hout] at h2
      cases h2
  · obtain ⟨x, hx⟩ := getLast?_isSome hids
    have hoffer : lastOffer agent = (some x, some (agent.answer agent.ids.length)) := by
      rw [lastOffer, hx]
      rfl
    refine ⟨fun _ => Or.inl hids, fun _ => ?_⟩
    by_cases hc : agent.answer agent.ids.length = 0
    · have hout : lastOutcome agent = .returned := by
        simp only [lastOutcome, hoffer]
        exact if_pos hc
      exact ⟨⟨fun _ => hacc.mpr ⟨x, by rw [hoffer, hc]⟩, fun _ => hout⟩, Or.inl hout⟩
    · have hout : lastOutcome agent = .raised "Unable userauth using agent identities" := by
        simp only [lastOutcome, hoffer]
        exact if_neg hc
      refine ⟨⟨fun h2 => ?_, fun h2 => ?_⟩, Or.inr ⟨_, hout⟩⟩
      · rw [hout] at h2
        cases h2
      · obtain ⟨y, hy⟩ := hacc.mp h2
        rw [hoffer] at hy
        exact absurd (Option.some.inj (Prod.mk.inj hy).2) hc

theorem faithful_ending (h : Ending agent r) : Faithful r ↔
    agent.fails 0 ≠ none ∨ agent.ids ≠ [] ∨ ∃ c, agent.nullAnswer = some c ∧ c ≠ 0 := by
  cases h with
  | fetch i hi hrej hf =>
    refine ⟨fun _ => ?_, fun _ => ⟨⟨fun h1 => (by cases h1), fun h1 => ?_⟩, Or.inr ⟨_, rfl⟩⟩⟩
    · cases i with
      | zero => exact Or.inl hf
      | succ i => exact Or.inr (Or.inl (List.ne_nil_of_length_pos (by omega)))
    · exact absurd h1 (not_accepted_offersTo hrej _)
  | accepted i hi hrej hf ha =>
    refine ⟨fun _ => Or.inr (Or.inl (List.ne_nil_of_length_pos (by omega))), fun _ =>
      ⟨⟨fun _ => ⟨agent.ids[i], ?_⟩, fun _ => rfl⟩, Or.inl rfl⟩⟩
    show (some agent.ids[i], some 0) ∈ offersTo agent (i + 1)
    rw [offersTo_succ, List.getElem?_eq_getElem hi, ha]
    exact List.mem_append_right _ (List.mem_singleton.mpr rfl)
  | exhausted hrej hf =>
    rw [faithful_exhausted hrej]
    refine ⟨Or.inr, fun h1 => ?_⟩
    rcases h1 with h1 | h1
    · refine Or.inl fun hids => h1 ?_
      rw [hids] at hf
      exact hf
    · exact h1

/-- **When the outcome is the verdict.**  An agent that cannot be connected to makes the method return,
and so does an empty one whose `NULL` libssh2 takes for an identity. -/
theorem userauthAgent_outcome_iff (agent : Agent ι) :
    (Listed agent → Halts (agentRound agent) agentStart (userauthAgent agent)) ∧
    (Faithful (userauthAgent agent) ↔ agent.init = false ∨ (agent.connect = 0 ∧
      (agent.listing ≠ 0 ∨ agent.fails 0 ≠ none ∨ agent.ids ≠ [] ∨
        ∃ c, agent.nullAnswer = some c ∧ c ≠ 0))) := by
  refine ⟨fun h => (userauthAgent_ends h).2, ?_⟩
  have hraised : ∀ msg, Faithful (⟨.raised msg, []⟩ : AgentEnd ι) := fun msg =>
    ⟨⟨fun h => (by cases h), fun ⟨_, h⟩ => absurd h List.not_mem_nil⟩, Or.inr ⟨msg, rfl⟩⟩
  cases hinit : agent.init with
  | false =>
    have heq : userauthAgent agent = ⟨.raised "Unable to initialize agent", []⟩ := by
      rw [userauthAgent, hinit]
      rfl
    rw [heq]
    exact ⟨fun _ => Or.inl rfl, fun _ => hraised _⟩
  | true =>
    have hno : ¬ true = false := by decide
    by_cases hconn : agent.connect = 0
    · by_cases hlist : agent.listing = 0
      · rw [faithful_ending (userauthAgent_ends ⟨hinit, hconn, hlist⟩).1]
        exact ⟨fun h => Or.inr ⟨hconn, Or.inr h⟩, fun h =>
          ((h.resolve_left hno).2).resolve_left fun h1 => h1 hlist⟩
      · have heq : userauthAgent agent = ⟨.raised "Unable to list identities", []⟩ := by
          rw [userauthAgent, if_pos hinit, if_pos hconn, if_neg hlist]
        rw [heq]
        exact ⟨fun _ => Or.inr ⟨hconn, Or.inl hlist⟩, fun _ => hraised _⟩
    · have heq : userauthAgent agent = ⟨.returned, []⟩ := by
        rw [userauthAgent, if_pos hinit, if_neg hconn]
      rw [heq]
      constructor
      · intro h
        obtain ⟨x, hx⟩ := h.returns.mp rfl
        exact absurd hx List.not_mem_nil
      · intro h
        exact absurd (h.resolve_left hno).1 hconn

def unreachable : Agent Nat := ⟨true, -1, 0, [], fun _ => none, fun _ => 0, none⟩

/-- nothing was accepted, and the method returns -/
theorem userauthAgent_silent : ¬ ∀ agent : Agent Nat,
    ((userauthAgent agent).outcome = .returned ↔ (userauthAgent agent).Accepted) ∧
    ((userauthAgent agent).outcome = .returned ∨
      ∃ msg, (userauthAgent agent).outcome = .raised msg) := by
  intro hall
  obtain ⟨x, hx⟩ := (hall unreachable).1.mp rfl
  exact absurd hx List.not_mem_nil

/-! ## the offers -/

/-- the identities that are to be offered, the first of them having the position `i`: up to the first one
that is accepted, or to the position where fetching fails -/
def wanted (agent : Agent ι) : Nat → List ι → List ι
  | _, [] => []
  | i, x :: xs =>
    if (agent.fails i).isSome then []
    else if agent.answer i = 0 then [x]
    else x :: wanted agent (i + 1) xs

/-- nothing is to be offered if no list is there -/
def wantedOffers (agent : Agent ι) : List ι :=
  if agent.init = true ∧ agent.connect = 0 ∧ agent.listing = 0 then wanted agent 0 agent.ids else []

/-- the arguments of `libssh2_agent_userauth` -/
def AgentEnd.offered (r : AgentEnd ι) : List (Option ι) := r.offers.map Prod.fst

/-- the identities offered are those wanted, none of them twice, and `NULL` is not among them -/
structure Orderly (agent : Agent ι) (r : AgentEnd ι) : Prop where
  offered : r.offered = (wantedOffers agent).map some
  once : agent.ids.Nodup → r.offered.Nodup
  never : none ∉ r.offered

theorem wanted_eq (hi : i ≤ agent.ids.length) (h : Rejected agent i) :
    wanted agent 0 agent.ids = agent.ids.take i ++ wanted agent i (agent.ids.drop i) := by
  induction i with
  | zero => rfl
  | succ i ih =>
    obtain ⟨hf, ha⟩ := h i (Nat.lt_succ_self i)
    have hd : agent.ids.drop i = agent.ids[i] :: agent.ids.drop (i + 1) := List.drop_eq_getElem_cons hi
    have hw : wanted agent i (agent.ids.drop i) =
        agent.ids[i] :: wanted agent (i + 1) (agent.ids.drop (i + 1)) := by
      rw [hd, wanted, hf, if_neg (by simp), if_neg ha]
    rw [ih (Nat.le_of_lt hi) fun j hj => h j (Nat.lt_succ_of_lt hj), hw, List.take_add_one,
      List.getElem?_eq_getElem hi, Option.toList_some, List.append_assoc]
    rfl

theorem fst_offersTo (hi : i ≤ agent.ids.length) :
    (offersTo agent i).map Prod.fst = (agent.ids.take i).map some := by
  induction i with
  | zero => rfl
  | succ i ih =>
    rw [offersTo_succ, List.map_append, ih (Nat.le_of_lt hi), List.take_add_one, List.map_append,
      List.getElem?_eq_getElem hi]
    rfl

theorem wanted_sublist (agent : Agent ι) (i : Nat) (xs : List ι) :
    (wanted agent i xs).Sublist xs := by
  induction xs generalizing i with
  | nil => exact List.Sublist.refl _
  | cons x xs ih =>
    rw [wanted]
    split
    · exact List.nil_sublist _
    · split
      · exact List.Sublist.cons_cons x (List.nil_sublist xs)
      · exact (ih (i + 1)).cons_cons x

theorem orderly_of_offered (h : r.offered = (wantedOffers agent).map some) : Orderly agent r := by
  refine ⟨h, fun hnd => ?_, fun hnone => ?_⟩
  · rw [h]
    apply List.Nodup.map (fun a b hab => Option.some.inj hab)
    rw [wantedOffers]
    split
    · exact hnd.sublist (wanted_sublist agent 0 agent.ids)
    · exact List.nodup_nil
  · rw [h] at hnone
    obtain ⟨x, _, hx⟩ := List.mem_map.mp hnone
    cases hx

theorem orderly_ending (hl : Listed agent) (h : Ending agent r) : Orderly agent r ↔
    (∃ i < agent.ids.length, agent.answer i = 0) ∨ ∃ i ≤ agent.ids.length, agent.fails i ≠ none := by
  have hw : wantedOffers agent = wanted agent 0 agent.ids := if_pos hl
  cases h with
  | fetch i hi hrej hf =>
    refine ⟨fun _ => Or.inr ⟨i, hi, hf⟩, fun _ => orderly_of_offered ?_⟩
    have hstop : wanted agent i (agent.ids.drop i) = [] := by
      cases agent.ids.drop i with
      | nil => rfl
      | cons x xs => rw [wanted, if_pos (Option.isSome_iff_ne_none.mpr hf)]
    rw [hw, wanted_eq hi hrej, hstop, List.append_nil]
    exact fst_offersTo hi
  | accepted i hi hrej hf ha =>
    refine ⟨fun _ => Or.inl ⟨i, hi, ha⟩, fun _ => orderly_of_offered ?_⟩
    have hstop : wanted agent i (agent.ids.drop i) = [agent.ids[i]] := by
      rw [List.drop_eq_getElem_cons hi, wanted, hf, if_neg (by simp), if_pos ha]
    rw [hw, wanted_eq (Nat.le_of_lt hi) hrej, hstop]
    show (offersTo agent (i + 1)).map Prod.fst = _
    rw [fst_offersTo hi, List.take_add_one, List.getElem?_eq_getElem hi]
    rfl
  | exhausted hrej hf =>
    constructor
    · intro h
      -- one offer too many
      have hlen := congrArg List.length h.offered
      have hle := (wanted_sublist agent 0 agent.ids).length_le
      simp only [AgentEnd.offered, hw, List.length_map, List.length_append, List.length_singleton,
        offersTo, List.length_range] at hlen
      omega
    · rintro (⟨i, hi, ha⟩ | ⟨i, hi, hne⟩)
      · exact absurd ha (hrej i hi).2
      · rcases Nat.lt_or_eq_of_le hi with h1 | h1
        · exact absurd (hrej i h1).1 hne
        · exact absurd (h1 ▸ hf) hne

/-- **When the identities are offered as they should be.**  One of them has to be accepted, or the agent
has to fail: otherwise the end of the list is offered too. -/
theorem userauthAgent_offers_iff (agent : Agent ι) : Orderly agent (userauthAgent agent) ↔
    ¬ Listed agent ∨ (∃ i < agent.ids.length, agent.answer i = 0) ∨
      ∃ i ≤ agent.ids.length, agent.fails i ≠ none := by
  by_cases hl : Listed agent
  · rw [orderly_ending hl (userauthAgent_ends hl).1]
    exact ⟨Or.inr, fun h => h.resolve_left fun h1 => h1 hl⟩
  · have hoffers : (userauthAgent agent).offers = [] := by
      unfold userauthAgent
      split_ifs with h1 h2 h3
      · exact absurd ⟨h1, h2, h3⟩ hl
      · rfl
      · rfl
      · rfl
    have hw : wantedOffers agent = [] := if_neg hl
    refine ⟨fun _ => Or.inl hl, fun _ => orderly_of_offered ?_⟩
    rw [AgentEnd.offered, hoffers, hw]
    rfl

def rejected : Agent Nat := ⟨true, 0, 0, [7], fun _ => none, fun _ => -18, none⟩

/-- the identity is offered twice -/
theorem userauthAgent_repeats : ¬ ∀ agent : Agent Nat, Listed agent →
    (userauthAgent agent).offered = (wanted agent 0 agent.ids).map some := by
  intro hall
  have h := hall rejected ⟨rfl, rfl, rfl⟩
  exact absurd h (by decide)

end PyLibssh2.Auth
