import MonitorSystem.Agent.Sessions
import MonitorSystem.Library.Lists
import MonitorSystem.Library.Runs

/-!
# Concurrent turns of one session

`AppendTurn` reads a session, adds its turn to the copy it has read, and writes the copy
back; then it does the same again for the summary. The store locks its map for single reads
and writes only, so the steps of several calls on one session interleave.

A call is cut at its accesses to the store. What it writes is made of what it has read: a
write that follows a foreign one undoes it. Where every write finds the messages that its
call has read, all the turns are in the session at the end, in the order of the writes
(`Turns.complete_of_run`); otherwise a turn can be lost.
-/

namespace MonitorSystem

open InMemoryStore

namespace Turns

/-! ### Calls and their steps -/

/-- The turn that a call appends. -/
structure Turn where
  userMessage : String
  assistantMessage : String
  deriving DecidableEq, Repr

/-- The messages of the turn that are stored. -/
def Turn.messages (t : Turn) : List Message := turnMessages t.userMessage t.assistantMessage

/-- How far a call has come: what it has read and not yet written is part of it. -/
inductive Phase where
  | start
  | loaded (session : SessionMemory)
  | saved
  | loadedSummary (session : SessionMemory)
  | done
  | failed (error : String)
  deriving DecidableEq, Repr

/-- A call of `AppendTurn`. -/
structure Call where
  turn : Turn
  phase : Phase
  deriving DecidableEq, Repr

/-- The store and the calls on one session. -/
structure State where
  store : InMemoryStore
  calls : List Call

/-- The state with a call in a new phase. -/
def State.move (s : State) (store : InMemoryStore) (i : ℕ) (call : Call) (phase : Phase) : State :=
  ⟨store, s.calls.set i { call with phase }⟩

variable (cfg : MemoryConfig) (scope : MemoryScope)

/-- The policy under which the session is kept. -/
def State.policy (s : State) : EffectivePolicy :=
  resolvePolicy s.store.getPolicy cfg scope.normalized

/-- **One step of one call**: `LoadSession` and `SaveSession` of `AppendTurn`, then those of
`SummarizeSession`, which does not save where there is nothing to summarise. The label names
the call and the reading of the clock. -/
def step (s : State) (label : ℕ × ℤ) : Option State :=
  match s.calls[label.1]? with
  | none => none
  | some call =>
    match call.phase with
    | .start =>
      match s.store.loadSession scope.normalized label.2 with
      | .error e => some (s.move s.store label.1 call (.failed e))
      | .ok session => some (s.move s.store label.1 call (.loaded session))
    | .loaded session =>
      match s.store.saveSession (appended (s.policy cfg scope) session call.turn.userMessage
        call.turn.assistantMessage label.2) with
      | .error e => some (s.move s.store label.1 call (.failed e))
      | .ok store => some (s.move store label.1 call .saved)
    | .saved =>
      match s.store.loadSession scope.normalized label.2 with
      | .error e => some (s.move s.store label.1 call (.failed e))
      | .ok session => some (s.move s.store label.1 call (.loadedSummary session))
    | .loadedSummary session =>
      match summarized (s.policy cfg scope) session label.2 with
      | none => some (s.move s.store label.1 call .done)
      | some session =>
        match s.store.saveSession session with
        | .error e => some (s.move s.store label.1 call (.failed e))
        | .ok store => some (s.move store label.1 call .done)
    | .done => none
    | .failed _ => none

/-- The messages of the session. -/
def State.messages (s : State) : List Message :=
  ((s.store.sessions scope.sessionKey).map (·.messages)).getD []

/-- The calls at their beginning. -/
def init (store : InMemoryStore) (turns : List Turn) : State :=
  ⟨store, turns.map fun t => ⟨t, .start⟩⟩

/-- The session that a call has read and not yet written. -/
def Phase.read : Phase → Option SessionMemory
  | .loaded session => some session
  | .loadedSummary session => some session
  | _ => none

/-- **The call writes on top of what it has read**, if it is about to write. -/
def Fresh (s : State) (label : ℕ × ℤ) : Prop :=
  ∀ call ∈ s.calls[label.1]?, ∀ session ∈ call.phase.read, s.messages scope = session.messages

instance decidableFresh (s : State) (label : ℕ × ℤ) : Decidable (Fresh scope s label) :=
  inferInstanceAs (Decidable (∀ call ∈ s.calls[label.1]?, ∀ session ∈ call.phase.read,
    s.messages scope = session.messages))

/-! ### What a step can do -/

/-- The turns that a call has written to the session. -/
def Call.written (c : Call) : List Turn :=
  match c.phase with
  | .saved | .loadedSummary _ | .done => [c.turn]
  | .start | .loaded _ | .failed _ => []

variable {cfg scope} {s t : State} {label : ℕ × ℤ}

/-- What the calls have read stands under the key of the scope. -/
def ReadStored (scope : MemoryScope) (s : State) : Prop :=
  ∀ call ∈ s.calls, ∀ session ∈ call.phase.read, session.StoredUnder scope.sessionKey

/-- **The steps of a call.** Reads leave the store as it is; a write puts the session that
was read, with the turn or with a summary, under the key of the scope. -/
theorem step_cases (h : validateSessionScope scope = .ok ()) (hread : ReadStored scope s)
    (hstep : step cfg scope s label = some t) :
    ∃ call, s.calls[label.1]? = some call ∧
      ((∃ session phase, session.StoredUnder scope.sessionKey ∧
          session.messages = s.messages scope ∧
          (call.phase = .start ∧ phase = .loaded session ∨
            call.phase = .saved ∧ phase = .loadedSummary session) ∧
          t = s.move s.store label.1 call phase) ∨
        (∃ session store', call.phase = .loaded session ∧
          ChangedSession s.store store' scope.sessionKey
            (appended (s.policy cfg scope) session call.turn.userMessage
              call.turn.assistantMessage label.2) ∧
          t = s.move store' label.1 call .saved) ∨
        ∃ session store', call.phase = .loadedSummary session ∧
          (store' = s.store ∨ ∃ session', session'.messages = session.messages ∧
            ChangedSession s.store store' scope.sessionKey session') ∧
          t = s.move store' label.1 call .done) := by
  have hn : validateSessionScope scope.normalized = .ok () := by simpa using h
  have hload := loadSession_eq s.store hn label.2
  have hstored := sessionAt_storedUnder s.store hn label.2
  have hmessages : (s.store.sessionAt scope.normalized label.2).messages = s.messages scope := by
    unfold sessionAt State.messages
    rw [MemoryScope.sessionKey_normalized]
    cases s.store.sessions scope.sessionKey <;> rfl
  rw [MemoryScope.sessionKey_normalized] at hstored
  unfold step at hstep
  cases hcall : s.calls[label.1]? with
  | none => simp [hcall] at hstep
  | some call =>
    simp only [hcall] at hstep
    refine ⟨call, rfl, ?_⟩
    have hmem : call ∈ s.calls := List.mem_of_getElem? hcall
    cases hphase : call.phase with
    | start =>
      simp only [hphase, hload, Option.some.injEq] at hstep
      exact .inl ⟨_, _, hstored, hmessages, .inl ⟨rfl, rfl⟩, hstep.symm⟩
    | saved =>
      simp only [hphase, hload, Option.some.injEq] at hstep
      exact .inl ⟨_, _, hstored, hmessages, .inr ⟨rfl, rfl⟩, hstep.symm⟩
    | loaded session =>
      have hsession := hread call hmem session (by simp [hphase, Phase.read])
      simp only [hphase, saveSession_eq (hsession.appended _ _ _ _), Option.some.injEq] at hstep
      exact .inr (.inl ⟨session, _, rfl, changedSession_putSession _, hstep.symm⟩)
    | loadedSummary session =>
      have hsession := hread call hmem session (by simp [hphase, Phase.read])
      simp only [hphase] at hstep
      cases hsum : summarized (s.policy cfg scope) session label.2 with
      | none =>
        simp only [hsum, Option.some.injEq] at hstep
        exact .inr (.inr ⟨session, _, rfl, .inl rfl, hstep.symm⟩)
      | some session' =>
        have hgetD : summarizedSession (s.policy cfg scope) session label.2 = session' := by
          simp [summarizedSession, hsum]
        have hsession' := hsession.summarizedSession (s.policy cfg scope) label.2
        rw [hgetD] at hsession'
        simp only [hsum, saveSession_eq hsession', Option.some.injEq] at hstep
        refine .inr (.inr ⟨session, _, rfl, .inr ⟨session', ?_, changedSession_putSession _⟩,
          hstep.symm⟩)
        rw [← hgetD, summarizedSession_messages]
    | done => simp [hphase] at hstep
    | failed e => simp [hphase] at hstep

/-! ### The session grows by one turn after the other -/

theorem messages_of_changed {store' : InMemoryStore} {session : SessionMemory}
    (h : ChangedSession s.store store' scope.sessionKey session) (calls : List Call) :
    State.messages scope ⟨store', calls⟩ = session.messages := by
  simp [State.messages, h.sessions]

theorem map_turn_move {call : Call} {i : ℕ} (hcall : s.calls[i]? = some call)
    (store : InMemoryStore) (phase : Phase) :
    (s.move store i call phase).calls.map (·.turn) = s.calls.map (·.turn) := by
  refine List.ext_getElem? fun j => ?_
  rw [State.move, List.getElem?_map, List.getElem?_map, List.getElem?_set]
  split
  · next hij =>
    subst hij
    split
    · simp [hcall]
    · next hlt => exact absurd (List.getElem?_eq_some_iff.mp hcall).1 hlt
  · rfl

theorem written_move {call : Call} {i : ℕ} (hcall : s.calls[i]? = some call)
    (store : InMemoryStore) (phase : Phase) :
    (call.written ++ (s.move store i call phase).calls.flatMap Call.written).Perm
      (({ call with phase } : Call).written ++ s.calls.flatMap Call.written) :=
  Lists.flatMap_set_perm _ hcall

theorem readStored_move {call : Call} {phase : Phase} (h : ReadStored scope s)
    (store : InMemoryStore) (i : ℕ)
    (hphase : ∀ session ∈ phase.read, session.StoredUnder scope.sessionKey) :
    ReadStored scope (s.move store i call phase) := by
  intro c hc
  rcases List.mem_or_eq_of_mem_set hc with hold | rfl
  · exact h c hold
  · exact hphase

/-- What has been written is part of the turns. -/
theorem written_sublist (calls : List Call) :
    (calls.flatMap Call.written).Sublist (calls.map (·.turn)) := by
  rw [List.map_eq_flatMap]
  refine List.Sublist.flatMap_right calls fun c _ => ?_
  unfold Call.written
  split <;> simp

/-- **The turns that have been written are in the session**, each once and in the order of
the writes. -/
structure Grown (cfg : MemoryConfig) (scope : MemoryScope) (policy : EffectivePolicy)
    (initial : List Message) (turns : List Turn) (s : State) : Prop where
  turns_eq : s.calls.map (·.turn) = turns
  policy_eq : s.policy cfg scope = policy
  read : ReadStored scope s
  grown : ∃ order : List Turn, order.Perm (s.calls.flatMap Call.written) ∧
    s.messages scope = initial ++ order.flatMap Turn.messages

variable {policy : EffectivePolicy} {initial : List Message} {turns : List Turn}

theorem policy_of_changed {store' : InMemoryStore} {session : SessionMemory}
    (h : ChangedSession s.store store' scope.sessionKey session) (calls : List Call) :
    State.policy cfg scope ⟨store', calls⟩ = s.policy cfg scope := by
  have hget : store'.getPolicy = s.store.getPolicy := by
    unfold getPolicy
    rw [h.policies]
  rw [State.policy, State.policy, hget]

/-- **A step on top of what was read** keeps all that has been written. -/
theorem Grown.step (h : validateSessionScope scope = .ok ())
    (hwindow : ((initial ++ turns.flatMap Turn.messages).length : ℤ) ≤ policy.recentWindow)
    (hs : Grown cfg scope policy initial turns s) (hfresh : Fresh scope s label)
    (hstep : Turns.step cfg scope s label = some t) : Grown cfg scope policy initial turns t := by
  obtain ⟨hturns, hpolicy, hread, order, hperm, hmessages⟩ := hs
  obtain ⟨call, hcall, hcases⟩ := step_cases h hread hstep
  have hwritten := written_move hcall
  rcases hcases with ⟨session, phase, hstored, -, hphases, rfl⟩ |
    ⟨session, store', hphase, hchanged, rfl⟩ | ⟨session, store', hphase, hstore, rfl⟩
  · -- a read
    refine ⟨(map_turn_move hcall _ _).trans hturns, hpolicy, ?_, order, ?_, hmessages⟩
    · refine readStored_move hread _ _ ?_
      rcases hphases with ⟨-, rfl⟩ | ⟨-, rfl⟩ <;> simpa [Phase.read] using hstored
    · refine hperm.trans ?_
      have hmove := hwritten s.store phase
      rcases hphases with ⟨hphase, rfl⟩ | ⟨hphase, rfl⟩
      · simpa [Call.written, hphase] using hmove.symm
      · simpa [Call.written, hphase] using hmove.symm
  · -- the turn is written
    have hread' : s.messages scope = session.messages :=
      hfresh call hcall session (by simp [hphase, Phase.read])
    have horder : (order ++ [call.turn]).Perm
        ((s.move store' label.1 call .saved).calls.flatMap Call.written) := by
      refine (List.perm_append_singleton _ _).trans ((hperm.cons _).trans ?_)
      simpa [Call.written, hphase] using (hwritten store' .saved).symm
    refine ⟨(map_turn_move hcall _ _).trans hturns,
      (policy_of_changed hchanged _).trans hpolicy,
      readStored_move hread _ _ (by simp [Phase.read]), order ++ [call.turn], horder, ?_⟩
    -- the window holds all the messages of the session
    have hlength : ((order ++ [call.turn]).flatMap Turn.messages).length ≤
        (turns.flatMap Turn.messages).length := by
      rw [(horder.flatMap_right _).length_eq, ← hturns, ← map_turn_move hcall store' .saved]
      exact ((written_sublist _).flatMap _).length_le
    have hall : session.messages ++ turnMessages call.turn.userMessage call.turn.assistantMessage =
        initial ++ (order ++ [call.turn]).flatMap Turn.messages := by
      rw [← hread', hmessages, List.flatMap_append, List.append_assoc]
      simp [Turn.messages]
    rw [State.move, messages_of_changed hchanged, appended, hpolicy]
    simp only [hall]
    refine trimMessages_of_le ?_
    simp only [List.length_append] at hlength hwindow ⊢
    omega
  · -- the summary is written
    have hread' : s.messages scope = session.messages :=
      hfresh call hcall session (by simp [hphase, Phase.read])
    refine ⟨(map_turn_move hcall _ _).trans hturns, ?_,
      readStored_move hread _ _ (by simp [Phase.read]), order, ?_, ?_⟩
    · rcases hstore with rfl | ⟨session', -, hchanged⟩
      · exact hpolicy
      · exact (policy_of_changed hchanged _).trans hpolicy
    · refine hperm.trans ?_
      simpa [Call.written, hphase] using (hwritten store' .done).symm
    · rcases hstore with rfl | ⟨session', hsame, hchanged⟩
      · exact hmessages
      · rw [State.move, messages_of_changed hchanged, hsame, ← hread', hmessages]

/-! ### Every interleaving -/

theorem grown_init (store : InMemoryStore) (turns : List Turn) :
    Grown cfg scope (State.policy cfg scope (init store turns))
      (State.messages scope (init store turns)) turns (init store turns) := by
  refine ⟨by simp [init, Function.comp_def], rfl, fun call hcall session hsession => ?_, [], ?_, ?_⟩
  · obtain ⟨turn, -, rfl⟩ := List.mem_map.mp hcall
    simp [Phase.read] at hsession
  · have hnone : (init store turns).calls.flatMap Call.written = [] := by
      simp [init, List.flatMap_map, Call.written]
    rw [hnone]
  · simp

/-- **No turn is lost where every write is on top of what its call has read.** In every
interleaving of this kind, when all calls are done the session holds what it held at the
beginning and every turn once, in some order of the turns. -/
theorem complete_of_run (cfg : MemoryConfig) {scope : MemoryScope}
    (h : validateSessionScope scope = .ok ()) (store : InMemoryStore) (turns : List Turn)
    (hwindow : ((State.messages scope (init store turns) ++
      turns.flatMap Turn.messages).length : ℤ) ≤
        (State.policy cfg scope (init store turns)).recentWindow)
    {labels : List (ℕ × ℤ)} {t : State}
    (hfresh : Runs.Along (step cfg scope) (Fresh scope) (init store turns) labels)
    (hrun : Runs.run (step cfg scope) (init store turns) labels = some t)
    (hdone : ∀ call ∈ t.calls, call.phase = .done) :
    ∃ order : List Turn, order.Perm turns ∧
      t.messages scope =
        State.messages scope (init store turns) ++ order.flatMap Turn.messages := by
  obtain ⟨hturns, -, -, order, hperm, hmessages⟩ := Runs.run_invariant_along
    (fun s label t hs hf hstep => Grown.step h hwindow hs hf hstep) (grown_init store turns)
    hfresh hrun
  refine ⟨order, hperm.trans ?_, hmessages⟩
  have hall : t.calls.flatMap Call.written = t.calls.map (·.turn) := by
    rw [List.map_eq_flatMap]
    exact List.flatMap_congr fun call hcall => by simp [Call.written, hdone call hcall]
  rw [hall, hturns]

/-- A session of one user. -/
def chatScope : MemoryScope := { tenantId := "acme", teamId := "sre", sessionId := "s1" }

/-- Two turns. -/
def twoTurns : List Turn := [⟨"first", "one"⟩, ⟨"second", "two"⟩]

/-- One call after the other. -/
def oneByOne : List (ℕ × ℤ) := [(0, 1), (0, 2), (0, 3), (0, 4), (1, 5), (1, 6), (1, 7), (1, 8)]

/-- Both calls read the session before one of them writes it. -/
def overlapping : List (ℕ × ℤ) := [(0, 1), (1, 2), (0, 3), (1, 4), (0, 5), (0, 6), (1, 7), (1, 8)]

/-- What is left of two calls: their phases and the messages of the session. -/
def outcome (labels : List (ℕ × ℤ)) : Option (List Phase × List Message) :=
  (Runs.run (step {} chatScope) (init .new twoTurns) labels).map fun t =>
    (t.calls.map (·.phase), t.messages chatScope)

theorem oneByOne_complete :
    ∃ t, Runs.run (step {} chatScope) (init .new twoTurns) oneByOne = some t ∧
      ∃ order : List Turn, order.Perm twoTurns ∧
        t.messages chatScope =
          State.messages chatScope (init .new twoTurns) ++ order.flatMap Turn.messages := by
  obtain ⟨t, hrun, hout⟩ := Option.map_eq_some_iff.mp
    (by decide : outcome oneByOne = some ([.done, .done], twoTurns.flatMap Turn.messages))
  have hphases : t.calls.map (·.phase) = [.done, .done] := congrArg Prod.fst hout
  refine ⟨t, hrun, complete_of_run {} (validateSessionScope_ok_iff.mpr (by decide)) .new twoTurns
    (by decide) (by decide : Runs.Along _ (Fresh chatScope) _ oneByOne) hrun fun call hcall => ?_⟩
  have hmem : call.phase ∈ [Phase.done, Phase.done] := hphases ▸ List.mem_map_of_mem hcall
  simpa using hmem

/-- **A turn is lost** where two calls read the session before one of them writes it: both
return without an error, and the messages of the first turn are gone. -/
theorem overlapping_loses_turn :
    ∃ t, Runs.run (step {} chatScope) (init .new twoTurns) overlapping = some t ∧
      t.calls.map (·.phase) = [.done, .done] ∧
      ((State.messages chatScope (init .new twoTurns) ++
        twoTurns.flatMap Turn.messages).length : ℤ) ≤
          (State.policy {} chatScope (init .new twoTurns)).recentWindow ∧
      ⟨.user, "first"⟩ ∈ (⟨"first", "one"⟩ : Turn).messages ∧
      ⟨.user, "first"⟩ ∉ t.messages chatScope := by
  obtain ⟨t, hrun, hout⟩ := Option.map_eq_some_iff.mp
    (by decide : outcome overlapping =
      some ([.done, .done], (⟨"second", "two"⟩ : Turn).messages))
  have hphases : t.calls.map (·.phase) = [.done, .done] := congrArg Prod.fst hout
  have hmessages : t.messages chatScope = (⟨"second", "two"⟩ : Turn).messages :=
    congrArg Prod.snd hout
  refine ⟨t, hrun, hphases, by decide, by decide, ?_⟩
  rw [hmessages]
  decide

end Turns

end MonitorSystem
