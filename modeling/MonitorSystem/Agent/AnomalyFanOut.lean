import MonitorSystem.Library.Lists
import MonitorSystem.Library.Runs
import Mathlib.Data.List.Count

/-!
# The anomalies of all servers

`queryAllServerAnomalies` of `agent_service/internal/ai/tools/query_monitor_gateway.go` asks for
the servers and then, in one goroutine for each of them, for their anomalies. A channel of eight
places is the semaphore that bounds the requests in flight, every goroutine writes its own entry
of a slice that has been made before, and a wait group ends the call.

A goroutine is cut at its accesses to the semaphore, at its request, at its write and at the two
deferred calls, of which the one on the semaphore comes first. Every interleaving gives the list
that asking one server after the other gives (`AnomalyFanOut.fanOut_sequential`), and none of them
gets stuck.

The answers of the gateway are arbitrary, one for each request. What `encoding/json` makes of a
text and `url.PathEscape` are parameters.
-/

namespace MonitorSystem

/-! ### Requests to the gateway -/

/-- `url.Values`. -/
abbrev Values := String → List String

/-- What comes of a request: no answer, or a status with a body. -/
inductive HttpAnswer where
  | failed (error : String)
  | answered (status : ℕ) (body : String)
  deriving DecidableEq, Repr

/-- `gatewayEnvelope`. -/
structure GatewayEnvelope where
  code : ℤ
  message : String
  data : String
  deriving DecidableEq, Repr

/-- `apiGatewayGet`, with what `json.Unmarshal` makes of an envelope. -/
def apiGatewayGet (envelope : String → Option GatewayEnvelope) :
    HttpAnswer → Except String String
  | .failed e => .error e
  | .answered status body =>
    if status < 200 ∨ 300 ≤ status then
      .error ("api_gateway returned status " ++ toString status ++ ": " ++ body)
    else
      match envelope body with
      | none => .ok body
      | some e =>
        if e.message ≠ "" then
          if e.code ≠ 0 then
            .error ("api_gateway error " ++ toString e.code ++ ": " ++ e.message)
          else .ok e.data
        else .ok body

/-- `cloneValues`. -/
def cloneValues (values : Values) : Values := fun key =>
  (values key).foldl (fun cloned value => cloned ++ [value]) []

theorem cloneValues_eq (values : Values) : cloneValues values = values := by
  have hfold : ∀ l acc : List String, l.foldl (fun cloned value => cloned ++ [value]) acc =
      acc ++ l := by
    intro l
    induction l with
    | nil => simp
    | cons value l ih => simp [ih]
  funext key
  rw [cloneValues, hfold, List.nil_append]

/-- The data of an entry: the payload of a body that is JSON, or else its text. -/
inductive EntryData (J : Type) where
  | json (payload : J)
  | text (data : String)
  deriving DecidableEq, Repr

/-- The entry of a server in the list. -/
structure ServerEntry (J : Type) where
  serverName : String
  success : Bool
  error : Option String := none
  data : Option (EntryData J) := none
  deriving DecidableEq, Repr

/-- What a call meets: the answers to its requests, the first one for the servers and one for each
entry of the list, and what the libraries make of a text. -/
structure GatewayWorld (J : Type) where
  overview : HttpAnswer
  anomalies : ℕ → String → Values → HttpAnswer
  envelope : String → Option GatewayEnvelope
  pathEscape : String → String
  unmarshal : String → Option J
  unmarshalLatest : String → Except String (List String)
  marshal : List (Option (ServerEntry J)) → Except String String

/-- `queryOneServerAnomalies`, for the entry of an index. -/
def queryOneServerAnomalies {J : Type} (world : GatewayWorld J) (params : Values) (index : ℕ)
    (serverName : String) : ServerEntry J :=
  let path := "/api/servers/" ++ world.pathEscape serverName ++ "/anomalies"
  match apiGatewayGet world.envelope (world.anomalies index path (cloneValues params)) with
  | .error e => { serverName, success := false, error := some e }
  | .ok data =>
    match world.unmarshal data with
    | some payload => { serverName, success := true, data := some (.json payload) }
    | none => { serverName, success := true, data := some (.text data) }

/-- The names of the servers that are asked for. -/
def serverNamesOf {J : Type} (world : GatewayWorld J) : Except String (List String) := do
  let overview ← apiGatewayGet world.envelope world.overview
  let servers ← world.unmarshalLatest overview
  .ok (servers.filter fun name => name ≠ "")

/-- The entries of some servers. -/
def entriesOf {J : Type} (world : GatewayWorld J) (params : Values) (names : List String) :
    List (Option (ServerEntry J)) :=
  names.mapIdx fun index name => some (queryOneServerAnomalies world params index name)

/-- **One server after the other.** -/
def sequentialServerAnomalies {J : Type} (world : GatewayWorld J) (params : Values) :
    Except String String := do
  let names ← serverNamesOf world
  world.marshal (entriesOf world params names)

/-- `maxConcurrentAllServerAnomalyQueries`. -/
def maxConcurrentAllServerAnomalyQueries : ℕ := 8

namespace AnomalyFanOut

variable {J : Type}

/-! ### The call and its goroutines -/

/-- Where a goroutine is: before the semaphore, with its request under way, with the answer, behind
its write, behind the release of the semaphore, and at its end. -/
inductive Phase (J : Type) where
  | waiting
  | requesting
  | answered (entry : ServerEntry J)
  | written
  | released
  | done
  deriving DecidableEq, Repr

/-- It has a place in the channel. -/
def Phase.holds : Phase J → Bool
  | .requesting | .answered _ | .written => true
  | .waiting | .released | .done => false

/-- Its request is in flight. -/
def Phase.inFlight : Phase J → Bool
  | .requesting => true
  | _ => false

/-- It has not called `wg.Done`. -/
def Phase.counted : Phase J → Bool
  | .done => false
  | _ => true

/-- Where the call itself is. -/
inductive MainPc where
  | overview
  | fanOut
  | returned (result : Except String String)

/-- A state of the call: the names, the goroutines that have been started, the places taken in the
channel, the counter of the wait group, and the slice of the entries. -/
structure State (J : Type) where
  main : MainPc := .overview
  names : List String := []
  goroutines : List (Phase J) := []
  sem : ℕ := 0
  wg : ℕ := 0
  results : List (Option (ServerEntry J)) := []

/-- Who moves: the call, or a goroutine. -/
inductive Label where
  | overview
  | spawn
  | wait
  | goroutine (index : ℕ)
  deriving DecidableEq, Repr

/-- The state with a goroutine in another phase. -/
def State.move (s : State J) (i : ℕ) (phase : Phase J) : State J :=
  { s with goroutines := s.goroutines.set i phase }

@[simp] theorem State.move_main (s : State J) (i : ℕ) (phase : Phase J) :
    (s.move i phase).main = s.main := rfl

@[simp] theorem State.move_names (s : State J) (i : ℕ) (phase : Phase J) :
    (s.move i phase).names = s.names := rfl

@[simp] theorem State.move_goroutines (s : State J) (i : ℕ) (phase : Phase J) :
    (s.move i phase).goroutines = s.goroutines.set i phase := rfl

@[simp] theorem State.move_sem (s : State J) (i : ℕ) (phase : Phase J) :
    (s.move i phase).sem = s.sem := rfl

@[simp] theorem State.move_wg (s : State J) (i : ℕ) (phase : Phase J) :
    (s.move i phase).wg = s.wg := rfl

@[simp] theorem State.move_results (s : State J) (i : ℕ) (phase : Phase J) :
    (s.move i phase).results = s.results := rfl

/-- **One step.** A send to the full channel, a receive from the empty one and a wait for a counter
that is not zero are not enabled. -/
def step (world : GatewayWorld J) (params : Values) (s : State J) : Label → Option (State J)
  | .overview =>
    match s.main with
    | .overview =>
      match serverNamesOf world with
      | .error e => some { s with main := .returned (.error e) }
      | .ok names =>
        some { s with main := .fanOut, names, results := List.replicate names.length none }
    | _ => none
  | .spawn =>
    match s.main with
    | .fanOut =>
      if s.goroutines.length < s.names.length then
        some { s with goroutines := s.goroutines ++ [.waiting], wg := s.wg + 1 }
      else none
    | _ => none
  | .wait =>
    match s.main with
    | .fanOut =>
      if s.goroutines.length = s.names.length ∧ s.wg = 0 then
        some { s with main := .returned (world.marshal s.results) }
      else none
    | _ => none
  | .goroutine i =>
    match s.goroutines[i]? with
    | none => none
    | some .waiting =>
      if s.sem < maxConcurrentAllServerAnomalyQueries then
        some { s.move i .requesting with sem := s.sem + 1 }
      else none
    | some .requesting =>
      some (s.move i (.answered (queryOneServerAnomalies world params i (s.names.getD i ""))))
    | some (.answered entry) =>
      some { s.move i .written with results := s.results.set i (some entry) }
    | some .written => if 0 < s.sem then some { s.move i .released with sem := s.sem - 1 } else none
    | some .released => if 0 < s.wg then some { s.move i .done with wg := s.wg - 1 } else none
    | some .done => none

/-- The requests in flight. -/
def State.requestsInFlight (s : State J) : ℕ := s.goroutines.countP Phase.inFlight

/-! ### The invariant -/

/-- The entry that belongs at an index. -/
def entryAt (world : GatewayWorld J) (params : Values) (names : List String) (i : ℕ) :
    ServerEntry J :=
  queryOneServerAnomalies world params i (names.getD i "")

/-- It has written its entry. -/
def Phase.recorded : Phase J → Bool
  | .written | .released | .done => true
  | .waiting | .requesting | .answered _ => false

/-- **What holds in every state**: the channel has as many places taken as there are goroutines
that hold one, the wait group counts those that are not done, and every entry that has been
written is the one that belongs there. -/
structure Inv (world : GatewayWorld J) (params : Values) (s : State J) : Prop where
  idle : s.main = .overview → s.goroutines = []
  names : s.main = .fanOut → serverNamesOf world = .ok s.names
  returned : ∀ r, s.main = .returned r → r = sequentialServerAnomalies world params
  few : s.names = [] ∨ serverNamesOf world = .ok s.names
  started : s.goroutines.length ≤ s.names.length
  length : s.results.length = s.names.length
  sem : s.sem = s.goroutines.countP Phase.holds
  bound : s.sem ≤ maxConcurrentAllServerAnomalyQueries
  wg : s.wg = s.goroutines.countP Phase.counted
  answered : ∀ i entry, s.goroutines[i]? = some (.answered entry) →
    entry = entryAt world params s.names i
  recorded : ∀ i phase, s.goroutines[i]? = some phase → phase.recorded →
    s.results[i]? = some (some (entryAt world params s.names i))

section Invariant

variable {world : GatewayWorld J} {params : Values} {s t : State J} {i : ℕ} {old new : Phase J}

theorem inv_init : Inv world params {} where
  idle _ := rfl
  names h := by cases h
  returned r h := by cases h
  few := .inl rfl
  started := le_rfl
  length := rfl
  sem := rfl
  bound := Nat.zero_le _
  wg := rfl
  answered i entry h := by cases h
  recorded i phase h := by cases h

/-- **A goroutine moves**: the semaphore and the wait group follow it, and only its own entry may
be written. -/
theorem Inv.move (h : Inv world params s) (hi : s.goroutines[i]? = some old) {sem wg : ℕ}
    {results : List (Option (ServerEntry J))}
    (hsem : sem + (if old.holds then 1 else 0) = s.sem + if new.holds then 1 else 0)
    (hbound : sem ≤ maxConcurrentAllServerAnomalyQueries)
    (hwg : wg + (if old.counted then 1 else 0) = s.wg + if new.counted then 1 else 0)
    (hlength : results.length = s.results.length)
    (hanswered : ∀ entry, new = .answered entry → entry = entryAt world params s.names i)
    (hrecorded : new.recorded → results[i]? = some (some (entryAt world params s.names i)))
    (hothers : ∀ j, j ≠ i → results[j]? = s.results[j]?) :
    Inv world params { s.move i new with sem, wg, results } := by
  have hlt : i < s.goroutines.length := (List.getElem?_eq_some_iff.mp hi).1
  have hholds := Lists.countP_set_add (p := Phase.holds) new hi
  have hcounted := Lists.countP_set_add (p := Phase.counted) new hi
  have hget : ∀ j phase, (s.goroutines.set i new)[j]? = some phase →
      j = i ∧ phase = new ∨ j ≠ i ∧ s.goroutines[j]? = some phase := by
    intro j phase hj
    rcases eq_or_ne j i with rfl | hne
    · rw [List.getElem?_set_self hlt] at hj
      exact .inl ⟨rfl, (Option.some.inj hj).symm⟩
    · rw [List.getElem?_set_ne hne.symm] at hj
      exact .inr ⟨hne, hj⟩
  refine ⟨fun hmain => ?_, h.names, h.returned, h.few, ?_, hlength.trans h.length, ?_, hbound, ?_,
    fun j entry hj => ?_, fun j phase hj hphase => ?_⟩
  · have hnone := h.idle hmain
    rw [hnone] at hlt
    cases hlt
  · simpa [State.move] using h.started
  · have := h.sem
    simp only [State.move]
    omega
  · have := h.wg
    simp only [State.move]
    omega
  · rcases hget j _ hj with ⟨rfl, hnew⟩ | ⟨-, hold⟩
    · exact hanswered entry hnew.symm
    · exact h.answered j entry hold
  · rcases hget j _ hj with ⟨rfl, rfl⟩ | ⟨hne, hold⟩
    · exact hrecorded hphase
    · exact (hothers j hne).trans (h.recorded j phase hold hphase)

/-- **A goroutine is started**: it waits, and the wait group counts it. -/
theorem Inv.start (h : Inv world params s) (hmain : s.main = .fanOut)
    (hlt : s.goroutines.length < s.names.length) :
    Inv world params { s with goroutines := s.goroutines ++ [.waiting], wg := s.wg + 1 } := by
  have hget : ∀ (j : ℕ) (phase : Phase J), (s.goroutines ++ [.waiting])[j]? = some phase →
      s.goroutines[j]? = some phase ∨ phase = .waiting := by
    intro j phase hj
    rcases lt_trichotomy j s.goroutines.length with hj' | rfl | hj'
    · rw [List.getElem?_append_left hj'] at hj
      exact .inl hj
    · rw [List.getElem?_concat_length] at hj
      exact .inr (Option.some.inj hj).symm
    · rw [List.getElem?_eq_none (by simp; omega)] at hj
      cases hj
  refine { h with
    idle := fun hcase => by rw [hmain] at hcase; cases hcase
    started := by simp; omega
    sem := by simpa [List.countP_append, Phase.holds] using h.sem
    wg := by simpa [List.countP_append, Phase.counted] using h.wg
    answered := fun j entry hj => ?_
    recorded := fun j phase hj hphase => ?_ }
  · rcases hget j _ hj with hold | hnew
    · exact h.answered j entry hold
    · cases hnew
  · rcases hget j _ hj with hold | rfl
    · exact h.recorded j phase hold hphase
    · cases hphase

/-- **The steps of a goroutine.** -/
theorem step_goroutine (hstep : step world params s (.goroutine i) = some t) :
    (s.goroutines[i]? = some .waiting ∧ s.sem < maxConcurrentAllServerAnomalyQueries ∧
        t = { s.move i .requesting with sem := s.sem + 1 }) ∨
      (s.goroutines[i]? = some .requesting ∧
        t = s.move i (.answered (entryAt world params s.names i))) ∨
      (∃ entry, s.goroutines[i]? = some (.answered entry) ∧
        t = { s.move i .written with results := s.results.set i (some entry) }) ∨
      (s.goroutines[i]? = some .written ∧ 0 < s.sem ∧
        t = { s.move i .released with sem := s.sem - 1 }) ∨
      s.goroutines[i]? = some .released ∧ 0 < s.wg ∧
        t = { s.move i .done with wg := s.wg - 1 } := by
  simp only [step] at hstep
  cases hi : s.goroutines[i]? with
  | none => simp [hi] at hstep
  | some phase =>
    cases phase with
    | waiting =>
      simp only [hi] at hstep
      split at hstep
      · next hsem => exact .inl ⟨rfl, hsem, (Option.some.inj hstep).symm⟩
      · cases hstep
    | requesting =>
      simp only [hi] at hstep
      exact .inr (.inl ⟨rfl, (Option.some.inj hstep).symm⟩)
    | answered entry =>
      simp only [hi] at hstep
      exact .inr (.inr (.inl ⟨entry, rfl, (Option.some.inj hstep).symm⟩))
    | written =>
      simp only [hi] at hstep
      split at hstep
      · next hsem => exact .inr (.inr (.inr (.inl ⟨rfl, hsem, (Option.some.inj hstep).symm⟩)))
      · cases hstep
    | released =>
      simp only [hi] at hstep
      split at hstep
      · next hwg => exact .inr (.inr (.inr (.inr ⟨rfl, hwg, (Option.some.inj hstep).symm⟩)))
      · cases hstep
    | done => simp [hi] at hstep

/-- **The steps of the call itself.** -/
theorem step_overview (hstep : step world params s .overview = some t) :
    s.main = .overview ∧
      ((∃ e, serverNamesOf world = .error e ∧ t = { s with main := .returned (.error e) }) ∨
        ∃ names, serverNamesOf world = .ok names ∧
          t = { s with main := .fanOut, names, results := List.replicate names.length none }) := by
  simp only [step] at hstep
  cases hmain : s.main with
  | overview =>
    refine ⟨rfl, ?_⟩
    simp only [hmain] at hstep
    cases hnames : serverNamesOf world with
    | error e =>
      rw [hnames] at hstep
      exact .inl ⟨e, rfl, (Option.some.inj hstep).symm⟩
    | ok names =>
      rw [hnames] at hstep
      exact .inr ⟨names, rfl, (Option.some.inj hstep).symm⟩
  | fanOut => simp [hmain] at hstep
  | returned r => simp [hmain] at hstep

theorem step_spawn (hstep : step world params s .spawn = some t) :
    s.main = .fanOut ∧ s.goroutines.length < s.names.length ∧
      t = { s with goroutines := s.goroutines ++ [.waiting], wg := s.wg + 1 } := by
  simp only [step] at hstep
  cases hmain : s.main with
  | fanOut =>
    simp only [hmain] at hstep
    split at hstep
    · next hlt => exact ⟨rfl, hlt, (Option.some.inj hstep).symm⟩
    · cases hstep
  | overview => simp [hmain] at hstep
  | returned r => simp [hmain] at hstep

theorem step_wait (hstep : step world params s .wait = some t) :
    s.main = .fanOut ∧ (s.goroutines.length = s.names.length ∧ s.wg = 0) ∧
      t = { s with main := .returned (world.marshal s.results) } := by
  simp only [step] at hstep
  cases hmain : s.main with
  | fanOut =>
    simp only [hmain] at hstep
    split at hstep
    · next hall => exact ⟨rfl, hall, (Option.some.inj hstep).symm⟩
    · cases hstep
  | overview => simp [hmain] at hstep
  | returned r => simp [hmain] at hstep

/-- **When every goroutine is done, the slice is the list of the entries.** -/
theorem Inv.results_eq (h : Inv world params s) (hall : s.goroutines.length = s.names.length)
    (hwg : s.wg = 0) : s.results = entriesOf world params s.names := by
  have hdone : ∀ phase ∈ s.goroutines, phase = .done := by
    intro phase hmem
    have hnone := List.countP_eq_zero.mp (h.wg.symm.trans hwg) phase hmem
    cases phase <;> first | rfl | exact absurd rfl hnone
  refine List.ext_getElem? fun i => ?_
  by_cases hi : i < s.names.length
  · have hget := List.getElem?_eq_getElem (hall ▸ hi : i < s.goroutines.length)
    have hphase := hdone _ (List.getElem_mem (hall ▸ hi : i < s.goroutines.length))
    rw [hphase] at hget
    rw [h.recorded i .done hget rfl, entriesOf, List.getElem?_mapIdx, List.getElem?_eq_getElem hi,
      entryAt, List.getD_eq_getElem?_getD, List.getElem?_eq_getElem hi]
    rfl
  · rw [List.getElem?_eq_none (by rw [h.length]; omega),
      List.getElem?_eq_none (by rw [entriesOf, List.length_mapIdx]; omega)]

/-- **Every step keeps the invariant.** -/
theorem inv_step (h : Inv world params s) {label : Label}
    (hstep : step world params s label = some t) : Inv world params t := by
  cases label with
  | overview =>
    obtain ⟨hmain, ⟨e, hnames, rfl⟩ | ⟨names, hnames, rfl⟩⟩ := step_overview hstep
    · refine { h with
        idle := fun hcase => by cases hcase
        names := fun hcase => by cases hcase
        returned := fun r hr => ?_ }
      obtain rfl := MainPc.returned.inj hr
      rw [sequentialServerAnomalies, hnames]
      rfl
    · have hnone := h.idle hmain
      have hsem := h.sem
      have hwg := h.wg
      rw [hnone] at hsem hwg
      refine ⟨fun hcase => (by cases hcase), fun _ => hnames, fun r hr => (by cases hr),
        .inr hnames, ?_, by simp, ?_, h.bound, ?_, ?_, ?_⟩
      · simp [hnone]
      · simpa [hnone] using hsem
      · simpa [hnone] using hwg
      · simp [hnone]
      · simp [hnone]
  | spawn =>
    obtain ⟨hmain, hlt, rfl⟩ := step_spawn hstep
    exact h.start hmain hlt
  | wait =>
    obtain ⟨hmain, ⟨hall, hwg⟩, rfl⟩ := step_wait hstep
    refine { h with
      idle := fun hcase => by cases hcase
      names := fun hcase => by cases hcase
      returned := fun r hr => ?_ }
    obtain rfl := MainPc.returned.inj hr
    rw [h.results_eq hall hwg, sequentialServerAnomalies, h.names hmain]
    rfl
  | goroutine i =>
    rcases step_goroutine hstep with ⟨hi, hsem, rfl⟩ | ⟨hi, rfl⟩ | ⟨entry, hi, rfl⟩ |
      ⟨hi, hsem, rfl⟩ | ⟨hi, hwg, rfl⟩
    · exact h.move hi (by simp [Phase.holds]) hsem (by simp [Phase.counted]) rfl
        (fun entry hcase => by cases hcase) (fun hcase => by cases hcase) fun _ _ => rfl
    · exact h.move hi (by simp [Phase.holds]) h.bound (by simp [Phase.counted]) rfl
        (fun entry hcase => (Phase.answered.inj hcase).symm) (fun hcase => by cases hcase)
        fun _ _ => rfl
    · have hlt : i < s.results.length := by
        have := (List.getElem?_eq_some_iff.mp hi).1
        have := h.started
        have := h.length
        omega
      refine h.move hi (by simp [Phase.holds]) h.bound (by simp [Phase.counted]) (by simp)
        (fun entry hcase => by cases hcase) (fun _ => ?_) fun j hj => List.getElem?_set_ne hj.symm
      rw [List.getElem?_set_self hlt, h.answered i entry hi]
    · have hbound := h.bound
      exact h.move hi (by simp [Phase.holds]; omega) (by omega) (by simp [Phase.counted]) rfl
        (fun entry hcase => by cases hcase) (fun _ => h.recorded i _ hi rfl) fun _ _ => rfl
    · exact h.move hi (by simp [Phase.holds]) h.bound (by simp [Phase.counted]; omega) rfl
        (fun entry hcase => by cases hcase) (fun _ => h.recorded i _ hi rfl) fun _ _ => rfl

end Invariant

/-! ### No run gets stuck -/

/-- How far a goroutine has come. -/
def Phase.rank : Phase J → ℕ
  | .waiting => 1
  | .requesting => 2
  | .answered _ => 3
  | .written => 4
  | .released => 5
  | .done => 6

/-- How far the call has come. -/
def MainPc.rank : MainPc → ℕ
  | .overview => 0
  | .fanOut => 1
  | .returned _ => 2

/-- The steps that have been taken, at least. -/
def State.progress (s : State J) : ℕ := s.main.rank + (s.goroutines.map Phase.rank).sum

section Liveness

variable {world : GatewayWorld J} {params : Values} {s t : State J} {label : Label}

theorem progress_move {i : ℕ} {old new : Phase J} (hi : s.goroutines[i]? = some old)
    (hrank : new.rank = old.rank + 1) : (s.move i new).progress = s.progress + 1 := by
  have := Lists.sum_map_set_add (f := Phase.rank) new hi
  simp only [State.progress, State.move]
  omega

/-- **Every step is progress.** -/
theorem progress_step (hstep : step world params s label = some t) :
    s.progress + 1 ≤ t.progress := by
  cases label with
  | overview =>
    obtain ⟨hmain, ⟨e, -, rfl⟩ | ⟨names, -, rfl⟩⟩ := step_overview hstep
    · simp only [State.progress, hmain, MainPc.rank]
      omega
    · simp only [State.progress, hmain, MainPc.rank]
      omega
  | spawn =>
    obtain ⟨-, -, rfl⟩ := step_spawn hstep
    simp [State.progress, Phase.rank, Nat.add_assoc]
  | wait =>
    obtain ⟨hmain, -, rfl⟩ := step_wait hstep
    simp only [State.progress, hmain, MainPc.rank]
    omega
  | goroutine i =>
    rcases step_goroutine hstep with ⟨hi, -, rfl⟩ | ⟨hi, rfl⟩ | ⟨entry, hi, rfl⟩ | ⟨hi, -, rfl⟩ |
      ⟨hi, -, rfl⟩ <;> exact (progress_move hi rfl).ge

theorem length_le_progress {labels : List Label}
    (hrun : Runs.run (step world params) s labels = some t) :
    s.progress + labels.length ≤ t.progress := by
  induction labels generalizing s with
  | nil =>
    obtain rfl : s = t := by simpa using hrun
    exact le_rfl
  | cons label labels ih =>
    obtain ⟨u, hu, hrun⟩ := Runs.run_cons_iff.mp hrun
    have := progress_step hu
    have := ih hrun
    rw [List.length_cons]
    omega

theorem sum_rank_le (phases : List (Phase J)) :
    (phases.map Phase.rank).sum ≤ 6 * phases.length := by
  induction phases with
  | nil => exact Nat.zero_le _
  | cons phase phases ih =>
    have hrank : phase.rank ≤ 6 := by cases phase <;> simp [Phase.rank]
    rw [List.map_cons, List.sum_cons, List.length_cons]
    omega

theorem Inv.progress_le (h : Inv world params s) : s.progress ≤ 6 * s.names.length + 2 := by
  have hsum := sum_rank_le s.goroutines
  have hmain : s.main.rank ≤ 2 := by cases s.main <;> simp [MainPc.rank]
  have := h.started
  simp only [State.progress]
  omega

/-- A goroutine that holds a place can move on. -/
theorem Inv.exists_step_of_holds (h : Inv world params s) {i : ℕ} {phase : Phase J}
    (hi : s.goroutines[i]? = some phase) (hholds : phase.holds) :
    ∃ t, step world params s (.goroutine i) = some t := by
  simp only [step, hi]
  cases phase with
  | waiting => cases hholds
  | requesting => exact ⟨_, rfl⟩
  | answered entry => exact ⟨_, rfl⟩
  | written =>
    have hpos : 0 < s.sem := by
      rw [h.sem]
      exact List.countP_pos_iff.mpr ⟨_, List.mem_of_getElem? hi, rfl⟩
    simp only [if_pos hpos]
    exact ⟨_, rfl⟩
  | released => cases hholds
  | done => cases hholds

/-- **A call that has not returned can go on.** If every goroutine has been started and one is not
done, it can move, unless it waits for a place in the channel and all of them are taken: then one
that holds a place can. -/
theorem Inv.exists_step (h : Inv world params s) (hmain : ∀ r, s.main ≠ .returned r) :
    ∃ label t, step world params s label = some t := by
  cases hpc : s.main with
  | returned r => exact absurd hpc (hmain r)
  | overview =>
    refine ⟨.overview, ?_⟩
    simp only [step, hpc]
    cases serverNamesOf world with
    | error e => exact ⟨_, rfl⟩
    | ok names => exact ⟨_, rfl⟩
  | fanOut =>
    rcases Nat.lt_or_ge s.goroutines.length s.names.length with hlt | hge
    · refine ⟨.spawn, ?_⟩
      simp only [step, hpc, if_pos hlt]
      exact ⟨_, rfl⟩
    have hall : s.goroutines.length = s.names.length := Nat.le_antisymm h.started hge
    rcases Nat.eq_zero_or_pos s.wg with hzero | hpos
    · refine ⟨.wait, ?_⟩
      simp only [step, hpc, if_pos (And.intro hall hzero)]
      exact ⟨_, rfl⟩
    obtain ⟨phase, hmem, hcounted⟩ := List.countP_pos_iff.mp (h.wg ▸ hpos)
    obtain ⟨i, hi⟩ := List.getElem?_of_mem hmem
    by_cases hholds : phase.holds
    · exact ⟨.goroutine i, h.exists_step_of_holds hi hholds⟩
    cases phase with
    | waiting =>
      rcases Nat.lt_or_ge s.sem maxConcurrentAllServerAnomalyQueries with hfree | hfull
      · refine ⟨.goroutine i, ?_⟩
        simp only [step, hi, if_pos hfree]
        exact ⟨_, rfl⟩
      · -- another goroutine has a place
        have hsome : 0 < s.goroutines.countP Phase.holds :=
          h.sem ▸ Nat.lt_of_lt_of_le (by decide) hfull
        obtain ⟨other, hother, hplace⟩ := List.countP_pos_iff.mp hsome
        obtain ⟨j, hj⟩ := List.getElem?_of_mem hother
        exact ⟨.goroutine j, h.exists_step_of_holds hj hplace⟩
    | released =>
      refine ⟨.goroutine i, ?_⟩
      simp only [step, hi, if_pos hpos]
      exact ⟨_, rfl⟩
    | requesting => exact absurd rfl hholds
    | answered entry => exact absurd rfl hholds
    | written => exact absurd rfl hholds
    | done => cases hcounted

end Liveness

/-! ### Every interleaving -/

/-- The world with another answer to one request. -/
def answering (world : GatewayWorld J) (k : ℕ) (answer : String → Values → HttpAnswer) :
    GatewayWorld J :=
  { world with anomalies := Function.update world.anomalies k answer }

/-- **One answer is in one entry only.** -/
theorem entriesOf_answering (world : GatewayWorld J) (params : Values) (names : List String)
    {j k : ℕ} (h : j ≠ k) (answer : String → Values → HttpAnswer) :
    (entriesOf (answering world k answer) params names)[j]? =
      (entriesOf world params names)[j]? := by
  simp only [entriesOf, List.getElem?_mapIdx, queryOneServerAnomalies, answering,
    Function.update_of_ne h]

/-- **Asking all servers at once is asking one after the other.** In every interleaving of the
call and its goroutines, whatever the gateway answers: never are more than eight requests in
flight; what the call returns is the list of the entries of the named servers in their order, or
the error of the first request; the call can go on until it returns, within a bounded number of
steps; and the answer to one request plays a part in its own entry only. -/
theorem fanOut_sequential (world : GatewayWorld J) (params : Values) {labels : List Label}
    {t : State J} (hrun : Runs.run (step world params) {} labels = some t) :
    t.requestsInFlight ≤ maxConcurrentAllServerAnomalyQueries ∧
      (∀ r, t.main = .returned r → r = sequentialServerAnomalies world params) ∧
      ((∀ r, t.main ≠ .returned r) → ∃ label u, step world params t label = some u) ∧
      (∀ n, (∀ names, serverNamesOf world = .ok names → names.length ≤ n) →
        labels.length ≤ 6 * n + 2) ∧
      ∀ names j k answer, j ≠ k → (entriesOf (answering world k answer) params names)[j]? =
        (entriesOf world params names)[j]? := by
  have h : Inv world params t :=
    Runs.run_invariant (fun s label t hs hstep => inv_step hs hstep) inv_init hrun
  refine ⟨?_, h.returned, h.exists_step, fun n hn => ?_, fun names j k answer hjk =>
    entriesOf_answering world params names hjk answer⟩
  · have hflight : t.requestsInFlight ≤ t.goroutines.countP Phase.holds :=
      List.countP_mono_left fun phase _ hphase => by cases phase <;> first | rfl | cases hphase
    exact (h.sem ▸ hflight).trans h.bound
  · have hlength := length_le_progress hrun
    have hprogress := h.progress_le
    have hnames : t.names.length ≤ n := by
      rcases h.few with hnil | hnames
      · rw [hnil]
        exact Nat.zero_le _
      · exact hn _ hnames
    omega

/-- Two servers of one name and one without a name: the second answer is an error of the gateway. -/
def twoServers : GatewayWorld String where
  overview := .answered 200 "overview"
  anomalies index _ _ := if index = 0 then .answered 200 "text" else .answered 502 "down"
  envelope _ := none
  pathEscape s := s
  unmarshal _ := none
  unmarshalLatest _ := .ok ["web", "", "web"]
  marshal entries := .ok (toString entries.length)

/-- The second goroutine is done before the first one has its place in the channel. -/
def secondFirst : List Label :=
  [.overview, .spawn, .spawn] ++ List.replicate 5 (.goroutine 1) ++
    List.replicate 5 (.goroutine 0) ++ [.wait]

theorem fanOut_twoServers :
    ∃ t, Runs.run (step twoServers fun _ => []) {} secondFirst = some t ∧
      t.requestsInFlight ≤ 8 ∧
      ∀ r, t.main = .returned r → r = sequentialServerAnomalies twoServers fun _ => [] := by
  have hruns : (Runs.run (step twoServers fun _ => []) {} secondFirst).isSome := by decide
  obtain ⟨t, ht⟩ := Option.isSome_iff_exists.mp hruns
  obtain ⟨hflight, hreturned, -⟩ := fanOut_sequential twoServers (fun _ => []) ht
  exact ⟨t, ht, hflight, hreturned⟩

end AnomalyFanOut

end MonitorSystem
