import MonitorSystem.Manager.GrpcServer
import Mathlib.Data.List.Induction

/-!
# Reading the latest messages

`GrpcServerImpl` keeps the latest message of every host and gives it out: to
`GetMonitorInfo`, a remote call, and to `getHostData` and `getAllHostDatas` inside the
manager. `SetMonitorInfo` stores a message as soon as it names a worker and a host. Whether
that worker is registered is found out later and elsewhere, by `HostManager`, which drops the
sample but leaves the server's map alone.

So a message of an unregistered worker is given out as any other, and `unexposed_iff` says
that this happens whenever one is taken: nothing of an unregistered worker can ever be read
if and only if every push that passes the checks of `SetMonitorInfo` is of a registered one.
-/

namespace MonitorSystem

namespace GrpcServer

/-- `GetMonitorInfo`. The map is not ordered, so which entry it begins with is part of the
call; there is none if the map is empty. -/
def getMonitorInfo (s : GrpcServer) (begin : Option String) : Status × Option MonitorInfo :=
  match begin.bind s.hostDatas with
  | some data => (.OK, some data.1)
  | none => (⟨.notFound, "No monitor data available"⟩, none)

/-- `getAllHostDatas`. -/
def getAllHostDatas (s : GrpcServer) : String → Option (MonitorInfo × ℤ) := s.hostDatas

/-- `getHostData`: whether there is an entry, and which one. -/
def getHostData (s : GrpcServer) (hostID : String) : Option (MonitorInfo × ℤ) :=
  s.hostDatas hostID

/-- A call of `SetMonitorInfo`, with what the registry returns for its worker. -/
structure SetCall where
  metadata : List (String × String)
  request : Option MonitorInfo
  row : Option Registration
  now : ℤ
  deriving DecidableEq, Repr

namespace SetCall

/-- The host id of the message. -/
def hostID (c : SetCall) : String := (c.request.map MonitorInfo.resolveHostID).getD ""

/-- Whether the call passes the checks of `SetMonitorInfo`. -/
def accepted (c : SetCall) : Bool := (workerIdentity c.metadata).workerId ≠ "" && c.hostID ≠ ""

/-- Whether the worker is registered, with the token it shows. -/
def authorised (c : SetCall) : Bool :=
  (resolveWorkerScope (workerIdentity c.metadata) c.row).isSome

end SetCall

/-- The server before the first call. -/
def empty (hasDispatcher hasCallback : Bool) : GrpcServer :=
  ⟨fun _ => none, hasDispatcher, hasCallback⟩

/-- The server after some calls of `SetMonitorInfo`. -/
def after (s : GrpcServer) (calls : List SetCall) : GrpcServer :=
  calls.foldl (fun s c => (s.setMonitorInfo c.metadata c.request c.now).2.1) s

/-- The push that the entry of a host comes from: the last one that was taken. -/
def source (calls : List SetCall) (host : String) : Option SetCall :=
  calls.reverse.find? fun c => c.accepted && c.hostID = host

/-- What a push does to the map: it is stored if it is taken. -/
theorem hostDatas_setMonitorInfo (s : GrpcServer) (c : SetCall) :
    (s.setMonitorInfo c.metadata c.request c.now).2.1.hostDatas =
      if c.accepted then Function.update s.hostDatas c.hostID (c.request.map (·, c.now))
      else s.hostDatas := by
  obtain ⟨metadata, request, row, now⟩ := c
  cases request with
  | none => simp [setMonitorInfo, SetCall.accepted, SetCall.hostID]
  | some info =>
    simp only [setMonitorInfo, SetCall.accepted, SetCall.hostID, Option.map_some,
      Option.getD_some]
    by_cases hid : (workerIdentity metadata).workerId = ""
    · simp [hid]
    · by_cases hhost : info.resolveHostID = ""
      · simp [hid, hhost]
      · simp [hid, hhost]

theorem source_append_singleton (calls : List SetCall) (c : SetCall) (host : String) :
    source (calls ++ [c]) host =
      if c.accepted && c.hostID = host then some c else source calls host := by
  unfold source
  rw [List.reverse_append, List.reverse_singleton, List.singleton_append, List.find?_cons]
  cases c.accepted && decide (c.hostID = host) <;> rfl

/-- **The map holds the last push taken for each host.** -/
theorem hostDatas_after (s : GrpcServer) (calls : List SetCall) (host : String) :
    (s.after calls).hostDatas host =
      match source calls host with
      | some c => c.request.map (·, c.now)
      | none => s.hostDatas host := by
  induction calls using List.reverseRecOn with
  | nil => rfl
  | append_singleton calls c ih =>
    have hstep : s.after (calls ++ [c]) =
        ((s.after calls).setMonitorInfo c.metadata c.request c.now).2.1 := by simp [after]
    rw [hstep, hostDatas_setMonitorInfo, source_append_singleton]
    cases hc : c.accepted with
    | false => simpa using ih
    | true =>
      by_cases hhost : c.hostID = host
      · subst hhost
        simp
      · have hother : ¬host = c.hostID := fun h => hhost h.symm
        simpa [hhost, hother] using ih

theorem source_eq_some {calls : List SetCall} {host : String} {c : SetCall}
    (h : source calls host = some c) : c ∈ calls ∧ c.accepted = true ∧ c.hostID = host := by
  have hmem := List.mem_of_find?_eq_some h
  have hc := List.find?_some h
  simp only [Bool.and_eq_true, decide_eq_true_eq] at hc
  exact ⟨List.mem_reverse.mp hmem, hc⟩

/-! ### What can be read -/

/-- The calls that give messages out. -/
inductive Read where
  | getMonitorInfo (begin : Option String)
  | getHostData (hostID : String)
  | getAllHostDatas
  deriving DecidableEq, Repr

/-- The message that a call gives out for a host, if any. -/
def Read.returns (s : GrpcServer) (host : String) : Read → Option MonitorInfo
  | .getMonitorInfo begin => if begin = some host then (s.getMonitorInfo begin).2 else none
  | .getHostData hostID => if hostID = host then (s.getHostData hostID).map (·.1) else none
  | .getAllHostDatas => (s.getAllHostDatas host).map (·.1)

theorem Read.returns_eq_some {s : GrpcServer} {host : String} {read : Read} {info : MonitorInfo}
    (h : read.returns s host = some info) : ∃ now, s.hostDatas host = some (info, now) := by
  cases read with
  | getMonitorInfo begin =>
    simp only [returns] at h
    split at h
    · next hbegin =>
      rw [hbegin, GrpcServer.getMonitorInfo, Option.bind_some] at h
      split at h
      · next data hdata =>
        obtain rfl := Option.some.inj h
        exact ⟨data.2, hdata⟩
      · cases h
    · cases h
  | getHostData hostID =>
    simp only [returns] at h
    split at h
    · next heq =>
      subst heq
      simpa [GrpcServer.getHostData] using h
    · cases h
  | getAllHostDatas => simpa [returns, GrpcServer.getAllHostDatas] using h

/-- **No message of an unregistered worker is given out**: whatever is read after some of the
calls, and by whichever of the three, the message was pushed by a registered worker. Reading
changes nothing, so this is about every way of mixing reads with these calls. -/
def Unexposed (s : GrpcServer) (calls : List SetCall) : Prop :=
  ∀ before, before <+: calls → ∀ (read : Read) (host : String) (info : MonitorInfo),
    read.returns (s.after before) host = some info →
      ∃ c, source before host = some c ∧ c.request = some info ∧ c.authorised = true

/-- **Exactly when nothing of an unregistered worker can be read**: every push that passes the
checks of `SetMonitorInfo` is of a registered worker. -/
theorem unexposed_iff (hasDispatcher hasCallback : Bool) (calls : List SetCall) :
    (empty hasDispatcher hasCallback).Unexposed calls ↔
      ∀ c ∈ calls, c.accepted = true → c.authorised = true := by
  constructor
  · intro h c hc haccepted
    -- the push can be read at once
    obtain ⟨before, rest, rfl⟩ := List.mem_iff_append.mp hc
    obtain ⟨info, hinfo⟩ : ∃ info, c.request = some info := by
      cases hreq : c.request with
      | none => simp [SetCall.accepted, SetCall.hostID, hreq] at haccepted
      | some info => exact ⟨info, rfl⟩
    have hsource : source (before ++ [c]) c.hostID = some c := by
      simp [source_append_singleton, haccepted]
    have hread : Read.getAllHostDatas.returns
        ((empty hasDispatcher hasCallback).after (before ++ [c])) c.hostID = some info := by
      simp [Read.returns, getAllHostDatas, hostDatas_after, hsource, hinfo]
    obtain ⟨d, hd, -, hauth⟩ := h (before ++ [c]) ⟨rest, by simp⟩ _ _ _ hread
    obtain rfl : c = d := Option.some.inj (hsource.symm.trans hd)
    exact hauth
  · intro h before hbefore read host info hread
    obtain ⟨now, hdata⟩ := Read.returns_eq_some hread
    rw [hostDatas_after] at hdata
    split at hdata
    · next c hsource =>
      obtain ⟨hmem, haccepted, -⟩ := source_eq_some hsource
      refine ⟨c, hsource, ?_, h c (hbefore.subset hmem) haccepted⟩
      cases hreq : c.request with
      | none => simp [hreq] at hdata
      | some i => simp_all
    · cases hdata

/-- A push of a worker that is in no registration. -/
def unknownPush : SetCall where
  metadata := [("x-monitor-worker-id", "unknown"), ("x-monitor-worker-token", "bad")]
  request := some { name := "web-01" }
  row := none
  now := 0

/-- It is taken, and every one of the three calls gives it out. -/
theorem unknown_worker_exposed :
    unknownPush.authorised = false ∧
      (((empty true true).after [unknownPush]).getMonitorInfo (some "web-01")).2 =
        some { name := "web-01" } ∧
      ((empty true true).after [unknownPush]).getHostData "web-01" =
        some ({ name := "web-01" }, 0) ∧
      ((empty true true).after [unknownPush]).getAllHostDatas "web-01" =
        some ({ name := "web-01" }, 0) ∧
      ¬(empty true true).Unexposed [unknownPush] := by
  refine ⟨by decide, by decide, by decide, by decide, fun h => ?_⟩
  obtain ⟨c, hsource, -, hauth⟩ := h [unknownPush] List.prefix_rfl (.getHostData "web-01") "web-01"
    { name := "web-01" } (by decide)
  obtain rfl : unknownPush = c := Option.some.inj hsource
  exact absurd hauth (by decide)

end GrpcServer

end MonitorSystem
