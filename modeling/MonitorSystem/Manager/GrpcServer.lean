import MonitorSystem.Manager.HostManager

/-!
# Taking a push

`GrpcServerImpl::SetMonitorInfo` (`manager/src/rpc/GrpcServer.cpp`): it checks that a push
names its worker and its host, keeps the message as the host's latest one, and hands it
over – to the dispatcher, under the host id as the partition key, or straight to the
callback when there is no dispatcher.

The server names the host with a function of its own, `MonitorInfo.resolveHostID`, written
independently of the one in `HostManager`. The two agree on every message
(`MonitorInfo.resolveHostID_eq`), which is what makes the partition key the key of the
state that the callback then uses.
-/

namespace MonitorSystem

/-- `resolveHostID`: the host id as `SetMonitorInfo` computes it. -/
def MonitorInfo.resolveHostID (info : MonitorInfo) : String :=
  match info.hostInfo with
  | some h =>
    if h.hostname ≠ "" ∧ h.ipAddress ≠ "" then h.hostname ++ "_" ++ h.ipAddress
    else if h.ipAddress ≠ "" then h.ipAddress
    else if h.hostname ≠ "" then h.hostname
    else info.name
  | none => info.name

/-- **The two computations of the host id agree.** -/
theorem MonitorInfo.resolveHostID_eq (info : MonitorInfo) : info.resolveHostID = info.hostID := by
  unfold MonitorInfo.resolveHostID MonitorInfo.hostID
  cases info.hostInfo with
  | none => rfl
  | some h =>
    by_cases hname : h.hostname = ""
    · by_cases hip : h.ipAddress = "" <;> simp [hname, hip]
    · by_cases hip : h.ipAddress = ""
      · simp [hname, hip]
      · -- the joined name is not empty, so the older `name` field is not consulted
        have hne : h.hostname ++ "_" ++ h.ipAddress ≠ "" := by
          simp [String.append_eq_empty_iff, hname]
        simp [hname, hip, hne]

/-- What the callback is called with. -/
structure Push where
  info : MonitorInfo
  identity : WorkerIdentity
  deriving DecidableEq, Repr

/-- What `SetMonitorInfo` does with a push it has taken. -/
inductive Handover where
  /-- Nothing: the push is refused, or there is no callback. -/
  | none
  /-- `submitMonitorTask` with this partition key. -/
  | submit (partitionKey : String) (push : Push)
  /-- The callback, on the thread of the call. -/
  | direct (push : Push)
  deriving DecidableEq, Repr

/-- The state of the server, and what it is connected to. -/
structure GrpcServer where
  /-- `hostDatas_`: the latest message of each host and when it came. -/
  hostDatas : String → Option (MonitorInfo × ℤ)
  hasDispatcher : Bool
  hasCallback : Bool

namespace GrpcServer

/-- `metadataValue`: the first value under a key, empty if there is none. -/
def metadataValue (metadata : List (String × String)) (key : String) : String :=
  (metadata.lookup key).getD ""

/-- The identity a call carries in its metadata. -/
def workerIdentity (metadata : List (String × String)) : WorkerIdentity where
  workerId := metadataValue metadata "x-monitor-worker-id"
  workerToken := metadataValue metadata "x-monitor-worker-token"

/-- **`SetMonitorInfo`**: the status, the new state and what is handed over. A null context
has no metadata. -/
def setMonitorInfo (s : GrpcServer) (metadata : List (String × String))
    (request : Option MonitorInfo) (now : ℤ) : Status × GrpcServer × Handover :=
  match request with
  | none => (⟨.invalidArgument, "Empty request"⟩, s, .none)
  | some info =>
    let identity := workerIdentity metadata
    if identity.workerId = "" then (⟨.unauthenticated, "Missing worker identity"⟩, s, .none)
    else if info.resolveHostID = "" then (⟨.invalidArgument, "Missing hostname"⟩, s, .none)
    else
      (.OK,
        { s with hostDatas := Function.update s.hostDatas info.resolveHostID (some (info, now)) },
        if s.hasDispatcher ∧ s.hasCallback then .submit info.resolveHostID ⟨info, identity⟩
        else if s.hasCallback then .direct ⟨info, identity⟩
        else .none)

/-- **A push is submitted under the host id that `onDataReceived` will use for it**, and
that is not empty. -/
theorem partitionKey_of_submit {s : GrpcServer} {metadata : List (String × String)}
    {request : Option MonitorInfo} {now : ℤ} {key : String} {push : Push}
    (h : (s.setMonitorInfo metadata request now).2.2 = .submit key push) :
    key = push.info.hostID ∧ key ≠ "" := by
  unfold setMonitorInfo at h
  split at h
  · cases h
  · next info =>
    simp only at h
    split at h
    · cases h
    · split at h
      · cases h
      · next hne =>
        -- past the checks, a task is submitted under the computed id or not at all
        split at h
        · cases h
          exact ⟨info.resolveHostID_eq, hne⟩
        · split at h <;> cases h

end GrpcServer

end MonitorSystem
