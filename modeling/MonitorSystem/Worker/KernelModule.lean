import Mathlib.Data.Nat.Log
import MonitorSystem.Library.Runs
import MonitorSystem.Worker.CpuStatMemory

/-!
# How a kernel module is loaded, used and unloaded

The two kernel modules of the worker (`worker/src/kmod/CpuStatCollector.c` and
`worker/src/kmod/SoftirqCollector.c`) differ in what they write into their pages, and are alike
in how they come and go. Their `init` acquires pages, a device number, a character device, a
class and a device, one after the other, and jumps into the middle of the calls that give them
back if one of these fails; their `exit` gives everything back. In the meantime a timer writes
into the pages, and programs open the device and map them.

The two functions are control-flow graphs here, whose nodes are the calls they make. The kernel
counts who uses the device, as it does for `file_operations` with an `owner`, and does not unload
a module in use; an `init` that fails is not held back by this, since the character device can be
opened from `cdev_add` on. That is the only way for anything to go wrong
(`collector_sound_iff`).
-/

namespace MonitorSystem

/-! ### The two modules -/

/-- What a module is given by its macros: `DEVICE_NAME`, and the `sizeof` of its entries. -/
structure Collector where
  deviceName : String
  entrySize : ℕ

def cpuStatCollector : Collector := ⟨"CpuStatCollector", statSize⟩

/-- An entry of `SoftirqCollector` is a name and ten counters as well. -/
def softirqCollector : Collector := ⟨"SoftirqCollector", nameSize + 10 * 8⟩

namespace Collector

/-- `data_size`. -/
def dataSize (c : Collector) : ℕ := pageAlign (c.entrySize * maxCpus)

/-- `get_order`: the least power of two of pages that has room for some bytes. -/
def getOrder (size : ℕ) : ℕ := Nat.clog 2 ((size + 4095) / 4096)

/-- The bytes that `__get_free_pages` hands out. -/
def allocated (c : Collector) : ℕ := 4096 * 2 ^ getOrder c.dataSize

theorem dataSize_le_allocated (c : Collector) : c.dataSize ≤ c.allocated := by
  have hpow : (c.dataSize + 4095) / 4096 ≤ 2 ^ getOrder c.dataSize :=
    Nat.le_pow_clog (by decide) _
  unfold allocated
  omega

end Collector

/-! ### The calls -/

/-- The calls of `init` and of `exit`. -/
inductive KernelCall where
  | getFreePages
  | allocChrdevRegion
  | cdevAdd
  | classCreate
  | deviceCreate
  | updateStats
  | hrtimerStart
  | hrtimerCancel
  | deviceDestroy
  | classDestroy
  | cdevDel
  | unregisterChrdevRegion
  | freePages
  deriving DecidableEq, Repr

/-- What a module has of the kernel. -/
structure Held where
  pages : Bool := false
  region : Bool := false
  cdev : Bool := false
  cls : Bool := false
  device : Bool := false
  timer : Bool := false
  deriving DecidableEq, Repr

namespace KernelCall

/-- What a call leaves behind, if it succeeds. -/
def effect : KernelCall → Held → Held
  | getFreePages, h => { h with pages := true }
  | allocChrdevRegion, h => { h with region := true }
  | cdevAdd, h => { h with cdev := true }
  | classCreate, h => { h with cls := true }
  | deviceCreate, h => { h with device := true }
  | updateStats, h => h
  | hrtimerStart, h => { h with timer := true }
  | hrtimerCancel, h => { h with timer := false }
  | deviceDestroy, h => { h with device := false }
  | classDestroy, h => { h with cls := false }
  | cdevDel, h => { h with cdev := false }
  | unregisterChrdevRegion, h => { h with region := false }
  | freePages, h => { h with pages := false }

/-- What a call must find: nothing is acquired twice, nothing is given back that is not held, and
nothing before what was made of it. The timer and the first update write into the pages. -/
def allowed : KernelCall → Held → Bool
  | getFreePages, h => !h.pages
  | allocChrdevRegion, h => !h.region
  | cdevAdd, h => h.region && !h.cdev
  | classCreate, h => !h.cls
  | deviceCreate, h => h.cls && h.region && !h.device
  | updateStats, h => h.pages
  | hrtimerStart, h => h.pages && !h.timer
  | hrtimerCancel, h => h.timer
  | deviceDestroy, h => h.device
  | classDestroy, h => h.cls && !h.device
  | cdevDel, h => h.cdev
  | unregisterChrdevRegion, h => h.region && !h.cdev
  | freePages, h => h.pages && !h.timer

end KernelCall

/-! ### `init` and `exit` -/

/-- Where a function goes after a call: to the next one, or it returns. -/
inductive Onward where
  | goto (call : KernelCall)
  | done
  deriving DecidableEq, Repr

open KernelCall Onward

/-- **`init`**, after a call that has failed or not. The last four calls are those at the labels
`err_class_destroy`, `err_cdev_del`, `err_unregister` and `err_free_mem`. -/
def initOnward : KernelCall → (failed : Bool) → Onward
  | getFreePages, false => goto allocChrdevRegion
  | getFreePages, true => done
  | allocChrdevRegion, false => goto cdevAdd
  | allocChrdevRegion, true => goto freePages
  | cdevAdd, false => goto classCreate
  | cdevAdd, true => goto unregisterChrdevRegion
  | classCreate, false => goto deviceCreate
  | classCreate, true => goto cdevDel
  | deviceCreate, false => goto updateStats
  | deviceCreate, true => goto classDestroy
  | updateStats, _ => goto hrtimerStart
  | hrtimerStart, _ => done
  | classDestroy, _ => goto cdevDel
  | cdevDel, _ => goto unregisterChrdevRegion
  | unregisterChrdevRegion, _ => goto freePages
  | _, _ => done

/-- **`exit`**, after a call. -/
def exitOnward : KernelCall → Onward
  | hrtimerCancel => goto deviceDestroy
  | deviceDestroy => goto classDestroy
  | classDestroy => goto cdevDel
  | cdevDel => goto unregisterChrdevRegion
  | unregisterChrdevRegion => goto freePages
  | _ => done

/-- The calls that can fail: those whose result is looked at. -/
def KernelCall.fallible : KernelCall → Bool
  | getFreePages | allocChrdevRegion | cdevAdd | classCreate | deviceCreate => true
  | _ => false

/-- What `init` returns when a call has failed: the error of the call, and `-ENOMEM` where there
are no pages. -/
def KernelCall.error (call : KernelCall) (result : ℤ) : ℤ :=
  if call = getFreePages then -12 else result

theorem KernelCall.error_neg (call : KernelCall) {result : ℤ} (h : result < 0) :
    call.error result < 0 := by
  unfold KernelCall.error
  split
  · decide
  · exact h

/-! ### A module in the kernel -/

inductive ModulePhase where
  | absent
  | loading (call : KernelCall)
  | live
  | unloading (call : KernelCall)
  deriving DecidableEq, Repr

/-- A module, with what it holds and who uses it: the open files of its device, and the sizes of
the mappings, each of which keeps its file open. `ret` is the variable of `init`. -/
structure KernelModule where
  phase : ModulePhase := .absent
  held : Held := {}
  ret : ℤ := 0
  files : ℕ := 0
  maps : List ℕ := []
  fault : Bool := false
  deriving DecidableEq, Repr

namespace KernelModule

/-- The module is in use: `module_refcount`. -/
def inUse (m : KernelModule) : Bool := m.files != 0 || !m.maps.isEmpty

/-- The function returns: a load has failed if `init` returns something negative, and the code of
a module that has failed to load, or has been unloaded, is gone. -/
def returned (m : KernelModule) : KernelModule :=
  if m.phase = .loading hrtimerStart then { m with phase := .live, ret := 0 }
  else { m with phase := .absent, fault := m.fault || m.inUse }

/-- A call of the running function is made. Only in `init` can it fail. -/
def perform (m : KernelModule) (call : KernelCall) (failed : Bool) (result : ℤ)
    (onward : Onward) : KernelModule :=
  let m' := { m with
    held := if failed then m.held else call.effect m.held
    ret := if failed then call.error result else m.ret
    fault := m.fault || !call.allowed m.held || (call == freePages && !m.maps.isEmpty) }
  match onward with
  | goto next =>
    { m' with phase := match m.phase with
      | .unloading _ => .unloading next
      | _ => .loading next }
  | done => m'.returned

/-- What can happen to a module. -/
inductive Action where
  /-- `insmod`, when the module is absent. -/
  | insmod
  /-- The running function makes its next call, which answers `result`. -/
  | call (result : ℤ)
  /-- The timer fires. -/
  | tick
  /-- A program opens the device. -/
  | openDevice
  /-- A program maps some bytes of an open device. -/
  | mmap (size : ℕ)
  /-- A program gives a mapping up. -/
  | munmap (size : ℕ)
  /-- A program closes the device. -/
  | close
  /-- `rmmod`, which the kernel refuses while the module is in use. -/
  | rmmod
  deriving DecidableEq, Repr

/-- **One step of a module.** A device can be opened as long as its character device is there and
the module is not about to go. `mmap` refuses more bytes than `data_size`. -/
def step (c : Collector) (m : KernelModule) : Action → Option KernelModule
  | .insmod => if m.phase = .absent then some { m with phase := .loading getFreePages } else none
  | .call result =>
    match m.phase with
    | .loading call =>
      let failed := call.fallible && decide (result < 0)
      some (m.perform call failed result (initOnward call failed))
    | .unloading call => some (m.perform call false result (exitOnward call))
    | _ => none
  | .tick =>
    if m.held.timer then some { m with fault := m.fault || !m.held.pages } else none
  | .openDevice =>
    match m.phase with
    | .unloading _ => none
    | _ => if m.held.cdev then some { m with files := m.files + 1 } else none
  | .mmap size =>
    if m.files = 0 then none
    else if size > c.dataSize then some m
    else some { m with maps := size :: m.maps, fault := m.fault || !m.held.pages }
  | .munmap size => if size ∈ m.maps then some { m with maps := m.maps.erase size } else none
  | .close => if m.files = 0 then none else some { m with files := m.files - 1 }
  | .rmmod =>
    if m.phase = .live ∧ m.inUse = false then some { m with phase := .unloading hrtimerCancel }
    else none

/-! ### What a module holds -/

/-- What is held when a call is about to be made: in `init` what has been acquired before it, and
at the labels what is still to be given back. -/
def heldBefore : ModulePhase → Held
  | .absent => {}
  | .loading getFreePages => {}
  | .loading allocChrdevRegion | .loading freePages => { pages := true }
  | .loading cdevAdd | .loading unregisterChrdevRegion => { pages := true, region := true }
  | .loading classCreate | .loading cdevDel => { pages := true, region := true, cdev := true }
  | .loading deviceCreate | .loading classDestroy =>
    { pages := true, region := true, cdev := true, cls := true }
  | .loading _ => { pages := true, region := true, cdev := true, cls := true, device := true }
  | .live | .unloading hrtimerCancel =>
    { pages := true, region := true, cdev := true, cls := true, device := true, timer := true }
  | .unloading deviceDestroy =>
    { pages := true, region := true, cdev := true, cls := true, device := true }
  | .unloading classDestroy => { pages := true, region := true, cdev := true, cls := true }
  | .unloading cdevDel => { pages := true, region := true, cdev := true }
  | .unloading unregisterChrdevRegion => { pages := true, region := true }
  | .unloading _ => { pages := true }

/-- The phases in which a program can have the device open. -/
def mayBeUsed : ModulePhase → Bool
  | .absent | .loading getFreePages | .loading allocChrdevRegion | .loading cdevAdd => false
  | .unloading _ => false
  | _ => true

/-- `init` is at its labels. -/
def unwinds : ModulePhase → Bool
  | .loading classDestroy | .loading cdevDel | .loading unregisterChrdevRegion
  | .loading freePages => true
  | _ => false

/-- The calls of each function. -/
def Running : ModulePhase → Prop
  | .loading hrtimerCancel | .loading deviceDestroy => False
  | .unloading call => call ∈ [hrtimerCancel, deviceDestroy, classDestroy, cdevDel,
      unregisterChrdevRegion, freePages]
  | _ => True

/-- **The invariant of a module**: what it holds is given by where it is, nobody uses it before
there is a character device or while it is being unloaded, and what is mapped has been
allocated. -/
structure Inv (c : Collector) (m : KernelModule) : Prop where
  running : Running m.phase
  held : m.held = heldBefore m.phase
  unused : mayBeUsed m.phase = false → m.inUse = false
  small : ∀ size ∈ m.maps, size ≤ c.dataSize
  failed : unwinds m.phase = true → m.ret < 0
  loaded : m.phase = .live → m.ret = 0
  sound : m.fault = false

/-- **What is expected of a module**: no call is made out of order, the timer and the programs
have memory, of which no program maps more than there is, an absent module holds nothing, and `init` says
whether it has failed. -/
structure Sound (c : Collector) (m : KernelModule) : Prop where
  sound : m.fault = false
  absent : m.phase = .absent → m.held = {} ∧ m.inUse = false
  timer : m.held.timer = true → m.held.pages = true
  mapped : ∀ size ∈ m.maps, m.held.pages = true ∧ size ≤ c.allocated
  failed : unwinds m.phase = true → m.ret < 0
  loaded : m.phase = .live → m.ret = 0

/-- A load is given up while the device is in use. -/
def Abandons (m : KernelModule) (a : Action) : Prop :=
  m.phase = .loading freePages ∧ (∃ result, a = .call result) ∧ m.inUse = true

/-! ### The control-flow graphs -/

/-- A call of `init` finds what it needs, and what it leaves behind is what the next one is to
find. -/
theorem initOnward_goto {call next : KernelCall} {failed : Bool} (hr : Running (.loading call))
    (hf : failed = true → call.fallible = true) (h : initOnward call failed = goto next) :
    Running (.loading next) ∧
      heldBefore (.loading next) = (if failed then heldBefore (.loading call)
        else call.effect (heldBefore (.loading call))) ∧
      (mayBeUsed (.loading next) = false → mayBeUsed (.loading call) = false) ∧
      (unwinds (.loading next) = true → unwinds (.loading call) = true ∨ failed = true) := by
  cases call <;> cases failed <;> simp_all [initOnward, Running, KernelCall.fallible] <;>
    subst h <;> decide

/-- `init` returns after the timer has been started, or when there is nothing left to give back. -/
theorem initOnward_done {call : KernelCall} {failed : Bool} (hr : Running (.loading call))
    (hf : failed = true → call.fallible = true) (h : initOnward call failed = done) :
    call = hrtimerStart ∧ failed = false ∨ call = getFreePages ∧ failed = true ∨
      call = freePages ∧ failed = false := by
  cases call <;> cases failed <;> simp_all [initOnward, Running, KernelCall.fallible]

theorem allowed_loading {call : KernelCall} (hr : Running (.loading call)) :
    call.allowed (heldBefore (.loading call)) = true := by
  cases call <;> first | rfl | exact hr.elim

theorem exitOnward_goto {call next : KernelCall} (hr : Running (.unloading call))
    (h : exitOnward call = goto next) :
    Running (.unloading next) ∧
      heldBefore (.unloading next) = call.effect (heldBefore (.unloading call)) := by
  cases call <;> simp_all [exitOnward, Running] <;> subst h <;> decide

theorem exitOnward_done {call : KernelCall} (hr : Running (.unloading call))
    (h : exitOnward call = done) : call = freePages := by
  cases call <;> simp_all [exitOnward, Running]

theorem allowed_unloading {call : KernelCall} (hr : Running (.unloading call)) :
    call.allowed (heldBefore (.unloading call)) = true := by
  cases call <;> first | rfl | simp [Running] at hr

/-! ### One step -/

theorem maps_eq_nil {m : KernelModule} (h : m.inUse = false) : m.maps = [] := by
  simp only [inUse, Bool.or_eq_false_iff, Bool.not_eq_false', List.isEmpty_iff] at h
  exact h.2

theorem files_eq_zero {m : KernelModule} (h : m.inUse = false) : m.files = 0 := by
  simp only [inUse, Bool.or_eq_false_iff, bne_eq_false_iff_eq] at h
  exact h.1

/-- A program has the device open or mapped only where it can have. -/
theorem Inv.mayBeUsed {c : Collector} {m : KernelModule} (h : Inv c m) (hu : m.inUse = true) :
    mayBeUsed m.phase = true := by
  by_contra hno
  rw [h.unused (Bool.eq_false_iff.mpr hno)] at hu
  cases hu

/-- While the device may be used there are pages, except that they are given back last. -/
theorem pages_of_mayBeUsed {p : ModulePhase} (hr : Running p) (h : KernelModule.mayBeUsed p = true) :
    (heldBefore p).pages = true := by
  cases p with
  | absent => cases h
  | loading call => cases call <;> first | rfl | cases h
  | live => rfl
  | unloading call => cases h

/-- The timer runs only while there are pages. -/
theorem Inv.pages_of_timer {c : Collector} {m : KernelModule} (h : Inv c m)
    (htimer : m.held.timer = true) : m.held.pages = true := by
  rw [h.held] at htimer ⊢
  cases hp : m.phase with
  | absent => rw [hp] at htimer; cases htimer
  | loading call => rw [hp] at htimer; cases call <;> cases htimer
  | live => rfl
  | unloading call => cases call <;> rfl

/-- The device is opened where it can be in use. -/
theorem Inv.openDevice {c : Collector} {m m' : KernelModule} (h : Inv c m)
    (hstep : step c m .openDevice = some m') :
    KernelModule.mayBeUsed m.phase = true ∧ { m with files := m.files + 1 } = m' := by
  simp only [KernelModule.step] at hstep
  split at hstep
  · cases hstep
  · next hp =>
    obtain ⟨hcdev, rfl⟩ : m.held.cdev = true ∧ { m with files := m.files + 1 } = m' := by
      simpa using hstep
    refine ⟨?_, rfl⟩
    rw [h.held] at hcdev
    cases hphase : m.phase with
    | absent => rw [hphase] at hcdev; cases hcdev
    | loading call => rw [hphase] at hcdev; cases call <;> first | rfl | cases hcdev
    | live => rfl
    | unloading call => exact absurd hphase (hp call)

theorem inUse_of_files {m : KernelModule} (h : m.files ≠ 0) : m.inUse = true := by
  simp [inUse, h]

theorem mmap_cases {c : Collector} {m m' : KernelModule} {size : ℕ}
    (hstep : step c m (.mmap size) = some m') :
    size > c.dataSize ∧ m' = m ∨ m.files ≠ 0 ∧ size ≤ c.dataSize ∧
      m' = { m with maps := size :: m.maps, fault := m.fault || !m.held.pages } := by
  simp only [step] at hstep
  split at hstep
  · cases hstep
  · next hfiles =>
    split at hstep
    · next hlarge => exact Or.inl ⟨hlarge, (Option.some.inj hstep).symm⟩
    · next hsmall =>
      exact Or.inr ⟨hfiles, Nat.le_of_not_lt hsmall, (Option.some.inj hstep).symm⟩

/-- **A call of `init`** keeps the invariant, unless the load is given up while the device is in
use. -/
theorem Inv.call_loading {c : Collector} {m : KernelModule} {call : KernelCall} {result : ℤ}
    (h : Inv c m) (hp : m.phase = .loading call) (hG : ¬Abandons m (.call result))
    {failed : Bool} (hf : failed = true → call.fallible = true ∧ result < 0) :
    Inv c (m.perform call failed result (initOnward call failed)) := by
  have hr : Running (.loading call) := hp ▸ h.running
  have hheld : m.held = heldBefore (.loading call) := hp ▸ h.held
  have hallowed : call.allowed m.held = true := hheld ▸ allowed_loading hr
  -- the pages are given back with nobody using them
  have hfree : (call == freePages && !m.maps.isEmpty) = false := by
    rcases eq_or_ne call freePages with rfl | hne
    · have hunused : m.inUse = false := by
        by_contra hu
        exact hG ⟨hp, ⟨result, rfl⟩, Bool.eq_true_of_not_eq_false hu⟩
      rw [maps_eq_nil hunused]
      rfl
    · rw [beq_eq_false_iff_ne.mpr hne, Bool.false_and]
  have hfault : (m.fault || !call.allowed m.held || (call == freePages && !m.maps.isEmpty)) =
      false := by
    rw [h.sound, hallowed, hfree]
    rfl
  cases hon : initOnward call failed with
  | goto next =>
    obtain ⟨hnext, hafter, hused, hunwinds⟩ := initOnward_goto hr (fun hfail => (hf hfail).1) hon
    simp only [perform, hp]
    refine ⟨hnext, ?_, fun hno => h.unused (hp ▸ hused hno), h.small, fun hun => ?_,
      by rintro ⟨⟩, hfault⟩
    · rw [hafter, hheld]
    · cases failed with
      | true => exact call.error_neg (hf rfl).2
      | false => exact h.failed (hp ▸ (hunwinds hun).resolve_right Bool.false_ne_true)
  | done =>
    rcases initOnward_done hr (fun hfail => (hf hfail).1) hon with
      ⟨rfl, rfl⟩ | ⟨rfl, rfl⟩ | ⟨rfl, rfl⟩
    · simp only [perform, returned, hp, if_pos]
      refine ⟨trivial, ?_, by rintro ⟨⟩, h.small, by rintro ⟨⟩, fun _ => rfl, hfault⟩
      rw [if_neg Bool.false_ne_true, hheld]
      rfl
    · have hunused : m.inUse = false := h.unused (hp ▸ rfl)
      simp only [perform, returned, hp]
      refine ⟨trivial, ?_, fun _ => hunused, h.small, by rintro ⟨⟩, by rintro ⟨⟩, ?_⟩
      · exact hheld
      · exact Bool.or_eq_false_iff.mpr ⟨hfault, hunused⟩
    · have hunused : m.inUse = false := by
        by_contra hu
        exact hG ⟨hp, ⟨result, rfl⟩, Bool.eq_true_of_not_eq_false hu⟩
      simp only [perform, returned, hp]
      refine ⟨trivial, ?_, fun _ => hunused, h.small, by rintro ⟨⟩, by rintro ⟨⟩, ?_⟩
      · exact congrArg (KernelCall.effect freePages) hheld
      · exact Bool.or_eq_false_iff.mpr ⟨hfault, hunused⟩

/-- **A call of `exit`** keeps the invariant: nobody uses the device any more. -/
theorem Inv.call_unloading {c : Collector} {m : KernelModule} {call : KernelCall} {result : ℤ}
    (h : Inv c m) (hp : m.phase = .unloading call) :
    Inv c (m.perform call false result (exitOnward call)) := by
  have hr : Running (.unloading call) := hp ▸ h.running
  have hheld : m.held = heldBefore (.unloading call) := hp ▸ h.held
  have hallowed : call.allowed m.held = true := hheld ▸ allowed_unloading hr
  have hunused : m.inUse = false := h.unused (hp ▸ rfl)
  have hfault : (m.fault || !call.allowed m.held || (call == freePages && !m.maps.isEmpty)) =
      false := by
    rw [h.sound, hallowed, maps_eq_nil hunused]
    cases call <;> rfl
  cases hon : exitOnward call with
  | goto next =>
    obtain ⟨hnext, hafter⟩ := exitOnward_goto hr hon
    simp only [perform, hp]
    refine ⟨hnext, ?_, fun _ => hunused, h.small, by rintro ⟨⟩, by rintro ⟨⟩, hfault⟩
    rw [hafter, if_neg Bool.false_ne_true, hheld]
  | done =>
    obtain rfl := exitOnward_done hr hon
    simp only [perform, returned, hp]
    refine ⟨trivial, ?_, fun _ => hunused, h.small, by rintro ⟨⟩, by rintro ⟨⟩, ?_⟩
    · exact congrArg (KernelCall.effect freePages) hheld
    · exact Bool.or_eq_false_iff.mpr ⟨hfault, hunused⟩

/-- **One step keeps the invariant**, unless a load is given up while the device is in use. -/
theorem Inv.step {c : Collector} {m m' : KernelModule} {a : Action} (h : Inv c m)
    (hG : ¬Abandons m a) (hstep : step c m a = some m') : Inv c m' := by
  cases a with
  | insmod =>
    obtain ⟨hp, rfl⟩ : m.phase = .absent ∧ { m with phase := .loading getFreePages } = m' := by
      simpa [KernelModule.step] using hstep
    have hheld : m.held = {} := h.held.trans (congrArg heldBefore hp)
    exact ⟨trivial, hheld, fun _ => h.unused (hp ▸ rfl), h.small, by rintro ⟨⟩, by rintro ⟨⟩,
      h.sound⟩
  | call result =>
    cases hp : m.phase with
    | absent => simp [KernelModule.step, hp] at hstep
    | live => simp [KernelModule.step, hp] at hstep
    | loading call =>
      simp only [KernelModule.step, hp, Option.some.injEq] at hstep
      subst hstep
      refine h.call_loading hp hG fun hfailed => ?_
      exact ⟨(Bool.and_eq_true_iff.mp hfailed).1,
        of_decide_eq_true (Bool.and_eq_true_iff.mp hfailed).2⟩
    | unloading call =>
      simp only [KernelModule.step, hp, Option.some.injEq] at hstep
      subst hstep
      exact h.call_unloading hp
  | tick =>
    obtain ⟨htimer, rfl⟩ : m.held.timer = true ∧
        { m with fault := m.fault || !m.held.pages } = m' := by
      simpa [KernelModule.step] using hstep
    refine ⟨h.running, h.held, h.unused, h.small, h.failed, h.loaded, ?_⟩
    rw [h.sound, h.pages_of_timer htimer]
    rfl
  | openDevice =>
    obtain ⟨hused, rfl⟩ := h.openDevice hstep
    refine ⟨h.running, h.held, fun hno => ?_, h.small, h.failed, h.loaded, h.sound⟩
    exact absurd (hused.symm.trans hno) Bool.noConfusion
  | mmap size =>
    rcases mmap_cases hstep with ⟨-, rfl⟩ | ⟨hfiles, hsize, rfl⟩
    · exact h
    · have hused := h.mayBeUsed (inUse_of_files hfiles)
      refine ⟨h.running, h.held, fun hno => ?_, ?_, h.failed, h.loaded, ?_⟩
      · exact absurd (hused.symm.trans hno) Bool.noConfusion
      · exact List.forall_mem_cons.mpr ⟨hsize, h.small⟩
      · rw [h.sound, h.held, pages_of_mayBeUsed h.running hused]
        rfl
  | munmap size =>
    obtain ⟨hmem, rfl⟩ : size ∈ m.maps ∧ { m with maps := m.maps.erase size } = m' := by
      simpa [KernelModule.step] using hstep
    refine ⟨h.running, h.held, fun hno => ?_, fun s hs => ?_, h.failed, h.loaded, h.sound⟩
    · rw [maps_eq_nil (h.unused hno)] at hmem
      cases hmem
    · exact h.small s (List.mem_of_mem_erase hs)
  | close =>
    obtain ⟨hfiles, rfl⟩ : m.files ≠ 0 ∧ { m with files := m.files - 1 } = m' := by
      simpa [KernelModule.step] using hstep
    refine ⟨h.running, h.held, fun hno => ?_, h.small, h.failed, h.loaded, h.sound⟩
    exact absurd (files_eq_zero (h.unused hno)) hfiles
  | rmmod =>
    obtain ⟨⟨hp, hunused⟩, rfl⟩ : (m.phase = .live ∧ m.inUse = false) ∧
        { m with phase := .unloading hrtimerCancel } = m' := by
      simpa [KernelModule.step] using hstep
    have hheld : m.held = heldBefore .live := h.held.trans (congrArg heldBefore hp)
    exact ⟨List.mem_cons_self, hheld, fun _ => hunused, h.small, by rintro ⟨⟩, by rintro ⟨⟩,
      h.sound⟩

/-! ### A whole run -/

/-- The invariant gives what is expected. -/
theorem Inv.toSound {c : Collector} {m : KernelModule} (h : Inv c m) : Sound c m where
  sound := h.sound
  absent hp := ⟨h.held.trans (congrArg heldBefore hp), h.unused (hp ▸ rfl)⟩
  timer := h.pages_of_timer
  failed := h.failed
  loaded := h.loaded
  mapped size hsize := by
    have hused : m.inUse = true := by
      by_contra hno
      rw [maps_eq_nil (Bool.eq_false_iff.mpr hno)] at hsize
      cases hsize
    refine ⟨?_, (h.small size hsize).trans c.dataSize_le_allocated⟩
    rw [h.held, pages_of_mayBeUsed h.running (h.mayBeUsed hused)]

/-- A load that is given up while the device is in use leaves programs with memory and code that
are gone. -/
theorem Abandons.faults {c : Collector} {m : KernelModule} {a : Action} (hG : Abandons m a) :
    ∃ m', step c m a = some m' ∧ m'.fault = true := by
  obtain ⟨hp, ⟨result, rfl⟩, hused⟩ := hG
  refine ⟨_, by simp only [step, hp]; rfl, ?_⟩
  simp only [perform, initOnward, returned, hp]
  exact Bool.or_eq_true_iff.mpr (Or.inr hused)

/-- **A module is sound exactly when no load is given up on a program.** For both modules, and
every run of loading, failing, mapping, ticking and unloading: no call is made out of order, the
timer never writes into pages that are not there, no program has mapped more than there is, an
absent module holds nothing, and `init` returns 0 with the module in place and an error otherwise,
throughout the run if and only if the device is in no use whenever `init` gives back its pages. -/
theorem collector_sound_iff (c : Collector) (actions : List Action) :
    Runs.Throughout (step c) (Sound c) {} actions ↔
      Runs.Along (step c) (fun m a => ¬Abandons m a) {} actions := by
  refine Runs.throughout_iff_along (I := Inv c) (L := fun _ => True) (fun m h => h.toSound)
    (fun m a m' _ h hG hstep => h.step hG hstep) ?_ (fun _ _ => trivial) ?_
  · intro m a _ _ hG
    obtain ⟨m', hstep, hfault⟩ := Abandons.faults (not_not.mp hG)
    exact ⟨m', hstep, fun hs => by rw [hs.sound] at hfault; cases hfault⟩
  · exact ⟨trivial, rfl, fun _ => rfl, by rintro size ⟨⟩, by rintro ⟨⟩, by rintro ⟨⟩, rfl⟩

/-- A program opens the device when `cdev_add` has been made, and `class_create` fails. -/
example : (Runs.run (step cpuStatCollector) {} [.insmod, .call 0, .call 0, .call 0, .openDevice,
    .call (-12), .call 0, .call 0, .call 0]).map (·.fault) = some true := by rfl

end KernelModule

end MonitorSystem
