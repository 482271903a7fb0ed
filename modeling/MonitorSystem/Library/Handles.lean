import Mathlib.Data.List.Perm.Lattice
import Mathlib.Data.List.ReduceOption

/-!
# Handles and the slots that hold them

A server gives out handles – connections, file descriptors – that are all different and
stay open until they are closed. A client keeps them in *slots*, each of which holds a
handle or nothing, and may forget to close one.

`Handles.Tracked` says where the open handles are: each of them is in exactly one slot, or
it is one of the *lost* ones, which no slot holds any more. What a client does to a slot is
one of three things – fill it with a new handle, close what is in it, or drop what is in it
without closing – and there is one rule for each. Only the last one adds to the lost
handles, so a client that never does it leaks nothing.
-/

namespace Handles

/-- What the server keeps: the next handle to give out, and the open ones. -/
structure Server where
  next : ℕ := 0
  opened : List ℕ := []
  deriving DecidableEq, Repr

namespace Server

/-- The server after it has given out the handle `next`. -/
def issue (v : Server) : Server := ⟨v.next + 1, v.next :: v.opened⟩

/-- The server after the contents of a slot have been closed. -/
def close (v : Server) : Option ℕ → Server
  | none => v
  | some c => { v with opened := v.opened.erase c }

end Server

/-- **Where the open handles are**: each is in exactly one of the slots or among the lost
ones, and all of them have been given out before. -/
structure Tracked (v : Server) (slots : List (Option ℕ)) (lost : List ℕ) : Prop where
  perm : v.opened.Perm (slots.reduceOption ++ lost)
  nodup : v.opened.Nodup
  old : ∀ c ∈ v.opened, c < v.next

namespace Tracked

variable {v : Server} {s : Option ℕ} {slots slots' : List (Option ℕ)} {lost lost' : List ℕ}

theorem init : Tracked {} [] [] :=
  ⟨List.Perm.refl _, List.nodup_nil, by simp⟩

theorem of_perm (h : Tracked v slots lost) (hs : slots.Perm slots') (hl : lost.Perm lost') :
    Tracked v slots' lost' :=
  ⟨h.perm.trans ((hs.filterMap id).append hl), h.nodup, h.old⟩

/-- A loop over the slots may count the one it has dealt with among those behind it. -/
theorem pass_iff {rest : List (Option ℕ)} :
    Tracked v (s :: (slots ++ rest)) lost ↔ Tracked v (slots ++ s :: rest) lost :=
  ⟨fun h => h.of_perm List.perm_middle.symm (List.Perm.refl _),
    fun h => h.of_perm List.perm_middle (List.Perm.refl _)⟩

/-! ### The three rules -/

/-- An empty slot that is filled. -/
theorem fill (h : Tracked v (none :: slots) lost) :
    Tracked v.issue (some v.next :: slots) lost := by
  refine ⟨?_, ?_, ?_⟩
  · simpa [Server.issue, List.reduceOption_cons_of_some] using h.perm
  · refine List.nodup_cons.mpr ⟨fun hc => ?_, h.nodup⟩
    exact absurd (h.old _ hc) (Nat.lt_irrefl _)
  · intro c hc
    rcases List.mem_cons.mp hc with rfl | hc
    · exact Nat.lt_succ_self _
    · exact Nat.lt_succ_of_lt (h.old c hc)

/-- A slot whose handle is closed. -/
theorem close (h : Tracked v (s :: slots) lost) : Tracked (v.close s) (none :: slots) lost := by
  cases s with
  | none => exact h
  | some c =>
    refine ⟨?_, h.nodup.erase c, fun d hd => h.old d (List.mem_of_mem_erase hd)⟩
    have hp := h.perm.erase c
    simpa [Server.close, List.reduceOption_cons_of_some] using hp

/-- A slot whose handle is dropped without closing it. -/
theorem lose (h : Tracked v (s :: slots) lost) :
    Tracked v (none :: slots) (s.toList ++ lost) := by
  refine ⟨h.perm.trans ?_, h.nodup, h.old⟩
  cases s with
  | none => exact List.Perm.refl _
  | some c =>
    rw [List.reduceOption_cons_of_some, List.reduceOption_cons_of_none]
    exact List.perm_middle.symm

/-- An empty slot may be added or removed. -/
theorem none_cons_iff : Tracked v (none :: slots) lost ↔ Tracked v slots lost :=
  ⟨fun h => ⟨h.perm, h.nodup, h.old⟩, fun h => ⟨h.perm, h.nodup, h.old⟩⟩

/-! ### What a tracked state gives -/

/-- What a slot holds is open. -/
theorem mem_opened (h : Tracked v slots lost) {c : ℕ} (hc : some c ∈ slots) : c ∈ v.opened := by
  refine h.perm.mem_iff.mpr (List.mem_append_left _ ?_)
  exact List.reduceOption_mem_iff.mpr hc

theorem nodup_reduceOption (h : Tracked v slots lost) : (slots.reduceOption ++ lost).Nodup :=
  h.perm.nodup_iff.mp h.nodup

/-- Two slots never hold the same handle. -/
theorem ne_of_ne (h : Tracked v slots lost) {i j : ℕ} (hij : i ≠ j) {c d : ℕ}
    (hi : slots[i]? = some (some c)) (hj : slots[j]? = some (some d)) : c ≠ d := by
  have hnd : slots.Pairwise fun x y => ∀ b ∈ x, ∀ b' ∈ y, b ≠ b' := by
    have := h.nodup_reduceOption.of_append_left
    rwa [List.Nodup, List.reduceOption, List.pairwise_filterMap] at this
  obtain ⟨hi', hic⟩ := List.getElem?_eq_some_iff.mp hi
  obtain ⟨hj', hjc⟩ := List.getElem?_eq_some_iff.mp hj
  rcases Nat.lt_or_gt_of_ne hij with hlt | hlt
  · exact List.pairwise_iff_getElem.mp hnd i j hi' hj' hlt c (by simp [hic]) d (by simp [hjc])
  · exact (List.pairwise_iff_getElem.mp hnd j i hj' hi' hlt d (by simp [hjc]) c
      (by simp [hic])).symm

theorem count_reduceOption (slots : List (Option ℕ)) (c : ℕ) :
    slots.reduceOption.count c = slots.count (some c) := by
  induction slots with
  | nil => rfl
  | cons s slots ih => cases s <;> simp [List.reduceOption_cons_of_some, List.count_cons, ih]

/-- A handle in a slot is in one slot only. -/
theorem count_eq_one (h : Tracked v slots lost) {c : ℕ} (hc : some c ∈ slots) :
    slots.count (some c) = 1 := by
  rw [← count_reduceOption]
  exact List.count_eq_one_of_mem h.nodup_reduceOption.of_append_left
    (List.reduceOption_mem_iff.mpr hc)

/-- A lost handle is in no slot. -/
theorem notMem_of_mem_lost (h : Tracked v slots lost) {c : ℕ} (hc : c ∈ lost) :
    some c ∉ slots := fun hs =>
  (List.nodup_append.mp h.nodup_reduceOption).2.2 c (List.reduceOption_mem_iff.mpr hs) c hc rfl

/-- There are never more open handles than slots, but for the lost ones. -/
theorem length_opened_le (h : Tracked v slots lost) :
    v.opened.length ≤ slots.length + lost.length := by
  rw [h.perm.length_eq, List.length_append]
  exact Nat.add_le_add_right (List.reduceOption_length_le slots) _

end Tracked

end Handles
