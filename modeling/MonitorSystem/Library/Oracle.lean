import Mathlib.Data.List.Basic

/-!
# Computations that ask

A function that talks to a server asks one question after the other, each of them after
what has been answered before, and ends with a result or an error.
`Oracle.Session Q R ε α` is such a computation: given what is answered to each question
it yields the questions it has asked, in order, and how it ends.

`Oracle.Asks P m` says that the computation asks no question outside `P`, whatever it is
answered, and `Oracle.Refuses m` that it asks nothing at all and fails; the rules for them
follow the way computations are put together.
-/

namespace Oracle

variable {Q R ε ε' α β : Type}

/-- A computation that asks questions `Q`, is answered by `R` and fails with `ε`. -/
def Session (Q R ε α : Type) : Type := (Q → R) → List Q × Except ε α

namespace Session

/-- The computation that ends at once. -/
def ret (a : α) : Session Q R ε α := fun _ => ([], .ok a)

/-- The computation that fails at once. -/
def fail (e : ε) : Session Q R ε α := fun _ => ([], .error e)

/-- One question. -/
def ask (q : Q) : Session Q R ε R := fun answer => ([q], .ok (answer q))

/-- One computation after the other, unless the first one fails. -/
def bind (m : Session Q R ε α) (f : α → Session Q R ε β) : Session Q R ε β := fun answer =>
  match m answer with
  | (log, .error e) => (log, .error e)
  | (log, .ok a) => (log ++ (f a answer).1, (f a answer).2)

instance : Monad (Session Q R ε) where
  pure := ret
  bind := bind

/-- A result that may already be an error. -/
def lift (x : Except ε α) : Session Q R ε α := fun _ => ([], x)

/-- The same computation, with its errors translated. -/
def mapError (g : ε → ε') (m : Session Q R ε α) : Session Q R ε' α := fun answer =>
  ((m answer).1, (m answer).2.mapError g)

end Session

/-- **The computation asks only such questions**, whatever it is answered. -/
def Asks (P : Q → Prop) (m : Session Q R ε α) : Prop := ∀ answer, ∀ q ∈ (m answer).1, P q

theorem asks_pure {P : Q → Prop} (a : α) : Asks P (pure a : Session Q R ε α) :=
  fun _ q h => by cases h

theorem asks_fail {P : Q → Prop} (e : ε) : Asks P (Session.fail e : Session Q R ε α) :=
  fun _ q h => by cases h

theorem asks_lift {P : Q → Prop} (x : Except ε α) : Asks P (Session.lift x : Session Q R ε α) :=
  fun _ q h => by cases h

theorem asks_ask {P : Q → Prop} {q : Q} (h : P q) : Asks P (Session.ask q : Session Q R ε R) := by
  intro answer q' hq'
  obtain rfl : q' = q := List.mem_singleton.mp hq'
  exact h

theorem asks_mapError {P : Q → Prop} {g : ε → ε'} {m : Session Q R ε α} (h : Asks P m) :
    Asks P (m.mapError g) := h

theorem asks_bind {P : Q → Prop} {m : Session Q R ε α} {f : α → Session Q R ε β} (hm : Asks P m)
    (hf : ∀ a, Asks P (f a)) : Asks P (m >>= f) := by
  intro answer q hq
  change q ∈ (Session.bind m f answer).1 at hq
  unfold Session.bind at hq
  split at hq
  · next log e heq => exact hm answer q (by rw [heq]; exact hq)
  · next log a heq =>
    rcases List.mem_append.mp hq with hq | hq
    · exact hm answer q (by rw [heq]; exact hq)
    · exact hf a answer q hq

theorem bind_lift_ok (a : α) (f : α → Session Q R ε β) :
    (Session.lift (.ok a) >>= f) = f a := by
  funext answer
  rfl

/-- What has been asked before stays asked. -/
theorem mem_log_bind {m : Session Q R ε α} {f : α → Session Q R ε β} {answer : Q → R} {q : Q}
    (h : q ∈ (m answer).1) : q ∈ ((m >>= f) answer).1 := by
  change q ∈ (Session.bind m f answer).1
  unfold Session.bind
  split
  · next log e heq => rwa [heq] at h
  · next log a heq =>
    rw [heq] at h
    exact List.mem_append_left _ h

/-- A computation after one that ends well. -/
theorem bind_apply_ok {m : Session Q R ε α} {f : α → Session Q R ε β} {answer : Q → R}
    {log : List Q} {a : α} (h : m answer = (log, .ok a)) :
    (m >>= f) answer = (log ++ (f a answer).1, (f a answer).2) := by
  change Session.bind m f answer = _
  simp [Session.bind, h]

/-- **The computation fails without a question**, whatever would be answered. -/
def Refuses (m : Session Q R ε α) : Prop :=
  ∀ answer, (m answer).1 = [] ∧ ∃ e, (m answer).2 = .error e

theorem refuses_lift_error (e : ε) : Refuses (Session.lift (.error e) : Session Q R ε α) :=
  fun _ => ⟨rfl, e, rfl⟩

theorem refuses_mapError {g : ε → ε'} {m : Session Q R ε α} (h : Refuses m) :
    Refuses (m.mapError g) := by
  intro answer
  obtain ⟨hlog, e, he⟩ := h answer
  exact ⟨hlog, g e, by simp [Session.mapError, he, Except.mapError]⟩

/-- What follows a computation that refuses is not reached. -/
theorem refuses_bind {m : Session Q R ε α} {f : α → Session Q R ε β} (h : Refuses m) :
    Refuses (m >>= f) := by
  intro answer
  obtain ⟨hlog, e, he⟩ := h answer
  have hm : m answer = ([], .error e) := Prod.ext hlog he
  change (Session.bind m f answer).1 = [] ∧ ∃ e, (Session.bind m f answer).2 = .error e
  simp [Session.bind, hm]

/-- A check before a computation that refuses does not change that. -/
theorem refuses_bind_of_asks {m : Session Q R ε α} {f : α → Session Q R ε β}
    (hm : Asks (fun _ => False) m) (hf : ∀ a, Refuses (f a)) : Refuses (m >>= f) := by
  intro answer
  have hlog : (m answer).1 = [] := List.eq_nil_iff_forall_not_mem.mpr (hm answer)
  change (Session.bind m f answer).1 = [] ∧ ∃ e, (Session.bind m f answer).2 = .error e
  unfold Session.bind
  split
  · next log e heq =>
    rw [heq] at hlog
    exact ⟨hlog, e, rfl⟩
  · next log a heq =>
    rw [heq] at hlog
    obtain ⟨hf1, hf2⟩ := hf a answer
    refine ⟨?_, hf2⟩
    rw [hf1, List.append_nil]
    exact hlog

end Oracle
