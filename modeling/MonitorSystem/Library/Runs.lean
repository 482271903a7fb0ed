import Mathlib.Data.List.Infix

/-!
# Runs of a labelled step function

A concurrent component is modelled by a partial step function
`step : σ → α → Option σ`: a label says which thread moves and what its
environment answers, and the step is undefined where the label is not enabled.
An interleaving is then a list of labels, and this file gives the rules with which
statements about all interleavings are proved.

* `Runs.run` – the state a list of labels leads to, if every one of them is
  enabled where it is taken;
* `Runs.run_invariant` – a predicate that every step preserves holds at the end of
  every run, `Runs.run_counted` the same for one that counts labels of a kind, and
  `Runs.run_written` for one about what the labels write;
* `Runs.Along` – a condition on a step and the state it is taken in, required of
  every step of a run, with `Runs.run_invariant_along` for the predicates that only
  survive steps of that kind and `Runs.along_or_marked` for those that notice a step of
  another kind;
* `Runs.Throughout` – a predicate required of every state a run passes through;
* `Runs.throughout_iff_along` – such a requirement is a condition on the single
  steps when an invariant survives the allowed steps and no other one;
* `Runs.tally` – how many steps of a run are of a given kind, with
  `Runs.throughout_le_iff` for a quantity that grows with each of them;
* `Runs.Leads` – some run of a kind leads from one state to another: what a run that
  is put together from pieces is made of.
-/

namespace Runs

variable {σ α : Type*} {step : σ → α → Option σ}

/-! ### The run of a list of labels -/

/-- **The run of a list of labels**: the state it leads to, if every label is
enabled in the state it is taken in. -/
def run (step : σ → α → Option σ) : σ → List α → Option σ
  | s, [] => some s
  | s, a :: as => (step s a).bind fun t => run step t as

@[simp] theorem run_nil (s : σ) : run step s [] = some s := rfl

theorem run_cons_iff {s t : σ} {a : α} {as : List α} :
    run step s (a :: as) = some t ↔ ∃ u, step s a = some u ∧ run step u as = some t := by
  simp [run, Option.bind_eq_some_iff]

/-! ### Invariants -/

/-- **The invariant rule**: what every step preserves, every run preserves. -/
theorem run_invariant {P : σ → Prop} (hstep : ∀ s a t, P s → step s a = some t → P t)
    {s t : σ} {as : List α} (hs : P s) (hr : run step s as = some t) : P t := by
  induction as generalizing s with
  | nil =>
    obtain rfl : s = t := by simpa using hr
    exact hs
  | cons a as ih =>
    obtain ⟨u, hu, hr⟩ := run_cons_iff.mp hr
    exact ih (hstep s a u hs hu) hr

/-- **The invariant rule with a count**: a predicate that goes up by one with every label of a
kind counts these labels. -/
theorem run_counted {K : α → Bool} {P : ℕ → σ → Prop}
    (hstep : ∀ n s a t, P n s → step s a = some t → P (n + if K a then 1 else 0) t)
    {n : ℕ} {s t : σ} {as : List α} (hs : P n s) (hr : run step s as = some t) :
    P (n + as.countP K) t := by
  induction as generalizing n s with
  | nil =>
    obtain rfl : s = t := by simpa using hr
    exact hs
  | cons a as ih =>
    obtain ⟨u, hu, hr⟩ := run_cons_iff.mp hr
    have h := ih (hstep n s a u hs hu) hr
    rwa [Nat.add_assoc, Nat.add_comm (if K a then 1 else 0), ← List.countP_cons] at h

/-- Every step of the run of `as` from `s` is taken in a state where `G` allows
it. -/
def Along (step : σ → α → Option σ) (G : σ → α → Prop) : σ → List α → Prop
  | _, [] => True
  | s, a :: as => G s a ∧ ∀ t, step s a = some t → Along step G t as

@[simp] theorem along_nil {G : σ → α → Prop} {s : σ} : Along step G s [] := trivial

theorem along_cons {G : σ → α → Prop} {s : σ} {a : α} {as : List α} :
    Along step G s (a :: as) ↔ G s a ∧ ∀ t, step s a = some t → Along step G t as := Iff.rfl

instance decidableAlong {G : σ → α → Prop} [∀ s a, Decidable (G s a)] :
    (s : σ) → (as : List α) → Decidable (Along step G s as)
  | _, [] => .isTrue trivial
  | s, a :: as =>
    match h : step s a with
    | none => decidable_of_iff (G s a) (by simp [along_cons, h])
    | some t =>
      have : Decidable (Along step G t as) := decidableAlong t as
      decidable_of_iff (G s a ∧ Along step G t as) (by simp [along_cons, h])

/-- A condition that a stronger one gives. -/
theorem Along.mono {G H : σ → α → Prop} (hGH : ∀ s a, G s a → H s a) {s : σ} {as : List α}
    (hG : Along step G s as) : Along step H s as := by
  induction as generalizing s with
  | nil => exact trivial
  | cons a as ih => exact ⟨hGH s a hG.1, fun t ht => ih (hG.2 t ht)⟩

/-- A condition on the labels holds along a run if it holds of its labels. -/
theorem along_of_forall {L : α → Prop} {s : σ} {as : List α} (h : ∀ a ∈ as, L a) :
    Along step (fun _ a => L a) s as := by
  induction as generalizing s with
  | nil => exact trivial
  | cons a as ih =>
    exact ⟨h a List.mem_cons_self, fun t _ => ih fun b hb => h b (List.mem_cons_of_mem a hb)⟩

/-- A condition that an invariant gives for every label holds along every run. -/
theorem along_of_invariant {I : σ → Prop} {G : σ → α → Prop}
    (hI : ∀ s a t, I s → step s a = some t → I t) (hG : ∀ s a, I s → G s a)
    {s : σ} {as : List α} (hs : I s) : Along step G s as := by
  induction as generalizing s with
  | nil => exact trivial
  | cons a as ih => exact ⟨hG s a hs, fun t ht => ih (hI s a t hs ht)⟩

/-- **The invariant rule for a restricted run**: it is enough that the steps `G`
allows preserve the predicate. -/
theorem run_invariant_along {P : σ → Prop} {G : σ → α → Prop}
    (hstep : ∀ s a t, P s → G s a → step s a = some t → P t)
    {s t : σ} {as : List α} (hs : P s) (hG : Along step G s as)
    (hr : run step s as = some t) : P t := by
  induction as generalizing s with
  | nil =>
    obtain rfl : s = t := by simpa using hr
    exact hs
  | cons a as ih =>
    obtain ⟨u, hu, hr⟩ := run_cons_iff.mp hr
    exact ih (hstep s a u hs hG.1 hu) (hG.2 u hu) hr

/-- **The invariant rule with a record**: a predicate about what the labels have written so far
holds of all that has been written. -/
theorem run_written {ω : Type*} {w : α → List ω} {P : List ω → σ → Prop} {G : σ → α → Prop}
    (hstep : ∀ l s a t, P l s → G s a → step s a = some t → P (l ++ w a) t)
    {l : List ω} {s t : σ} {as : List α} (hs : P l s) (hG : Along step G s as)
    (hr : run step s as = some t) : P (l ++ as.flatMap w) t := by
  induction as generalizing l s with
  | nil =>
    obtain rfl : s = t := by simpa using hr
    simpa using hs
  | cons a as ih =>
    obtain ⟨u, hu, hr⟩ := run_cons_iff.mp hr
    have h := ih (hstep l s a u hs hG.1 hu) (hG.2 u hu) hr
    rwa [List.append_assoc, ← List.flatMap_cons] at h

/-- **A forbidden step leaves a mark.** Let `I` be an invariant, `J` one that survives
the steps `G` allows, and `B` a mark that a forbidden step leaves and no step removes.
Then a run satisfies `G` along the way or ends with the mark. -/
theorem along_or_marked {I J B : σ → Prop} {G : σ → α → Prop}
    (hI : ∀ s a t, I s → step s a = some t → I t)
    (hJ : ∀ s a t, I s → J s → G s a → step s a = some t → J t)
    (hmark : ∀ s a t, I s → J s → ¬G s a → step s a = some t → B t)
    (hB : ∀ s a t, I s → B s → step s a = some t → B t)
    {s t : σ} {as : List α} (hIs : I s) (hJs : J s) (hr : run step s as = some t) :
    Along step G s as ∨ B t := by
  induction as generalizing s with
  | nil => exact Or.inl trivial
  | cons a as ih =>
    obtain ⟨u, hu, hr⟩ := run_cons_iff.mp hr
    by_cases hG : G s a
    · rcases ih (hI s a u hIs hu) (hJ s a u hIs hJs hG hu) hr with h | h
      · refine Or.inl ⟨hG, fun v hv => ?_⟩
        obtain rfl : u = v := Option.some.inj (hu.symm.trans hv)
        exact h
      · exact Or.inr h
    · refine Or.inr (run_invariant (P := fun s => I s ∧ B s)
        (fun s a t h hs => ⟨hI s a t h.1 hs, hB s a t h.1 h.2 hs⟩) ?_ hr).2
      exact ⟨hI s a u hIs hu, hmark s a u hIs hJs hG hu⟩

/-! ### Statements about every state a run passes through -/

/-- `P` holds in every state the run of `as` from `s` passes through, the first
one included. -/
def Throughout (step : σ → α → Option σ) (P : σ → Prop) (s : σ) (as : List α) : Prop :=
  ∀ bs, bs <+: as → ∀ t, run step s bs = some t → P t

theorem throughout_nil {P : σ → Prop} {s : σ} : Throughout step P s [] ↔ P s := by
  constructor
  · intro h
    exact h [] List.prefix_rfl s rfl
  · intro h bs hbs t ht
    obtain rfl := List.prefix_nil.mp hbs
    obtain rfl : s = t := by simpa using ht
    exact h

theorem throughout_cons {P : σ → Prop} {s : σ} {a : α} {as : List α} :
    Throughout step P s (a :: as) ↔
      P s ∧ ∀ t, step s a = some t → Throughout step P t as := by
  constructor
  · intro h
    refine ⟨h [] List.nil_prefix s rfl, fun t ht bs hbs u hu => ?_⟩
    exact h (a :: bs) (List.cons_prefix_cons.mpr ⟨rfl, hbs⟩) u
      (run_cons_iff.mpr ⟨t, ht, hu⟩)
  · rintro ⟨hs, hrest⟩ bs hbs t ht
    cases bs with
    | nil =>
      obtain rfl : s = t := by simpa using ht
      exact hs
    | cons b bs =>
      obtain ⟨rfl, hbs'⟩ := List.cons_prefix_cons.mp hbs
      obtain ⟨u, hu, hr⟩ := run_cons_iff.mp ht
      exact hrest u hu bs hbs' t hr

/-- A condition on the steps and one on the states they are taken in. -/
theorem Along.and_throughout {G : σ → α → Prop} {P : σ → Prop} {s : σ} {as : List α}
    (hG : Along step G s as) (hP : Throughout step P s as) :
    Along step (fun s a => G s a ∧ P s) s as := by
  induction as generalizing s with
  | nil => exact trivial
  | cons a as ih =>
    obtain ⟨hs, hrest⟩ := throughout_cons.mp hP
    exact ⟨⟨hG.1, hs⟩, fun t ht => ih (hG.2 t ht) (hrest t ht)⟩

instance decidableThroughout {P : σ → Prop} [DecidablePred P] :
    (s : σ) → (as : List α) → Decidable (Throughout step P s as)
  | s, [] => decidable_of_iff (P s) throughout_nil.symm
  | s, a :: as =>
    match h : step s a with
    | none => decidable_of_iff (P s) (by simp [throughout_cons, h])
    | some t =>
      have : Decidable (Throughout step P t as) := decidableThroughout t as
      decidable_of_iff (P s ∧ Throughout step P t as) (by simp [throughout_cons, h])

/-- **A requirement on the states as a condition on the steps.** Let `I` be a
predicate that gives `P`, that survives the steps `G` allows, and such that a step
`G` forbids leads out of `P`. Then `P` holds throughout a run exactly when `G` holds
along it. The labels may be restricted to those of a kind `L`. -/
theorem throughout_iff_along {I P : σ → Prop} {G : σ → α → Prop} {L : α → Prop}
    (hIP : ∀ s, I s → P s)
    (hkeep : ∀ s a t, L a → I s → G s a → step s a = some t → I t)
    (hbreak : ∀ s a, L a → I s → ¬G s a → ∃ t, step s a = some t ∧ ¬P t)
    {s : σ} {as : List α} (hL : ∀ a ∈ as, L a) (hs : I s) :
    Throughout step P s as ↔ Along step G s as := by
  induction as generalizing s with
  | nil => exact ⟨fun _ => trivial, fun _ => throughout_nil.mpr (hIP s hs)⟩
  | cons a as ih =>
    have ha : L a := hL a List.mem_cons_self
    have has : ∀ b ∈ as, L b := fun b hb => hL b (List.mem_cons_of_mem a hb)
    rw [throughout_cons, along_cons]
    constructor
    · rintro ⟨-, hrest⟩
      have hG : G s a := by
        by_contra hG
        obtain ⟨t, ht, hPt⟩ := hbreak s a ha hs hG
        exact hPt (hrest t ht [] List.nil_prefix t rfl)
      exact ⟨hG, fun t ht => (ih has (hkeep s a t ha hs hG ht)).mp (hrest t ht)⟩
    · rintro ⟨hG, hrest⟩
      exact ⟨hIP s hs, fun t ht => (ih has (hkeep s a t ha hs hG ht)).mpr (hrest t ht)⟩

/-! ### Counting the steps of a kind -/

/-- How many steps of the run of `as` from `s` are of the kind `K`, up to the first
label that is not enabled. -/
def tally (step : σ → α → Option σ) (K : σ → α → Bool) : σ → List α → ℕ
  | _, [] => 0
  | s, a :: as =>
    match step s a with
    | none => 0
    | some t => (if K s a then 1 else 0) + tally step K t as

/-- **A quantity that grows by one with each step of a kind** stays below a bound
throughout a run exactly when the run has few enough of these steps. -/
theorem throughout_le_iff {m : σ → ℤ} {K : σ → α → Bool}
    (hstep : ∀ s a t, step s a = some t → m t = m s + if K s a then 1 else 0)
    {N : ℤ} {s : σ} {as : List α} :
    Throughout step (fun t => m t ≤ N) s as ↔ m s + tally step K s as ≤ N := by
  induction as generalizing s with
  | nil => simp [throughout_nil, tally]
  | cons a as ih =>
    rw [throughout_cons]
    cases hu : step s a with
    | none => simp [tally, hu]
    | some u =>
      have hm := hstep s a u hu
      simp only [Option.some.injEq, forall_eq', tally, hu, ih]
      split at hm <;> simp_all <;> omega

/-! ### Runs put together from pieces -/

/-- Some run from `s` to `t` has labels of the kind `L` only, and passes only through
states with `P`. -/
def Leads (step : σ → α → Option σ) (L : α → Prop) (P : σ → Prop) (s t : σ) : Prop :=
  ∃ as, (∀ a ∈ as, L a) ∧ Throughout step P s as ∧ run step s as = some t

namespace Leads

variable {L : α → Prop} {P : σ → Prop} {s t u : σ}

theorem refl (hs : P s) : Leads step L P s s :=
  ⟨[], by simp, throughout_nil.mpr hs, rfl⟩

/-- A first step, and a run from where it leads. -/
theorem head (a : α) (ha : L a) (hs : P s) (hstep : step s a = some t)
    (h : Leads step L P t u) : Leads step L P s u := by
  obtain ⟨as, hL, hP, hr⟩ := h
  refine ⟨a :: as, ?_, throughout_cons.mpr ⟨hs, fun v hv => ?_⟩, run_cons_iff.mpr ⟨t, hstep, hr⟩⟩
  · rintro b hb
    rcases List.mem_cons.mp hb with rfl | hb
    · exact ha
    · exact hL b hb
  · obtain rfl : t = v := Option.some.inj (hstep.symm.trans hv)
    exact hP

/-- A run, and a run from where it leads. -/
theorem trans (h : Leads step L P s t) (h' : Leads step L P t u) : Leads step L P s u := by
  obtain ⟨as, hL, hP, hr⟩ := h
  induction as generalizing s with
  | nil =>
    obtain rfl : s = t := by simpa using hr
    exact h'
  | cons a as ih =>
    obtain ⟨v, hv, hr⟩ := run_cons_iff.mp hr
    obtain ⟨hs, hrest⟩ := throughout_cons.mp hP
    exact head a (hL a List.mem_cons_self) hs hv
      (ih (fun b hb => hL b (List.mem_cons_of_mem a hb)) (hrest v hv) hr)

/-- A run through states with `P` passes through states with what `P` implies. -/
theorem mono {Q : σ → Prop} (hPQ : ∀ s, P s → Q s) (h : Leads step L P s t) :
    Leads step L Q s t := by
  obtain ⟨as, hL, hP, hr⟩ := h
  exact ⟨as, hL, fun bs hbs v hv => hPQ v (hP bs hbs v hv), hr⟩

end Leads

end Runs
