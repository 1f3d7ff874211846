import Mathlib.Data.List.Induction
import Mathlib.Logic.Relation

/-!
# Runs of a guarded step function

A transition system is a function `step : S → A → Option S`: the state after an action, or
nothing where the action is not enabled.  A run is a list of actions.

* `inStates_induct` — induction along a run;
* `inStates_of_invariant` — what an invariant implies holds in all states of every run;
* `observed` — a system with a history of its runs, which does not restrict them;
* `good_along_iff` — a property holds in every state of a run exactly where a condition holds
  at every step of it, if this is so at each single step;
* `waits_end`, `no_circle` — waits that always lead to a lower rank.
-/

namespace Pcopy.Lib

variable {S A : Type*}

/-- The state after a run, if every action of it was enabled. -/
def runFrom (step : S → A → Option S) : S → List A → Option S
  | s, [] => some s
  | s, a :: rest => (step s a).bind fun s' => runFrom step s' rest

section

variable {step : S → A → Option S}

@[simp] theorem runFrom_nil (s : S) : runFrom step s [] = some s := rfl

theorem runFrom_append (s : S) (as bs : List A) :
    runFrom step s (as ++ bs) = (runFrom step s as).bind fun s' => runFrom step s' bs := by
  induction as generalizing s with
  | nil => rfl
  | cons a rest ih =>
      simp only [List.cons_append, runFrom]
      cases step s a with
      | none => rfl
      | some s' => exact ih s'

/-- The last step of a run. -/
theorem runFrom_concat {s s' : S} {as : List A} {a : A} :
    runFrom step s (as ++ [a]) = some s' ↔ ∃ t, runFrom step s as = some t ∧ step t a = some s' := by
  rw [runFrom_append, Option.bind_eq_some_iff]
  simp [runFrom]

/-- `P` holds in every state that a run reaches. -/
def InStates (step : S → A → Option S) (init : S) (as : List A) (P : S → Prop) : Prop :=
  ∀ front, front <+: as → ∀ s, runFrom step init front = some s → P s

/-- `C` holds at every step of a run, of the state before it and the action. -/
def AtSteps (step : S → A → Option S) (init : S) (as : List A) (C : S → A → Prop) : Prop :=
  ∀ front a, front ++ [a] <+: as → ∀ s s', runFrom step init front = some s →
    step s a = some s' → C s a

/-- **Induction along a run.**  What holds at its start, and after each of its steps if before
it, holds in all its states. -/
theorem inStates_induct {P : S → Prop} {init : S} {as : List A} (hinit : P init)
    (hstep : ∀ front a s s', front ++ [a] <+: as → runFrom step init front = some s → P s →
      step s a = some s' → P s') : InStates step init as P := by
  intro front
  induction front using List.reverseRecOn with
  | nil =>
      intro _ s hs
      cases hs
      exact hinit
  | append_singleton front a ih =>
      intro hpre s hs
      obtain ⟨t, hrun, ht⟩ := runFrom_concat.mp hs
      have hfront : front <+: as := (List.prefix_append front [a]).trans hpre
      exact hstep front a t s hpre hrun (ih hfront t hrun) ht

/-- What an invariant implies holds in every state of a run whose actions keep it. -/
theorem inStates_of_invariant_on {C : A → Prop} {I P : S → Prop} {init : S} (hinit : I init)
    (hstep : ∀ s a s', C a → I s → step s a = some s' → I s') (himp : ∀ s, I s → P s)
    {as : List A} (has : ∀ a ∈ as, C a) : InStates step init as P := by
  have hinv : InStates step init as I := by
    refine inStates_induct hinit fun front a s s' hpre _ hs hs' => ?_
    exact hstep s a s' (has a (hpre.subset (by simp))) hs hs'
  exact fun front hpre s hs => himp s (hinv front hpre s hs)

/-- What an invariant implies holds in every state of every run. -/
theorem inStates_of_invariant {I P : S → Prop} {init : S} (hinit : I init)
    (hstep : ∀ s a s', I s → step s a = some s' → I s') (himp : ∀ s, I s → P s)
    (as : List A) : InStates step init as P :=
  inStates_of_invariant_on (C := fun _ => True) hinit (fun s a s' _ => hstep s a s') himp
    fun _ _ => trivial

/-- **A condition for a whole run.**  If, under an invariant, a step from a good state leads to
a good state exactly where it meets the condition, then all states of a run are good exactly
where all its steps meet the condition. -/
theorem good_along_iff {Inv Good : S → Prop} {Cond : S → A → Prop} {init : S}
    (hinit : Inv init ∧ Good init)
    (hinv : ∀ s a s', Inv s → Good s → Cond s a → step s a = some s' → Inv s')
    (hstep : ∀ s a s', Inv s → Good s → step s a = some s' → (Good s' ↔ Cond s a))
    (as : List A) :
    InStates step init as Good ↔ AtSteps step init as Cond := by
  constructor
  · intro hgood
    have hall : InStates step init as Inv := by
      refine inStates_induct hinit.1 fun front a s s' hpre hrun hs hs' => ?_
      have hfront : front <+: as := (List.prefix_append front [a]).trans hpre
      have hgoods := hgood front hfront s hrun
      have hgoods' := hgood _ hpre s' (runFrom_concat.mpr ⟨s, hrun, hs'⟩)
      exact hinv s a s' hs hgoods ((hstep s a s' hs hgoods hs').mp hgoods') hs'
    intro front a hpre s s' hs hs'
    have hfront : front <+: as := (List.prefix_append front [a]).trans hpre
    exact (hstep s a s' (hall front hfront s hs) (hgood front hfront s hs) hs').mp
      (hgood _ hpre s' (runFrom_concat.mpr ⟨s, hs, hs'⟩))
  · intro hcond
    have hall : InStates step init as fun s => Inv s ∧ Good s := by
      refine inStates_induct hinit fun front a s s' hpre hrun hs hs' => ?_
      have hca := hcond front a hpre s s' hrun hs'
      exact ⟨hinv s a s' hs.1 hs.2 hca hs', (hstep s a s' hs.1 hs.2 hs').mpr hca⟩
    exact fun front hpre s hs => (hall front hpre s hs).2

end

/-! ### Histories -/

section

variable {H : Type*} {step : S → A → Option S} {observe : S → A → H → H}

/-- The system with a history beside its state: `observe` extends it by what a step does. -/
def observed (step : S → A → Option S) (observe : S → A → H → H) : S × H → A → Option (S × H) :=
  fun s a => (step s.1 a).map fun s' => (s', observe s.1 a s.2)

theorem observed_some {s s' : S × H} {a : A} :
    observed step observe s a = some s' ↔ step s.1 a = some s'.1 ∧ s'.2 = observe s.1 a s.2 := by
  obtain ⟨s', h'⟩ := s'
  rw [observed, Option.map_eq_some_iff]
  constructor
  · rintro ⟨t, ht, heq⟩
    cases heq
    exact ⟨ht, rfl⟩
  · rintro ⟨ht, rfl⟩
    exact ⟨s', ht, rfl⟩

/-- A log that has grown by one entry, split at an entry: it is the new one, or an old one. -/
theorem log_split {E : Type*} {log past future : List E} {x e : E}
    (hsplit : log ++ [x] = past ++ e :: future) :
    past = log ∧ e = x ∨ ∃ future', log = past ++ e :: future' := by
  rcases List.eq_nil_or_concat future with rfl | ⟨future', y, rfl⟩
  · obtain ⟨hpast, hx⟩ := List.append_inj' hsplit rfl
    cases hx
    exact Or.inl ⟨hpast.symm, rfl⟩
  · right
    rw [List.concat_eq_append, ← List.cons_append, ← List.append_assoc] at hsplit
    exact ⟨future', (List.append_inj' hsplit rfl).1⟩

/-- The runs of the system are those of the system with a history. -/
theorem runFrom_observed (s : S) (h : H) (as : List A) (s' : S) :
    runFrom step s as = some s' ↔ ∃ h', runFrom (observed step observe) (s, h) as = some (s', h') := by
  induction as generalizing s h with
  | nil => simp [runFrom]
  | cons a rest ih =>
      simp only [runFrom, observed]
      cases step s a with
      | none => simp
      | some t => exact ih t (observe s a h)

end

/-! ### Waits -/

section

variable {T : Type*} {Waits : T → T → Prop} {rank : T → ℕ}

/-- Who waits for something of a lower rank does not wait for itself. -/
theorem no_circle (hlt : ∀ u v, Waits u v → rank v < rank u) (t : T) :
    ¬ Relation.TransGen Waits t t := by
  have hrank : ∀ {u v}, Relation.TransGen Waits u v → rank v < rank u := by
    intro u v h
    induction h with
    | single h => exact hlt _ _ h
    | tail _ h ih => exact Nat.lt_trans (hlt _ _ h) ih
  exact fun h => Nat.lt_irrefl _ (hrank h)

/-- Waits that lead to a lower rank lead to one that does not wait. -/
theorem waits_end {Live Free : T → Prop} (hlt : ∀ u v, Waits u v → rank v < rank u)
    (hlive : ∀ u, Live u → Free u ∨ ∃ v, Waits u v ∧ Live v) :
    ∀ u, Live u → ∃ v, Relation.ReflTransGen Waits u v ∧ Live v ∧ Free v := by
  intro u
  induction h : rank u using Nat.strongRecOn generalizing u with
  | _ n ih =>
      intro hu
      rcases hlive u hu with hfree | ⟨v, hwaits, hv⟩
      · exact ⟨u, .refl, hu, hfree⟩
      · obtain ⟨w, hchain, hw⟩ := ih (rank v) (h ▸ hlt u v hwaits) v rfl hv
        exact ⟨w, .head hwaits hchain, hw⟩

end

end Pcopy.Lib
