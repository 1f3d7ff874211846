import Pcopy.Lib.SharedFile
import Pcopy.Lib.Transition

/-!
# Tasks that call on a shared store

A script makes calls one after the other and stops at the first one that fails; what it
ends with says where.  A call is one atomic step on a store that many tasks share, and a call
that fails leaves the store as it is.

A pool is the store and the tasks started so far, each with what is left of its script.  In a
step a task is started, or one of them makes its next call.  The log of the calls that were
made is never read by the tasks.

* `Script.exec` — a script alone;
* `Pool.Faithful`, `faithful_run` — after every run the store is what the calls of the log make
  of it, and the calls of each task are those its script has made;
* `simulated_run` — a task goes on as if it were alone, when the calls of the others keep a
  relation between the store and the one it would find alone.
-/

namespace Pcopy.Lib

variable {S C E α X : Type*}

/-- A task: what it ends with, or its next call, what it ends with if that fails, and the
rest. -/
inductive Script (C E α : Type*) where
  | done : α → Script C E α
  | call : C → (E → α) → Script C E α → Script C E α

namespace Script

variable {perform : S → C → Except E S} {script now : Script C E α} {made : List C}

/-- A script alone on a store. -/
def exec (perform : S → C → Except E S) : S → Script C E α → α × S
  | s, .done a => (a, s)
  | s, .call c onError rest =>
      match perform s c with
      | .ok s' => exec perform s' rest
      | .error e => (onError e, s)

/-- The calls of a script, up to its end. -/
def calls : Script C E α → List C
  | .done _ => []
  | .call c _ rest => c :: rest.calls

/-- What a task has ended with. -/
def ended : Script C E α → Option α
  | .done a => some a
  | .call _ _ _ => none

theorem ended_eq_some {a : α} (h : script.ended = some a) : script = .done a := by
  cases script with
  | done b =>
      cases h
      rfl
  | call c onError rest => cases h

theorem eq_map_done {scripts : List (Script C E α)} :
    ∀ {as : List α}, scripts.map ended = as.map some → scripts = as.map .done := by
  induction scripts with
  | nil =>
      intro as h
      cases as with
      | nil => rfl
      | cons a as => cases h
  | cons script scripts ih =>
      intro as h
      cases as with
      | nil => cases h
      | cons a as =>
          obtain ⟨hhead, htail⟩ := List.cons.inj h
          rw [ended_eq_some hhead, ih htail, List.map_cons]

/-- Where a script is after it has made some calls. -/
inductive Reaches : Script C E α → List C → Script C E α → Prop where
  | start (script : Script C E α) : Reaches script [] script
  | made {c : C} {onError : E → α} {rest now : Script C E α} {made : List C}
      (h : Reaches rest made now) : Reaches (.call c onError rest) (c :: made) now
  | failed {c : C} {onError : E → α} {rest : Script C E α} (e : E) :
      Reaches (.call c onError rest) [] (.done (onError e))

/-- One more call. -/
theorem Reaches.turn {c : C} {onError : E → α} {rest : Script C E α}
    (h : Reaches script made (.call c onError rest)) : Reaches script (made ++ [c]) rest := by
  generalize hnow : Script.call c onError rest = now at h
  induction h with
  | start script =>
      subst hnow
      exact .made (.start rest)
  | made h ih => exact .made (ih hnow)
  | failed e => cases hnow

/-- One more call, which fails. -/
theorem Reaches.fail {c : C} {onError : E → α} {rest : Script C E α}
    (h : Reaches script made (.call c onError rest)) (e : E) :
    Reaches script made (.done (onError e)) := by
  generalize hnow : Script.call c onError rest = now at h
  induction h with
  | start script =>
      subst hnow
      exact .failed e
  | made h ih => exact .made (ih hnow)
  | failed e' => cases hnow

/-- The calls made are the first ones of the script, and what is left are the others, unless one
has failed. -/
theorem Reaches.calls_eq (h : Reaches script made now) :
    script.calls = made ++ now.calls ∨ now.calls = [] ∧ made <+: script.calls := by
  induction h with
  | start script => exact Or.inl rfl
  | @made c onError rest now made h ih =>
      rcases ih with heq | ⟨hnil, hpre⟩
      · exact Or.inl (congrArg (c :: ·) heq)
      · exact Or.inr ⟨hnil, List.cons_prefix_cons.mpr ⟨rfl, hpre⟩⟩
  | failed e => exact Or.inr ⟨rfl, List.nil_prefix⟩

theorem Reaches.prefix (h : Reaches script made now) : made <+: script.calls := by
  rcases h.calls_eq with heq | ⟨_, hpre⟩
  · rw [heq]
    exact List.prefix_append made now.calls
  · exact hpre

end Script

/-! ### Calls on a store -/

section

variable {perform : S → C → Except E S}

/-- The first of several calls on a store. -/
theorem foldlM_cons_eq_ok {store store' : S} {c : C} {cs : List C}
    (h : (c :: cs).foldlM perform store = .ok store') :
    ∃ store₁, perform store c = .ok store₁ ∧ cs.foldlM perform store₁ = .ok store' := by
  rw [List.foldlM_cons] at h
  cases hc : perform store c with
  | error e =>
      rw [hc] at h
      cases h
  | ok store₁ =>
      rw [hc] at h
      exact ⟨store₁, rfl, h⟩

theorem foldlM_append_eq_ok {store store' : S} {cs cs' : List C}
    (h : (cs ++ cs').foldlM perform store = .ok store') :
    ∃ store₁, cs.foldlM perform store = .ok store₁ ∧ cs'.foldlM perform store₁ = .ok store' := by
  rw [List.foldlM_append] at h
  cases hcs : cs.foldlM perform store with
  | error e =>
      rw [hcs] at h
      cases h
  | ok store₁ =>
      rw [hcs] at h
      exact ⟨store₁, rfl, h⟩

/-- One more call on a store. -/
theorem foldlM_concat {store store₁ store₂ : S} {cs : List C} {c : C}
    (h : cs.foldlM perform store = .ok store₁) (hc : perform store₁ c = .ok store₂) :
    (cs ++ [c]).foldlM perform store = .ok store₂ := by
  rw [List.foldlM_append, h]
  simp [Bind.bind, Except.bind, hc, Pure.pure, Except.pure]

end

/-! ### Pools -/

/-- A store, what the tasks were started from, what is left of each, and the calls that were
made. -/
structure Pool (S C E α X : Type*) where
  store : S
  started : List X
  tasks : List (Script C E α)
  log : List (ℕ × C)

/-- A task is started, or the task of a number makes its next call. -/
inductive PoolAction (X : Type*) where
  | start : X → PoolAction X
  | turn : ℕ → PoolAction X

namespace Pool

/-- A pool without tasks. -/
def init (store : S) : Pool S C E α X := ⟨store, [], [], []⟩

/-- The next call of task `i`. -/
def turn (perform : S → C → Except E S) (s : Pool S C E α X) (i : ℕ) : Option (Pool S C E α X) :=
  match s.tasks[i]? with
  | some (.call c onError rest) =>
      match perform s.store c with
      | .ok store =>
          some { s with
            store := store
            tasks := s.tasks.set i rest
            log := s.log ++ [(i, c)] }
      | .error e => some { s with tasks := s.tasks.set i (.done (onError e)) }
  | _ => none

/-- The state after an action. -/
def step (script : X → Script C E α) (perform : S → C → Except E S) (s : Pool S C E α X) :
    PoolAction X → Option (Pool S C E α X)
  | .start x => some { s with started := s.started ++ [x], tasks := s.tasks ++ [script x] }
  | .turn i => s.turn perform i

/-- The steps by their kind. -/
inductive Kind (script : X → Script C E α) (perform : S → C → Except E S)
    (s : Pool S C E α X) : PoolAction X → Pool S C E α X → Prop where
  | started (x : X) : Kind script perform s (.start x)
      { s with started := s.started ++ [x], tasks := s.tasks ++ [script x] }
  | called {i : ℕ} {c : C} {onError : E → α} {rest : Script C E α} {store : S}
      (htask : s.tasks[i]? = some (.call c onError rest)) (hok : perform s.store c = .ok store) :
      Kind script perform s (.turn i)
        { s with store := store, tasks := s.tasks.set i rest, log := s.log ++ [(i, c)] }
  | failed {i : ℕ} {c : C} {onError : E → α} {rest : Script C E α} {e : E}
      (htask : s.tasks[i]? = some (.call c onError rest))
      (herror : perform s.store c = .error e) :
      Kind script perform s (.turn i) { s with tasks := s.tasks.set i (.done (onError e)) }

section

variable {script : X → Script C E α} {perform : S → C → Except E S} {s s' : Pool S C E α X}
  {a : PoolAction X}

theorem step_cases (h : step script perform s a = some s') : Kind script perform s a s' := by
  cases a with
  | start x =>
      cases h
      exact .started x
  | turn i =>
      simp only [step, turn] at h
      split at h
      · rename_i c onError rest htask
        split at h
        · cases h
          exact .called htask ‹_›
        · cases h
          exact .failed htask ‹_›
      · cases h

/-! ### What the log tells -/

/-- The store is what the calls of the log make of the store at the start, and the calls of each
task are those that its script has made. -/
structure Faithful (script : X → Script C E α) (perform : S → C → Except E S) (store : S)
    (s : Pool S C E α X) : Prop where
  replayed : (s.log.map Prod.snd).foldlM perform store = .ok s.store
  sizes : s.tasks.length = s.started.length
  numbered : ∀ e ∈ s.log, e.1 < s.started.length
  reached : ∀ i x, s.started[i]? = some x →
    ∃ now, s.tasks[i]? = some now ∧ (script x).Reaches (project s.log i) now

theorem Faithful.init (store : S) :
    Faithful script perform store (init store : Pool S C E α X) where
  replayed := rfl
  sizes := rfl
  numbered _ he := nomatch he
  reached _ _ hx := nomatch hx

/-- The call of a script in the log. -/
theorem Faithful.mem_calls {store : S} (h : Faithful script perform store s) {i : ℕ} {c : C}
    (hmem : (i, c) ∈ s.log) : ∃ x, s.started[i]? = some x ∧ c ∈ (script x).calls := by
  have hlt := h.numbered _ hmem
  obtain ⟨now, _, hreach⟩ := h.reached i s.started[i] (List.getElem?_eq_getElem hlt)
  exact ⟨_, List.getElem?_eq_getElem hlt, hreach.prefix.subset (mem_project.mpr hmem)⟩

/-- The tasks that do not move are where they were. -/
theorem getElem?_set_ne {tasks : List (Script C E α)} {i j : ℕ} (now : Script C E α)
    (h : j ≠ i) : (tasks.set i now)[j]? = tasks[j]? := List.getElem?_set_ne (Ne.symm h)

theorem getElem?_set_self {tasks : List (Script C E α)} {i : ℕ} {was : Script C E α}
    (now : Script C E α) (h : tasks[i]? = some was) : (tasks.set i now)[i]? = some now :=
  List.getElem?_set_self (List.getElem?_eq_some_iff.mp h).1

/-- The elements of a list with one more at its end. -/
theorem getElem?_concat_cases {l : List X} {i : ℕ} {x y : X} (h : (l ++ [y])[i]? = some x) :
    i < l.length ∧ l[i]? = some x ∨ i = l.length ∧ x = y := by
  have hlt := (List.getElem?_eq_some_iff.mp h).1
  rw [List.length_append, List.length_singleton] at hlt
  rcases Nat.lt_or_ge i l.length with hold | hnew
  · rw [List.getElem?_append_left hold] at h
    exact Or.inl ⟨hold, h⟩
  · obtain rfl : i = l.length := by omega
    rw [List.getElem?_concat_length] at h
    exact Or.inr ⟨rfl, (Option.some.inj h).symm⟩

/-- A task that is not started has no calls in the log. -/
theorem Faithful.project_fresh {store : S} (h : Faithful script perform store s) {i : ℕ}
    (hi : s.started.length ≤ i) : project s.log i = [] := by
  refine List.eq_nil_iff_forall_not_mem.mpr fun c hc => ?_
  exact absurd (h.numbered _ (mem_project.mp hc)) (Nat.not_lt.mpr hi)

theorem faithful_step {store : S} (h : Faithful script perform store s)
    (hstep : step script perform s a = some s') : Faithful script perform store s' := by
  cases step_cases hstep with
  | started x =>
      refine ⟨h.replayed, by simp [h.sizes], fun e he => ?_, fun i y hy => ?_⟩
      · rw [List.length_append]
        exact Nat.lt_add_right _ (h.numbered e he)
      · rcases getElem?_concat_cases hy with ⟨hlt, hy⟩ | ⟨rfl, rfl⟩
        · obtain ⟨now, hnow, hreach⟩ := h.reached i y hy
          exact ⟨now, by rw [List.getElem?_append_left (h.sizes ▸ hlt), hnow], hreach⟩
        · refine ⟨script y, by rw [← h.sizes, List.getElem?_concat_length], ?_⟩
          rw [h.project_fresh le_rfl]
          exact .start _
  | @called i c onError rest store' htask hok =>
      refine ⟨?_, by simp [h.sizes], fun e he => ?_, fun j y hy => ?_⟩
      · rw [List.map_append]
        exact foldlM_concat h.replayed hok
      · rcases List.mem_append.mp he with he | he
        · exact h.numbered e he
        · rw [List.mem_singleton.mp he, ← h.sizes]
          exact (List.getElem?_eq_some_iff.mp htask).1
      · obtain ⟨now, hnow, hreach⟩ := h.reached j y hy
        by_cases hj : j = i
        · subst hj
          obtain rfl := Option.some.inj (hnow.symm.trans htask)
          refine ⟨rest, getElem?_set_self rest htask, ?_⟩
          rw [project_append, project_cons_self]
          exact hreach.turn
        · refine ⟨now, (getElem?_set_ne rest hj).trans hnow, ?_⟩
          rw [project_append, project_cons_ne _ _ (Ne.symm hj)]
          exact (List.append_nil (project s.log j)).symm ▸ hreach
  | @failed i c onError rest e htask herror =>
      refine ⟨h.replayed, by simp [h.sizes], h.numbered, fun j y hy => ?_⟩
      obtain ⟨now, hnow, hreach⟩ := h.reached j y hy
      by_cases hj : j = i
      · subst hj
        obtain rfl := Option.some.inj (hnow.symm.trans htask)
        exact ⟨_, getElem?_set_self _ htask, hreach.fail e⟩
      · exact ⟨now, (getElem?_set_ne _ hj).trans hnow, hreach⟩

/-- **After every run.** -/
theorem faithful_run {store : S} {as : List (PoolAction X)}
    (hrun : runFrom (step script perform) (init store) as = some s) :
    Faithful script perform store s :=
  inStates_of_invariant (Faithful.init store) (fun _ _ _ h hstep => faithful_step h hstep)
    (fun _ h => h) as as (List.prefix_refl as) s hrun

/-- **Between two states of a run**: the calls that were made since, and what they did. -/
theorem log_run (as : List (PoolAction X)) :
    ∀ {s s' : Pool S C E α X}, runFrom (step script perform) s as = some s' →
      ∃ later, s'.log = s.log ++ later ∧
        (later.map Prod.snd).foldlM perform s.store = .ok s'.store := by
  induction as with
  | nil =>
      intro s s' h
      cases h
      exact ⟨[], (List.append_nil _).symm, rfl⟩
  | cons a as ih =>
      intro s s' h
      obtain ⟨t, hstep, hrun⟩ := Option.bind_eq_some_iff.mp h
      obtain ⟨later, hlog, hfold⟩ := ih hrun
      cases step_cases hstep with
      | started x => exact ⟨later, hlog, hfold⟩
      | @called i c onError rest store htask hok =>
          refine ⟨(i, c) :: later, by rw [hlog, List.append_assoc]; rfl, ?_⟩
          rw [List.map_cons, List.foldlM_cons, hok]
          exact hfold
      | failed htask herror => exact ⟨later, hlog, hfold⟩

/-- What was started stays started. -/
theorem started_step (hstep : step script perform s a = some s') : s.started <+: s'.started := by
  cases step_cases hstep with
  | started x => exact List.prefix_append _ _
  | called htask hok => exact List.prefix_refl _
  | failed htask herror => exact List.prefix_refl _

/-- Letting one task make all its calls is running it alone. -/
theorem turns_exec (now : Script C E α) :
    ∀ {s : Pool S C E α X} {i : ℕ}, s.tasks[i]? = some now →
      ∃ n s', runFrom (step script perform) s (List.replicate n (.turn i)) = some s' ∧
        s'.started = s.started ∧ s'.store = (now.exec perform s.store).2 ∧
        s'.tasks = s.tasks.set i (.done (now.exec perform s.store).1) := by
  induction now with
  | done a =>
      intro s i htask
      refine ⟨0, s, rfl, rfl, rfl, ?_⟩
      obtain ⟨hlt, hdone⟩ := List.getElem?_eq_some_iff.mp htask
      show s.tasks = s.tasks.set i (.done a)
      rw [← hdone, List.set_getElem_self hlt]
  | call c onError rest ih =>
      intro s i htask
      cases hc : perform s.store c with
      | error e =>
          refine ⟨1, { s with tasks := s.tasks.set i (.done (onError e)) }, ?_, rfl, ?_, ?_⟩
          · simp [runFrom, step, turn, htask, hc]
          · simp [Script.exec, hc]
          · simp [Script.exec, hc]
      | ok store =>
          have htask' : (s.tasks.set i rest)[i]? = some rest := getElem?_set_self rest htask
          obtain ⟨n, s', hrun, hstarted, hstore, htasks⟩ := ih (s := { s with
            store := store
            tasks := s.tasks.set i rest
            log := s.log ++ [(i, c)] }) htask'
          refine ⟨n + 1, s', ?_, hstarted, ?_, ?_⟩
          · rw [List.replicate_succ, runFrom, step, turn, htask]
            simp only [hc]
            exact hrun
          · rw [hstore, Script.exec, hc]
          · rw [htasks, List.set_set]
            simp only [Script.exec, hc]

/-! ### Tasks that do not notice each other -/

/-- A relation between where a task is, the store that it shares and the store that it would
find alone: it holds when the task starts, and what a call of the task does to the one store it
does to the other. -/
structure Simulates (script : X → Script C E α) (perform : S → C → Except E S) (store : S)
    (R : X → Script C E α → S → S → Prop) : Prop where
  start : ∀ x, R x (script x) store store
  called : ∀ {x c onError rest σ τ σ'}, R x (.call c onError rest) σ τ →
    perform σ c = .ok σ' → ∃ τ', perform τ c = .ok τ' ∧ R x rest σ' τ'
  failed : ∀ {x c onError rest σ τ e}, R x (.call c onError rest) σ τ →
    perform σ c = .error e → perform τ c = .error e ∧ R x (.done (onError e)) σ τ

/-- A call of another task that a task does not notice. -/
def Harmless (perform : S → C → Except E S) (R : X → Script C E α → S → S → Prop) (x : X)
    (c : C) : Prop :=
  ∀ now σ σ' τ, R x now σ τ → perform σ c = .ok σ' → R x now σ' τ

/-- No task that was started notices a call of another one. -/
def Undisturbed (script : X → Script C E α) (perform : S → C → Except E S)
    (R : X → Script C E α → S → S → Prop) (started : List X) : Prop :=
  ∀ (i j : ℕ) (x y : X), started[i]? = some x → started[j]? = some y → i ≠ j →
    ∀ c ∈ (script y).calls, Harmless perform R x c

theorem harmless_calls {R : X → Script C E α → S → S → Prop} {x : X} {now : Script C E α}
    {τ : S} (cs : List C) (hharmless : ∀ c ∈ cs, Harmless perform R x c) :
    ∀ {σ σ' : S}, R x now σ τ → cs.foldlM perform σ = .ok σ' → R x now σ' τ := by
  induction cs with
  | nil =>
      intro σ σ' h hfold
      cases hfold
      exact h
  | cons c cs ih =>
      intro σ σ' h hfold
      obtain ⟨σ₁, hc, hfold⟩ := foldlM_cons_eq_ok hfold
      exact ih (fun c' hc' => hharmless c' (List.mem_cons_of_mem c hc'))
        (hharmless c List.mem_cons_self now σ σ₁ τ h hc) hfold

/-- Where a task is, compared with where it would be alone. -/
def Simulated (script : X → Script C E α) (perform : S → C → Except E S) (store : S)
    (R : X → Script C E α → S → S → Prop) (s : Pool S C E α X) (i : ℕ) (x : X) : Prop :=
  ∃ now τ, s.tasks[i]? = some now ∧ R x now s.store τ ∧
    (project s.log i).foldlM perform store = .ok τ ∧
    (script x).exec perform store = now.exec perform τ

theorem simulated_step {store : S} {R : X → Script C E α → S → S → Prop}
    (hsim : Simulates script perform store R) (hfaithful : Faithful script perform store s)
    (hstep : step script perform s a = some s')
    (hothers : Undisturbed script perform R s'.started)
    (h : ∀ i x, s.started[i]? = some x → Simulated script perform store R s i x) :
    ∀ i x, s'.started[i]? = some x → Simulated script perform store R s' i x := by
  have hfaithful' := faithful_step hfaithful hstep
  intro i x hx
  cases step_cases hstep with
  | started y =>
      rcases getElem?_concat_cases hx with ⟨hlt, hold⟩ | ⟨rfl, rfl⟩
      · obtain ⟨now, τ, hnow, hrest⟩ := h i x hold
        exact ⟨now, τ, by rw [List.getElem?_append_left (hfaithful.sizes ▸ hlt), hnow], hrest⟩
      · -- the task that has just been started: it has not noticed the calls so far
        refine ⟨script x, store, by rw [← hfaithful.sizes, List.getElem?_concat_length], ?_,
          by rw [hfaithful.project_fresh le_rfl]; rfl, rfl⟩
        refine harmless_calls (s.log.map Prod.snd) ?_ (hsim.start x) hfaithful.replayed
        intro c hc
        obtain ⟨⟨j, c⟩, hmem, rfl⟩ := List.mem_map.mp hc
        obtain ⟨y, hy, hcalls⟩ := hfaithful'.mem_calls hmem
        exact hothers _ j x y hx hy (Nat.ne_of_gt (hfaithful.numbered _ hmem)) c hcalls
  | @called j c onError rest σ' htask hok =>
      obtain ⟨now, τ, hnow, hR, hown, hexec⟩ := h i x hx
      by_cases hi : i = j
      · subst hi
        obtain rfl := Option.some.inj (hnow.symm.trans htask)
        obtain ⟨τ', hτ', hR'⟩ := hsim.called hR hok
        refine ⟨rest, τ', getElem?_set_self rest htask, hR', ?_, ?_⟩
        · rw [project_append, project_cons_self]
          exact foldlM_concat hown hτ'
        · rw [hexec]
          simp only [Script.exec, hτ']
      · have hmem : (j, c) ∈ s.log ++ [(j, c)] := List.mem_append_right _ (List.mem_singleton_self _)
        obtain ⟨y, hy, hcalls⟩ := hfaithful'.mem_calls hmem
        refine ⟨now, τ, (getElem?_set_ne rest hi).trans hnow,
          hothers i j x y hx hy hi c hcalls now _ _ τ hR hok, ?_, hexec⟩
        rw [project_append, project_cons_ne _ _ (Ne.symm hi)]
        exact (List.append_nil (project s.log i)).symm ▸ hown
  | @failed j c onError rest e htask herror =>
      obtain ⟨now, τ, hnow, hR, hown, hexec⟩ := h i x hx
      by_cases hi : i = j
      · subst hi
        obtain rfl := Option.some.inj (hnow.symm.trans htask)
        obtain ⟨hτ, hR'⟩ := hsim.failed hR herror
        refine ⟨_, τ, getElem?_set_self _ htask, hR', hown, ?_⟩
        rw [hexec]
        simp only [Script.exec, hτ]
      · exact ⟨now, τ, (getElem?_set_ne _ hi).trans hnow, hR, hown, hexec⟩

/-- **Tasks that do not notice each other.**  When each task is related to what it would be
alone, and no task notices a call of another, then after every run each task is where it would
be alone after the calls it has made. -/
theorem simulated_run {store : S} {R : X → Script C E α → S → S → Prop}
    (hsim : Simulates script perform store R) (as : List (PoolAction X)) :
    ∀ s, runFrom (step script perform) (init store) as = some s →
      Undisturbed script perform R s.started →
      ∀ i x, s.started[i]? = some x → Simulated script perform store R s i x := by
  induction as using List.reverseRecOn with
  | nil =>
      intro s hrun _ i x hx
      cases hrun
      cases hx
  | append_singleton as a ih =>
      intro s hrun hothers
      obtain ⟨t, hrun, hstep⟩ := runFrom_concat.mp hrun
      have hpre := started_step hstep
      have hold : ∀ {i : ℕ} {x : X}, t.started[i]? = some x → s.started[i]? = some x := by
        intro i x hx
        obtain ⟨hlt, rfl⟩ := List.getElem?_eq_some_iff.mp hx
        exact List.prefix_iff_getElem?.mp hpre i hlt
      refine simulated_step hsim (faithful_run hrun) hstep hothers (ih t hrun ?_)
      exact fun i j x y hx hy => hothers i j x y (hold hx) (hold hy)

end

end Pool

end Pcopy.Lib
