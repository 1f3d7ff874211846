import Mathlib.Order.Nat

/-!
# Stateful computations that return, fail or panic

A computation over a state `σ` ends in a value, in an error value that its caller can
inspect, or in a panic that unwinds the whole task.  Loops are written over a fuel count,
so a fourth end says that the fuel did not suffice; a function of a program is adequate
only together with a proof that it never ends that way.

The state survives every end: what a computation has done to it before it failed stays
done.  This is what separates the monad from `StateT σ (Except ε)`.

* `Exec.bind_ok`, `Exec.bind_fault` — forward rules, to run a block step by step;
* `Exec.bind_eq_ok`, `Exec.bind_cases` — inversion rules, to take a finished run apart;
* `Exec.Ensures` — a postcondition for every end, with its rule for sequencing;
* `Exec.Moves` — a relation between the states before and after, whatever the end;
* `Exec.Lockstep` — two computations that end alike and keep a relation between their states.
-/

namespace Pcopy.Lib

/-- The ways in which a computation ends without a value. -/
inductive Fault (ε : Type) where
  | err : ε → Fault ε
  | panic : String → Fault ε
  | outOfFuel : Fault ε
  deriving DecidableEq, Repr

instance instDecidableEqExcept {ε α : Type} [DecidableEq ε] [DecidableEq α] :
    DecidableEq (Except ε α)
  | .error e, .error e' => decidable_of_iff (e = e') (by simp)
  | .ok a, .ok a' => decidable_of_iff (a = a') (by simp)
  | .error _, .ok _ => .isFalse (by simp)
  | .ok _, .error _ => .isFalse (by simp)

/-- A computation: from a state to an end and the state it leaves. -/
def Exec (ε σ α : Type) : Type := σ → Except (Fault ε) α × σ

namespace Exec

variable {ε σ α β : Type}

/-- Sequencing: the continuation runs from the state the first part leaves. -/
def bind (x : Exec ε σ α) (f : α → Exec ε σ β) : Exec ε σ β := fun s =>
  match x s with
  | (.ok a, s₁) => f a s₁
  | (.error φ, s₁) => (.error φ, s₁)

instance : Monad (Exec ε σ) where
  pure a := fun s => (.ok a, s)
  bind := bind

/-- End with an error value. -/
def fail (e : ε) : Exec ε σ α := fun s => (.error (.err e), s)

/-- Unwind the task. -/
def unwind (msg : String) : Exec ε σ α := fun s => (.error (.panic msg), s)

/-- The loop was given too little fuel. -/
def outOfFuel : Exec ε σ α := fun s => (.error .outOfFuel, s)

/-- End in the given way. -/
def ofResult (o : Except (Fault ε) α) : Exec ε σ α := fun s => (o, s)

/-- Read the state. -/
def get : Exec ε σ σ := fun s => (.ok s, s)

/-- Change the state. -/
def modify (g : σ → σ) : Exec ε σ Unit := fun s => (.ok (), g s)

/-- Hand an error value to the caller as a result; a panic goes on unwinding. -/
def attempt (x : Exec ε σ α) : Exec ε σ (Except ε α) := fun s =>
  match x s with
  | (.ok a, s₁) => (.ok (.ok a), s₁)
  | (.error (.err e), s₁) => (.ok (.error e), s₁)
  | (.error (.panic msg), s₁) => (.error (.panic msg), s₁)
  | (.error .outOfFuel, s₁) => (.error .outOfFuel, s₁)

/-- Run a computation on the second part of a state. -/
def onSecond {τ : Type} (x : Exec ε σ α) : Exec ε (τ × σ) α := fun s =>
  ((x s.2).1, (s.1, (x s.2).2))

/-- Run a computation with a local part of the state, which is dropped at its end. -/
def withLocal {τ : Type} (t : τ) (x : Exec ε (τ × σ) α) : Exec ε σ α := fun s =>
  ((x (t, s)).1, (x (t, s)).2.2)

/-! ### Running a block forwards -/

@[simp] theorem pure_run (a : α) (s : σ) : (pure a : Exec ε σ α) s = (.ok a, s) := rfl

@[simp] theorem fail_run (e : ε) (s : σ) :
    (fail e : Exec ε σ α) s = (.error (.err e), s) := rfl

@[simp] theorem unwind_run (msg : String) (s : σ) :
    (unwind msg : Exec ε σ α) s = (.error (.panic msg), s) := rfl

@[simp] theorem get_run (s : σ) : (get : Exec ε σ σ) s = (.ok s, s) := rfl

@[simp] theorem modify_run (g : σ → σ) (s : σ) :
    (modify g : Exec ε σ Unit) s = (.ok (), g s) := rfl

theorem bind_ok {x : Exec ε σ α} {f : α → Exec ε σ β} {s s₁ : σ} {a : α}
    (h : x s = (.ok a, s₁)) : (x >>= f) s = f a s₁ := by
  show bind x f s = f a s₁
  simp only [bind, h]

theorem bind_fault {x : Exec ε σ α} {f : α → Exec ε σ β} {s s₁ : σ} {φ : Fault ε}
    (h : x s = (.error φ, s₁)) : (x >>= f) s = (.error φ, s₁) := by
  show bind x f s = (.error φ, s₁)
  simp only [bind, h]

theorem onSecond_run {τ : Type} {x : Exec ε σ α} {s s₁ : σ} {o : Except (Fault ε) α} (t : τ)
    (h : x s = (o, s₁)) : onSecond x (t, s) = (o, (t, s₁)) := by
  simp only [onSecond, h]

theorem withLocal_run {τ : Type} {t t₁ : τ} {x : Exec ε (τ × σ) α} {s s₁ : σ}
    {o : Except (Fault ε) α} (h : x (t, s) = (o, (t₁, s₁))) : withLocal t x s = (o, s₁) := by
  simp only [withLocal, h]

theorem attempt_ok {x : Exec ε σ α} {s s₁ : σ} {a : α} (h : x s = (.ok a, s₁)) :
    attempt x s = (.ok (.ok a), s₁) := by simp only [attempt, h]

theorem attempt_err {x : Exec ε σ α} {s s₁ : σ} {e : ε} (h : x s = (.error (.err e), s₁)) :
    attempt x s = (.ok (.error e), s₁) := by simp only [attempt, h]

theorem attempt_panic {x : Exec ε σ α} {s s₁ : σ} {msg : String}
    (h : x s = (.error (.panic msg), s₁)) :
    attempt x s = (.error (.panic msg), s₁) := by simp only [attempt, h]

theorem attempt_outOfFuel {x : Exec ε σ α} {s s₁ : σ} (h : x s = (.error .outOfFuel, s₁)) :
    attempt x s = (.error .outOfFuel, s₁) := by simp only [attempt, h]

@[simp] theorem ofResult_ok_bind (a : α) (f : α → Exec ε σ β) :
    (ofResult (.ok a) >>= f) = f a := rfl

@[simp] theorem ofResult_error_bind (φ : Fault ε) (f : α → Exec ε σ β) (s : σ) :
    (ofResult (.error φ) >>= f) s = (.error φ, s) := rfl

@[simp] theorem get_bind (f : σ → Exec ε σ β) (s : σ) : (get >>= f) s = f s s := rfl

@[simp] theorem pure_bind (a : α) (f : α → Exec ε σ β) : (pure a >>= f) = f a := rfl

@[simp] theorem modify_bind (g : σ → σ) (f : Unit → Exec ε σ β) (s : σ) :
    (modify g >>= f) s = f () (g s) := rfl

/-- A run is its end and the state it leaves. -/
theorem run_eq {x : Exec ε σ α} {s : σ} {o : Except (Fault ε) α} (h : (x s).1 = o) :
    x s = (o, (x s).2) := by rw [← h]

/-! ### Taking a finished run apart -/

/-- **Inversion.**  A block that ended has run its first part, which either failed and
ended the block or handed its value on. -/
theorem bind_cases {x : Exec ε σ α} {f : α → Exec ε σ β} {s s' : σ}
    {o : Except (Fault ε) β} (h : (x >>= f) s = (o, s')) :
    (∃ a s₁, x s = (.ok a, s₁) ∧ f a s₁ = (o, s')) ∨
      ∃ φ, x s = (.error φ, s') ∧ o = .error φ := by
  rcases hx : x s with ⟨_ | _, s₁⟩
  · rename_i φ
    rw [bind_fault hx, Prod.mk.injEq] at h
    exact Or.inr ⟨φ, by rw [h.2], h.1.symm⟩
  · rename_i a
    rw [bind_ok hx] at h
    exact Or.inl ⟨a, s₁, rfl, h⟩

theorem bind_eq_ok {x : Exec ε σ α} {f : α → Exec ε σ β} {s s' : σ} {b : β} :
    (x >>= f) s = (.ok b, s') ↔ ∃ a s₁, x s = (.ok a, s₁) ∧ f a s₁ = (.ok b, s') := by
  constructor
  · intro h
    rcases bind_cases h with h | ⟨φ, _, ho⟩
    · exact h
    · cases ho
  · rintro ⟨a, s₁, hx, hf⟩
    rw [bind_ok hx, hf]

theorem bind_assoc {γ : Type} (x : Exec ε σ α) (f : α → Exec ε σ β) (g : β → Exec ε σ γ) :
    x >>= f >>= g = x >>= fun a => f a >>= g := by
  funext s
  rcases hx : x s with ⟨φ | a, s₁⟩
  · rw [bind_fault hx, bind_fault (bind_fault hx)]
  · rw [bind_ok hx]
    show bind (bind x f) g s = bind (f a) g s₁
    have hfirst : bind x f s = f a s₁ := bind_ok hx
    rw [bind, hfirst]
    rfl

/-- Two continuations that agree where the first part ends in a value. -/
theorem bind_congr {x : Exec ε σ α} {f g : α → Exec ε σ β} {s : σ}
    (h : ∀ a s₁, x s = (.ok a, s₁) → f a s₁ = g a s₁) : (x >>= f) s = (x >>= g) s := by
  rcases hx : x s with ⟨φ | a, s₁⟩
  · rw [bind_fault hx, bind_fault hx]
  · rw [bind_ok hx, bind_ok hx]
    exact h a s₁ hx

theorem attempt_eq_ok {x : Exec ε σ α} {s s₁ : σ} {a : α}
    (h : attempt x s = (.ok (.ok a), s₁)) : x s = (.ok a, s₁) := by
  rcases hx : x s with ⟨(_ | _ | _) | a', s'⟩ <;> simp only [attempt, hx] at h <;> cases h
  rfl

/-! ### Postconditions -/

/-- `x` run from `s` ends so that `post` holds of its end and of the state it leaves. -/
def Ensures (x : Exec ε σ α) (s : σ) (post : Except (Fault ε) α → σ → Prop) : Prop :=
  post (x s).1 (x s).2

theorem Ensures.of_run {x : Exec ε σ α} {s s' : σ} {o : Except (Fault ε) α}
    {post : Except (Fault ε) α → σ → Prop} (h : Ensures x s post) (hx : x s = (o, s')) :
    post o s' := by
  simpa only [Ensures, hx] using h

theorem Ensures.mono {x : Exec ε σ α} {s : σ} {post post' : Except (Fault ε) α → σ → Prop}
    (h : Ensures x s post) (himp : ∀ o s', post o s' → post' o s') : Ensures x s post' :=
  himp _ _ h

/-- **Sequencing.**  If every failure of the first part meets the postcondition, and every
value of it is handed to a continuation that meets it, then so does the block. -/
theorem Ensures.bind {x : Exec ε σ α} {f : α → Exec ε σ β} {s : σ}
    {post : Except (Fault ε) β → σ → Prop}
    (h : Ensures x s fun o s₁ =>
      match o with
      | .ok a => Ensures (f a) s₁ post
      | .error φ => post (.error φ) s₁) : Ensures (x >>= f) s post := by
  rcases hx : x s with ⟨_ | _, s₁⟩
  · have hp := h.of_run hx
    simpa only [Ensures, bind_fault hx] using hp
  · have hp := h.of_run hx
    simpa only [Ensures, bind_ok hx] using hp

theorem Ensures.pure {a : α} {s : σ} {post : Except (Fault ε) α → σ → Prop}
    (h : post (.ok a) s) : Ensures (pure a : Exec ε σ α) s post := h

theorem Ensures.fail {e : ε} {s : σ} {post : Except (Fault ε) α → σ → Prop}
    (h : post (.error (.err e)) s) : Ensures (fail e : Exec ε σ α) s post := h

theorem Ensures.unwind {msg : String} {s : σ} {post : Except (Fault ε) α → σ → Prop}
    (h : post (.error (.panic msg)) s) : Ensures (unwind msg : Exec ε σ α) s post := h

/-- A first part whose run is known is done with. -/
theorem Ensures.step {x : Exec ε σ α} {f : α → Exec ε σ β} {s s₁ : σ} {a : α}
    {post : Except (Fault ε) β → σ → Prop} (hx : x s = (.ok a, s₁))
    (h : Ensures (f a) s₁ post) : Ensures (x >>= f) s post := by
  simpa only [Ensures, bind_ok hx] using h

/-! ### Ending without an error -/

/-- `x` never ends in an error value; it may panic. -/
def NoErr (x : Exec ε σ α) : Prop := ∀ s e, (x s).1 ≠ .error (.err e)

theorem NoErr.attempt (x : Exec ε σ α) : NoErr (attempt x) := by
  intro s e
  rcases hx : x s with ⟨(_ | _ | _) | _, s₁⟩
  · simp [attempt_err hx]
  · simp [attempt_panic hx]
  · simp [attempt_outOfFuel hx]
  · simp [attempt_ok hx]

theorem NoErr.bind {x : Exec ε σ α} {f : α → Exec ε σ β} (hx : NoErr x)
    (hf : ∀ a, NoErr (f a)) : NoErr (x >>= f) := by
  intro s e
  rcases hrun : x s with ⟨φ | a, s₁⟩
  · have hfirst := hx s e
    rw [hrun] at hfirst
    rw [bind_fault hrun]
    intro h
    exact hfirst (by rw [Except.error.inj h])
  · rw [bind_ok hrun]
    exact hf a s₁ e

/-! ### Moving the state along a relation -/

/-- However `x` ends, it moves the state along `R`. -/
def Moves (R : σ → σ → Prop) (x : Exec ε σ α) : Prop := ∀ s, R s (x s).2

theorem Moves.bind {R : σ → σ → Prop} (htrans : ∀ a b c, R a b → R b c → R a c)
    {x : Exec ε σ α} {f : α → Exec ε σ β} (hx : Moves R x) (hf : ∀ a, Moves R (f a)) :
    Moves R (x >>= f) := by
  intro s
  rcases hrun : x s with ⟨_ | a, s₁⟩
  · have hfirst := hx s
    rw [hrun] at hfirst
    rw [bind_fault hrun]
    exact hfirst
  · have hfirst := hx s
    rw [hrun] at hfirst
    rw [bind_ok hrun]
    exact htrans _ _ _ hfirst (hf a s₁)

theorem Moves.attempt {R : σ → σ → Prop} {x : Exec ε σ α} (hx : Moves R x) :
    Moves R (attempt x) := by
  intro s
  have hmoved := hx s
  rcases hrun : x s with ⟨(_ | _ | _) | _, s₁⟩ <;> rw [hrun] at hmoved
  · rwa [attempt_err hrun]
  · rwa [attempt_panic hrun]
  · rwa [attempt_outOfFuel hrun]
  · rwa [attempt_ok hrun]

theorem Moves.onSecond {τ : Type} {R : σ → σ → Prop} {x : Exec ε σ α} (hx : Moves R x) :
    Moves (fun s s' : τ × σ => R s.2 s'.2) (onSecond x) := fun s => hx s.2

theorem Moves.withLocal {τ : Type} {R : σ → σ → Prop} (t : τ) {x : Exec ε (τ × σ) α}
    (hx : Moves (fun s s' : τ × σ => R s.2 s'.2) x) : Moves R (withLocal t x) :=
  fun s => hx (t, s)

/-! ### Not looking at a part of the state -/

/-- From states related by `R`, `x` ends alike and leaves related states: it does not look
at what `R` leaves open. -/
def Alike (R : σ → σ → Prop) (x : Exec ε σ α) : Prop :=
  ∀ s t, R s t → (x s).1 = (x t).1 ∧ R (x s).2 (x t).2

theorem Alike.pure {R : σ → σ → Prop} (a : α) : Alike R (pure a : Exec ε σ α) :=
  fun _ _ h => ⟨rfl, h⟩

theorem Alike.fail {R : σ → σ → Prop} (e : ε) : Alike R (fail e : Exec ε σ α) :=
  fun _ _ h => ⟨rfl, h⟩

theorem Alike.unwind {R : σ → σ → Prop} (msg : String) :
    Alike R (unwind msg : Exec ε σ α) := fun _ _ h => ⟨rfl, h⟩

theorem Alike.bind {R : σ → σ → Prop} {x : Exec ε σ α} {f : α → Exec ε σ β}
    (hx : Alike R x) (hf : ∀ a, Alike R (f a)) : Alike R (x >>= f) := by
  intro s t h
  obtain ⟨hsame, hrel⟩ := hx s t h
  rcases hs : x s with ⟨_ | a, s₁⟩ <;> rcases ht : x t with ⟨_ | a', t₁⟩ <;>
    rw [hs, ht] at hsame hrel
  · rw [bind_fault hs, bind_fault ht]
    exact ⟨by rw [Except.error.inj hsame], hrel⟩
  · cases hsame
  · cases hsame
  · cases hsame
    rw [bind_ok hs, bind_ok ht]
    exact hf a s₁ t₁ hrel

/-- The run from the one state gives the run from the other. -/
theorem Alike.run {R : σ → σ → Prop} {x : Exec ε σ α} (hx : Alike R x) {s t s' : σ}
    {o : Except (Fault ε) α} (h : R s t) (hs : x s = (o, s')) :
    ∃ t', x t = (o, t') ∧ R s' t' := by
  obtain ⟨hsame, hrel⟩ := hx s t h
  rw [hs] at hsame hrel
  exact ⟨(x t).2, run_eq hsame.symm, hrel⟩

/-! ### Two computations in lockstep -/

/-- From states related by `R`, `x` and `y` end alike and leave related states. -/
def Lockstep (R : σ → σ → Prop) (x y : Exec ε σ α) : Prop :=
  ∀ s t, R s t → (x s).1 = (y t).1 ∧ R (x s).2 (y t).2

theorem Lockstep.bind {R : σ → σ → Prop} {x y : Exec ε σ α} {f g : α → Exec ε σ β}
    (hx : Lockstep R x y) (hf : ∀ a, Lockstep R (f a) (g a)) :
    Lockstep R (x >>= f) (y >>= g) := by
  intro s t h
  obtain ⟨hsame, hrel⟩ := hx s t h
  rcases hs : x s with ⟨φ | a, s₁⟩ <;> rcases ht : y t with ⟨φ' | a', t₁⟩ <;>
    rw [hs, ht] at hsame hrel
  · rw [bind_fault hs, bind_fault ht]
    exact ⟨by rw [Except.error.inj hsame], hrel⟩
  · cases hsame
  · cases hsame
  · cases hsame
    rw [bind_ok hs, bind_ok ht]
    exact hf a s₁ t₁ hrel

end Exec

end Pcopy.Lib
