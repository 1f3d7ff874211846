import Mathlib.Order.Nat

/-!
# Walking a directory tree by name, and staying on a base directory

A location of a tree is the list of names from the root.  A walk follows moves, one name
down or one level up (up from the root stays there).  For a fixed base location, `Track`
counts only how far above or below the base a walk is: going down from above the base it
asks for exactly the name of the base that comes next.

* `track_isSome_iff` — the counter survives a walk iff every place the walk passes through
  is an ancestor of the base, the base, or below it;
* `inside_iff` — and the walk has then ended at or below the base iff the counter says so.

The counter never looks at locations, so it decides containment from the moves alone.
-/

namespace Pcopy.Lib

variable {α : Type*}

/-- One step of a lexical walk. -/
inductive Move (α : Type*) where
  | up : Move α
  | down : α → Move α
  deriving DecidableEq

/-- The location after one move. -/
def Move.apply (loc : List α) : Move α → List α
  | .up => loc.dropLast
  | .down a => loc ++ [a]

/-- The location after a walk. -/
def walk (loc : List α) (moves : List (Move α)) : List α := moves.foldl Move.apply loc

@[simp] theorem walk_nil (loc : List α) : walk loc [] = loc := rfl

@[simp] theorem walk_cons (loc : List α) (m : Move α) (ms : List (Move α)) :
    walk loc (m :: ms) = walk (m.apply loc) ms := rfl

theorem walk_append (loc : List α) (ms ns : List (Move α)) :
    walk loc (ms ++ ns) = walk (walk loc ms) ns := by
  rw [walk, walk, walk, List.foldl_append]

/-- Going down along names only appends them. -/
theorem walk_downs (loc names : List α) : walk loc (names.map Move.down) = loc ++ names := by
  induction names generalizing loc with
  | nil => simp
  | cons a names ih => rw [List.map_cons, walk_cons, ih, Move.apply, List.append_assoc]; rfl

/-- How far a walk is from the base: `above k` is `k` levels up (the base itself for
`k = 0`), `below d` is `d + 1` levels down. -/
inductive Track where
  | above : ℕ → Track
  | below : ℕ → Track
  deriving DecidableEq, Repr

namespace Track

variable [DecidableEq α]

/-- The counter after one move; it is lost when a move from above the base goes down to
another name than the base's next one. -/
def step (base : List α) : Track → Move α → Option Track
  | above k, .up => some (above (min (k + 1) base.length))
  | above 0, .down _ => some (below 0)
  | above (k + 1), .down a =>
      if base[base.length - (k + 1)]? = some a then some (above k) else none
  | below 0, .up => some (above 0)
  | below (d + 1), .up => some (below d)
  | below d, .down _ => some (below (d + 1))

/-- The counter after a walk. -/
def track (base : List α) : Track → List (Move α) → Option Track
  | t, [] => some t
  | t, m :: ms => (t.step base m).bind fun t' => track base t' ms

/-- The counter says: at or below the base. -/
def isInside : Track → Bool
  | above k => k == 0
  | below _ => true

/-- The location a counter value stands for. -/
def At (base loc : List α) : Track → Prop
  | above k => k ≤ base.length ∧ loc = base.take (base.length - k)
  | below d => ∃ names : List α, names.length = d + 1 ∧ loc = base ++ names

/-- On the way to the base, at it, or below it. -/
def OnBase (base loc : List α) : Prop := loc <+: base ∨ base <+: loc

omit [DecidableEq α] in
theorem At.onBase {base loc : List α} {t : Track} (h : t.At base loc) : OnBase base loc := by
  cases t with
  | above k => exact Or.inl (h.2 ▸ List.take_prefix _ _)
  | below d =>
      obtain ⟨names, _, rfl⟩ := h
      exact Or.inr (List.prefix_append base names)

omit [DecidableEq α] in
theorem At.isInside_iff {base loc : List α} {t : Track} (h : t.At base loc) :
    t.isInside = true ↔ base <+: loc := by
  cases t with
  | above k =>
      obtain ⟨hk, rfl⟩ := h
      simp only [isInside, beq_iff_eq]
      constructor
      · rintro rfl
        simp
      · intro hpre
        have hle := hpre.length_le
        rw [List.length_take] at hle
        omega
  | below d =>
      obtain ⟨names, _, rfl⟩ := h
      simp [isInside]

/-- Following the counter follows the location. -/
theorem At.step {base loc : List α} {t t' : Track} {m : Move α} (h : t.At base loc)
    (hs : t.step base m = some t') : t'.At base (m.apply loc) := by
  cases t with
  | above k =>
      obtain ⟨hk, rfl⟩ := h
      cases m with
      | up =>
          obtain rfl : above (min (k + 1) base.length) = t' := by simpa [Track.step] using hs
          refine ⟨by omega, ?_⟩
          rw [Move.apply, List.dropLast_eq_take, List.take_take, List.length_take]
          congr 1
          omega
      | down a =>
          cases k with
          | zero =>
              obtain rfl : below 0 = t' := by simpa [Track.step] using hs
              exact ⟨[a], rfl, by simp [Move.apply]⟩
          | succ k =>
              simp only [Track.step] at hs
              split at hs
              · rename_i ha
                obtain rfl : above k = t' := by simpa using hs
                refine ⟨by omega, ?_⟩
                have hsucc : base.length - k = base.length - (k + 1) + 1 := by omega
                rw [Move.apply, hsucc, List.take_add_one, ha]
                rfl
              · cases hs
  | below d =>
      obtain ⟨names, hlen, rfl⟩ := h
      have hne : names ≠ [] := by
        intro h0
        simp [h0] at hlen
      cases m with
      | up =>
          have hdrop : Move.apply (base ++ names) .up = base ++ names.dropLast := by
            rw [Move.apply, List.dropLast_append_of_ne_nil hne]
          cases d with
          | zero =>
              obtain rfl : above 0 = t' := by simpa [Track.step] using hs
              have hnil : names.dropLast = [] := by
                rw [← List.length_eq_zero_iff, List.length_dropLast, hlen]
              exact ⟨Nat.zero_le _, by rw [hdrop, hnil]; simp⟩
          | succ d =>
              obtain rfl : below d = t' := by simpa [Track.step] using hs
              exact ⟨names.dropLast, by rw [List.length_dropLast, hlen]; rfl, hdrop⟩
      | down a =>
          obtain rfl : below (d + 1) = t' := by simpa [Track.step] using hs
          exact ⟨names ++ [a], by simp [hlen], by simp [Move.apply]⟩

/-- Where the counter is lost, the walk has left the base sideways. -/
theorem At.step_none {base loc : List α} {t : Track} {m : Move α} (h : t.At base loc)
    (hs : t.step base m = none) : ¬ OnBase base (m.apply loc) := by
  cases t with
  | above k =>
      obtain ⟨hk, rfl⟩ := h
      cases m with
      | up => simp [Track.step] at hs
      | down a =>
          cases k with
          | zero => simp [Track.step] at hs
          | succ k =>
              simp only [Track.step] at hs
              split at hs
              · cases hs
              · rename_i ha
                have hlt : base.length - (k + 1) < base.length := by omega
                have hget : (base.take (base.length - (k + 1)) ++ [a])[base.length - (k + 1)]?
                    = some a := by
                  rw [List.getElem?_append_right (by rw [List.length_take]; omega),
                    List.length_take, Nat.min_eq_left (by omega)]
                  simp
                have hpos : base.length - (k + 1)
                    < (base.take (base.length - (k + 1)) ++ [a]).length := by
                  rw [List.length_append, List.length_take]
                  simp only [List.length_singleton]
                  omega
                rintro (⟨rest, hrest⟩ | ⟨rest, hrest⟩)
                · have hat := congrArg (·[base.length - (k + 1)]?) hrest
                  simp only [Move.apply] at hat
                  rw [List.getElem?_append_left hpos, hget] at hat
                  exact ha hat.symm
                · have hat := congrArg (·[base.length - (k + 1)]?) hrest
                  simp only [Move.apply] at hat
                  rw [List.getElem?_append_left hlt, hget] at hat
                  exact ha hat
  | below d => cases m <;> cases d <;> simp [Track.step] at hs

/-- **The counter survives exactly the walks that stay on the base**: every place passed
through is an ancestor of the base, the base, or below it. -/
theorem track_isSome_iff {base : List α} (ms : List (Move α)) :
    ∀ {loc : List α} {t : Track}, t.At base loc →
      ((track base t ms).isSome ↔ ∀ pre, pre <+: ms → OnBase base (walk loc pre)) := by
  induction ms with
  | nil =>
      intro loc t h
      simp only [track, Option.isSome_some, true_iff]
      intro pre hpre
      rw [List.prefix_nil.mp hpre]
      exact h.onBase
  | cons m ms ih =>
      intro loc t h
      cases hs : t.step base m with
      | none =>
          simp only [track, hs, Option.bind_none, Option.isSome_none, Bool.false_eq_true, false_iff]
          intro hall
          exact h.step_none hs (hall [m] (by simp))
      | some t' =>
          simp only [track, hs, Option.bind_some]
          rw [ih (h.step hs)]
          constructor
          · intro hall pre hpre
            cases pre with
            | nil => exact h.onBase
            | cons m' pre =>
                obtain ⟨rfl, htail⟩ := List.cons_prefix_cons.mp hpre
                exact hall pre htail
          · intro hall pre hpre
            exact hall (m :: pre) (List.cons_prefix_cons.mpr ⟨rfl, hpre⟩)

theorem track_append (base : List α) (ms ns : List (Move α)) :
    ∀ t : Track, track base t (ms ++ ns) = (track base t ms).bind fun t' => track base t' ns := by
  induction ms with
  | nil => intro t; rfl
  | cons m ms ih =>
      intro t
      simp only [List.cons_append, track]
      cases t.step base m with
      | none => rfl
      | some t' => exact ih t'

/-- Going down along the names of the base from `k` levels above it. -/
theorem track_downs (base : List α) (k : ℕ) :
    k ≤ base.length →
      track base (above k) ((base.drop (base.length - k)).map Move.down) = some (above 0) := by
  induction k with
  | zero => intro _; simp [track]
  | succ k ih =>
      intro hk
      have hlt : base.length - (k + 1) < base.length := by omega
      have hnext : base.length - (k + 1) + 1 = base.length - k := by omega
      rw [List.drop_eq_getElem_cons hlt, hnext, List.map_cons, track]
      simp only [step, List.getElem?_eq_getElem hlt, if_true, Option.bind_some]
      exact ih (by omega)

/-- Going down along the whole base from the root reaches it. -/
theorem track_base (base : List α) :
    track base (above base.length) (base.map Move.down) = some (above 0) := by
  simpa using track_downs base base.length le_rfl

/-- A walk whose counter survives ends where the counter says. -/
theorem At.track {base : List α} (ms : List (Move α)) :
    ∀ {loc : List α} {t t' : Track}, t.At base loc → Track.track base t ms = some t' →
      t'.At base (walk loc ms) := by
  induction ms with
  | nil =>
      intro loc t t' h ht
      cases ht
      exact h
  | cons m ms ih =>
      intro loc t t' h ht
      cases hs : t.step base m with
      | none => simp [Track.track, hs] at ht
      | some t₁ => exact ih (h.step hs) (by simpa [Track.track, hs] using ht)

/-- **Containment from the moves alone.**  A walk from the root stays on the base and ends
at or below it exactly when the counter, started at the root, survives and says so. -/
theorem inside_iff (base : List α) (ms : List (Move α)) :
    ((∀ pre, pre <+: ms → OnBase base (walk [] pre)) ∧ base <+: walk [] ms) ↔
      ∃ t, track base (above base.length) ms = some t ∧ t.isInside = true := by
  have h0 : (above base.length).At base [] := ⟨le_rfl, by simp⟩
  constructor
  · rintro ⟨hall, hin⟩
    obtain ⟨t, ht⟩ := Option.isSome_iff_exists.mp ((track_isSome_iff ms h0).mpr hall)
    exact ⟨t, ht, (h0.track ms ht).isInside_iff.mpr hin⟩
  · rintro ⟨t, ht, hin⟩
    exact ⟨(track_isSome_iff ms h0).mp (by rw [ht]; rfl), (h0.track ms ht).isInside_iff.mp hin⟩

end Track

end Pcopy.Lib
