import Pcopy.Relay.SilentPeer

/-!
# Who waits for whom

A task waits for another one at a mutex that the other holds, or, to register a peer, for the
entry of a shard that the other has looked up.  A holder of a mutex waits for no other task, and
a holder of an entry at most for a mutex, so the waits never form a circle: whatever keeps a task
from going on is in the end a peer that has nothing to say, or one that does not read what is
written to it.  The socket of such a peer takes no bytes once its buffers are full, so a step that
gives bytes to a socket does not count here as one that a task can make.

* `State.Enabled`, `State.AwaitsRoom` — steps that need no socket to take bytes, and those that do;
* `rank_of_waitsOn` — waits lead to tasks of a lower rank;
* `enabled_or_waits` — what a task that has not ended can be doing;
* `held_up_by_peers` — no deadlock, in every state of every run.
-/

namespace Pcopy.Relay

open Pcopy.Lib

namespace Pc

/-- The task has not ended. -/
def Live (pc : Pc) : Prop := ∀ how, pc ≠ .ended how

/-- How many tasks may be in the way, one behind the other. -/
def rank (t : TaskId) : Pc → ℕ
  | .register _ => 2
  | pc => if (pc.wants t).isSome then 1 else 0

variable {pc : Pc} {t : TaskId} {i : StreamId}

theorem rank_of_wants (h : pc.wants t = some i) : pc.rank t = 1 := by
  cases pc with
  | register id => cases h
  | _ => simp only [rank, h, Option.isSome_some, if_true]

theorem rank_of_holds (h : pc.holds t = some i) : pc.rank t = 0 := by
  cases hwants : pc.wants t with
  | some j => cases (holds_of_wants hwants).symm.trans h
  | none =>
      cases pc with
      | register id => cases h
      | _ => simp only [rank, hwants, Option.isSome_none, Bool.false_eq_true, if_false]

theorem rank_of_entry {id : PeerId} (h : pc.entry = some id) : pc.rank t ≤ 1 := by
  have hle : ∀ o : Option StreamId, (if o.isSome then 1 else 0) ≤ 1 := by
    intro o
    cases o with
    | none => exact Nat.zero_le 1
    | some i => exact le_rfl
  cases pc with
  | command inquiry id connMd phase => exact hle _
  | ack id connMd buffer phase => exact hle _
  | _ => cases h

theorem live_of_holds (h : pc.holds t = some i) : pc.Live := by
  rintro how rfl
  cases h

theorem live_of_entry {id : PeerId} (h : pc.entry = some id) : pc.Live := by
  rintro how rfl
  cases h

end Pc

namespace State

/-- Task `u` cannot go on before task `v` does. -/
def WaitsOn (cfg : Config) (s : State) (u v : TaskId) : Prop :=
  ∃ need, s.Needs cfg u need ∧ s.Has cfg v need

/-- Task `v` is where it gives bytes to the socket of peer `i`, and waits while that takes none: at
`flush`, or at `write_all` without place in the `BufWriter`. -/
def AwaitsRoom (s : State) (v : TaskId) (i : StreamId) : Prop :=
  (s.pc v).writes v .flush = some i ∨
    (s.pc v).writes v .write = some i ∧ ∃ frame, (s.pc v).frame (s.tasks v).address = some frame ∧
      (s.channels i).Overfull frame.toBeBytes

/-- Task `t` can make a step, whatever the sockets take. -/
def Enabled (cfg : Config) (s : State) (t : TaskId) : Prop :=
  (∀ i, ¬ s.AwaitsRoom t i) ∧ ∃ a s', a.task = some t ∧ step cfg s a = some s'

end State

section

variable {cfg : Config} {s : State} {t u v : TaskId} {i : StreamId}

/-- Waits lead to tasks of a lower rank. -/
theorem rank_of_waitsOn (hheld : Held s) (h : s.WaitsOn cfg u v) :
    (s.pc v).rank v < (s.pc u).rank u := by
  obtain ⟨need, hneeds, hhas⟩ := h
  cases need with
  | mutex i =>
      rw [Pc.rank_of_wants hneeds, Pc.rank_of_holds ((has_mutex_iff hheld).mp hhas)]
      exact Nat.zero_lt_one
  | shard n =>
      obtain ⟨id, hpc, -⟩ := hneeds
      obtain ⟨id', hentry, -⟩ := hhas
      rw [hpc]
      exact Nat.lt_succ_of_le (Pc.rank_of_entry hentry)

/-! ### What a task can be doing -/

theorem enabled_of_ne_none {a : Action} (ha : a.task = some t) (hroom : ∀ i, ¬ s.AwaitsRoom t i)
    (h : step cfg s a ≠ none) : s.Enabled cfg t := by
  obtain ⟨s', hs'⟩ := Option.ne_none_iff_exists'.mp h
  exact ⟨hroom, a, s', ha, hs'⟩

/-- Only a task at a write waits for a socket. -/
theorem not_awaitsRoom (hwrite : (s.pc t).writes t .write = none)
    (hflush : (s.pc t).writes t .flush = none) (i : StreamId) : ¬ s.AwaitsRoom t i := by
  rintro (h | ⟨h, -⟩)
  · cases hflush.symm.trans h
  · cases hwrite.symm.trans h

/-- A task at a mutex takes it, or waits for its holder. -/
theorem enabled_of_wants (hheld : Held s) (h : (s.pc t).wants t = some i) :
    s.Enabled cfg t ∨ ∃ v, s.WaitsOn cfg t v ∧ (s.pc v).Live := by
  cases hholder : (s.channels i).holder with
  | none =>
      have hroom : ∀ j, ¬ s.AwaitsRoom t j := by
        rcases Pc.wants_cases h with hpc | ⟨_, _, _, hpc⟩ | ⟨_, _, _, hpc⟩ | ⟨_, hpc⟩ <;>
          exact not_awaitsRoom (by rw [hpc]; rfl) (by rw [hpc]; rfl)
      refine Or.inl (enabled_of_ne_none (a := .lock t) rfl hroom ?_)
      simp [step, lockStep, h, hholder]
  | some v =>
      exact Or.inr ⟨v, ⟨.mutex i, h, hholder⟩, Pc.live_of_holds ((hheld v i).mpr hholder)⟩

/-- A task at a read gets bytes or the end of the stream, or waits for its peer. -/
theorem enabled_of_reads (h : (s.pc t).reads t = some i) :
    s.Enabled cfg t ∨ s.AwaitsBytes t i := by
  have hroom : ∀ j, ¬ s.AwaitsRoom t j := by
    rcases Pc.reads_cases h with ⟨hpc, -⟩ | ⟨_, _, _, hpc, -⟩ <;>
      exact not_awaitsRoom (by rw [hpc]; rfl) (by rw [hpc]; rfl)
  have hread : ∀ n, readStep cfg s t n (Duration.fromMillis 0) ≠ none → s.Enabled cfg t :=
    fun n h => enabled_of_ne_none (a := .read t n (Duration.fromMillis 0)) rfl hroom h
  by_cases hempty : (s.channels i).unread = []
  · cases hclosed : (s.channels i).closed with
    | false => exact Or.inr ⟨h, hempty, hclosed⟩
    | true =>
        refine Or.inl (hread 0 ?_)
        simp [readStep, h, hempty, hclosed]
  · have hplace := cfg.reserve.room_pos ((s.pc t).target (s.tasks t).buffer).capacity
      ((s.pc t).target (s.tasks t).buffer).bytes.length
    have hlen : 1 ≤ (s.channels i).unread.length := List.length_pos_iff.mpr hempty
    refine Or.inl (hread 1 ?_)
    simp only [readStep, h, one_ne_zero, if_false]
    rw [if_pos ⟨hlen, hplace⟩]
    exact Option.some_ne_none _

/-- A task at `write_all` gives its frame to the `BufWriter`, or waits for the socket. -/
theorem enabled_of_writes (h : (s.pc t).writes t .write = some i) :
    s.Enabled cfg t ∨ s.AwaitsRoom t i := by
  obtain ⟨frame, hframe, hflush⟩ : ∃ frame, (s.pc t).frame (s.tasks t).address = some frame ∧
      (s.pc t).writes t .flush = none := by
    rcases Pc.writes_cases h with ⟨inquiry, id, connMd, hpc, -⟩ | ⟨frame, hpc, -⟩
    · rw [hpc]
      exact ⟨_, rfl, rfl⟩
    · rw [hpc]
      exact ⟨_, rfl, rfl⟩
  by_cases hfull : (s.channels i).Overfull frame.toBeBytes
  · exact Or.inr (Or.inr ⟨h, frame, hframe, hfull⟩)
  · refine Or.inl (enabled_of_ne_none (a := .writeAll t none) rfl ?_ ?_)
    · rintro j (hj | ⟨hj, frame', hframe', hfull'⟩)
      · cases hflush.symm.trans hj
      · cases h.symm.trans hj
        cases hframe.symm.trans hframe'
        exact hfull hfull'
    · simp [step, writeStep, h, hframe]

/-- A task that registers a peer does so, or waits for a holder of an entry of the shard. -/
theorem enabled_of_register {id : PeerId} (h : s.pc t = .register id) :
    s.Enabled cfg t ∨ ∃ v, s.WaitsOn cfg t v ∧ (s.pc v).Live := by
  by_cases hfree : s.ShardFree cfg (cfg.shard id)
  · have hroom := not_awaitsRoom (s := s) (t := t) (by rw [h]; rfl) (by rw [h]; rfl)
    refine Or.inl (enabled_of_ne_none (a := .access t) rfl hroom ?_)
    simp only [step, accessStep, h, if_pos hfree]
    split
    · exact Option.some_ne_none _
    · exact Option.some_ne_none _
  · obtain ⟨v, hv⟩ := not_forall.mp hfree
    obtain ⟨-, hv⟩ := Classical.not_imp.mp hv
    obtain ⟨id', hid'⟩ := not_forall.mp hv
    obtain ⟨hentry, hshard⟩ := Classical.not_imp.mp hid'
    exact Or.inr ⟨v, ⟨.shard (cfg.shard id), ⟨id, h, rfl⟩, id', hentry, not_not.mp hshard⟩,
      Pc.live_of_entry hentry⟩

theorem enabled_of_lookup {inquiry : Inquiry} {id : PeerId} (h : s.pc t = .lookup inquiry id) :
    s.Enabled cfg t := by
  have hroom := not_awaitsRoom (s := s) (t := t) (by rw [h]; rfl) (by rw [h]; rfl)
  refine enabled_of_ne_none (a := .access t) rfl hroom ?_
  simp only [step, accessStep, h]
  split
  · exact Option.some_ne_none _
  · exact Option.some_ne_none _

/-- What a task that has not ended can be doing: it can make a step, or it waits for a peer, or for
another task that has not ended. -/
theorem enabled_or_waits (hheld : Held s) (hlive : (s.pc t).Live) :
    (s.Enabled cfg t ∨ ∃ i, s.AwaitsBytes t i ∨ s.AwaitsRoom t i) ∨
      ∃ v, s.WaitsOn cfg t v ∧ (s.pc v).Live := by
  have hlock : ∀ {i}, (s.pc t).wants t = some i →
      (s.Enabled cfg t ∨ ∃ i, s.AwaitsBytes t i ∨ s.AwaitsRoom t i) ∨
        ∃ v, s.WaitsOn cfg t v ∧ (s.pc v).Live :=
    fun h => (enabled_of_wants hheld h).imp_left Or.inl
  have hread : ∀ {i}, (s.pc t).reads t = some i →
      s.Enabled cfg t ∨ ∃ i, s.AwaitsBytes t i ∨ s.AwaitsRoom t i :=
    fun h => (enabled_of_reads h).imp_right fun hawaits => ⟨_, Or.inl hawaits⟩
  have hwrite : ∀ {i}, (s.pc t).writes t .write = some i →
      s.Enabled cfg t ∨ ∃ i, s.AwaitsBytes t i ∨ s.AwaitsRoom t i :=
    fun h => (enabled_of_writes h).imp_right fun hawaits => ⟨_, Or.inr hawaits⟩
  have hflush : ∀ {i}, (s.pc t).writes t .flush = some i →
      s.Enabled cfg t ∨ ∃ i, s.AwaitsBytes t i ∨ s.AwaitsRoom t i :=
    fun h => Or.inr ⟨_, Or.inr (Or.inl h)⟩
  cases hpc : s.pc t with
  | receive phase =>
      cases phase with
      | lock => exact hlock (by rw [hpc]; rfl)
      | read => exact Or.inl (hread (by rw [hpc]; rfl))
  | register id => exact (enabled_of_register hpc).imp_left Or.inl
  | lookup inquiry id => exact Or.inl (Or.inl (enabled_of_lookup hpc))
  | command inquiry id connMd phase =>
      cases phase with
      | lock => exact hlock (by rw [hpc]; rfl)
      | write => exact Or.inl (hwrite (by rw [hpc]; rfl))
      | flush => exact Or.inl (hflush (by rw [hpc]; rfl))
  | ack id connMd buffer phase =>
      cases phase with
      | lock => exact hlock (by rw [hpc]; rfl)
      | read => exact Or.inl (hread (by rw [hpc]; rfl))
  | reply frame phase =>
      cases phase with
      | lock => exact hlock (by rw [hpc]; rfl)
      | write => exact Or.inl (hwrite (by rw [hpc]; rfl))
      | flush => exact Or.inl (hflush (by rw [hpc]; rfl))
  | ended how => exact absurd hpc (hlive how)

end

/-- **No deadlock.**  In every state of every run, for any number of connections: no tasks wait
for each other in a circle, and behind every task that has not ended, at the end of its waits,
is one that can make a step whatever the sockets take, or one that a peer holds up: at a read of
what the peer has not sent, while it has not closed, or where the socket of the peer has to take
bytes, which it does as the peer reads. -/
theorem held_up_by_peers (cfg : Config) (as : List Action) :
    InStates (step cfg) State.init as fun s =>
      (∀ t, ¬ Relation.TransGen (s.WaitsOn cfg) t t) ∧
      ∀ t, (s.pc t).Live → ∃ v, Relation.ReflTransGen (s.WaitsOn cfg) t v ∧ (s.pc v).Live ∧
        (s.Enabled cfg v ∨ ∃ i, s.AwaitsBytes v i ∨ s.AwaitsRoom v i) := by
  refine inStates_of_invariant hasHistory_init (fun _ _ _ h hstep => hasHistory_step h hstep) ?_ as
  rintro s ⟨h, h'⟩
  have hrank : ∀ u v, s.WaitsOn cfg u v → (s.pc v).rank v < (s.pc u).rank u :=
    fun u v => rank_of_waitsOn h'.tidy.held
  refine ⟨no_circle hrank, waits_end hrank ?_⟩
  intro u hu
  exact enabled_or_waits h'.tidy.held hu

end Pcopy.Relay
