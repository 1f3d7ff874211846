import Pcopy.Relay.History

/-!
# A probe of a silent peer

A probe that has sent its SYNC reads the answer with the mutex of the peer's stream held over
the read, and with the entry of the peer, and so the read lock of its shard, until it is done.
While the peer says nothing, both stay where they are.

* `Unblocked` — no task needs a mutex or a shard that is kept like this;
* `unblocked_iff` — a run keeps to that exactly if at no step a task comes to need what a waiting
  probe has, and no probe begins to wait with what another task needs.
-/

namespace Pcopy.Relay

open Pcopy.Lib

/-- What a task may have to wait for: the mutex of a stream, or the write lock of a shard. -/
inductive Need where
  | mutex (i : StreamId) : Need
  | shard (n : ℕ) : Need
  deriving DecidableEq

namespace State

/-- Everything that has come from the peer is read, and it has not closed. -/
def Silent (s : State) (i : StreamId) : Prop :=
  (s.channels i).unread = [] ∧ (s.channels i).closed = false

/-- Task `v` is at a read that waits for bytes from peer `i`. -/
def AwaitsBytes (s : State) (v : TaskId) (i : StreamId) : Prop :=
  (s.pc v).reads v = some i ∧ s.Silent i

/-- Task `p` has sent SYNC to peer `i` and has not got the answer yet. -/
def Probing (s : State) (p : TaskId) (i : StreamId) : Prop :=
  ∃ id connMd buffer phase, s.pc p = .ack id connMd buffer phase ∧ connMd.stream = i

/-- Task `u` cannot go on without it. -/
def Needs (cfg : Config) (s : State) (u : TaskId) : Need → Prop
  | .mutex i => (s.pc u).wants u = some i
  | .shard n => ∃ id, s.pc u = .register id ∧ cfg.shard id = n

/-- Task `v` has it: it holds the mutex, or an entry of the shard. -/
def Has (cfg : Config) (s : State) (v : TaskId) : Need → Prop
  | .mutex i => (s.channels i).holder = some v
  | .shard n => ∃ id, (s.pc v).entry = some id ∧ cfg.shard id = n

/-- Task `v` is a probe at the read of an answer of peer `i`, which says nothing. -/
def WaitsFor (s : State) (v : TaskId) (i : StreamId) : Prop :=
  (∃ id connMd buffer, s.pc v = .ack id connMd buffer .read ∧ connMd.stream = i) ∧ s.Silent i

end State

/-- Where a probe of a peer has sent its SYNC and waits, no task needs what a task has that waits
for bytes from that peer. -/
def Unblocked (cfg : Config) (s : State) : Prop :=
  ∀ p i, s.Probing p i → ∀ v, s.AwaitsBytes v i → ∀ u need, s.Needs cfg u need →
    ¬ s.Has cfg v need

/-- The actions after which a task needs something that it has not had before, by the place where
the task is: an inquiry needs the mutex of the peer it has found; what is done with a request
needs the mutex of the task's own stream, for the reply; a Register needs the shard. -/
inductive Turns (cfg : Config) (s : State) : Action → Need → Prop where
  | found {t : TaskId} {inquiry : Inquiry} {id : PeerId} {connMd : PeerConnectionMetadata}
      (hpc : s.pc t = .lookup inquiry id) (hfound : s.connCache.get id = some connMd) :
      Turns cfg s (.access t) (.mutex connMd.stream)
  | missing {t : TaskId} {inquiry : Inquiry} {id : PeerId} (hpc : s.pc t = .lookup inquiry id)
      (hmissing : s.connCache.get id = none) : Turns cfg s (.access t) (.mutex t)
  | registered {t : TaskId} {id : PeerId} {old : PeerConnectionMetadata}
      (hpc : s.pc t = .register id) (hold : s.connCache.get id = some old) :
      Turns cfg s (.access t) (.mutex t)
  | told {t : TaskId} {id : PeerId} {connMd : PeerConnectionMetadata}
      (hpc : s.pc t = .command .doConnect id connMd .flush) :
      Turns cfg s (.flush t none) (.mutex t)
  | failed {t : TaskId} {inquiry : Inquiry} {id : PeerId} {connMd : PeerConnectionMetadata}
      {phase : WritePhase} {a : Action} {n : ℕ} (hpc : s.pc t = .command inquiry id connMd phase)
      (ha : a = .writeAll t (some n) ∨ a = .flush t (some n)) : Turns cfg s a (.mutex t)
  | answered {t : TaskId} {id : PeerId} {connMd : PeerConnectionMetadata} {buffer : BytesMut}
      {n : ℕ} {elapsed : Duration} {f : RelayFrames} (hpc : s.pc t = .ack id connMd buffer .read)
      (hpos : 0 < n) (hparsed : parsed RelayFrames
        (buffer.extend ((s.channels connMd.stream).unread.take n)).bytes = .ok f) :
      Turns cfg s (.read t n elapsed) (.mutex t)
  | gone {t : TaskId} {id : PeerId} {connMd : PeerConnectionMetadata} {buffer : BytesMut}
      {elapsed : Duration} (hpc : s.pc t = .ack id connMd buffer .read)
      (hempty : buffer.bytes = []) : Turns cfg s (.read t 0 elapsed) (.mutex t)
  | registers {t : TaskId} {n : ℕ} {elapsed : Duration} {id : PeerId}
      (hpc : s.pc t = .receive .read) (hpos : 0 < n) (hparsed : parsed RelayFrames
        ((s.tasks t).buffer.extend ((s.channels t).unread.take n)).bytes = .ok (.register id)) :
      Turns cfg s (.read t n elapsed) (.shard (cfg.shard id))
  | registersAgain {t : TaskId} {frame : PeerFrames} {id : PeerId}
      (hpc : s.pc t = .reply frame .flush)
      (hparsed : parsed RelayFrames (s.tasks t).buffer.bytes = .ok (.register id)) :
      Turns cfg s (.flush t none) (.shard (cfg.shard id))

/-- A step that blocks nobody: no task comes to need what a probe has that waits for a silent
peer, and no probe begins to wait for one while another task needs what it will have. -/
structure Clear (cfg : Config) (s : State) (a : Action) : Prop where
  turns : ∀ need, Turns cfg s a need → ∀ v i, s.WaitsFor v i → ¬ s.Has cfg v need
  waits : ∀ v id connMd buffer, a = .lock v → s.pc v = .ack id connMd buffer .lock →
    s.Silent connMd.stream → ∀ u ≠ v, ¬ s.Needs cfg u (.mutex connMd.stream) ∧
      ¬ s.Needs cfg u (.shard (cfg.shard id))


section

variable {cfg : Config} {s s' : State} {h : History} {a : Action} {t u v : TaskId} {i : StreamId}
  {need : Need}

/-! ### What a waiting probe has -/

/-- A waiting probe holds the mutex of the peer it waits for. -/
theorem State.WaitsFor.holds (hw : s.WaitsFor v i) : (s.pc v).holds v = some i := by
  obtain ⟨⟨id, connMd, buffer, hpc, hi⟩, _⟩ := hw
  rw [hpc, ← hi]
  rfl

/-- What a task has, where the mutexes are in order, is told by its place. -/
theorem has_mutex_iff (hheld : Held s) :
    s.Has cfg v (.mutex i) ↔ (s.pc v).holds v = some i := (hheld v i).symm

/-- A task has the same where its place is the same. -/
theorem has_of_pc (hheld : Held s) (hheld' : Held s') (hpc : s'.pc v = s.pc v) :
    s'.Has cfg v need ↔ s.Has cfg v need := by
  cases need with
  | mutex i => rw [has_mutex_iff hheld', has_mutex_iff hheld, hpc]
  | shard n =>
      show (∃ id, (s'.pc v).entry = some id ∧ _) ↔ ∃ id, (s.pc v).entry = some id ∧ _
      rw [hpc]

/-- A task needs the same where its place is the same. -/
theorem needs_of_pc (hpc : s'.pc u = s.pc u) : s'.Needs cfg u need ↔ s.Needs cfg u need := by
  cases need with
  | mutex i =>
      show (s'.pc u).wants u = some i ↔ (s.pc u).wants u = some i
      rw [hpc]
  | shard n =>
      show (∃ id, s'.pc u = .register id ∧ _) ↔ ∃ id, s.pc u = .register id ∧ _
      rw [hpc]

/-- Who waits for bytes from a peer that is probed is a probe itself: the peer's own task has
found its request. -/
theorem waitsFor_of_awaits (h' : Orderly s h) {p : TaskId} (hp : s.Probing p i)
    (hv : s.AwaitsBytes v i) : s.WaitsFor v i := by
  obtain ⟨id, connMd, buffer, phase, hpc, rfl⟩ := hp
  obtain ⟨hreads, hsilent⟩ := hv
  rcases Pc.reads_cases hreads with ⟨hreceive, rfl⟩ | ⟨id', connMd', buffer', hack, hi⟩
  · exact absurd hreceive ((h'.users p connMd (by rw [hpc]; rfl)).2.2 .read)
  · exact ⟨⟨id', connMd', buffer', hack, hi⟩, hsilent⟩

theorem State.WaitsFor.probing (hw : s.WaitsFor v i) : s.Probing v i := by
  obtain ⟨⟨id, connMd, buffer, hpc, hi⟩, _⟩ := hw
  exact ⟨id, connMd, buffer, .read, hpc, hi⟩

theorem State.WaitsFor.awaits (hw : s.WaitsFor v i) : s.AwaitsBytes v i := by
  obtain ⟨⟨id, connMd, buffer, hpc, hi⟩, hsilent⟩ := hw
  refine ⟨?_, hsilent⟩
  rw [hpc, ← hi]
  rfl

/-- It is enough to look at the waiting probes. -/
theorem unblocked_iff_waiting (h' : Orderly s h) : Unblocked cfg s ↔
    ∀ v i, s.WaitsFor v i → ∀ u need, s.Needs cfg u need → ¬ s.Has cfg v need := by
  constructor
  · intro hfree v i hw
    exact hfree v i hw.probing v hw.awaits
  · intro hfree p i hp v hv
    exact hfree v i (waitsFor_of_awaits h' hp hv)

/-! ### Steps and waiting probes -/

/-- A probe that waits for a silent peer makes no step. -/
theorem State.WaitsFor.stuck (hw : s.WaitsFor v i) (hstep : step cfg s a = some s') :
    a.task ≠ some v := by
  intro ht
  obtain ⟨⟨id, connMd, buffer, hpc, rfl⟩, hempty, hopen⟩ := hw
  have hm := moves_cases hstep ht
  generalize s'.tasks v = task' at hm
  cases hm with
  | endAck hpc' hclosed hnext =>
      cases hpc.symm.trans hpc'
      rw [hopen] at hclosed
      cases hclosed
  | readAck hpc' hpos hn =>
      cases hpc.symm.trans hpc'
      rw [hempty] at hn
      exact absurd hpos (Nat.not_lt.mpr hn)
  | lockReceive hpc' => cases hpc.symm.trans hpc'
  | lockCommand hpc' => cases hpc.symm.trans hpc'
  | lockAck hpc' => cases hpc.symm.trans hpc'
  | lockReply hpc' => cases hpc.symm.trans hpc'
  | endReceive hpc' hclosed => cases hpc.symm.trans hpc'
  | readReceive hpc' hpos hn => cases hpc.symm.trans hpc'
  | writeCommand hpc' => cases hpc.symm.trans hpc'
  | writeReply hpc' => cases hpc.symm.trans hpc'
  | commandFailed hpc' ha => cases hpc.symm.trans hpc'
  | replyFailed hpc' ha => cases hpc.symm.trans hpc'
  | flushProbe hpc' => cases hpc.symm.trans hpc'
  | flushDoConnect hpc' => cases hpc.symm.trans hpc'
  | flushReply hpc' => cases hpc.symm.trans hpc'
  | insertNew hpc' hnew => cases hpc.symm.trans hpc'
  | insertAgain hpc' hold => cases hpc.symm.trans hpc'
  | found hpc' hfound => cases hpc.symm.trans hpc'
  | missing hpc' hmissing => cases hpc.symm.trans hpc'

/-- Nobody reads a stream whose mutex another task holds. -/
theorem takes_of_held (hheld : Held s) (ht : a.task ≠ some v)
    (hv : (s.pc v).holds v = some i) : a.takes s i = 0 := by
  cases a with
  | read t n elapsed =>
      refine if_neg fun hreads => ht ?_
      rw [hheld.unique hv (Pc.holds_of_reads hreads)]
      rfl
  | _ => rfl

/-- The steps of tasks leave a waiting probe waiting. -/
theorem State.WaitsFor.stays (hw : s.WaitsFor v i)
    (hstep : step cfg s a = some s') (ht : a.task = some t) : s'.WaitsFor v i := by
  have hne := hw.stuck hstep
  obtain ⟨⟨id, connMd, buffer, hpc, hi⟩, hempty, hopen⟩ := hw
  refine ⟨⟨id, connMd, buffer, ?_, hi⟩, ?_, ?_⟩
  · rw [pc_step_other hstep ht fun heq : v = t => hne (heq ▸ ht), hpc]
  · rw [unread_step hstep i, hempty, List.drop_nil, Action.brings_of_task ht]
    rfl
  · rcases closed_step hstep i with hsame | ⟨rfl, _⟩
    · rw [hsame, hopen]
    · cases ht

/-- A peer that is silent after a step was silent before it, unless a task has read all its
bytes in this step. -/
theorem silent_before (hstep : step cfg s a = some s') (hsilent : s'.Silent i)
    (htakes : a.takes s i = 0) : s.Silent i := by
  obtain ⟨hempty, hopen⟩ := hsilent
  rw [unread_step hstep i, htakes, List.drop_zero] at hempty
  refine ⟨(List.append_eq_nil_iff.mp hempty).1, ?_⟩
  rcases closed_step hstep i with hsame | ⟨_, hclosed⟩
  · rw [← hsame, hopen]
  · rw [hopen] at hclosed
    cases hclosed

/-- A probe that waits after a step has waited before it, or it has just taken the mutex. -/
theorem waiting_before (h' : Orderly s h) (hstep : step cfg s a = some s')
    (hw : s'.WaitsFor v i) :
    a.task ≠ some v ∧ s'.pc v = s.pc v ∧ s.WaitsFor v i ∨
      ∃ id connMd buffer, a = .lock v ∧ s.pc v = .ack id connMd buffer .lock ∧
        connMd.stream = i ∧ s.Silent i := by
  obtain ⟨⟨id, connMd, buffer, hpc, hi⟩, hsilent⟩ := hw
  rcases tasks_step hstep v with ⟨ht, hm⟩ | ⟨ht, hsame⟩ | ⟨_, _, address, hnew⟩
  · right
    rw [State.pc] at hpc
    generalize s'.tasks v = task' at hm hpc
    cases hm with
    | lockAck hpc' =>
        cases hpc
        exact ⟨_, _, _, rfl, hpc', hi, silent_before hstep hsilent rfl⟩
    | endAck hpc' hclosed hnext =>
        rcases hnext with ⟨_, rfl⟩ | ⟨_, rfl⟩
        · cases hpc
        · cases hpc
    | readReceive hpc' hpos hn => cases metadata_of_dispatch hpc
    | readAck hpc' hpos hn =>
        rcases afterAck_cases _ _ _ _ with hd | ⟨_, hd⟩ | ⟨_, hd⟩
        all_goals cases hd.symm.trans hpc
    | flushReply hpc' => cases metadata_of_dispatch hpc
    | _ => cases hpc
  · left
    have hpc₀ : s.pc v = .ack id connMd buffer .read := by
      rw [← hpc, State.pc, State.pc, hsame]
    have hholds : (s.pc v).holds v = some i := by
      rw [hpc₀, ← hi]
      rfl
    refine ⟨ht, hpc.trans hpc₀.symm, ⟨id, connMd, buffer, hpc₀, hi⟩, ?_⟩
    exact silent_before hstep hsilent (takes_of_held h'.tidy.held ht hholds)
  · rw [State.pc, hnew] at hpc
    cases hpc

/-! ### What a step makes a task need -/

/-- The dispatcher wants a mutex only to read on or to reply. -/
theorem dispatch_wants {health : HealthStatus} {buffer : BytesMut} {j : StreamId}
    (hwants : (dispatch health buffer).wants t = some j) : t = j := by
  rcases dispatch_cases health buffer with ⟨hd, _⟩ | ⟨_, hd⟩ | ⟨_, _, hd⟩ | hd | ⟨_, hd⟩
  all_goals
    rw [hd] at hwants
    cases hwants
  · rfl
  · rfl

/-- The dispatcher goes on to the registry for a Register. -/
theorem dispatch_register {health : HealthStatus} {buffer : BytesMut} {id : PeerId}
    (hd : dispatch health buffer = .register id) :
    parsed RelayFrames buffer.bytes = .ok (.register id) := by
  have hserving := dispatch_serving health (.v4 ⟨[0, 0, 0, 0], rfl⟩) buffer
  rw [hd] at hserving
  obtain ⟨f, hparsed, hf⟩ := hserving.request rfl
  rwa [show f = .register id from hf] at hparsed

/-- A probe goes on to its reply where its buffer holds a frame. -/
theorem afterAck_wants {id : PeerId} {connMd : PeerConnectionMetadata} {elapsed : Duration}
    {buffer : BytesMut} {j : StreamId}
    (hwants : (afterAck id connMd elapsed buffer).wants t = some j) :
    connMd.stream = j ∨ t = j ∧ ∃ f, parsed RelayFrames buffer.bytes = .ok f := by
  rw [afterAck, parseFrame] at hwants
  cases hparsed : parsed RelayFrames buffer.bytes with
  | ok f =>
      rw [hparsed] at hwants
      refine Or.inr ⟨?_, f, rfl⟩
      cases f <;> exact Option.some.inj hwants
  | error φ =>
      rw [hparsed] at hwants
      cases φ with
      | err e =>
          cases e with
          | incomplete => exact Or.inl (Option.some.inj hwants)
          | other e => cases hwants
      | panic msg => cases hwants
      | outOfFuel => cases hwants

/-- The mutex that a task needs after its move: it has held it before, or it turns to it. -/
theorem Move.wants {task' : Task} {j : StreamId} (hm : Move s t a task')
    (hwants : task'.pc.wants t = some j) :
    (s.pc t).holds t = some j ∨ Turns cfg s a (.mutex j) := by
  cases hm with
  | lockReceive hpc => cases hwants
  | lockCommand hpc => cases hwants
  | lockAck hpc => cases hwants
  | lockReply hpc => cases hwants
  | endReceive hpc hclosed => cases hwants
  | endAck hpc hclosed hnext =>
      rcases hnext with ⟨hempty, rfl⟩ | ⟨_, rfl⟩
      · cases hwants
        exact Or.inr (.gone hpc hempty)
      · cases hwants
  | readReceive hpc hpos hn =>
      rw [hpc, ← dispatch_wants hwants]
      exact Or.inl rfl
  | readAck hpc hpos hn =>
      rcases afterAck_wants hwants with rfl | ⟨rfl, f, hparsed⟩
      · rw [hpc]
        exact Or.inl rfl
      · exact Or.inr (.answered hpc hpos hparsed)
  | writeCommand hpc => cases hwants
  | writeReply hpc => cases hwants
  | commandFailed hpc ha =>
      cases hwants
      exact Or.inr (.failed hpc ha)
  | replyFailed hpc ha => cases hwants
  | flushProbe hpc =>
      rw [hpc]
      exact Or.inl hwants
  | flushDoConnect hpc =>
      cases hwants
      exact Or.inr (.told hpc)
  | flushReply hpc =>
      rw [hpc, ← dispatch_wants hwants]
      exact Or.inl rfl
  | insertNew hpc hnew => cases hwants
  | insertAgain hpc hold =>
      cases hwants
      exact Or.inr (.registered hpc hold)
  | found hpc hfound =>
      cases hwants
      exact Or.inr (.found hpc hfound)
  | missing hpc hmissing =>
      cases hwants
      exact Or.inr (.missing hpc hmissing)

/-- A task that goes on to the registry for a Register has just found it. -/
theorem Move.register {task' : Task} {id : PeerId} (hm : Move s t a task')
    (hpc' : task'.pc = .register id) : Turns cfg s a (.shard (cfg.shard id)) := by
  cases hm with
  | readReceive hpc hpos hn => exact .registers hpc hpos (dispatch_register hpc')
  | flushReply hpc => exact .registersAgain hpc (dispatch_register hpc')
  | endAck hpc hclosed hnext =>
      rcases hnext with ⟨_, rfl⟩ | ⟨_, rfl⟩
      · cases hpc'
      · cases hpc'
  | readAck hpc hpos hn =>
      rcases afterAck_cases _ _ _ _ with hd | ⟨_, hd⟩ | ⟨_, hd⟩
      all_goals cases hd.symm.trans hpc'
  | _ => cases hpc'

/-- What a task needs after a step: it has needed it before, it turns to it in this step, or it
is a mutex that it has just given back, or that of a new connection. -/
theorem needs_step (hstep : step cfg s a = some s') (hneeds : s'.Needs cfg u need) :
    a.task ≠ some u ∧ s.Needs cfg u need ∨ Turns cfg s a need ∨
      a.task = some u ∧ (∃ j, need = .mutex j ∧ (s.pc u).holds u = some j) ∨
      u = s.accepted ∧ need = .mutex u := by
  rcases tasks_step hstep u with ⟨ht, hm⟩ | ⟨ht, hsame⟩ | ⟨hnew, _, address, htask⟩
  · right
    cases need with
    | mutex j =>
        have hwants : (s.pc u).holds u = some j ∨ Turns cfg s a (.mutex j) := hm.wants hneeds
        rcases hwants with hholds | hturns
        · exact Or.inr (Or.inl ⟨ht, j, rfl, hholds⟩)
        · exact Or.inl hturns
    | shard n =>
        obtain ⟨id, hpc', rfl⟩ := hneeds
        exact Or.inl (hm.register hpc')
  · exact Or.inl ⟨ht, (needs_of_pc (congrArg Task.pc hsame)).mp hneeds⟩
  · have hpc : s'.pc u = .receive .lock := congrArg Task.pc htask
    right; right; right
    refine ⟨hnew, ?_⟩
    cases need with
    | mutex j =>
        rw [State.Needs, hpc] at hneeds
        cases hneeds
        rfl
    | shard n =>
        obtain ⟨id, hpc', _⟩ := hneeds
        cases hpc.symm.trans hpc'

/-- A task that finds a Register goes to the registry with it. -/
theorem dispatch_of_register {health : HealthStatus} {buffer : BytesMut} {id : PeerId}
    (hparsed : parsed RelayFrames buffer.bytes = .ok (.register id)) :
    dispatch health buffer = .register id := by
  rw [dispatch, parseFrame, hparsed]

/-- A probe that finds a frame replies. -/
theorem afterAck_of_parsed {id : PeerId} {connMd : PeerConnectionMetadata} {elapsed : Duration}
    {buffer : BytesMut} {f : RelayFrames} (hparsed : parsed RelayFrames buffer.bytes = .ok f) :
    (afterAck id connMd elapsed buffer).wants t = some t := by
  rw [afterAck, parseFrame, hparsed]
  cases f with
  | probeAck => rfl
  | _ => rfl

/-- What a task turns to, it needs after its move. -/
theorem Turns.needs_of_move {task' : Task} (hturns : Turns cfg s a need) (hm : Move s t a task')
    (ht : a.task = some t) :
    (∀ j, need = .mutex j → task'.pc.wants t = some j) ∧
      ∀ n, need = .shard n → ∃ id, task'.pc = .register id ∧ cfg.shard id = n := by
  cases hturns with
  | found hpc hfound =>
      cases ht
      refine ⟨fun j hj => ?_, nofun⟩
      cases hj
      cases hm with
      | found hpc' hfound' =>
          cases hpc.symm.trans hpc'
          cases hfound.symm.trans hfound'
          rfl
      | missing hpc' hmissing =>
          cases hpc.symm.trans hpc'
          cases hfound.symm.trans hmissing
      | _ hpc' => cases hpc.symm.trans hpc'
  | missing hpc hmissing =>
      cases ht
      refine ⟨fun j hj => ?_, nofun⟩
      cases hj
      cases hm with
      | missing hpc' hmissing' => rfl
      | found hpc' hfound =>
          cases hpc.symm.trans hpc'
          cases hmissing.symm.trans hfound
      | _ hpc' => cases hpc.symm.trans hpc'
  | registered hpc hold =>
      cases ht
      refine ⟨fun j hj => ?_, nofun⟩
      cases hj
      cases hm with
      | insertAgain hpc' hold' => rfl
      | insertNew hpc' hnew =>
          cases hpc.symm.trans hpc'
          cases hold.symm.trans hnew
      | _ hpc' => cases hpc.symm.trans hpc'
  | told hpc =>
      cases ht
      refine ⟨fun j hj => ?_, nofun⟩
      cases hj
      cases hm with
      | flushDoConnect hpc' => rfl
      | commandFailed hpc' ha => rcases ha with ha | ha <;> cases ha
      | _ hpc' => cases hpc.symm.trans hpc'
  | @failed t₀ inquiry id connMd phase _ n hpc ha =>
      have htask : some t₀ = some t := by
        rcases ha with rfl | rfl
        · exact ht
        · exact ht
      cases htask
      refine ⟨fun j hj => ?_, nofun⟩
      cases hj
      cases hm with
      | commandFailed hpc' ha' => rfl
      | lockCommand hpc' => rcases ha with ha | ha <;> cases ha
      | writeCommand hpc' => rcases ha with ha | ha <;> cases ha
      | flushProbe hpc' => rcases ha with ha | ha <;> cases ha
      | flushDoConnect hpc' => rcases ha with ha | ha <;> cases ha
      | _ hpc' => cases hpc.symm.trans hpc'
  | answered hpc hpos hparsed =>
      cases ht
      refine ⟨fun j hj => ?_, nofun⟩
      cases hj
      cases hm with
      | readAck hpc' hpos' hn =>
          cases hpc.symm.trans hpc'
          exact afterAck_of_parsed hparsed
      | endAck hpc' hclosed hnext => exact absurd hpos (Nat.lt_irrefl 0)
      | _ hpc' => cases hpc.symm.trans hpc'
  | gone hpc hempty =>
      cases ht
      refine ⟨fun j hj => ?_, nofun⟩
      cases hj
      cases hm with
      | endAck hpc' hclosed hnext =>
          cases hpc.symm.trans hpc'
          rcases hnext with ⟨_, rfl⟩ | ⟨hne, _⟩
          · rfl
          · exact absurd hempty hne
      | readAck hpc' hpos hn => exact absurd hpos (Nat.lt_irrefl 0)
      | _ hpc' => cases hpc.symm.trans hpc'
  | registers hpc hpos hparsed =>
      cases ht
      refine ⟨nofun, fun n hn => ?_⟩
      cases hn
      cases hm with
      | readReceive hpc' hpos' hn => exact ⟨_, dispatch_of_register hparsed, rfl⟩
      | endReceive hpc' hclosed => exact absurd hpos (Nat.lt_irrefl 0)
      | _ hpc' => cases hpc.symm.trans hpc'
  | registersAgain hpc hparsed =>
      cases ht
      refine ⟨nofun, fun n hn => ?_⟩
      cases hn
      cases hm with
      | flushReply hpc' => exact ⟨_, dispatch_of_register hparsed, rfl⟩
      | replyFailed hpc' ha => rcases ha with ha | ha <;> cases ha
      | _ hpc' => cases hpc.symm.trans hpc'

theorem Turns.task (hturns : Turns cfg s a need) : ∃ t, a.task = some t := by
  cases hturns with
  | failed hpc ha => rcases ha with rfl | rfl <;> exact ⟨_, rfl⟩
  | _ => exact ⟨_, rfl⟩

/-- After a step by which a task turns to something, that task needs it. -/
theorem Turns.needs (hturns : Turns cfg s a need) (hstep : step cfg s a = some s') :
    ∃ t, a.task = some t ∧ s'.Needs cfg t need := by
  obtain ⟨t, ht⟩ := hturns.task
  refine ⟨t, ht, ?_⟩
  obtain ⟨hmutex, hshard⟩ := hturns.needs_of_move (moves_cases hstep ht) ht
  cases need with
  | mutex j => exact hmutex j rfl
  | shard n => exact hshard n rfl

/-- A probe that has taken the mutex reads. -/
theorem pc_lockAck {id : PeerId} {connMd : PeerConnectionMetadata} {buffer : BytesMut}
    (hstep : step cfg s (.lock v) = some s') (hpc : s.pc v = .ack id connMd buffer .lock) :
    s'.pc v = .ack id connMd buffer .read := by
  have hm := moves_cases hstep rfl
  rw [State.pc]
  generalize s'.tasks v = task' at hm
  cases hm with
  | lockAck hpc₀ =>
      cases hpc.symm.trans hpc₀
      rfl
  | _ hpc₀ => cases hpc.symm.trans hpc₀

/-! ### The condition for a whole run -/

/-- A clear step keeps everybody unblocked. -/
theorem unblocked_of_clear (h' : Orderly s h) (hfree : Unblocked cfg s)
    (hstep : step cfg s a = some s') (hclear : Clear cfg s a) : Unblocked cfg s' := by
  have h'' := orderly_step h' hstep
  rw [unblocked_iff_waiting h'] at hfree
  rw [unblocked_iff_waiting h'']
  intro v i hw u need hneeds hhas
  rcases waiting_before h' hstep hw with ⟨ht, hpc, hwait⟩ |
    ⟨id, connMd, buffer, rfl, hpc, rfl, hsilent⟩
  · rw [has_of_pc h'.tidy.held h''.tidy.held hpc] at hhas
    rcases needs_step hstep hneeds with ⟨_, hneeds⟩ | hturns | ⟨hu, j, rfl, hholds⟩ | ⟨hu, rfl⟩
    · exact hfree v i hwait u need hneeds hhas
    · exact hclear.turns need hturns v i hwait hhas
    · rw [has_mutex_iff h'.tidy.held] at hhas
      exact ht (h'.tidy.held.unique hholds hhas ▸ hu)
    · -- the stream of a waiting probe is not that of a connection just accepted
      rw [has_mutex_iff h'.tidy.held, hwait.holds] at hhas
      cases hhas
      obtain ⟨⟨id, connMd, buffer, hack, rfl⟩, _⟩ := hwait
      have hlt := (h'.users v connMd (by rw [hack]; rfl)).1
      exact absurd hu (Nat.ne_of_lt hlt)
  · -- the probe has just begun to wait, and no other task has moved
    have hpc' := pc_lockAck hstep hpc
    have hu : u ≠ v := by
      rintro rfl
      cases need with
      | mutex j =>
          rw [State.Needs, hpc'] at hneeds
          cases hneeds
      | shard n =>
          obtain ⟨_, hreg, _⟩ := hneeds
          cases hpc'.symm.trans hreg
    obtain ⟨hmutex, hshard⟩ := hclear.waits v id connMd buffer rfl hpc hsilent u hu
    have hneeds₀ : s.Needs cfg u need := by
      exact (needs_of_pc (pc_step_other hstep rfl hu)).mp hneeds
    cases need with
    | mutex j =>
        rw [has_mutex_iff h''.tidy.held, hpc'] at hhas
        cases hhas
        exact hmutex hneeds₀
    | shard n =>
        obtain ⟨_, hentry, rfl⟩ := hhas
        rw [hpc'] at hentry
        cases hentry
        exact hshard hneeds₀

/-- A step that leaves everybody unblocked is clear. -/
theorem clear_of_unblocked (h' : Orderly s h) (hstep : step cfg s a = some s')
    (hfree' : Unblocked cfg s') : Clear cfg s a := by
  have h'' := orderly_step h' hstep
  rw [unblocked_iff_waiting h''] at hfree'
  constructor
  · intro need hturns v i hw hhas
    obtain ⟨t, ht, hneeds⟩ := hturns.needs hstep
    have hpc : s'.pc v = s.pc v :=
      pc_step_other hstep ht fun heq => hw.stuck hstep (heq ▸ ht)
    refine hfree' v i (hw.stays hstep ht) t need hneeds ?_
    exact (has_of_pc h'.tidy.held h''.tidy.held hpc).mpr hhas
  · rintro v id connMd buffer rfl hpc hsilent u hu
    have hpc' := pc_lockAck hstep hpc
    have hwait : s'.WaitsFor v connMd.stream := by
      refine ⟨⟨id, connMd, buffer, hpc', rfl⟩, ?_, ?_⟩
      · rw [unread_step hstep, hsilent.1, List.drop_nil]
        rfl
      · rcases closed_step hstep connMd.stream with hsame | ⟨hclose, _⟩
        · rw [hsame, hsilent.2]
        · cases hclose
    have hneeds : ∀ {need : Need}, s.Needs cfg u need → s'.Needs cfg u need :=
      (needs_of_pc (pc_step_other hstep rfl hu)).mpr
    constructor
    · intro hmutex
      refine hfree' v _ hwait u _ (hneeds hmutex) ?_
      rw [has_mutex_iff h''.tidy.held, hpc']
      rfl
    · intro hshard
      refine hfree' v _ hwait u _ (hneeds hshard) ⟨id, ?_, rfl⟩
      rw [hpc']
      rfl

end

/-- **When a silent peer blocks nobody.**  In a run of any number of connections, in any order of
their steps: no task ever needs what a task has that waits for bytes from a probed peer, exactly
if every step of the run is clear. -/
theorem unblocked_iff (cfg : Config) (as : List Action) :
    InStates (step cfg) State.init as (Unblocked cfg) ↔
      AtSteps (step cfg) State.init as (Clear cfg) := by
  have hinit : HasHistory State.init ∧ Unblocked cfg State.init := by
    refine ⟨hasHistory_init, ?_⟩
    rintro p i ⟨_, _, _, _, hpc, _⟩
    cases hpc
  refine good_along_iff hinit ?_ ?_ as
  · intro s a s' h' _ _ hstep
    exact hasHistory_step h' hstep
  · rintro s a s' ⟨h, h'⟩ hfree hstep
    exact ⟨clear_of_unblocked h' hstep, unblocked_of_clear h' hfree hstep⟩

/-- A peer registers and then says nothing; a second one probes it, and a third one asks to be
introduced to it. -/
def silentRun : List Action :=
  [.connect (.v4 (Ipv4Addr.new 10 0 0 1)), .connect (.v4 (Ipv4Addr.new 10 0 0 2)),
    .connect (.v4 (Ipv4Addr.new 10 0 0 3)),
    .send 0 (RelayFrames.register PeerId.zero).toBeBytes,
    .send 1 (RelayFrames.probe PeerId.zero).toBeBytes,
    .send 2 (RelayFrames.doConnect PeerId.zero).toBeBytes,
    .lock 0, .read 0 65 (Duration.fromMillis 0), .access 0,
    .lock 1, .read 1 65 (Duration.fromMillis 0), .access 1,
    .lock 1, .writeAll 1 none, .flush 1 none, .lock 1,
    .lock 2, .read 2 65 (Duration.fromMillis 0), .access 2]

/-- The third one waits for the mutex that the probe of the second one keeps. -/
theorem silentRun_blocks :
    ¬ InStates (step ⟨BytesMut.reserve, fun _ => 0⟩) State.init silentRun
      (Unblocked ⟨BytesMut.reserve, fun _ => 0⟩) := by
  intro hall
  have hend : ((runFrom (step ⟨BytesMut.reserve, fun _ => 0⟩) State.init silentRun).map fun s =>
      decide ((s.pc 1).reads 1 = some 0) && decide ((s.pc 1).entry = some PeerId.zero) &&
        decide ((s.channels 0).unread = []) && decide ((s.channels 0).closed = false) &&
          decide ((s.channels 0).holder = some 1) && decide ((s.pc 2).wants 2 = some 0))
        = some true := by decide +kernel
  obtain ⟨s, hs, hend⟩ := Option.map_eq_some_iff.mp hend
  simp only [Bool.and_eq_true, decide_eq_true_eq] at hend
  obtain ⟨⟨⟨⟨⟨hreads, hentry⟩, hempty⟩, hopen⟩, hholder⟩, hwants⟩ := hend
  have hawaits : s.AwaitsBytes 1 0 := ⟨hreads, hempty, hopen⟩
  have hprobing : s.Probing 1 0 := by
    rcases Pc.reads_cases hreads with ⟨hpc, _⟩ | ⟨id, connMd, buffer, hpc, hi⟩
    · rw [hpc] at hentry
      cases hentry
    · exact ⟨id, connMd, buffer, .read, hpc, hi⟩
  exact hall silentRun (List.prefix_refl _) s hs 1 0 hprobing 1 hawaits 2 (.mutex 0) hwants hholder

end Pcopy.Relay
