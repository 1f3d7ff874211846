import Pcopy.Relay.System

/-!
# Invariants of the system of tasks

* `Held` — a mutex is held by the task that is between taking it and giving it back;
* `Tidy` — that, and nothing has happened to the connections that are not accepted yet;
* `tidy_step` — every step keeps it.
-/

namespace Pcopy.Relay

open Pcopy.Lib

variable {cfg : Config} {s s' : State} {a : Action}

/-! ### Parts of the state after a step -/

namespace State

@[simp] theorem pc_onTask_self (s : State) (t : TaskId) (f : Task → Task) :
    (s.onTask t f).pc t = (f (s.tasks t)).pc := by simp [onTask, pc]

theorem pc_onTask_ne (s : State) {t t' : TaskId} (f : Task → Task) (h : t' ≠ t) :
    (s.onTask t f).pc t' = s.pc t' := by simp [onTask, pc, h]

@[simp] theorem tasks_onTask_self (s : State) (t : TaskId) (f : Task → Task) :
    (s.onTask t f).tasks t = f (s.tasks t) := by simp [onTask]

theorem tasks_onTask_ne (s : State) {t t' : TaskId} (f : Task → Task) (h : t' ≠ t) :
    (s.onTask t f).tasks t' = s.tasks t' := by simp [onTask, h]

@[simp] theorem pc_onChannel (s : State) (i : StreamId) (f : Channel → Channel) (t : TaskId) :
    (s.onChannel i f).pc t = s.pc t := rfl

@[simp] theorem tasks_onChannel (s : State) (i : StreamId) (f : Channel → Channel) :
    (s.onChannel i f).tasks = s.tasks := rfl

@[simp] theorem connCache_onChannel (s : State) (i : StreamId) (f : Channel → Channel) :
    (s.onChannel i f).connCache = s.connCache := rfl

@[simp] theorem accepted_onChannel (s : State) (i : StreamId) (f : Channel → Channel) :
    (s.onChannel i f).accepted = s.accepted := rfl

@[simp] theorem channels_onTask (s : State) (t : TaskId) (f : Task → Task) :
    (s.onTask t f).channels = s.channels := rfl

@[simp] theorem connCache_onTask (s : State) (t : TaskId) (f : Task → Task) :
    (s.onTask t f).connCache = s.connCache := rfl

@[simp] theorem accepted_onTask (s : State) (t : TaskId) (f : Task → Task) :
    (s.onTask t f).accepted = s.accepted := rfl

@[simp] theorem channels_onChannel_self (s : State) (i : StreamId) (f : Channel → Channel) :
    (s.onChannel i f).channels i = f (s.channels i) := by simp [onChannel]

theorem channels_onChannel_ne (s : State) {i j : StreamId} (f : Channel → Channel) (h : j ≠ i) :
    (s.onChannel i f).channels j = s.channels j := by simp [onChannel, h]

/-- What an update of one connection leaves of it is left of all of them. -/
theorem field_onChannel {α : Type} (field : Channel → α) {s₀ s₁ : State} {j : StreamId}
    {f : Channel → Channel} (hs : s₁.channels = s₀.channels)
    (hf : field (f (s₀.channels j)) = field (s₀.channels j)) (i : StreamId) :
    field ((s₁.onChannel j f).channels i) = field (s₀.channels i) := by
  by_cases hj : i = j
  · subst hj
    rw [channels_onChannel_self, hs, hf]
  · rw [channels_onChannel_ne _ _ hj, hs]

@[simp] theorem pc_withCache (s : State) (c : Cache PeerId PeerConnectionMetadata) (t : TaskId) :
    (s.withCache c).pc t = s.pc t := rfl

@[simp] theorem tasks_withCache (s : State) (c : Cache PeerId PeerConnectionMetadata) :
    (s.withCache c).tasks = s.tasks := rfl

@[simp] theorem channels_withCache (s : State) (c : Cache PeerId PeerConnectionMetadata) :
    (s.withCache c).channels = s.channels := rfl

@[simp] theorem accepted_withCache (s : State) (c : Cache PeerId PeerConnectionMetadata) :
    (s.withCache c).accepted = s.accepted := rfl

@[simp] theorem connCache_withCache (s : State) (c : Cache PeerId PeerConnectionMetadata) :
    (s.withCache c).connCache = c := rfl

@[simp] theorem pc_connect_self (s : State) (address : IpAddr) :
    (s.connect address).pc s.accepted = .receive .lock := by simp [connect, pc, onTask]

theorem pc_connect_ne (s : State) (address : IpAddr) {t : TaskId} (h : t ≠ s.accepted) :
    (s.connect address).pc t = s.pc t := by simp [connect, pc, onTask, h]

theorem tasks_connect_ne (s : State) (address : IpAddr) {t : TaskId} (h : t ≠ s.accepted) :
    (s.connect address).tasks t = s.tasks t := by simp [connect, onTask, h]

@[simp] theorem channels_connect (s : State) (address : IpAddr) :
    (s.connect address).channels = s.channels := rfl

@[simp] theorem connCache_connect (s : State) (address : IpAddr) :
    (s.connect address).connCache = s.connCache := rfl

@[simp] theorem accepted_connect (s : State) (address : IpAddr) :
    (s.connect address).accepted = s.accepted + 1 := rfl

end State

namespace Channel

variable (c : Channel)

@[simp] theorem arrive_unread (bytes : List UInt8) :
    (c.arrive bytes).unread = c.unread ++ bytes := rfl

@[simp] theorem arrive_toBufWriter (bytes : List UInt8) :
    (c.arrive bytes).toBufWriter = c.toBufWriter := rfl

@[simp] theorem close_unread : c.close.unread = c.unread := rfl

@[simp] theorem close_toBufWriter : c.close.toBufWriter = c.toBufWriter := rfl

@[simp] theorem take_unread (t : TaskId) : (c.take t).unread = c.unread := rfl

@[simp] theorem take_toBufWriter (t : TaskId) : (c.take t).toBufWriter = c.toBufWriter := rfl

@[simp] theorem release_unread : c.release.unread = c.unread := rfl

@[simp] theorem release_toBufWriter : c.release.toBufWriter = c.toBufWriter := rfl

@[simp] theorem consume_unread (n : ℕ) : (c.consume n).unread = c.unread.drop n := rfl

@[simp] theorem consume_toBufWriter (n : ℕ) : (c.consume n).toBufWriter = c.toBufWriter := rfl

@[simp] theorem onWriter_unread (f : BufWriter → BufWriter) :
    (c.onWriter f).unread = c.unread := rfl

@[simp] theorem onWriter_toBufWriter (f : BufWriter → BufWriter) :
    (c.onWriter f).toBufWriter = f c.toBufWriter := rfl

@[simp] theorem writeAll_unread (bytes : List UInt8) : (c.writeAll bytes).unread = c.unread := rfl

end Channel

/-! ### Who holds a mutex -/

namespace Pc

/-- The stream whose mutex the task holds. -/
def holds (t : TaskId) : Pc → Option StreamId
  | .receive .read => some t
  | .command _ _ connMd .write => some connMd.stream
  | .command _ _ connMd .flush => some connMd.stream
  | .ack _ connMd _ .read => some connMd.stream
  | .reply _ .write => some t
  | .reply _ .flush => some t
  | _ => none

variable {pc : Pc} {t : TaskId} {i : StreamId}

theorem holds_of_wants (h : pc.wants t = some i) : pc.holds t = none := by
  cases pc with
  | receive phase => cases phase <;> simp_all [wants, holds]
  | command _ _ _ phase => cases phase <;> simp_all [wants, holds]
  | ack _ _ _ phase => cases phase <;> simp_all [wants, holds]
  | reply _ phase => cases phase <;> simp_all [wants, holds]
  | register id => cases h
  | lookup inquiry id => cases h
  | ended how => cases h

theorem holds_granted (h : pc.wants t = some i) : pc.granted.holds t = some i := by
  cases pc with
  | receive phase => cases phase <;> simp_all [wants, holds, granted]
  | command _ _ _ phase => cases phase <;> simp_all [wants, holds, granted]
  | ack _ _ _ phase => cases phase <;> simp_all [wants, holds, granted]
  | reply _ phase => cases phase <;> simp_all [wants, holds, granted]
  | register id => cases h
  | lookup inquiry id => cases h
  | ended how => cases h

theorem holds_of_reads (h : pc.reads t = some i) : pc.holds t = some i := by
  cases pc with
  | receive phase => cases phase <;> simp_all [reads, holds]
  | ack _ _ _ phase => cases phase <;> simp_all [reads, holds]
  | command _ _ _ phase => cases h
  | reply _ phase => cases h
  | register id => cases h
  | lookup inquiry id => cases h
  | ended how => cases h

/-- The two kinds of tasks that write. -/
theorem writes_cases {phase : WritePhase} (h : pc.writes t phase = some i) :
    (∃ inquiry id connMd, pc = .command inquiry id connMd phase ∧ connMd.stream = i) ∨
      ∃ frame, pc = .reply frame phase ∧ t = i := by
  cases pc with
  | command inquiry id connMd phase' =>
      by_cases hphase : phase' = phase
      · subst hphase
        exact Or.inl ⟨inquiry, id, connMd, rfl, by simpa [writes] using h⟩
      · simp [writes, hphase] at h
  | reply frame phase' =>
      by_cases hphase : phase' = phase
      · subst hphase
        exact Or.inr ⟨frame, rfl, by simpa [writes] using h⟩
      · simp [writes, hphase] at h
  | receive phase' => cases h
  | ack _ _ _ phase' => cases h
  | register id => cases h
  | lookup inquiry id => cases h
  | ended how => cases h

/-- The two kinds of tasks that read. -/
theorem reads_cases (h : pc.reads t = some i) :
    pc = .receive .read ∧ t = i ∨
      ∃ id connMd buffer, pc = .ack id connMd buffer .read ∧ connMd.stream = i := by
  cases pc with
  | receive phase =>
      cases phase with
      | lock => cases h
      | read => exact Or.inl ⟨rfl, by simpa [reads] using h⟩
  | ack id connMd buffer phase =>
      cases phase with
      | lock => cases h
      | read => exact Or.inr ⟨id, connMd, buffer, rfl, by simpa [reads] using h⟩
  | command _ _ _ phase => cases h
  | reply _ phase => cases h
  | register id => cases h
  | lookup inquiry id => cases h
  | ended how => cases h

end Pc

/-- What the dispatcher chooses, by what the buffer parses to. -/
theorem dispatch_cases (health : HealthStatus) (buffer : BytesMut) :
    dispatch health buffer = .receive .lock ∧
        (parseFrame buffer : Except (Fault IoError) (Option RelayFrames)) = .ok none ∨
      (∃ id, dispatch health buffer = .register id) ∨
      (∃ inquiry id, dispatch health buffer = .lookup inquiry id) ∨
      dispatch health buffer = .reply (.pingResult health) .lock ∨
      ∃ how, dispatch health buffer = .ended how := by
  cases hparse : (parseFrame buffer : Except (Fault IoError) (Option RelayFrames)) with
  | error φ => simp [dispatch, hparse]
  | ok result =>
      cases result with
      | none => simp [dispatch, hparse]
      | some frame => cases frame <;> simp [dispatch, hparse]

/-- What a probe does with what it has read. -/
theorem afterAck_cases (id : PeerId) (connMd : PeerConnectionMetadata) (elapsed : Duration)
    (buffer : BytesMut) :
    afterAck id connMd elapsed buffer = .ack id connMd buffer .lock ∨
      (∃ info, afterAck id connMd elapsed buffer = .reply (.probeResult info) .lock) ∨
      ∃ how, afterAck id connMd elapsed buffer = .ended how := by
  cases hparse : (parseFrame buffer : Except (Fault IoError) (Option RelayFrames)) with
  | error φ => simp [afterAck, hparse]
  | ok result =>
      cases result with
      | none => simp [afterAck, hparse]
      | some frame => cases frame <;> simp [afterAck, hparse]

theorem dispatch_holds (health : HealthStatus) (buffer : BytesMut) (t : TaskId) :
    (dispatch health buffer).holds t = none := by
  rcases dispatch_cases health buffer with ⟨h, _⟩ | ⟨_, h⟩ | ⟨_, _, h⟩ | h | ⟨_, h⟩ <;>
    rw [h] <;> rfl

theorem afterAck_holds (id : PeerId) (connMd : PeerConnectionMetadata) (elapsed : Duration)
    (buffer : BytesMut) (t : TaskId) : (afterAck id connMd elapsed buffer).holds t = none := by
  rcases afterAck_cases id connMd elapsed buffer with h | ⟨_, h⟩ | ⟨_, h⟩ <;> rw [h] <;> rfl

/-- Every mutex is held by the task whose place in its program says so. -/
def Held (s : State) : Prop :=
  ∀ t i, (s.pc t).holds t = some i ↔ (s.channels i).holder = some t

/-- Two tasks do not hold one mutex. -/
theorem Held.unique (h : Held s) {t t' : TaskId} {i : StreamId} (ht : (s.pc t).holds t = some i)
    (ht' : (s.pc t').holds t' = some i) : t = t' := by
  have hholder := (h t i).mp ht
  rw [(h t' i).mp ht'] at hholder
  exact (Option.some.inj hholder).symm

/-- A step of one task keeps `Held` if it does for that task and leaves the others theirs. -/
theorem Held.of_step (h : Held s) {t : TaskId} (hpc : ∀ t', t' ≠ t → s'.pc t' = s.pc t')
    (hself : ∀ i, (s'.pc t).holds t = some i ↔ (s'.channels i).holder = some t)
    (hholder : ∀ i t', t' ≠ t →
      ((s'.channels i).holder = some t' ↔ (s.channels i).holder = some t')) : Held s' := by
  intro t' i
  by_cases ht : t' = t
  · subst ht
    exact hself i
  · rw [hpc t' ht, hholder i t' ht]
    exact h t' i

/-- A task gives the mutex back. -/
theorem Held.release (h : Held s) {t : TaskId} {i : StreamId} (hholds : (s.pc t).holds t = some i)
    {f : Task → Task} (hf : (f (s.tasks t)).pc.holds t = none) {g : Channel → Channel}
    (hg : (g (s.channels i)).holder = none) : Held ((s.onTask t f).onChannel i g) := by
  have hholder := (h t i).mp hholds
  refine h.of_step (fun t' ht => s.pc_onTask_ne f ht) ?_ ?_
  · intro j
    rw [State.pc_onChannel, State.pc_onTask_self, hf]
    by_cases hj : j = i
    · subst hj
      simp [hg]
    · rw [State.channels_onChannel_ne _ _ hj, State.channels_onTask, ← h t j, hholds]
      simpa using fun heq => hj heq.symm
  · intro j t' ht
    by_cases hj : j = i
    · subst hj
      simp [hg, hholder, Ne.symm ht]
    · rw [State.channels_onChannel_ne _ _ hj, State.channels_onTask]

/-- A task goes on, and every mutex stays where it is. -/
theorem Held.stay (h : Held s) {t : TaskId} {f : Task → Task}
    (hf : (f (s.tasks t)).pc.holds t = (s.pc t).holds t) : Held (s.onTask t f) := by
  refine h.of_step (fun t' ht => s.pc_onTask_ne f ht) ?_ (fun _ _ _ => Iff.rfl)
  intro i
  rw [State.pc_onTask_self, hf]
  exact h t i

/-- A channel changes, but not the holder of its mutex. -/
theorem Held.onChannel (h : Held s) {i : StreamId} {g : Channel → Channel}
    (hg : (g (s.channels i)).holder = (s.channels i).holder) : Held (s.onChannel i g) := by
  intro t j
  rw [State.pc_onChannel, h t j]
  by_cases hj : j = i
  · subst hj
    rw [State.channels_onChannel_self, hg]
  · rw [State.channels_onChannel_ne _ _ hj]

/-- A task takes a mutex. -/
theorem Held.take (h : Held s) {t : TaskId} {i : StreamId} (hwants : (s.pc t).wants t = some i)
    (hfree : (s.channels i).holder = none) :
    Held ((s.onTask t fun task => task.goto task.pc.granted).onChannel i (Channel.take t)) := by
  refine h.of_step (t := t) (fun t' ht => s.pc_onTask_ne _ ht) ?_ ?_
  · intro j
    rw [State.pc_onChannel, State.pc_onTask_self,
      show (Task.goto (s.tasks t).pc.granted (s.tasks t)).pc.holds t = some i from
        Pc.holds_granted hwants]
    by_cases hj : j = i
    · subst hj
      simp [Channel.take]
    · rw [State.channels_onChannel_ne _ _ hj, State.channels_onTask, ← h t j,
        Pc.holds_of_wants hwants]
      simpa using fun heq => hj heq.symm
  · intro j t' ht
    by_cases hj : j = i
    · subst hj
      simp [Channel.take, hfree, Ne.symm ht]
    · rw [State.channels_onChannel_ne _ _ hj, State.channels_onTask]

/-! ### What a task does keeps the mutexes in order -/

namespace Pc

variable {pc : Pc} {t : TaskId} {i : StreamId}

theorem holds_of_writes {phase : WritePhase} (hphase : phase ≠ .lock)
    (h : pc.writes t phase = some i) : pc.holds t = some i := by
  rcases writes_cases h with ⟨_, _, connMd, rfl, rfl⟩ | ⟨_, rfl, rfl⟩
  · cases phase with
    | lock => exact absurd rfl hphase
    | write => rfl
    | flush => rfl
  · cases phase with
    | lock => exact absurd rfl hphase
    | write => rfl
    | flush => rfl

theorem holds_written (h : pc.writes t .write = some i) : pc.written.holds t = some i := by
  rcases writes_cases h with ⟨_, _, _, rfl, rfl⟩ | ⟨_, rfl, rfl⟩
  · rfl
  · rfl

theorem holds_afterFailure {phase : WritePhase} (h : pc.writes t phase = some i) :
    pc.afterFailure.holds t = none := by
  rcases writes_cases h with ⟨_, _, _, rfl, rfl⟩ | ⟨_, rfl, rfl⟩
  · rfl
  · rfl

theorem holds_afterWrite (health : HealthStatus) (buffer : BytesMut) {phase : WritePhase}
    (h : pc.writes t phase = some i) : (pc.afterWrite health buffer).holds t = none := by
  rcases writes_cases h with ⟨inquiry, _, _, rfl, rfl⟩ | ⟨_, rfl, rfl⟩
  · cases inquiry with
    | probe => rfl
    | doConnect => rfl
  · exact dispatch_holds health buffer t

theorem holds_afterEnd (buffer : BytesMut) (h : pc.reads t = some i) :
    (pc.afterEnd buffer).holds t = none := by
  rcases reads_cases h with ⟨rfl, rfl⟩ | ⟨_, _, _, rfl, rfl⟩
  · rw [afterEnd]
    split
    · rfl
    · rfl
  · rw [afterEnd]
    split
    · rfl
    · rfl

end Pc

/-- The parts of a task that reads. -/
theorem received_cases {t : TaskId} {i : StreamId} (h : (s.pc t).reads t = some i)
    (elapsed : Duration) (bytes : List UInt8) :
    s.pc t = .receive .read ∧ t = i ∧
        Task.received s.healthStatus elapsed bytes (s.tasks t)
          = ⟨(s.tasks t).address, (s.tasks t).buffer.extend bytes,
            dispatch s.healthStatus ((s.tasks t).buffer.extend bytes)⟩ ∨
      ∃ id connMd buffer, s.pc t = .ack id connMd buffer .read ∧ connMd.stream = i ∧
        Task.received s.healthStatus elapsed bytes (s.tasks t)
          = (s.tasks t).goto (afterAck id connMd elapsed (buffer.extend bytes)) := by
  rcases Pc.reads_cases h with ⟨hpc, hi⟩ | ⟨id, connMd, buffer, hpc, hi⟩
  · refine Or.inl ⟨hpc, hi, ?_⟩
    rw [Task.received, show (s.tasks t).pc = _ from hpc]
  · refine Or.inr ⟨id, connMd, buffer, hpc, hi, ?_⟩
    rw [Task.received, show (s.tasks t).pc = _ from hpc]

theorem received_holds {t : TaskId} {i : StreamId} (h : (s.pc t).reads t = some i)
    (elapsed : Duration) (bytes : List UInt8) :
    (Task.received s.healthStatus elapsed bytes (s.tasks t)).pc.holds t = none := by
  rcases received_cases h elapsed bytes with ⟨_, _, heq⟩ | ⟨_, _, _, _, _, heq⟩
  · rw [heq]
    exact dispatch_holds _ _ t
  · rw [heq]
    exact afterAck_holds _ _ _ _ t

/-- Nothing has happened to the connections that are not accepted yet, and the mutexes are in
order. -/
structure Tidy (s : State) : Prop where
  idle : ∀ t, s.accepted ≤ t → s.pc t = .ended .ok
  silent : ∀ i, s.accepted ≤ i → (s.channels i).unread = []
  held : Held s

theorem Tidy.init : Tidy State.init where
  idle _ _ := rfl
  silent _ _ := rfl
  held _ _ := by simp [State.init, State.pc, Pc.holds, Channel.new]

/-- A task that is not at its end belongs to an accepted connection. -/
theorem Tidy.lt (h : Tidy s) {t : TaskId} (hpc : s.pc t ≠ .ended .ok) : t < s.accepted := by
  by_contra hge
  exact hpc (h.idle t (Nat.le_of_not_lt hge))

/-- Every step keeps the mutexes in order. -/
theorem held_step (h : Tidy s) (hstep : step cfg s a = some s') : Held s' := by
  cases step_cases hstep with
  | connect address =>
      intro t i
      by_cases ht : t = s.accepted
      · subst ht
        have hnone := h.held s.accepted i
        rw [h.idle s.accepted le_rfl] at hnone
        rw [State.pc_connect_self, State.channels_connect, ← hnone]
        simp [Pc.holds]
      · rw [State.pc_connect_ne s address ht, State.channels_connect]
        exact h.held t i
  | send hi hopen hbytes => exact h.held.onChannel rfl
  | answer hi hopen => exact h.held.onChannel rfl
  | close hi hopen => exact h.held.onChannel rfl
  | lock hwants hfree => exact h.held.take hwants hfree
  | readEnd hreads hempty hclosed =>
      exact h.held.release (Pc.holds_of_reads hreads) (Pc.holds_afterEnd _ hreads) rfl
  | read hreads hpos hn hroom =>
      exact h.held.release (Pc.holds_of_reads hreads) (received_holds hreads _ _) rfl
  | write hwrites hframe =>
      have hholds := Pc.holds_of_writes (by decide) hwrites
      exact (h.held.stay ((Pc.holds_written hwrites).trans hholds.symm)).onChannel rfl
  | writeFailed hwrites =>
      exact h.held.release (Pc.holds_of_writes (by decide) hwrites)
        (Pc.holds_afterFailure hwrites) rfl
  | flush hwrites =>
      exact h.held.release (Pc.holds_of_writes (by decide) hwrites)
        (Pc.holds_afterWrite _ _ hwrites) rfl
  | flushFailed hwrites =>
      exact h.held.release (Pc.holds_of_writes (by decide) hwrites)
        (Pc.holds_afterFailure hwrites) rfl
  | insertNew hpc hfree hnew => exact h.held.stay (by rw [hpc]; rfl)
  | insertAgain hpc hfree hold => exact h.held.stay (by rw [hpc]; rfl)
  | found hpc hfound => exact h.held.stay (by rw [hpc]; rfl)
  | @missing t inquiry id hpc hmissing => exact h.held.stay (by rw [hpc]; rfl)

/-- The task that makes a step. -/
def Action.task : Action → Option TaskId
  | .lock t => some t
  | .read t _ _ => some t
  | .writeAll t _ => some t
  | .flush t _ => some t
  | .access t => some t
  | _ => none

/-- A step of one task leaves the others as they are. -/
theorem tasks_step_ne (hstep : step cfg s a = some s') {t : TaskId} (ht : a.task ≠ some t)
    (hold : t < s.accepted ∨ s'.accepted ≤ t) : s'.tasks t = s.tasks t := by
  have hne : ∀ {t' : TaskId}, some t' ≠ some t → t ≠ t' := fun h heq => h (heq ▸ rfl)
  cases step_cases hstep with
  | connect address =>
      refine s.tasks_connect_ne address ?_
      rintro rfl
      rw [State.accepted_connect] at hold
      rcases hold with hold | hold
      · exact Nat.lt_irrefl _ hold
      · exact Nat.not_succ_le_self _ hold
  | send hi hopen hbytes => rfl
  | answer hi hopen => rfl
  | close hi hopen => rfl
  | lock hwants hfree => exact s.tasks_onTask_ne _ (hne ht)
  | readEnd hreads hempty hclosed => exact s.tasks_onTask_ne _ (hne ht)
  | read hreads hpos hn hroom => exact s.tasks_onTask_ne _ (hne ht)
  | write hwrites hframe => exact s.tasks_onTask_ne _ (hne ht)
  | writeFailed hwrites => exact s.tasks_onTask_ne _ (hne ht)
  | flush hwrites => exact s.tasks_onTask_ne _ (hne ht)
  | flushFailed hwrites => exact s.tasks_onTask_ne _ (hne ht)
  | insertNew hpc hfree hnew => exact s.tasks_onTask_ne _ (hne ht)
  | insertAgain hpc hfree hold => exact s.tasks_onTask_ne _ (hne ht)
  | found hpc hfound => exact s.tasks_onTask_ne _ (hne ht)
  | missing hpc hmissing => exact s.tasks_onTask_ne _ (hne ht)

/-- A task that makes a step is not at its end. -/
theorem task_not_ended (hstep : step cfg s a = some s') {t : TaskId} (ht : a.task = some t) :
    s.pc t ≠ .ended .ok := by
  intro hpc
  cases step_cases hstep with
  | connect address => cases ht
  | send hi hopen hbytes => cases ht
  | answer hi hopen => cases ht
  | close hi hopen => cases ht
  | lock hwants hfree =>
      cases ht
      rw [hpc] at hwants
      cases hwants
  | readEnd hreads hempty hclosed =>
      cases ht
      rw [hpc] at hreads
      cases hreads
  | read hreads hpos hn hroom =>
      cases ht
      rw [hpc] at hreads
      cases hreads
  | write hwrites hframe =>
      cases ht
      rw [hpc] at hwrites
      cases hwrites
  | writeFailed hwrites =>
      cases ht
      rw [hpc] at hwrites
      cases hwrites
  | flush hwrites =>
      cases ht
      rw [hpc] at hwrites
      cases hwrites
  | flushFailed hwrites =>
      cases ht
      rw [hpc] at hwrites
      cases hwrites
  | insertNew hpc' hfree hnew =>
      cases ht
      cases hpc.symm.trans hpc'
  | insertAgain hpc' hfree hold =>
      cases ht
      cases hpc.symm.trans hpc'
  | found hpc' hfound =>
      cases ht
      cases hpc.symm.trans hpc'
  | missing hpc' hmissing =>
      cases ht
      cases hpc.symm.trans hpc'

theorem accepted_step (hstep : step cfg s a = some s') : s.accepted ≤ s'.accepted := by
  cases step_cases hstep with
  | connect address => exact Nat.le_succ _
  | _ => exact le_rfl

/-- A step of a task accepts no connection. -/
theorem accepted_of_task (hstep : step cfg s a = some s') {t : TaskId} (ht : a.task = some t) :
    s'.accepted = s.accepted := by
  cases step_cases hstep with
  | connect address => cases ht
  | _ => rfl

/-- A step of a task leaves the places of all others as they are. -/
theorem pc_step_other (hstep : step cfg s a = some s') {t t' : TaskId} (ht : a.task = some t)
    (hne : t' ≠ t) : s'.pc t' = s.pc t' := by
  have hold : t' < s.accepted ∨ s'.accepted ≤ t' := by
    rw [accepted_of_task hstep ht]
    exact Nat.lt_or_ge t' s.accepted
  rw [State.pc, tasks_step_ne hstep (fun heq => hne (Option.some.inj (heq.symm.trans ht))) hold]
  rfl

/-- The bytes that an action brings in from peer `i`. -/
def Action.brings (i : StreamId) : Action → List UInt8
  | .send j bytes => if i = j then bytes else []
  | .answer j => if i = j then RelayFrames.probeAck.toBeBytes else []
  | _ => []

theorem Action.brings_of_task {a : Action} {t : TaskId} (h : a.task = some t) (i : StreamId) :
    a.brings i = [] := by
  cases a with
  | connect address => cases h
  | send j bytes => cases h
  | answer j => cases h
  | close j => cases h
  | _ => rfl

/-- How many bytes an action takes from stream `i`. -/
def Action.takes (s : State) (i : StreamId) : Action → ℕ
  | .read t n _ => if (s.pc t).reads t = some i then n else 0
  | _ => 0

/-- Bytes come in on accepted connections only. -/
theorem brings_accepted (hstep : step cfg s a = some s') {i : StreamId}
    (hbrings : a.brings i ≠ []) : i < s.accepted := by
  cases step_cases hstep with
  | @send j bytes hj hopen hbytes =>
      by_cases hi : i = j
      · exact hi ▸ hj
      · exact absurd (if_neg hi) hbrings
  | @answer j hj hopen =>
      by_cases hi : i = j
      · exact hi ▸ hj
      · exact absurd (if_neg hi) hbrings
  | _ => exact absurd rfl hbrings

/-- What is unread on a stream after a step: a task takes from it, or a peer adds to it. -/
theorem unread_step (hstep : step cfg s a = some s') (i : StreamId) :
    (s'.channels i).unread = (s.channels i).unread.drop (a.takes s i) ++ a.brings i := by
  have hkept : ∀ {c : List UInt8}, c = (s.channels i).unread → c = (s.channels i).unread ++ [] :=
    fun h => h.trans (List.append_nil _).symm
  cases step_cases hstep with
  | connect address => exact hkept rfl
  | @send j bytes hj hopen hbytes =>
      by_cases hi : i = j
      · subst hi
        simp [Action.brings, Action.takes]
      · rw [State.channels_onChannel_ne _ _ hi]
        simp [Action.brings, Action.takes, hi]
  | @answer j hj hopen =>
      by_cases hi : i = j
      · subst hi
        simp [Action.brings, Action.takes]
      · rw [State.channels_onChannel_ne _ _ hi]
        simp [Action.brings, Action.takes, hi]
  | close hi hopen => exact hkept (State.field_onChannel Channel.unread rfl rfl i)
  | lock hwants hfree => exact hkept (State.field_onChannel Channel.unread rfl rfl i)
  | readEnd hreads hempty hclosed =>
      rw [Action.takes, ite_self]
      exact hkept (State.field_onChannel Channel.unread rfl rfl i)
  | @read t j n elapsed hreads hpos hn hroom =>
      by_cases hi : i = j
      · subst hi
        simp [Action.takes, Action.brings, hreads]
      · have htakes : (Action.read t n elapsed).takes s i = 0 := by
          rw [Action.takes, hreads, if_neg fun heq => hi (Option.some.inj heq).symm]
        rw [State.channels_onChannel_ne _ _ hi, State.channels_onTask, htakes]
        exact hkept rfl
  | write hwrites hframe => exact hkept (State.field_onChannel Channel.unread rfl rfl i)
  | writeFailed hwrites => exact hkept (State.field_onChannel Channel.unread rfl rfl i)
  | flush hwrites => exact hkept (State.field_onChannel Channel.unread rfl rfl i)
  | flushFailed hwrites => exact hkept (State.field_onChannel Channel.unread rfl rfl i)
  | insertNew hpc hfree hnew => exact hkept rfl
  | insertAgain hpc hfree hold => exact hkept rfl
  | found hpc hfound => exact hkept rfl
  | missing hpc hmissing => exact hkept rfl

/-- What a step does to the end of a stream: only its peer closes it. -/
theorem closed_step (hstep : step cfg s a = some s') (i : StreamId) :
    (s'.channels i).closed = (s.channels i).closed ∨
      a = .close i ∧ (s'.channels i).closed = true := by
  cases step_cases hstep with
  | connect address => exact Or.inl rfl
  | send hi hopen hbytes => exact Or.inl (State.field_onChannel Channel.closed rfl rfl i)
  | answer hi hopen => exact Or.inl (State.field_onChannel Channel.closed rfl rfl i)
  | @close j hi hopen =>
      by_cases hj : i = j
      · subst hj
        exact Or.inr ⟨rfl, by rw [State.channels_onChannel_self]; rfl⟩
      · exact Or.inl (by rw [State.channels_onChannel_ne _ _ hj])
  | lock hwants hfree => exact Or.inl (State.field_onChannel Channel.closed rfl rfl i)
  | readEnd hreads hempty hclosed => exact Or.inl (State.field_onChannel Channel.closed rfl rfl i)
  | read hreads hpos hn hroom => exact Or.inl (State.field_onChannel Channel.closed rfl rfl i)
  | write hwrites hframe => exact Or.inl (State.field_onChannel Channel.closed rfl rfl i)
  | writeFailed hwrites => exact Or.inl (State.field_onChannel Channel.closed rfl rfl i)
  | flush hwrites => exact Or.inl (State.field_onChannel Channel.closed rfl rfl i)
  | flushFailed hwrites => exact Or.inl (State.field_onChannel Channel.closed rfl rfl i)
  | insertNew hpc hfree hnew => exact Or.inl rfl
  | insertAgain hpc hfree hold => exact Or.inl rfl
  | found hpc hfound => exact Or.inl rfl
  | missing hpc hmissing => exact Or.inl rfl

/-- Every step keeps the system tidy. -/
theorem tidy_step (h : Tidy s) (hstep : step cfg s a = some s') : Tidy s' where
  idle t ht := by
    have hle := accepted_step hstep
    have hpc := h.idle t (Nat.le_trans hle ht)
    have htask : a.task ≠ some t := fun heq => task_not_ended hstep heq hpc
    show (s'.tasks t).pc = _
    rw [tasks_step_ne hstep htask (Or.inr ht)]
    exact hpc
  silent i hi := by
    have hle := accepted_step hstep
    have hnil := h.silent i (Nat.le_trans hle hi)
    rw [unread_step hstep i, hnil, List.drop_nil, List.nil_append]
    by_contra hne
    exact absurd (brings_accepted hstep hne) (Nat.not_lt.mpr (Nat.le_trans hle hi))
  held := held_step h hstep

end Pcopy.Relay
