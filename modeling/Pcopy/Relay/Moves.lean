import Pcopy.Relay.SystemInvariants

/-!
# What one task does in a step

`Kind` tells what a step does to the whole system.  Here the same is told of the task that
makes the step, with its place in the program spelled out, and of the parts of the state that
the tasks share.

* `moves_cases` — the moves of a task;
* `registry_step`, `writer_step` — what a step does to the registry and to what is written.
-/

namespace Pcopy.Relay

open Pcopy.Lib

variable {cfg : Config} {s s' : State} {a : Action} {t : TaskId}

/-- The moves of task `t`: by the place where it is, the action and what the task is then. -/
inductive Move (s : State) (t : TaskId) : Action → Task → Prop where
  | lockReceive (hpc : s.pc t = .receive .lock) :
      Move s t (.lock t) ((s.tasks t).goto (.receive .read))
  | lockCommand {inquiry : Inquiry} {id : PeerId} {connMd : PeerConnectionMetadata}
      (hpc : s.pc t = .command inquiry id connMd .lock) :
      Move s t (.lock t) ((s.tasks t).goto (.command inquiry id connMd .write))
  | lockAck {id : PeerId} {connMd : PeerConnectionMetadata} {buffer : BytesMut}
      (hpc : s.pc t = .ack id connMd buffer .lock) :
      Move s t (.lock t) ((s.tasks t).goto (.ack id connMd buffer .read))
  | lockReply {frame : PeerFrames} (hpc : s.pc t = .reply frame .lock) :
      Move s t (.lock t) ((s.tasks t).goto (.reply frame .write))
  | endReceive {elapsed : Duration} {how : TaskEnd} (hpc : s.pc t = .receive .read)
      (hclosed : (s.channels t).closed = true) :
      Move s t (.read t 0 elapsed) ((s.tasks t).goto (.ended how))
  | endAck {id : PeerId} {connMd : PeerConnectionMetadata} {buffer : BytesMut}
      {elapsed : Duration} {pc : Pc} (hpc : s.pc t = .ack id connMd buffer .read)
      (hclosed : (s.channels connMd.stream).closed = true)
      (hnext : buffer.bytes = [] ∧ pc = .reply (.probeResult none) .lock ∨
        buffer.bytes ≠ [] ∧ pc = .ended .panicked) :
      Move s t (.read t 0 elapsed) ((s.tasks t).goto pc)
  | readReceive {n : ℕ} {elapsed : Duration} (hpc : s.pc t = .receive .read) (hpos : 0 < n)
      (hn : n ≤ (s.channels t).unread.length) :
      Move s t (.read t n elapsed) ⟨(s.tasks t).address,
        (s.tasks t).buffer.extend ((s.channels t).unread.take n),
        dispatch s.healthStatus ((s.tasks t).buffer.extend ((s.channels t).unread.take n))⟩
  | readAck {id : PeerId} {connMd : PeerConnectionMetadata} {buffer : BytesMut} {n : ℕ}
      {elapsed : Duration} (hpc : s.pc t = .ack id connMd buffer .read) (hpos : 0 < n)
      (hn : n ≤ (s.channels connMd.stream).unread.length) :
      Move s t (.read t n elapsed) ((s.tasks t).goto
        (afterAck id connMd elapsed (buffer.extend ((s.channels connMd.stream).unread.take n))))
  | writeCommand {inquiry : Inquiry} {id : PeerId} {connMd : PeerConnectionMetadata}
      (hpc : s.pc t = .command inquiry id connMd .write) :
      Move s t (.writeAll t none) ((s.tasks t).goto (.command inquiry id connMd .flush))
  | writeReply {frame : PeerFrames} (hpc : s.pc t = .reply frame .write) :
      Move s t (.writeAll t none) ((s.tasks t).goto (.reply frame .flush))
  | commandFailed {inquiry : Inquiry} {id : PeerId} {connMd : PeerConnectionMetadata}
      {phase : WritePhase} {a : Action} {n : ℕ} (hpc : s.pc t = .command inquiry id connMd phase)
      (ha : a = .writeAll t (some n) ∨ a = .flush t (some n)) :
      Move s t a ((s.tasks t).goto (.reply inquiry.refusal .lock))
  | replyFailed {frame : PeerFrames} {phase : WritePhase} {a : Action} {n : ℕ}
      (hpc : s.pc t = .reply frame phase)
      (ha : a = .writeAll t (some n) ∨ a = .flush t (some n)) :
      Move s t a ((s.tasks t).goto (.ended .err))
  | flushProbe {id : PeerId} {connMd : PeerConnectionMetadata}
      (hpc : s.pc t = .command .probe id connMd .flush) :
      Move s t (.flush t none) ((s.tasks t).goto
        (.ack id connMd (BytesMut.withCapacity Server.probeAckLength) .lock))
  | flushDoConnect {id : PeerId} {connMd : PeerConnectionMetadata}
      (hpc : s.pc t = .command .doConnect id connMd .flush) :
      Move s t (.flush t none) ((s.tasks t).goto (.reply (.doConnectResult .success) .lock))
  | flushReply {frame : PeerFrames} (hpc : s.pc t = .reply frame .flush) :
      Move s t (.flush t none) ((s.tasks t).goto (dispatch s.healthStatus (s.tasks t).buffer))
  | insertNew {id : PeerId} (hpc : s.pc t = .register id) (hnew : s.connCache.get id = none) :
      Move s t (.access t) ((s.tasks t).goto (.ended .panicked))
  | insertAgain {id : PeerId} {old : PeerConnectionMetadata} (hpc : s.pc t = .register id)
      (hold : s.connCache.get id = some old) :
      Move s t (.access t) ((s.tasks t).goto (.reply (.registerResult .success) .lock))
  | found {inquiry : Inquiry} {id : PeerId} {connMd : PeerConnectionMetadata}
      (hpc : s.pc t = .lookup inquiry id) (hfound : s.connCache.get id = some connMd) :
      Move s t (.access t) ((s.tasks t).goto (.command inquiry id connMd .lock))
  | missing {inquiry : Inquiry} {id : PeerId} (hpc : s.pc t = .lookup inquiry id)
      (hmissing : s.connCache.get id = none) :
      Move s t (.access t) ((s.tasks t).goto (.reply inquiry.refusal .lock))

theorem Pc.wants_cases {pc : Pc} {i : StreamId} (h : pc.wants t = some i) :
    pc = .receive .lock ∨ (∃ inquiry id connMd, pc = .command inquiry id connMd .lock) ∨
      (∃ id connMd buffer, pc = .ack id connMd buffer .lock) ∨ ∃ frame, pc = .reply frame .lock := by
  cases pc with
  | receive phase => cases phase <;> simp_all [wants]
  | command _ _ _ phase => cases phase <;> simp_all [wants]
  | ack _ _ _ phase => cases phase <;> simp_all [wants]
  | reply _ phase => cases phase <;> simp_all [wants]
  | register id => cases h
  | lookup inquiry id => cases h
  | ended how => cases h

/-- A task whose write fails gives its request up. -/
theorem Move.failed {phase : WritePhase} {i : StreamId} {n : ℕ}
    (hwrites : (s.pc t).writes t phase = some i)
    (ha : a = .writeAll t (some n) ∨ a = .flush t (some n)) :
    Move s t a ((s.tasks t).goto (s.pc t).afterFailure) := by
  rcases Pc.writes_cases hwrites with ⟨inquiry, id, connMd, hpc, _⟩ | ⟨frame, hpc, _⟩
  · rw [hpc]
    exact .commandFailed hpc ha
  · rw [hpc]
    exact .replyFailed hpc ha

/-- **The moves of a task.** -/
theorem moves_cases (hstep : step cfg s a = some s') (ht : a.task = some t) :
    Move s t a (s'.tasks t) := by
  cases step_cases hstep with
  | connect address => cases ht
  | send hi hopen hbytes => cases ht
  | answer hi hopen => cases ht
  | close hi hopen => cases ht
  | lock hwants hfree =>
      cases ht
      rw [State.tasks_onChannel, State.tasks_onTask_self, show (s.tasks t).pc = s.pc t from rfl]
      rcases Pc.wants_cases hwants with hpc | ⟨_, _, _, hpc⟩ | ⟨_, _, _, hpc⟩ | ⟨_, hpc⟩
      · rw [hpc]
        exact .lockReceive hpc
      · rw [hpc]
        exact .lockCommand hpc
      · rw [hpc]
        exact .lockAck hpc
      · rw [hpc]
        exact .lockReply hpc
  | readEnd hreads hempty hclosed =>
      cases ht
      rw [State.tasks_onChannel, State.tasks_onTask_self, show (s.tasks t).pc = s.pc t from rfl]
      rcases Pc.reads_cases hreads with ⟨hpc, rfl⟩ | ⟨_, _, _, hpc, rfl⟩
      · rw [hpc, Pc.afterEnd]
        split
        · exact .endReceive hpc hclosed
        · exact .endReceive hpc hclosed
      · rw [hpc, Pc.afterEnd]
        split
        · exact .endAck hpc hclosed (Or.inl ⟨‹_›, rfl⟩)
        · exact .endAck hpc hclosed (Or.inr ⟨‹_›, rfl⟩)
  | @read t i n elapsed hreads hpos hn hroom =>
      cases ht
      rw [State.tasks_onChannel, State.tasks_onTask_self]
      rcases received_cases hreads elapsed ((s.channels i).unread.take n) with
        ⟨hpc, rfl, heq⟩ | ⟨_, _, _, hpc, rfl, heq⟩
      · rw [heq]
        exact .readReceive hpc hpos hn
      · rw [heq]
        exact .readAck hpc hpos hn
  | write hwrites hframe =>
      cases ht
      rw [State.tasks_onChannel, State.tasks_onTask_self, show (s.tasks t).pc = s.pc t from rfl]
      rcases Pc.writes_cases hwrites with ⟨_, _, _, hpc, _⟩ | ⟨_, hpc, _⟩
      · rw [hpc]
        exact .writeCommand hpc
      · rw [hpc]
        exact .writeReply hpc
  | writeFailed hwrites =>
      cases ht
      rw [State.tasks_onChannel, State.tasks_onTask_self]
      exact .failed hwrites (Or.inl rfl)
  | flush hwrites =>
      cases ht
      rw [State.tasks_onChannel, State.tasks_onTask_self, show (s.tasks t).pc = s.pc t from rfl]
      rcases Pc.writes_cases hwrites with ⟨inquiry, _, _, hpc, _⟩ | ⟨_, hpc, _⟩
      · cases inquiry with
        | probe =>
            rw [hpc]
            exact .flushProbe hpc
        | doConnect =>
            rw [hpc]
            exact .flushDoConnect hpc
      · rw [hpc]
        exact .flushReply hpc
  | flushFailed hwrites =>
      cases ht
      rw [State.tasks_onChannel, State.tasks_onTask_self]
      exact .failed hwrites (Or.inr rfl)
  | insertNew hpc hfree hnew =>
      cases ht
      rw [State.tasks_withCache, State.tasks_onTask_self]
      exact .insertNew hpc hnew
  | insertAgain hpc hfree hold =>
      cases ht
      rw [State.tasks_withCache, State.tasks_onTask_self]
      exact .insertAgain hpc hold
  | found hpc hfound =>
      cases ht
      rw [State.tasks_onTask_self]
      exact .found hpc hfound
  | missing hpc hmissing =>
      cases ht
      rw [State.tasks_onTask_self]
      exact .missing hpc hmissing

/-- A task after a step: it has moved, or it has just been spawned, or it is what it was. -/
theorem tasks_step (hstep : step cfg s a = some s') (t : TaskId) :
    a.task = some t ∧ Move s t a (s'.tasks t) ∨
      a.task ≠ some t ∧ s'.tasks t = s.tasks t ∨
      t = s.accepted ∧ a.task ≠ some t ∧
        ∃ address, s'.tasks t = ⟨address, Connection.newBuffer, .receive .lock⟩ := by
  by_cases ht : a.task = some t
  · exact Or.inl ⟨ht, moves_cases hstep ht⟩
  · right
    by_cases hold : t < s.accepted ∨ s'.accepted ≤ t
    · exact Or.inl ⟨ht, tasks_step_ne hstep ht hold⟩
    · right
      rw [not_or, Nat.not_lt, Nat.not_le] at hold
      cases step_cases hstep with
      | connect address =>
          have hnew : t = s.accepted := Nat.le_antisymm (Nat.le_of_lt_succ hold.2) hold.1
          subst hnew
          exact ⟨rfl, ht, address, by simp [State.connect]⟩
      | _ => exact absurd hold.2 (Nat.not_lt.mpr hold.1)

theorem Move.address {task' : Task} (hm : Move s t a task') :
    task'.address = (s.tasks t).address := by
  cases hm <;> rfl

/-- The address of a connection stays what it is. -/
theorem address_step (hstep : step cfg s a = some s') (hlt : t < s.accepted) :
    (s'.tasks t).address = (s.tasks t).address := by
  by_cases ht : a.task = some t
  · exact (moves_cases hstep ht).address
  · rw [tasks_step_ne hstep ht (Or.inl hlt)]

/-- What a step does to the registry: nothing, or it inserts the connection of a task that
handles a Register. -/
theorem registry_step (hstep : step cfg s a = some s') :
    s'.connCache = s.connCache ∧ (∀ t id, a = .access t → s.pc t ≠ .register id) ∨
      ∃ t id, a = .access t ∧ s.pc t = .register id ∧
        s'.connCache = (s.connCache.insert id ⟨t, (s.tasks t).address⟩).2 := by
  cases step_cases hstep with
  | insertNew hpc hfree hnew => exact Or.inr ⟨_, _, rfl, hpc, rfl⟩
  | insertAgain hpc hfree hold => exact Or.inr ⟨_, _, rfl, hpc, rfl⟩
  | found hpc hfound =>
      refine Or.inl ⟨rfl, ?_⟩
      rintro _ _ ⟨rfl⟩
      rw [hpc]
      exact Pc.noConfusion
  | missing hpc hmissing =>
      refine Or.inl ⟨rfl, ?_⟩
      rintro _ _ ⟨rfl⟩
      rw [hpc]
      exact Pc.noConfusion
  | _ => exact Or.inl ⟨rfl, fun _ _ h => nomatch h⟩

/-- What a step does to the `BufWriter` of a stream, where no write fails. -/
theorem writer_step (hstep : step cfg s a = some s') (i : StreamId)
    (hok : ∀ t n, a ≠ .writeAll t (some n) ∧ a ≠ .flush t (some n)) :
    (∃ t frame, a = .writeAll t none ∧ (s.pc t).writes t .write = some i ∧
        (s.pc t).frame (s.tasks t).address = some frame ∧
        (s'.channels i).toBufWriter = ((s.channels i).writeAll frame.toBeBytes).toBufWriter) ∨
      (∃ t, a = .flush t none ∧ (s.pc t).writes t .flush = some i ∧
        (s'.channels i).toBufWriter = (s.channels i).toBufWriter.drained) ∨
      (s'.channels i).toBufWriter = (s.channels i).toBufWriter ∧
        (∀ t, a = .writeAll t none → (s.pc t).writes t .write ≠ some i) ∧
        ∀ t, a = .flush t none → (s.pc t).writes t .flush ≠ some i := by
  cases step_cases hstep with
  | connect address => exact Or.inr (Or.inr ⟨rfl, nofun, nofun⟩)
  | send hi hopen hbytes =>
      exact Or.inr (Or.inr ⟨State.field_onChannel Channel.toBufWriter rfl rfl i, nofun, nofun⟩)
  | answer hi hopen =>
      exact Or.inr (Or.inr ⟨State.field_onChannel Channel.toBufWriter rfl rfl i, nofun, nofun⟩)
  | close hi hopen =>
      exact Or.inr (Or.inr ⟨State.field_onChannel Channel.toBufWriter rfl rfl i, nofun, nofun⟩)
  | lock hwants hfree =>
      exact Or.inr (Or.inr ⟨State.field_onChannel Channel.toBufWriter rfl rfl i, nofun, nofun⟩)
  | readEnd hreads hempty hclosed =>
      exact Or.inr (Or.inr ⟨State.field_onChannel Channel.toBufWriter rfl rfl i, nofun, nofun⟩)
  | read hreads hpos hn hroom =>
      exact Or.inr (Or.inr ⟨State.field_onChannel Channel.toBufWriter rfl rfl i, nofun, nofun⟩)
  | @write t j frame hwrites hframe =>
      by_cases hi : i = j
      · subst hi
        exact Or.inl ⟨t, frame, rfl, hwrites, hframe, by simp⟩
      · refine Or.inr (Or.inr ⟨by rw [State.channels_onChannel_ne _ _ hi, State.channels_onTask],
          ?_, nofun⟩)
        rintro _ ⟨rfl⟩ hwrites'
        exact hi (Option.some.inj (hwrites'.symm.trans hwrites))
  | @writeFailed t j n hwrites => exact absurd rfl (hok t n).1
  | @flush t j hwrites =>
      by_cases hi : i = j
      · subst hi
        exact Or.inr (Or.inl ⟨t, rfl, hwrites, by simp⟩)
      · refine Or.inr (Or.inr ⟨by rw [State.channels_onChannel_ne _ _ hi, State.channels_onTask],
          nofun, ?_⟩)
        rintro _ ⟨rfl⟩ hwrites'
        exact hi (Option.some.inj (hwrites'.symm.trans hwrites))
  | @flushFailed t j n hwrites => exact absurd rfl (hok t n).2
  | insertNew hpc hfree hnew => exact Or.inr (Or.inr ⟨rfl, nofun, nofun⟩)
  | insertAgain hpc hfree hold => exact Or.inr (Or.inr ⟨rfl, nofun, nofun⟩)
  | found hpc hfound => exact Or.inr (Or.inr ⟨rfl, nofun, nofun⟩)
  | missing hpc hmissing => exact Or.inr (Or.inr ⟨rfl, nofun, nofun⟩)

end Pcopy.Relay
