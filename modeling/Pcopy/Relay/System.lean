import Pcopy.Lib.Transition
import Pcopy.Relay.Server

/-!
# The relay as a system of tasks

Every accepted connection has a task that runs `process_connection` and a channel: the bytes
that have arrived from its peer, the mutex around its stream and the `BufWriter` in it.  One
step is one action of a peer or one of a task: taking a mutex, a read, a write, a flush, an
access to the registry.  Parsing and choosing what to do next belong to the step before.

A task between two steps is described by its `Pc`.  A task that looked a peer up holds the
entry, and with it the read lock of its shard, until the server's method returns.

Writes and flushes may fail, after any number of bytes, but no read does.

* `step` — the guarded step function;
* `step_cases` — everything a step can do, by the kind of step.
-/

namespace Pcopy.Relay

open Pcopy.Lib

/-- A task, by the number of its connection. -/
abbrev TaskId : Type := StreamId

/-! ### Where a task can be -/

/-- Where a task is that reads: before it has the mutex, or at the read. -/
inductive ReadPhase where
  | lock : ReadPhase
  | read : ReadPhase
  deriving DecidableEq

/-- Where a task is that writes a frame: before it has the mutex, at `write_all`, or at
`flush`. -/
inductive WritePhase where
  | lock : WritePhase
  | write : WritePhase
  | flush : WritePhase
  deriving DecidableEq

/-- The requests that look a peer up. -/
inductive Inquiry where
  | probe : Inquiry
  | doConnect : Inquiry
  deriving DecidableEq

/-- How a task ends. -/
inductive TaskEnd where
  | ok : TaskEnd
  | err : TaskEnd
  | panicked : TaskEnd
  deriving DecidableEq

/-- Where a task is between two steps: reading its next frame, before the insertion of an
entry, before the lookup of one, writing a command to the peer found, reading that peer's
answer to a probe, writing its reply, or at its end. -/
inductive Pc where
  | receive (phase : ReadPhase) : Pc
  | register (id : PeerId) : Pc
  | lookup (inquiry : Inquiry) (id : PeerId) : Pc
  | command (inquiry : Inquiry) (id : PeerId) (connMd : PeerConnectionMetadata)
      (phase : WritePhase) : Pc
  | ack (id : PeerId) (connMd : PeerConnectionMetadata) (buffer : BytesMut)
      (phase : ReadPhase) : Pc
  | reply (frame : PeerFrames) (phase : WritePhase) : Pc
  | ended (how : TaskEnd) : Pc
  deriving DecidableEq

/-- A task: the address of its peer, the buffer of its connection, and where it is. -/
structure Task where
  address : IpAddr
  buffer : BytesMut
  pc : Pc

/-- What the tasks share of a connection: the bytes that have arrived, whether the peer has
closed it, the holder of the mutex, and the `BufWriter`. -/
structure Channel extends BufWriter where
  unread : List UInt8
  closed : Bool
  holder : Option TaskId

/-- The state of the relay. -/
structure State where
  accepted : ℕ
  tasks : TaskId → Task
  channels : StreamId → Channel
  connCache : Cache PeerId PeerConnectionMetadata
  healthStatus : HealthStatus

/-- What the program does not determine: how buffers grow, and the shards of the registry. -/
structure Config where
  reserve : Reserve
  shard : PeerId → ℕ

/-! ### What a task does next -/

/-- `process_connection` on the buffer of its connection, up to the first step that is
visible to others. -/
def dispatch (health : HealthStatus) (buffer : BytesMut) : Pc :=
  match (parseFrame buffer : Except (Fault IoError) (Option RelayFrames)) with
  | .ok (some (.register id)) => .register id
  | .ok (some (.probe id)) => .lookup .probe id
  | .ok (some (.doConnect id)) => .lookup .doConnect id
  | .ok (some .ping) => .reply (.pingResult health) .lock
  | .ok (some .probeAck) => .ended .err
  | .ok none => .receive .lock
  | .error _ => .ended .panicked

/-- The reply to an inquiry that failed. -/
def Inquiry.refusal : Inquiry → PeerFrames
  | .probe => .probeResult none
  | .doConnect => .doConnectResult .failure

/-- The command that an inquiry sends, for a peer with the address. -/
def Inquiry.command (address : IpAddr) : Inquiry → PeerCommands
  | .probe => .sync
  | .doConnect => .doConnect address

/-- What a probe does with the bytes that it has read. -/
def afterAck (id : PeerId) (connMd : PeerConnectionMetadata) (elapsed : Duration)
    (buffer : BytesMut) : Pc :=
  match (parseFrame buffer : Except (Fault IoError) (Option RelayFrames)) with
  | .ok (some .probeAck) => .reply (.probeResult (some ⟨id, connMd.ipAddr, elapsed⟩)) .lock
  | .ok (some _) => .reply (.probeResult none) .lock
  | .ok none => .ack id connMd buffer .lock
  | .error _ => .ended .panicked

namespace Pc

/-- What a task does when it reads the end of the stream. -/
def afterEnd (buffer : BytesMut) : Pc → Pc
  | .receive _ => if buffer.bytes = [] then .ended .ok else .ended .panicked
  | .ack _ _ buffer _ =>
      if buffer.bytes = [] then .reply (.probeResult none) .lock else .ended .panicked
  | pc => pc

/-- What a task does when its frame is written. -/
def afterWrite (health : HealthStatus) (buffer : BytesMut) : Pc → Pc
  | .command .probe id connMd _ =>
      .ack id connMd (BytesMut.withCapacity Server.probeAckLength) .lock
  | .command .doConnect _ _ _ => .reply (.doConnectResult .success) .lock
  | .reply _ _ => dispatch health buffer
  | pc => pc

/-- What a task does when its frame cannot be written. -/
def afterFailure : Pc → Pc
  | .command inquiry _ _ _ => .reply inquiry.refusal .lock
  | .reply _ _ => .ended .err
  | pc => pc

/-- The stream whose mutex the task waits for. -/
def wants (t : TaskId) : Pc → Option StreamId
  | .receive .lock => some t
  | .command _ _ connMd .lock => some connMd.stream
  | .ack _ connMd _ .lock => some connMd.stream
  | .reply _ .lock => some t
  | _ => none

/-- Where the task is when it has the mutex. -/
def granted : Pc → Pc
  | .receive _ => .receive .read
  | .command inquiry id connMd _ => .command inquiry id connMd .write
  | .ack id connMd buffer _ => .ack id connMd buffer .read
  | .reply frame _ => .reply frame .write
  | pc => pc

/-- The stream that the task reads. -/
def reads (t : TaskId) : Pc → Option StreamId
  | .receive .read => some t
  | .ack _ connMd _ .read => some connMd.stream
  | _ => none

/-- The stream that the task writes to, at the given phase. -/
def writes (t : TaskId) (phase : WritePhase) : Pc → Option StreamId
  | .command _ _ connMd phase' => if phase' = phase then some connMd.stream else none
  | .reply _ phase' => if phase' = phase then some t else none
  | _ => none

/-- The buffer that a reading task fills, its connection's or a probe's own. -/
def target (buffer : BytesMut) : Pc → BytesMut
  | .ack _ _ buffer _ => buffer
  | _ => buffer

/-- The frame that the task writes, for a peer with the address. -/
def frame (address : IpAddr) : Pc → Option PeerFrames
  | .command inquiry _ _ _ => some (.command (inquiry.command address))
  | .reply frame _ => some frame
  | _ => none

/-- Where the task is after `write_all`. -/
def written : Pc → Pc
  | .command inquiry id connMd _ => .command inquiry id connMd .flush
  | .reply frame _ => .reply frame .flush
  | pc => pc

/-- The identifier whose entry the task holds. -/
def entry : Pc → Option PeerId
  | .command _ id _ _ => some id
  | .ack id _ _ _ => some id
  | _ => none

end Pc

/-! ### Parts of a step -/

namespace Task

/-- The task goes on at `pc`. -/
def goto (pc : Pc) (task : Task) : Task := { task with pc := pc }

/-- What a task does with bytes that it has read. -/
def received (health : HealthStatus) (elapsed : Duration) (bytes : List UInt8) (task : Task) :
    Task :=
  match task.pc with
  | .receive _ =>
      { task with
        buffer := task.buffer.extend bytes
        pc := dispatch health (task.buffer.extend bytes) }
  | .ack id connMd buffer _ => task.goto (afterAck id connMd elapsed (buffer.extend bytes))
  | _ => task

end Task

namespace Channel

/-- A channel on which nothing has happened. -/
def new : Channel := ⟨BufWriter.new, [], false, none⟩

/-- Bytes arrive from the peer. -/
def arrive (bytes : List UInt8) (c : Channel) : Channel := { c with unread := c.unread ++ bytes }

/-- The peer closes. -/
def close (c : Channel) : Channel := { c with closed := true }

/-- The mutex is taken. -/
def take (t : TaskId) (c : Channel) : Channel := { c with holder := some t }

/-- The mutex is given back. -/
def release (c : Channel) : Channel := { c with holder := none }

/-- Bytes are read. -/
def consume (n : ℕ) (c : Channel) : Channel := { c with unread := c.unread.drop n }

/-- The `BufWriter` changes. -/
def onWriter (f : BufWriter → BufWriter) (c : Channel) : Channel :=
  { c with toBufWriter := f c.toBufWriter }

/-- There is no place in the `BufWriter` for so many bytes. -/
def Overfull (c : Channel) (bytes : List UInt8) : Prop :=
  bufWriterCapacity < c.unflushed.length + bytes.length

instance (c : Channel) (bytes : List UInt8) : Decidable (c.Overfull bytes) :=
  inferInstanceAs (Decidable (_ < _))

/-- `write_all`, which flushes first where there is no place. -/
def writeAll (bytes : List UInt8) (c : Channel) : Channel :=
  c.onWriter fun b => if c.Overfull bytes then b.drained.push bytes else b.push bytes

end Channel

namespace State

/-- A relay that has just started. -/
def init : State where
  accepted := 0
  tasks _ := ⟨.v4 ⟨[0, 0, 0, 0], rfl⟩, Connection.newBuffer, .ended .ok⟩
  channels _ := Channel.new
  connCache := Cache.new
  healthStatus := .healthy

/-- One task changes. -/
def onTask (t : TaskId) (f : Task → Task) (s : State) : State :=
  { s with tasks := Function.update s.tasks t (f (s.tasks t)) }

/-- One channel changes. -/
def onChannel (i : StreamId) (f : Channel → Channel) (s : State) : State :=
  { s with channels := Function.update s.channels i (f (s.channels i)) }

/-- A connection is accepted and its task spawned. -/
def connect (address : IpAddr) (s : State) : State :=
  { (s.onTask s.accepted fun _ => ⟨address, Connection.newBuffer, .receive .lock⟩) with
    accepted := s.accepted + 1 }

/-- The registry changes. -/
def withCache (c : Cache PeerId PeerConnectionMetadata) (s : State) : State :=
  { s with connCache := c }

/-- Where a task is. -/
def pc (s : State) (t : TaskId) : Pc := (s.tasks t).pc

/-- No task holds an entry of the shard. -/
def ShardFree (cfg : Config) (s : State) (shard : ℕ) : Prop :=
  ∀ t < s.accepted, ∀ id, (s.pc t).entry = some id → cfg.shard id ≠ shard

instance (cfg : Config) (s : State) (shard : ℕ) : Decidable (s.ShardFree cfg shard) :=
  decidable_of_iff (∀ t < s.accepted,
      ((s.pc t).entry.all fun id => decide (cfg.shard id ≠ shard)) = true) (by
    refine forall_congr' fun t => imp_congr_right fun _ => ?_
    cases (s.pc t).entry <;> simp)

end State

/-! ### Steps -/

/-- What can happen next: a peer connects, sends bytes of its own, answers a SYNC or closes; a
task takes the mutex it waits for, reads so many bytes (none at the end of the stream),
writes or flushes, with or without an error after so many bytes, or goes to the registry.  Writes
and flushes may fail, and reads do not: a peer closes, and never resets its connection. -/
inductive Action where
  | connect (address : IpAddr) : Action
  | send (i : StreamId) (bytes : List UInt8) : Action
  | answer (i : StreamId) : Action
  | close (i : StreamId) : Action
  | lock (t : TaskId) : Action
  | read (t : TaskId) (n : ℕ) (elapsed : Duration) : Action
  | writeAll (t : TaskId) (failed : Option ℕ) : Action
  | flush (t : TaskId) (failed : Option ℕ) : Action
  | access (t : TaskId) : Action

/-- Bytes come in from peer `i`. -/
def arriveStep (s : State) (i : StreamId) (bytes : List UInt8) : Option State :=
  if i < s.accepted ∧ (s.channels i).closed = false ∧ bytes ≠ [] then
    some (s.onChannel i (Channel.arrive bytes))
  else none

/-- Task `t` reads `n` bytes and lets the mutex go. -/
def readStep (cfg : Config) (s : State) (t : TaskId) (n : ℕ) (elapsed : Duration) :
    Option State :=
  match (s.pc t).reads t with
  | none => none
  | some i =>
      let c := s.channels i
      let buffer := (s.pc t).target (s.tasks t).buffer
      if n = 0 then
        if c.unread = [] ∧ c.closed = true then
          some ((s.onTask t fun task => task.goto (task.pc.afterEnd task.buffer)).onChannel i
            Channel.release)
        else none
      else if n ≤ c.unread.length ∧ n ≤ cfg.reserve.room buffer.capacity buffer.bytes.length then
        some ((s.onTask t (Task.received s.healthStatus elapsed (c.unread.take n))).onChannel i
          fun c => (c.consume n).release)
      else none

/-- Task `t` gives its frame to the `BufWriter`. -/
def writeStep (s : State) (t : TaskId) (failed : Option ℕ) : Option State :=
  match (s.pc t).writes t .write, (s.pc t).frame (s.tasks t).address with
  | some i, some frame =>
      match failed with
      | none =>
          some ((s.onTask t fun task => task.goto task.pc.written).onChannel i
            (Channel.writeAll frame.toBeBytes))
      | some n =>
          if (s.channels i).Overfull frame.toBeBytes then
            some ((s.onTask t fun task => task.goto task.pc.afterFailure).onChannel i
              fun c => (c.onWriter fun b => b.advance n).release)
          else none
  | _, _ => none

/-- Task `t` flushes the `BufWriter` and lets the mutex go. -/
def flushStep (s : State) (t : TaskId) (failed : Option ℕ) : Option State :=
  match (s.pc t).writes t .flush with
  | none => none
  | some i =>
      match failed with
      | none =>
          some ((s.onTask t fun task =>
              task.goto (task.pc.afterWrite s.healthStatus task.buffer)).onChannel i
            fun c => (c.onWriter BufWriter.drained).release)
      | some n =>
          some ((s.onTask t fun task => task.goto task.pc.afterFailure).onChannel i
            fun c => (c.onWriter fun b => b.advance n).release)

/-- Task `t` goes to the registry: `insert` waits until no task holds an entry of the shard. -/
def accessStep (cfg : Config) (s : State) (t : TaskId) : Option State :=
  match s.pc t with
  | .register id =>
      if s.ShardFree cfg (cfg.shard id) then
        let inserted := s.connCache.insert id ⟨t, (s.tasks t).address⟩
        match inserted.1 with
        | some _ =>
            some ((s.onTask t (Task.goto (.reply (.registerResult .success) .lock))).withCache
              inserted.2)
        | none => some ((s.onTask t (Task.goto (.ended .panicked))).withCache inserted.2)
      else none
  | .lookup inquiry id =>
      match s.connCache.get id with
      | some connMd => some (s.onTask t (Task.goto (.command inquiry id connMd .lock)))
      | none => some (s.onTask t (Task.goto (.reply inquiry.refusal .lock)))
  | _ => none

/-- Task `t` takes the mutex it waits for. -/
def lockStep (s : State) (t : TaskId) : Option State :=
  match (s.pc t).wants t with
  | none => none
  | some i =>
      match (s.channels i).holder with
      | none => some ((s.onTask t fun task => task.goto task.pc.granted).onChannel i (Channel.take t))
      | some _ => none

/-- The state after an action, where it can happen.  No read fails, while a write or a flush may.
When a step is taken is for the run to say, and one that gives bytes to the socket of a peer that
does not read them is never taken. -/
def step (cfg : Config) (s : State) : Action → Option State
  | .connect address => some (s.connect address)
  | .send i bytes => arriveStep s i bytes
  | .answer i => arriveStep s i RelayFrames.probeAck.toBeBytes
  | .close i =>
      if i < s.accepted ∧ (s.channels i).closed = false then some (s.onChannel i Channel.close)
      else none
  | .lock t => lockStep s t
  | .read t n elapsed => readStep cfg s t n elapsed
  | .writeAll t failed => writeStep s t failed
  | .flush t failed => flushStep s t failed
  | .access t => accessStep cfg s t

/-! ### What a step can do -/

section

variable {cfg : Config} {s s' : State} {a : Action}

/-- The steps by their kind, each with its guard and its effect. -/
inductive Kind (cfg : Config) (s : State) : Action → State → Prop where
  | connect (address : IpAddr) : Kind cfg s (.connect address) (s.connect address)
  | send {i : StreamId} {bytes : List UInt8} (hi : i < s.accepted)
      (hopen : (s.channels i).closed = false) (hbytes : bytes ≠ []) :
      Kind cfg s (.send i bytes) (s.onChannel i (Channel.arrive bytes))
  | answer {i : StreamId} (hi : i < s.accepted) (hopen : (s.channels i).closed = false) :
      Kind cfg s (.answer i) (s.onChannel i (Channel.arrive RelayFrames.probeAck.toBeBytes))
  | close {i : StreamId} (hi : i < s.accepted) (hopen : (s.channels i).closed = false) :
      Kind cfg s (.close i) (s.onChannel i Channel.close)
  | lock {t : TaskId} {i : StreamId} (hwants : (s.pc t).wants t = some i)
      (hfree : (s.channels i).holder = none) :
      Kind cfg s (.lock t)
        ((s.onTask t fun task => task.goto task.pc.granted).onChannel i (Channel.take t))
  | readEnd {t : TaskId} {i : StreamId} {elapsed : Duration} (hreads : (s.pc t).reads t = some i)
      (hempty : (s.channels i).unread = []) (hclosed : (s.channels i).closed = true) :
      Kind cfg s (.read t 0 elapsed)
        ((s.onTask t fun task => task.goto (task.pc.afterEnd task.buffer)).onChannel i
          Channel.release)
  | read {t : TaskId} {i : StreamId} {n : ℕ} {elapsed : Duration}
      (hreads : (s.pc t).reads t = some i) (hpos : 0 < n)
      (hn : n ≤ (s.channels i).unread.length)
      (hroom : n ≤ cfg.reserve.room ((s.pc t).target (s.tasks t).buffer).capacity
        ((s.pc t).target (s.tasks t).buffer).bytes.length) :
      Kind cfg s (.read t n elapsed)
        ((s.onTask t (Task.received s.healthStatus elapsed ((s.channels i).unread.take n))).onChannel
          i fun c => (c.consume n).release)
  | write {t : TaskId} {i : StreamId} {frame : PeerFrames}
      (hwrites : (s.pc t).writes t .write = some i)
      (hframe : (s.pc t).frame (s.tasks t).address = some frame) :
      Kind cfg s (.writeAll t none)
        ((s.onTask t fun task => task.goto task.pc.written).onChannel i
          (Channel.writeAll frame.toBeBytes))
  | writeFailed {t : TaskId} {i : StreamId} {n : ℕ}
      (hwrites : (s.pc t).writes t .write = some i) :
      Kind cfg s (.writeAll t (some n))
        ((s.onTask t fun task => task.goto task.pc.afterFailure).onChannel i
          fun c => (c.onWriter fun b => b.advance n).release)
  | flush {t : TaskId} {i : StreamId} (hwrites : (s.pc t).writes t .flush = some i) :
      Kind cfg s (.flush t none)
        ((s.onTask t fun task =>
            task.goto (task.pc.afterWrite s.healthStatus task.buffer)).onChannel i
          fun c => (c.onWriter BufWriter.drained).release)
  | flushFailed {t : TaskId} {i : StreamId} {n : ℕ}
      (hwrites : (s.pc t).writes t .flush = some i) :
      Kind cfg s (.flush t (some n))
        ((s.onTask t fun task => task.goto task.pc.afterFailure).onChannel i
          fun c => (c.onWriter fun b => b.advance n).release)
  | insertNew {t : TaskId} {id : PeerId} (hpc : s.pc t = .register id)
      (hfree : s.ShardFree cfg (cfg.shard id)) (hnew : s.connCache.get id = none) :
      Kind cfg s (.access t)
        ((s.onTask t (Task.goto (.ended .panicked))).withCache
          (s.connCache.insert id ⟨t, (s.tasks t).address⟩).2)
  | insertAgain {t : TaskId} {id : PeerId} {old : PeerConnectionMetadata}
      (hpc : s.pc t = .register id) (hfree : s.ShardFree cfg (cfg.shard id))
      (hold : s.connCache.get id = some old) :
      Kind cfg s (.access t)
        ((s.onTask t (Task.goto (.reply (.registerResult .success) .lock))).withCache
          (s.connCache.insert id ⟨t, (s.tasks t).address⟩).2)
  | found {t : TaskId} {inquiry : Inquiry} {id : PeerId} {connMd : PeerConnectionMetadata}
      (hpc : s.pc t = .lookup inquiry id) (hfound : s.connCache.get id = some connMd) :
      Kind cfg s (.access t) (s.onTask t (Task.goto (.command inquiry id connMd .lock)))
  | missing {t : TaskId} {inquiry : Inquiry} {id : PeerId}
      (hpc : s.pc t = .lookup inquiry id) (hmissing : s.connCache.get id = none) :
      Kind cfg s (.access t) (s.onTask t (Task.goto (.reply inquiry.refusal .lock)))

theorem readStep_cases {t : TaskId} {n : ℕ} {elapsed : Duration}
    (h : readStep cfg s t n elapsed = some s') : Kind cfg s (.read t n elapsed) s' := by
  rw [readStep] at h
  cases hreads : (s.pc t).reads t with
  | none =>
      rw [hreads] at h
      cases h
  | some i =>
      simp only [hreads] at h
      by_cases hzero : n = 0
      · subst hzero
        rw [if_pos rfl] at h
        by_cases hend : (s.channels i).unread = [] ∧ (s.channels i).closed = true
        · rw [if_pos hend] at h
          cases h
          exact .readEnd hreads hend.1 hend.2
        · rw [if_neg hend] at h
          cases h
      · rw [if_neg hzero] at h
        split at h
        · cases h
          exact .read hreads (Nat.pos_of_ne_zero hzero) (‹_ ∧ _›).1 (‹_ ∧ _›).2
        · cases h

theorem writeStep_cases {t : TaskId} {failed : Option ℕ} (h : writeStep s t failed = some s') :
    Kind cfg s (.writeAll t failed) s' := by
  rw [writeStep] at h
  cases hwrites : (s.pc t).writes t .write with
  | none =>
      rw [hwrites] at h
      cases h
  | some i =>
      cases hframe : (s.pc t).frame (s.tasks t).address with
      | none =>
          rw [hwrites, hframe] at h
          cases h
      | some frame =>
          simp only [hwrites, hframe] at h
          cases failed with
          | none =>
              cases h
              exact .write hwrites hframe
          | some n =>
              simp only at h
              split at h
              · cases h
                exact .writeFailed hwrites
              · cases h

theorem flushStep_cases {t : TaskId} {failed : Option ℕ} (h : flushStep s t failed = some s') :
    Kind cfg s (.flush t failed) s' := by
  rw [flushStep] at h
  cases hwrites : (s.pc t).writes t .flush with
  | none =>
      rw [hwrites] at h
      cases h
  | some i =>
      simp only [hwrites] at h
      cases failed with
      | none =>
          cases h
          exact .flush hwrites
      | some n =>
          cases h
          exact .flushFailed hwrites

theorem accessStep_cases {t : TaskId} (h : accessStep cfg s t = some s') :
    Kind cfg s (.access t) s' := by
  rw [accessStep] at h
  cases hpc : s.pc t with
  | register id =>
      simp only [hpc, Cache.insert_old] at h
      split at h
      · cases hold : s.connCache.get id with
        | none =>
            simp only [hold] at h
            cases h
            exact .insertNew hpc ‹_› hold
        | some old =>
            simp only [hold] at h
            cases h
            exact .insertAgain hpc ‹_› hold
      · cases h
  | lookup inquiry id =>
      simp only [hpc] at h
      cases hget : s.connCache.get id with
      | none =>
          simp only [hget] at h
          cases h
          exact .missing hpc hget
      | some connMd =>
          simp only [hget] at h
          cases h
          exact .found hpc hget
  | receive phase => simp [hpc] at h
  | command inquiry id connMd phase => simp [hpc] at h
  | ack id connMd buffer phase => simp [hpc] at h
  | reply frame phase => simp [hpc] at h
  | ended how => simp [hpc] at h

theorem lockStep_cases {t : TaskId} (h : lockStep s t = some s') : Kind cfg s (.lock t) s' := by
  rw [lockStep] at h
  cases hwants : (s.pc t).wants t with
  | none =>
      rw [hwants] at h
      cases h
  | some i =>
      simp only [hwants] at h
      cases hfree : (s.channels i).holder with
      | some t' => simp [hfree] at h
      | none =>
          simp only [hfree] at h
          cases h
          exact .lock hwants hfree

/-- **What a step can do.** -/
theorem step_cases (h : step cfg s a = some s') : Kind cfg s a s' := by
  cases a with
  | connect address =>
      cases h
      exact .connect address
  | send i bytes =>
      simp only [step, arriveStep] at h
      split at h
      · cases h
        obtain ⟨hi, hopen, hbytes⟩ := ‹_ ∧ _›
        exact .send hi hopen hbytes
      · cases h
  | answer i =>
      simp only [step, arriveStep] at h
      split at h
      · cases h
        obtain ⟨hi, hopen, _⟩ := ‹_ ∧ _›
        exact .answer hi hopen
      · cases h
  | close i =>
      simp only [step] at h
      split at h
      · cases h
        exact .close (‹_ ∧ _›).1 (‹_ ∧ _›).2
      · cases h
  | lock t => exact lockStep_cases h
  | read t n elapsed => exact readStep_cases h
  | writeAll t failed => exact writeStep_cases h
  | flush t failed => exact flushStep_cases h
  | access t => exact accessStep_cases h

end

end Pcopy.Relay
