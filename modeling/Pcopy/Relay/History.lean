import Pcopy.Relay.Moves

/-!
# The history of a run of the relay

Beside the state of the system: what the tasks have done on streams and at the registry, in the
order in which they did it, and all that has come in from the peers.

* `observedStep` — the system with its history;
* `Orderly` — every task serves the request in its buffer, which its own peer sent, and every
  entry is of one connection;
* `orderly_step` — every step keeps that.
-/

namespace Pcopy.Relay

open Pcopy.Lib

/-- What a task does that others can notice. -/
inductive Event where
  | read (i : StreamId) (n : ℕ) : Event
  | inserted (id : PeerId) : Event
  | lookup (inquiry : Inquiry) (id : PeerId) (result : Option PeerConnectionMetadata) : Event
  | wrote (i : StreamId) (frame : PeerFrames) : Event
  | flushed (i : StreamId) : Event
  deriving DecidableEq

/-- The events of all tasks in their order, and the bytes that have come in from each peer. -/
structure History where
  log : List (TaskId × Event)
  arrived : StreamId → List UInt8

namespace History

/-- The history of a relay that has just started. -/
def new : History := ⟨[], fun _ => []⟩

end History

/-- The event that an action is in a state. -/
def event (s : State) : Action → Option (TaskId × Event)
  | .read t n _ => ((s.pc t).reads t).map fun i => (t, .read i n)
  | .writeAll t none =>
      match (s.pc t).writes t .write, (s.pc t).frame (s.tasks t).address with
      | some i, some frame => some (t, .wrote i frame)
      | _, _ => none
  | .flush t none => ((s.pc t).writes t .flush).map fun i => (t, .flushed i)
  | .access t =>
      match s.pc t with
      | .register id => some (t, .inserted id)
      | .lookup inquiry id => some (t, .lookup inquiry id (s.connCache.get id))
      | _ => none
  | _ => none

/-- What a step adds to the history. -/
def observe (s : State) (a : Action) (h : History) : History where
  log := h.log ++ (event s a).toList
  arrived i := h.arrived i ++ a.brings i

/-- A step of the system with its history. -/
def observedStep (cfg : Config) : State × History → Action → Option (State × History) :=
  observed (step cfg) observe

/-- The history does not restrict the relay: its runs are those that keep one. -/
theorem runFrom_observedStep (cfg : Config) (s : State) (h : History) (as : List Action)
    (s' : State) :
    runFrom (step cfg) s as = some s' ↔
      ∃ h', runFrom (observedStep cfg) (s, h) as = some (s', h') :=
  runFrom_observed s h as s'

/-- The events of one task. -/
def trace (t : TaskId) (log : List (TaskId × Event)) : List Event :=
  log.filterMap fun e => if e.1 = t then some e.2 else none

theorem trace_append (t : TaskId) (xs ys : List (TaskId × Event)) :
    trace t (xs ++ ys) = trace t xs ++ trace t ys := by
  rw [trace, List.filterMap_append]
  rfl

@[simp] theorem trace_self (t : TaskId) (e : Event) : trace t [(t, e)] = [e] := by simp [trace]

theorem trace_ne {t t' : TaskId} (h : t' ≠ t) (e : Event) : trace t [(t', e)] = [] := by
  simp [trace, h]

section

variable {cfg : Config} {s s' : State} {h : History} {a : Action} {t : TaskId}

theorem event_read {i : StreamId} (hreads : (s.pc t).reads t = some i) (n : ℕ)
    (elapsed : Duration) : event s (.read t n elapsed) = some (t, .read i n) := by
  rw [event, hreads]
  rfl

theorem event_wrote {i : StreamId} {frame : PeerFrames}
    (hwrites : (s.pc t).writes t .write = some i)
    (hframe : (s.pc t).frame (s.tasks t).address = some frame) :
    event s (.writeAll t none) = some (t, .wrote i frame) := by
  simp only [event, hwrites, hframe]

theorem event_flushed {i : StreamId} (hwrites : (s.pc t).writes t .flush = some i) :
    event s (.flush t none) = some (t, .flushed i) := by
  rw [event, hwrites]
  rfl

theorem event_inserted {id : PeerId} (hpc : s.pc t = .register id) :
    event s (.access t) = some (t, .inserted id) := by
  simp only [event, hpc]

theorem event_lookup {inquiry : Inquiry} {id : PeerId} (hpc : s.pc t = .lookup inquiry id) :
    event s (.access t) = some (t, .lookup inquiry id (s.connCache.get id)) := by
  simp only [event, hpc]

/-- **The events.** -/
theorem event_cases {e : Event} (he : event s a = some (t, e)) :
    (∃ i n elapsed, a = .read t n elapsed ∧ (s.pc t).reads t = some i ∧ e = .read i n) ∨
      (∃ i frame, a = .writeAll t none ∧ (s.pc t).writes t .write = some i ∧
        (s.pc t).frame (s.tasks t).address = some frame ∧ e = .wrote i frame) ∨
      (∃ i, a = .flush t none ∧ (s.pc t).writes t .flush = some i ∧ e = .flushed i) ∨
      (∃ id, a = .access t ∧ s.pc t = .register id ∧ e = .inserted id) ∨
      ∃ inquiry id, a = .access t ∧ s.pc t = .lookup inquiry id ∧
        e = .lookup inquiry id (s.connCache.get id) := by
  cases a with
  | connect address => cases he
  | send i bytes => cases he
  | answer i => cases he
  | close i => cases he
  | lock t' => cases he
  | read t' n elapsed =>
      simp only [event, Option.map_eq_some_iff, Prod.mk.injEq] at he
      obtain ⟨i, hreads, rfl, rfl⟩ := he
      exact Or.inl ⟨i, n, elapsed, rfl, hreads, rfl⟩
  | writeAll t' failed =>
      cases failed with
      | some n => cases he
      | none =>
          simp only [event] at he
          split at he
          · rename_i hwrites hframe
            cases he
            exact Or.inr (Or.inl ⟨_, _, rfl, hwrites, hframe, rfl⟩)
          · cases he
  | flush t' failed =>
      cases failed with
      | some n => cases he
      | none =>
          simp only [event, Option.map_eq_some_iff, Prod.mk.injEq] at he
          obtain ⟨i, hwrites, rfl, rfl⟩ := he
          exact Or.inr (Or.inr (Or.inl ⟨i, rfl, hwrites, rfl⟩))
  | access t' =>
      simp only [event] at he
      split at he
      · rename_i hpc
        cases he
        exact Or.inr (Or.inr (Or.inr (Or.inl ⟨_, rfl, hpc, rfl⟩)))
      · rename_i hpc
        cases he
        exact Or.inr (Or.inr (Or.inr (Or.inr ⟨_, _, rfl, hpc, rfl⟩)))
      · cases he

/-- An event is one of the task that makes the step. -/
theorem event_task {e : Event} (he : event s a = some (t, e)) : a.task = some t := by
  rcases event_cases he with ⟨_, _, _, rfl, _⟩ | ⟨_, _, rfl, _⟩ | ⟨_, rfl, _⟩ | ⟨_, rfl, _⟩ |
    ⟨_, _, rfl, _⟩ <;> rfl

theorem log_observe {e : TaskId × Event} (he : event s a = some e) :
    (observe s a h).log = h.log ++ [e] := by
  show h.log ++ (event s a).toList = _
  rw [he, Option.toList_some]

/-- A new event is the last of its task. -/
theorem trace_observe {e : Event} (he : event s a = some (t, e)) :
    trace t (observe s a h).log = trace t h.log ++ [e] := by
  rw [log_observe he, trace_append, trace_self]

theorem log_observe_none (he : event s a = none) : (observe s a h).log = h.log := by
  show h.log ++ (event s a).toList = _
  rw [he, Option.toList_none, List.append_nil]

/-- The tasks that do not move have no new events. -/
theorem trace_observe_ne (ht : a.task ≠ some t) :
    trace t (observe s a h).log = trace t h.log := by
  cases he : event s a with
  | none => rw [log_observe_none he]
  | some e =>
      obtain ⟨t', e⟩ := e
      have hne : t' ≠ t := fun heq => ht (heq ▸ event_task he)
      rw [log_observe he, trace_append, trace_ne hne, List.append_nil]

/-! ### Requests and entries -/

/-- Where a task can be that serves the request `f`. -/
def Pc.Serves (f : RelayFrames) : Pc → Prop
  | .receive _ => False
  | .register id => f = .register id
  | .lookup .probe id => f = .probe id
  | .lookup .doConnect id => f = .doConnect id
  | .command .probe id _ _ => f = .probe id
  | .command .doConnect id _ _ => f = .doConnect id
  | .ack id _ _ _ => f = .probe id
  | .reply _ _ => True
  | .ended _ => True

/-- What the task is at is what its buffer holds. -/
def Task.Serving (task : Task) : Prop :=
  (∃ phase, task.pc = .receive phase) ∨ (∃ how, task.pc = .ended how) ∨
    ∃ f, parsed RelayFrames task.buffer.bytes = .ok f ∧ task.pc.Serves f

/-- The entry is of an accepted connection, with its address, and its task has found a request:
it will not read its stream again. -/
def State.Settled (s : State) (connMd : PeerConnectionMetadata) : Prop :=
  connMd.stream < s.accepted ∧ connMd.ipAddr = (s.tasks connMd.stream).address ∧
    ∀ phase, s.pc connMd.stream ≠ .receive phase

/-- The entry that a task has looked up and still uses. -/
def Pc.metadata : Pc → Option PeerConnectionMetadata
  | .command _ _ connMd _ => some connMd
  | .ack _ connMd _ _ => some connMd
  | _ => none

/-- The order that every run keeps. -/
structure Orderly (s : State) (h : History) : Prop where
  tidy : Tidy s
  serving : ∀ t, (s.tasks t).Serving
  entries : ∀ id connMd, s.connCache.get id = some connMd → s.Settled connMd
  users : ∀ t connMd, (s.pc t).metadata = some connMd → s.Settled connMd
  arrived : ∀ t, (s.tasks t).buffer.bytes <+: h.arrived t
  unread : ∀ t phase, s.pc t = .receive phase →
    h.arrived t = (s.tasks t).buffer.bytes ++ (s.channels t).unread
  quiet : ∀ t, s.accepted ≤ t → h.arrived t = []

theorem Orderly.init : Orderly State.init History.new where
  tidy := Tidy.init
  serving _ := Or.inr (Or.inl ⟨.ok, rfl⟩)
  entries _ _ hget := nomatch hget
  users _ _ hmd := nomatch hmd
  arrived _ := List.nil_prefix
  unread _ _ hpc := nomatch hpc
  quiet _ _ := rfl

/-- There is a history with which the state is in order. -/
def HasHistory (s : State) : Prop := ∃ h, Orderly s h

/-! ### What the dispatcher does -/

/-- The dispatcher receives on, ends, or serves what it finds. -/
theorem dispatch_serving (health : HealthStatus) (address : IpAddr) (buffer : BytesMut) :
    (⟨address, buffer, dispatch health buffer⟩ : Task).Serving := by
  rw [Task.Serving, dispatch, parseFrame]
  cases hparsed : parsed RelayFrames buffer.bytes with
  | ok f =>
      cases f with
      | register id => exact Or.inr (Or.inr ⟨_, rfl, rfl⟩)
      | probe id => exact Or.inr (Or.inr ⟨_, rfl, rfl⟩)
      | doConnect id => exact Or.inr (Or.inr ⟨_, rfl, rfl⟩)
      | ping => exact Or.inr (Or.inr ⟨_, rfl, trivial⟩)
      | probeAck => exact Or.inr (Or.inl ⟨_, rfl⟩)
  | error φ =>
      cases φ with
      | err e =>
          cases e with
          | incomplete => exact Or.inl ⟨_, rfl⟩
          | other e => exact Or.inr (Or.inl ⟨_, rfl⟩)
      | panic msg => exact Or.inr (Or.inl ⟨_, rfl⟩)
      | outOfFuel => exact Or.inr (Or.inl ⟨_, rfl⟩)

/-- A buffer that holds a frame is not received on. -/
theorem dispatch_ne_receive {health : HealthStatus} {buffer : BytesMut} {f : RelayFrames}
    (hparsed : parsed RelayFrames buffer.bytes = .ok f) (phase : ReadPhase) :
    dispatch health buffer ≠ .receive phase := by
  rw [dispatch, parseFrame, hparsed]
  cases f with
  | register id => exact Pc.noConfusion
  | probe id => exact Pc.noConfusion
  | doConnect id => exact Pc.noConfusion
  | ping => exact Pc.noConfusion
  | probeAck => exact Pc.noConfusion

theorem dispatch_metadata (health : HealthStatus) (buffer : BytesMut) :
    (dispatch health buffer).metadata = none := by
  rcases dispatch_cases health buffer with ⟨hd, _⟩ | ⟨_, hd⟩ | ⟨_, _, hd⟩ | hd | ⟨_, hd⟩ <;>
    rw [hd] <;> rfl

theorem metadata_of_dispatch {health : HealthStatus} {buffer : BytesMut} {pc : Pc}
    (h : dispatch health buffer = pc) : pc.metadata = none := by
  rw [← h, dispatch_metadata]

theorem afterAck_metadata {id : PeerId} {connMd connMd' : PeerConnectionMetadata}
    {elapsed : Duration} {buffer : BytesMut}
    (h : (afterAck id connMd elapsed buffer).metadata = some connMd') : connMd' = connMd := by
  rcases afterAck_cases id connMd elapsed buffer with ha | ⟨_, ha⟩ | ⟨_, ha⟩
  · rw [ha] at h
    exact (Option.some.inj h).symm
  · rw [ha] at h
    cases h
  · rw [ha] at h
    cases h

/-! ### What a move keeps -/

/-- The places of a task between the arrival of a request and its answer. -/
def Pc.inRequest : Pc → Bool
  | .receive _ => false
  | .ended _ => false
  | _ => true

/-- The request that a task serves. -/
theorem Task.Serving.request {task : Task} (h : task.Serving)
    (hin : task.pc.inRequest = true) :
    ∃ f, parsed RelayFrames task.buffer.bytes = .ok f ∧ task.pc.Serves f := by
  rcases h with ⟨phase, hpc⟩ | ⟨how, hpc⟩ | hf
  · rw [hpc] at hin
    cases hin
  · rw [hpc] at hin
    cases hin
  · exact hf

/-- A move within a request serves the same request. -/
theorem Task.Serving.goto {task : Task} (h : task.Serving) {pc : Pc}
    (hin : task.pc.inRequest = true) (hpc : ∀ f, task.pc.Serves f → pc.Serves f) :
    (task.goto pc).Serving := by
  obtain ⟨f, hparsed, hserves⟩ := h.request hin
  exact Or.inr (Or.inr ⟨f, hparsed, hpc f hserves⟩)

theorem Move.serving {task' : Task} (hm : Move s t a task') (h : (s.tasks t).Serving) :
    task'.Serving := by
  have hgoto : ∀ {pc pc' : Pc}, s.pc t = pc → pc.inRequest = true →
      (∀ f, pc.Serves f → pc'.Serves f) → ((s.tasks t).goto pc').Serving := by
    intro pc pc' hpc hin himp
    rw [State.pc] at hpc
    subst hpc
    exact h.goto hin himp
  cases hm with
  | lockReceive hpc => exact Or.inl ⟨_, rfl⟩
  | @lockCommand inquiry id connMd hpc =>
      exact hgoto hpc rfl (by cases inquiry <;> exact fun _ hf => hf)
  | lockAck hpc => exact hgoto hpc rfl fun _ hf => hf
  | lockReply hpc => exact hgoto hpc rfl fun _ hf => hf
  | endReceive hpc hclosed => exact Or.inr (Or.inl ⟨_, rfl⟩)
  | endAck hpc hclosed hnext =>
      rcases hnext with ⟨_, rfl⟩ | ⟨_, rfl⟩
      · exact hgoto hpc rfl fun _ _ => trivial
      · exact Or.inr (Or.inl ⟨_, rfl⟩)
  | readReceive hpc hpos hn => exact dispatch_serving _ _ _
  | readAck hpc hpos hn =>
      refine hgoto hpc rfl fun f hf => ?_
      rcases afterAck_cases _ _ _ _ with ha | ⟨_, ha⟩ | ⟨_, ha⟩
      · rw [ha]
        exact hf
      · rw [ha]
        trivial
      · rw [ha]
        trivial
  | @writeCommand inquiry id connMd hpc =>
      exact hgoto hpc rfl (by cases inquiry <;> exact fun _ hf => hf)
  | writeReply hpc => exact hgoto hpc rfl fun _ hf => hf
  | commandFailed hpc ha => exact hgoto hpc rfl fun _ _ => trivial
  | replyFailed hpc ha => exact Or.inr (Or.inl ⟨_, rfl⟩)
  | flushProbe hpc => exact hgoto hpc rfl fun _ hf => hf
  | flushDoConnect hpc => exact hgoto hpc rfl fun _ _ => trivial
  | flushReply hpc => exact dispatch_serving _ _ _
  | insertNew hpc hnew => exact Or.inr (Or.inl ⟨_, rfl⟩)
  | insertAgain hpc hold => exact hgoto hpc rfl fun _ _ => trivial
  | @found inquiry id connMd hpc hfound =>
      exact hgoto hpc rfl (by cases inquiry <;> exact fun _ hf => hf)
  | missing hpc hmissing => exact hgoto hpc rfl fun _ _ => trivial

/-- A task that receives after its move did so before it: a request is never left. -/
theorem Move.receive {task' : Task} (hm : Move s t a task') (h : (s.tasks t).Serving)
    {phase : ReadPhase} (hpc' : task'.pc = .receive phase) : ∃ phase, s.pc t = .receive phase := by
  cases hm with
  | lockReceive hpc => exact ⟨_, hpc⟩
  | readReceive hpc hpos hn => exact ⟨_, hpc⟩
  | flushReply hpc =>
      rw [State.pc] at hpc
      obtain ⟨f, hparsed, _⟩ := h.request (by rw [hpc]; rfl)
      exact absurd hpc' (dispatch_ne_receive hparsed phase)
  | endAck hpc hclosed hnext =>
      rcases hnext with ⟨_, rfl⟩ | ⟨_, rfl⟩
      · cases hpc'
      · cases hpc'
  | readAck hpc hpos hn =>
      rcases afterAck_cases _ _ _ _ with ha | ⟨_, ha⟩ | ⟨_, ha⟩
      · exact absurd (ha.symm.trans hpc') Pc.noConfusion
      · exact absurd (ha.symm.trans hpc') Pc.noConfusion
      · exact absurd (ha.symm.trans hpc') Pc.noConfusion
  | _ => cases hpc'

/-- The entry that a task uses is one it used before, or it has just looked it up. -/
theorem Move.metadata {task' : Task} (hm : Move s t a task') {connMd : PeerConnectionMetadata}
    (hmd : task'.pc.metadata = some connMd) :
    (s.pc t).metadata = some connMd ∨ ∃ id, s.connCache.get id = some connMd := by
  cases hm with
  | lockCommand hpc =>
      rw [hpc]
      exact Or.inl hmd
  | lockAck hpc =>
      rw [hpc]
      exact Or.inl hmd
  | endAck hpc hclosed hnext =>
      rcases hnext with ⟨_, rfl⟩ | ⟨_, rfl⟩
      · cases hmd
      · cases hmd
  | readReceive hpc hpos hn =>
      rw [dispatch_metadata] at hmd
      cases hmd
  | readAck hpc hpos hn =>
      rw [hpc, afterAck_metadata hmd]
      exact Or.inl rfl
  | writeCommand hpc =>
      rw [hpc]
      exact Or.inl hmd
  | flushProbe hpc =>
      rw [hpc]
      exact Or.inl hmd
  | flushReply hpc =>
      rw [Task.goto, dispatch_metadata] at hmd
      cases hmd
  | found hpc hfound =>
      cases hmd
      exact Or.inr ⟨_, hfound⟩
  | _ => cases hmd

/-- The buffer of a connection changes by what its own task receives. -/
theorem Move.buffer {task' : Task} (hm : Move s t a task') :
    task'.buffer = (s.tasks t).buffer ∨
      ∃ n elapsed, a = .read t n elapsed ∧ s.pc t = .receive .read ∧
        n ≤ (s.channels t).unread.length ∧
          task'.buffer = (s.tasks t).buffer.extend ((s.channels t).unread.take n) := by
  cases hm with
  | readReceive hpc hpos hn => exact Or.inr ⟨_, _, rfl, hpc, hn, rfl⟩
  | _ => exact Or.inl rfl

/-! ### The order is kept -/

/-- Only its own task takes from the stream of a task that receives. -/
theorem Orderly.takes_receiving (h' : Orderly s h) (ht : a.task ≠ some t) {phase : ReadPhase}
    (hpc : s.pc t = .receive phase) : a.takes s t = 0 := by
  cases a with
  | read t' n elapsed =>
      refine if_neg fun hreads => ?_
      rcases Pc.reads_cases hreads with ⟨_, rfl⟩ | ⟨id, connMd, buffer, hack, rfl⟩
      · exact ht rfl
      · exact (h'.users t' connMd (by rw [hack]; rfl)).2.2 phase hpc
  | _ => rfl

theorem settled_step (h' : Orderly s h) (hstep : step cfg s a = some s')
    {connMd : PeerConnectionMetadata} (hmd : s.Settled connMd) : s'.Settled connMd := by
  obtain ⟨hlt, haddress, hreceive⟩ := hmd
  refine ⟨Nat.lt_of_lt_of_le hlt (accepted_step hstep), ?_, ?_⟩
  · rw [haddress, address_step hstep hlt]
  · intro phase hpc
    rcases tasks_step hstep connMd.stream with ⟨_, hm⟩ | ⟨_, hsame⟩ | ⟨hnew, _⟩
    · obtain ⟨phase', hpc'⟩ := hm.receive (h'.serving _) hpc
      exact hreceive phase' hpc'
    · exact hreceive phase ((congrArg Task.pc hsame).symm.trans hpc)
    · exact absurd hlt (by rw [hnew]; exact Nat.lt_irrefl _)

theorem serving_step (h' : Orderly s h) (hstep : step cfg s a = some s') (t : TaskId) :
    (s'.tasks t).Serving := by
  rcases tasks_step hstep t with ⟨_, hm⟩ | ⟨_, hsame⟩ | ⟨_, _, address, hnew⟩
  · exact hm.serving (h'.serving t)
  · rw [hsame]
    exact h'.serving t
  · rw [hnew]
    exact Or.inl ⟨_, rfl⟩

theorem entries_step (h' : Orderly s h) (hstep : step cfg s a = some s') {id : PeerId}
    {connMd : PeerConnectionMetadata} (hget : s'.connCache.get id = some connMd) :
    s'.Settled connMd := by
  rcases registry_step hstep with ⟨hsame, _⟩ | ⟨t, id', rfl, hpc, hinsert⟩
  · rw [hsame] at hget
    exact settled_step h' hstep (h'.entries id connMd hget)
  · rw [hinsert] at hget
    by_cases hid : id = id'
    · subst hid
      rw [Cache.get_insert_self] at hget
      cases hget
      refine settled_step h' hstep ⟨h'.tidy.lt (by rw [hpc]; nofun), rfl, ?_⟩
      rw [hpc]
      nofun
    · rw [Cache.get_insert_ne _ _ hid] at hget
      exact settled_step h' hstep (h'.entries id connMd hget)

theorem users_step (h' : Orderly s h) (hstep : step cfg s a = some s') {t : TaskId}
    {connMd : PeerConnectionMetadata} (hmd : (s'.pc t).metadata = some connMd) :
    s'.Settled connMd := by
  refine settled_step h' hstep ?_
  rcases tasks_step hstep t with ⟨_, hm⟩ | ⟨_, hsame⟩ | ⟨_, _, address, hnew⟩
  · rcases hm.metadata hmd with hmd | ⟨id, hget⟩
    · exact h'.users t connMd hmd
    · exact h'.entries id connMd hget
  · refine h'.users t connMd ?_
    rwa [State.pc, hsame] at hmd
  · rw [State.pc, hnew] at hmd
    cases hmd

theorem arrived_step (h' : Orderly s h) (hstep : step cfg s a = some s') (t : TaskId) :
    (s'.tasks t).buffer.bytes <+: (observe s a h).arrived t := by
  have hgrows : h.arrived t <+: (observe s a h).arrived t := List.prefix_append _ _
  rcases tasks_step hstep t with ⟨_, hm⟩ | ⟨_, hsame⟩ | ⟨_, _, address, hnew⟩
  · rcases hm.buffer with hbuffer | ⟨n, elapsed, rfl, hpc, _, hbuffer⟩
    · rw [hbuffer]
      exact (h'.arrived t).trans hgrows
    · rw [hbuffer]
      refine List.IsPrefix.trans ?_ hgrows
      rw [h'.unread t .read hpc]
      exact List.prefix_append_right_inj _ |>.mpr (List.take_prefix _ _)
  · rw [hsame]
    exact (h'.arrived t).trans hgrows
  · rw [hnew]
    exact List.nil_prefix

theorem unread_receiving_step (h' : Orderly s h) (hstep : step cfg s a = some s') {t : TaskId}
    {phase : ReadPhase} (hpc' : s'.pc t = .receive phase) :
    (observe s a h).arrived t = (s'.tasks t).buffer.bytes ++ (s'.channels t).unread := by
  rw [unread_step hstep t]
  show h.arrived t ++ a.brings t = _
  rcases tasks_step hstep t with ⟨ht, hm⟩ | ⟨ht, hsame⟩ | ⟨hnew, _, address, htask⟩
  · obtain ⟨phase₀, hpc⟩ := hm.receive (h'.serving t) hpc'
    rw [h'.unread t phase₀ hpc, Action.brings_of_task ht, List.append_nil, List.append_nil]
    rcases hm.buffer with hbuffer | ⟨n, elapsed, rfl, hread, hn, hbuffer⟩
    · have htakes : a.takes s t = 0 := by
        generalize s'.tasks t = task' at hm hbuffer
        cases hm with
        | endReceive hpc hclosed => exact ite_self 0
        | endAck hpc hclosed hnext => exact ite_self 0
        | readReceive hpc hpos hn =>
            have hlen := congrArg (fun b => b.bytes.length) hbuffer
            simp only [BytesMut.extend, List.length_append, List.length_take] at hlen
            omega
        | readAck hack hpos hn => exact absurd (hpc.symm.trans hack) Pc.noConfusion
        | commandFailed hpc ha => rcases ha with rfl | rfl <;> rfl
        | replyFailed hpc ha => rcases ha with rfl | rfl <;> rfl
        | _ => rfl
      rw [hbuffer, htakes, List.drop_zero]
    · have htakes : (Action.read t n elapsed).takes s t = n := if_pos (by rw [hread]; rfl)
      rw [hbuffer, htakes, BytesMut.extend, List.append_assoc, List.take_append_drop]
  · have hpc : s.pc t = .receive phase := by rwa [State.pc, hsame] at hpc'
    rw [h'.unread t phase hpc, hsame, h'.takes_receiving ht hpc, List.drop_zero,
      List.append_assoc]
  · rw [htask, h'.quiet t (le_of_eq hnew.symm), h'.tidy.silent t (le_of_eq hnew.symm),
      List.drop_nil]
    rfl

/-- **Every step keeps the order.** -/
theorem orderly_step (h' : Orderly s h) (hstep : step cfg s a = some s') :
    Orderly s' (observe s a h) where
  tidy := tidy_step h'.tidy hstep
  serving t := serving_step h' hstep t
  entries _ _ hget := entries_step h' hstep hget
  users _ _ hmd := users_step h' hstep hmd
  arrived t := arrived_step h' hstep t
  unread _ _ hpc := unread_receiving_step h' hstep hpc
  quiet t ht := by
    have hle := Nat.le_trans (accepted_step hstep) ht
    show h.arrived t ++ a.brings t = []
    rw [h'.quiet t hle, List.nil_append]
    by_contra hne
    exact absurd (brings_accepted hstep hne) (Nat.not_lt.mpr hle)

theorem hasHistory_init : HasHistory State.init := ⟨_, Orderly.init⟩

theorem hasHistory_step (h' : HasHistory s) (hstep : step cfg s a = some s') : HasHistory s' := by
  obtain ⟨h, h'⟩ := h'
  exact ⟨_, orderly_step h' hstep⟩

end

end Pcopy.Relay
