import Pcopy.Relay.IncrementalReading
import Pcopy.Relay.SystemInvariants

/-!
# What a task does alone, the system does step by step

`process_connection` as one task runs it when no other is in its way, and the task of the system,
which takes its mutexes one by one and can be interrupted between any two steps.  Where no other
task is in its way, the second does what the first does.

* `Matches` — a relay in which one task runs and a state of the system that show the same;
* `realize_write`, `realize_read` — writing and reading a frame, step by step;
* `realize_frame` — handling a frame;
* `processConnection_refines` — every run of `process_connection` is a run of the system.
-/

namespace Pcopy.Relay

open Pcopy.Lib

/-- What the relay of a task that runs alone and the system show of each other: the same registry,
the same bytes written and still to be read, on streams that their peers have closed; and no other
task in the way of task `t`. -/
structure Matches (t : TaskId) (w : World) (s : State) : Prop where
  cache : w.connCache = s.connCache
  health : w.healthStatus = s.healthStatus
  sockets : ∀ i < s.accepted, (w.sockets i).toBufWriter = (s.channels i).toBufWriter ∧
    ∃ st, w.Sends i st ∧ (s.channels i).unread = st.elems ∧ (s.channels i).closed = true
  free : ∀ i, (s.channels i).holder = none
  entries : ∀ id connMd, s.connCache.get id = some connMd → connMd.stream < s.accepted
  alone : ∀ u, u ≠ t → (s.pc u).entry = none
  accepted : t < s.accepted

/-- Task `t` can bring the system from `s` to `s'`. -/
def Runs (cfg : Config) (t : TaskId) (s s' : State) : Prop :=
  ∃ as, (∀ a ∈ as, a.task = some t) ∧ runFrom (step cfg) s as = some s'

/-- Task `t` can bring the system to a state that matches `w`, where the task satisfies `P`. -/
def Realizes (cfg : Config) (t : TaskId) (s : State) (w : World) (P : Task → Prop) : Prop :=
  ∃ s', Runs cfg t s s' ∧ Matches t w s' ∧ s'.accepted = s.accepted ∧
    s'.healthStatus = s.healthStatus ∧ P (s'.tasks t)

section

variable {cfg : Config} {s s₁ s' : State} {t : TaskId} {i : StreamId} {w : World}

theorem Runs.refl (s : State) : Runs cfg t s s := ⟨[], fun _ ha => absurd ha List.not_mem_nil, rfl⟩

theorem Runs.trans (h : Runs cfg t s s₁) (h' : Runs cfg t s₁ s') : Runs cfg t s s' := by
  obtain ⟨as, has, hrun⟩ := h
  obtain ⟨bs, hbs, hrun'⟩ := h'
  refine ⟨as ++ bs, ?_, ?_⟩
  · intro a ha
    rcases List.mem_append.mp ha with ha | ha
    · exact has a ha
    · exact hbs a ha
  · rw [runFrom_append]
    exact Option.bind_eq_some_iff.mpr ⟨s₁, hrun, hrun'⟩

theorem Runs.one {a : Action} (ha : a.task = some t) (hstep : step cfg s a = some s') :
    Runs cfg t s s' := by
  refine ⟨[a], ?_, ?_⟩
  · intro a' ha'
    rw [List.mem_singleton.mp ha']
    exact ha
  · rw [runFrom, hstep]
    rfl

theorem Realizes.refl {P : Task → Prop} (h : Matches t w s) (hP : P (s.tasks t)) :
    Realizes cfg t s w P := ⟨s, Runs.refl s, h, rfl, rfl, hP⟩

theorem Realizes.after {P : Task → Prop} (hruns : Runs cfg t s s₁)
    (hacc : s₁.accepted = s.accepted) (hhealth : s₁.healthStatus = s.healthStatus)
    (h : Realizes cfg t s₁ w P) : Realizes cfg t s w P := by
  obtain ⟨s', hruns', hmatch, hacc', hhealth', hP⟩ := h
  exact ⟨s', hruns.trans hruns', hmatch, hacc'.trans hacc, hhealth'.trans hhealth, hP⟩

/-- One part of a run after the other. -/
theorem Realizes.trans {w' : World} {P Q : Task → Prop} (h : Realizes cfg t s w P)
    (hnext : ∀ s₁, Matches t w s₁ → s₁.accepted = s.accepted →
      s₁.healthStatus = s.healthStatus → P (s₁.tasks t) → Realizes cfg t s₁ w' Q) :
    Realizes cfg t s w' Q := by
  obtain ⟨s₁, hruns, hmatch, hacc, hhealth, hP⟩ := h
  exact Realizes.after hruns hacc hhealth (hnext s₁ hmatch hacc hhealth hP)

theorem Realizes.mono {P Q : Task → Prop} (h : Realizes cfg t s w P)
    (himp : ∀ task, P task → Q task) : Realizes cfg t s w Q := by
  obtain ⟨s', hrun, hmatch, hacc, hhealth, hP⟩ := h
  exact ⟨s', hrun, hmatch, hacc, hhealth, himp _ hP⟩

/-! ### Work on one stream -/

/-- Task `t` has worked on stream `i` alone; this is what both are then. -/
structure Did (cfg : Config) (t : TaskId) (i : StreamId) (s : State) (task : Task) (c : Channel)
    (s' : State) : Prop where
  runs : Runs cfg t s s'
  task : s'.tasks t = task
  channel : s'.channels i = c
  tasks : ∀ u ≠ t, s'.tasks u = s.tasks u
  channels : ∀ j ≠ i, s'.channels j = s.channels j
  accepted : s'.accepted = s.accepted
  cache : s'.connCache = s.connCache
  health : s'.healthStatus = s.healthStatus

theorem Did.trans {task task' : Task} {c c' : Channel} (h : Did cfg t i s task c s₁)
    (h' : Did cfg t i s₁ task' c' s') : Did cfg t i s task' c' s' where
  runs := h.runs.trans h'.runs
  task := h'.task
  channel := h'.channel
  tasks u hu := (h'.tasks u hu).trans (h.tasks u hu)
  channels j hj := (h'.channels j hj).trans (h.channels j hj)
  accepted := h'.accepted.trans h.accepted
  cache := h'.cache.trans h.cache
  health := h'.health.trans h.health

theorem Did.step {a : Action} {f : Task → Task} {g : Channel → Channel}
    (hstep : step cfg s a = some ((s.onTask t f).onChannel i g)) (ha : a.task = some t) :
    Did cfg t i s (f (s.tasks t)) (g (s.channels i)) ((s.onTask t f).onChannel i g) where
  runs := Runs.one ha hstep
  task := s.tasks_onTask_self t f
  channel := State.channels_onChannel_self _ i g
  tasks _ hu := s.tasks_onTask_ne f hu
  channels _ hj := State.channels_onChannel_ne _ g hj
  accepted := rfl
  cache := rfl
  health := rfl

/-- What a task does on one stream keeps a match, if it does the same to the socket. -/
theorem Did.realizes {task : Task} {c : Channel} (hdid : Did cfg t i s task c s')
    (h : Matches t w s) (hi : i < s.accepted) (socket : Socket)
    (hwriter : socket.toBufWriter = c.toBufWriter) (st : SegStream UInt8)
    (hsends : Sends socket st) (hunread : c.unread = st.elems) (hclosed : c.closed = true)
    (hfree : c.holder = none) {P : Task → Prop} (hP : P task) :
    Realizes cfg t s { w with sockets := Function.update w.sockets i socket } P := by
  refine ⟨s', hdid.runs, ?_, hdid.accepted, hdid.health, hdid.task ▸ hP⟩
  refine ⟨h.cache.trans hdid.cache.symm, h.health.trans hdid.health.symm, ?_, ?_, ?_, ?_, ?_⟩
  · intro j hj
    rw [hdid.accepted] at hj
    by_cases hji : j = i
    · subst hji
      rw [hdid.channel]
      refine ⟨?_, st, ?_, hunread, hclosed⟩
      · rw [← hwriter]
        exact congrArg Socket.toBufWriter (Function.update_self j socket w.sockets)
      · show Relay.Sends (Function.update w.sockets j socket j) st
        rw [Function.update_self]
        exact hsends
    · rw [hdid.channels j hji]
      show (Function.update w.sockets i socket j).toBufWriter = _ ∧
        ∃ st, Relay.Sends (Function.update w.sockets i socket j) st ∧ _
      rw [Function.update_of_ne hji]
      exact h.sockets j hj
  · intro j
    by_cases hji : j = i
    · rw [hji, hdid.channel]
      exact hfree
    · rw [hdid.channels j hji]
      exact h.free j
  · intro id connMd hget
    rw [hdid.cache] at hget
    rw [hdid.accepted]
    exact h.entries id connMd hget
  · intro u hu
    rw [State.pc, hdid.tasks u hu]
    exact h.alone u hu
  · rw [hdid.accepted]
    exact h.accepted

/-! ### Writing a frame -/

namespace Pc

variable {pc : Pc}

/-- The places of a task that writes a frame, one after the other. -/
theorem writing_places (h : pc.writes t .lock = some i) :
    pc.wants t = some i ∧ pc.granted.writes t .write = some i ∧
      pc.granted.written.writes t .flush = some i ∧
      (∀ address, pc.granted.frame address = pc.frame address) ∧
      (∀ health buffer, pc.granted.written.afterWrite health buffer
        = pc.afterWrite health buffer) ∧
      pc.granted.afterFailure = pc.afterFailure ∧
      pc.granted.written.afterFailure = pc.afterFailure := by
  rcases writes_cases h with ⟨inquiry, id, connMd, rfl, rfl⟩ | ⟨frame, rfl, rfl⟩
  · refine ⟨rfl, rfl, rfl, fun _ => rfl, ?_, rfl, rfl⟩
    intro health buffer
    cases inquiry with
    | probe => rfl
    | doConnect => rfl
  · exact ⟨rfl, rfl, rfl, fun _ => rfl, fun _ _ => rfl, rfl, rfl⟩

end Pc

/-- The task takes the mutex it waits for. -/
theorem did_lock (cfg : Config) (hwants : (s.pc t).wants t = some i)
    (hfree : (s.channels i).holder = none) :
    ∃ s', Did cfg t i s ((s.tasks t).goto (s.pc t).granted) ((s.channels i).take t) s' := by
  have hstep : step cfg s (.lock t)
      = some ((s.onTask t fun task => task.goto task.pc.granted).onChannel i (Channel.take t)) := by
    show lockStep s t = _
    rw [lockStep, hwants]
    simp only [hfree]
  exact ⟨_, Did.step hstep rfl⟩

/-- It gives its frame to the `BufWriter`. -/
theorem did_writeAll (cfg : Config) {frame : PeerFrames}
    (hwrites : (s.pc t).writes t .write = some i)
    (hframe : (s.pc t).frame (s.tasks t).address = some frame) :
    ∃ s', Did cfg t i s ((s.tasks t).goto (s.pc t).written)
      ((s.channels i).writeAll frame.toBeBytes) s' := by
  have hstep : step cfg s (.writeAll t none)
      = some ((s.onTask t fun task => task.goto task.pc.written).onChannel i
          (Channel.writeAll frame.toBeBytes)) := by
    show writeStep s t none = _
    rw [writeStep, hwrites, hframe]
  exact ⟨_, Did.step hstep rfl⟩

theorem did_writeFailed (cfg : Config) {frame : PeerFrames} (n : ℕ)
    (hwrites : (s.pc t).writes t .write = some i)
    (hframe : (s.pc t).frame (s.tasks t).address = some frame)
    (hfull : (s.channels i).Overfull frame.toBeBytes) :
    ∃ s', Did cfg t i s ((s.tasks t).goto (s.pc t).afterFailure)
      (((s.channels i).onWriter fun b => b.advance n).release) s' := by
  have hstep : step cfg s (.writeAll t (some n))
      = some ((s.onTask t fun task => task.goto task.pc.afterFailure).onChannel i
          fun c => (c.onWriter fun b => b.advance n).release) := by
    show writeStep s t (some n) = _
    rw [writeStep, hwrites, hframe]
    simp only [if_pos hfull]
  exact ⟨_, Did.step hstep rfl⟩

/-- It flushes the `BufWriter`. -/
theorem did_flush (cfg : Config) (hwrites : (s.pc t).writes t .flush = some i) :
    ∃ s', Did cfg t i s ((s.tasks t).goto ((s.pc t).afterWrite s.healthStatus (s.tasks t).buffer))
      (((s.channels i).onWriter BufWriter.drained).release) s' := by
  have hstep : step cfg s (.flush t none)
      = some ((s.onTask t fun task =>
            task.goto (task.pc.afterWrite s.healthStatus task.buffer)).onChannel i
          fun c => (c.onWriter BufWriter.drained).release) := by
    show flushStep s t none = _
    rw [flushStep, hwrites]
  exact ⟨_, Did.step hstep rfl⟩

theorem did_flushFailed (cfg : Config) (n : ℕ) (hwrites : (s.pc t).writes t .flush = some i) :
    ∃ s', Did cfg t i s ((s.tasks t).goto (s.pc t).afterFailure)
      (((s.channels i).onWriter fun b => b.advance n).release) s' := by
  have hstep : step cfg s (.flush t (some n))
      = some ((s.onTask t fun task => task.goto task.pc.afterFailure).onChannel i
          fun c => (c.onWriter fun b => b.advance n).release) := by
    show flushStep s t (some n) = _
    rw [flushStep, hwrites]
  exact ⟨_, Did.step hstep rfl⟩

/-- What is left to do when the frame is in the `BufWriter`. -/
theorem did_flushed {task : Task} {c : Channel} (hdid : Did cfg t i s task c s₁) {pc : Pc}
    (hpc : pc.writes t .lock = some i) (htask : task = (s.tasks t).goto pc.granted.written) :
    (∃ s', Did cfg t i s ((s.tasks t).goto (pc.afterWrite s.healthStatus (s.tasks t).buffer))
      ((c.onWriter BufWriter.drained).release) s') ∧
    ∀ n, ∃ s', Did cfg t i s ((s.tasks t).goto pc.afterFailure)
      ((c.onWriter fun b => b.advance n).release) s' := by
  obtain ⟨-, -, hflush, -, hafter, -, hfailure⟩ := Pc.writing_places hpc
  have hpc₁ : s₁.pc t = pc.granted.written := by rw [State.pc, hdid.task, htask]; rfl
  have hbuffer : (s₁.tasks t).buffer = (s.tasks t).buffer := by rw [hdid.task, htask]; rfl
  have hgoto : ∀ pc', (s₁.tasks t).goto pc' = (s.tasks t).goto pc' := by
    intro pc'
    rw [hdid.task, htask]
    rfl
  have hwrites : (s₁.pc t).writes t .flush = some i := by rw [hpc₁]; exact hflush
  constructor
  · obtain ⟨s', hdid'⟩ := did_flush cfg hwrites
    rw [hpc₁, hbuffer, hgoto, hdid.channel, hdid.health, hafter] at hdid'
    exact ⟨s', hdid.trans hdid'⟩
  · intro n
    obtain ⟨s', hdid'⟩ := did_flushFailed cfg n hwrites
    rw [hpc₁, hgoto, hdid.channel, hfailure] at hdid'
    exact ⟨s', hdid.trans hdid'⟩

/-- Writing a frame alone: what becomes of the socket, and how it ends. -/
theorem socket_write_cases (out : Outlet) (socket : Socket) (bytes : List UInt8) :
    (∃ e n, bufWriterCapacity < socket.unflushed.length + bytes.length ∧
      (Socket.writeAll out bytes >>= fun _ => Socket.flush out) socket
        = (.error (.err e), socket.onWriter fun b => b.advance n)) ∨
    ∃ b : BufWriter, b = (if bufWriterCapacity < socket.unflushed.length + bytes.length then
        socket.toBufWriter.drained.push bytes else socket.toBufWriter.push bytes) ∧
      ((Socket.writeAll out bytes >>= fun _ => Socket.flush out) socket
          = (.ok (), { socket with toBufWriter := b.drained }) ∨
        ∃ e n, (Socket.writeAll out bytes >>= fun _ => Socket.flush out) socket
          = (.error (.err e), { socket with toBufWriter := b.advance n })) := by
  have hflush : ∀ socket' : Socket,
      Socket.flush out socket' = (.ok (), socket'.onWriter BufWriter.drained) ∨
        ∃ e n, Socket.flush out socket'
          = (.error (.err e), socket'.onWriter fun b => b.advance n) := by
    intro socket'
    rw [Socket.flush]
    cases hout : out socket'.sent socket'.unflushed with
    | none => exact Or.inl rfl
    | some r => exact Or.inr ⟨r.2, r.1, rfl⟩
  by_cases hfull : bufWriterCapacity < socket.unflushed.length + bytes.length
  · rcases hflush socket with hrun | ⟨e, n, hrun⟩
    · have hwrite : Socket.writeAll out bytes socket
          = (.ok (), socket.onWriter fun b => b.drained.push bytes) := by
        rw [Socket.writeAll, Exec.get_bind, if_pos hfull, Exec.bind_ok hrun]
        rfl
      refine Or.inr ⟨_, (if_pos hfull).symm, ?_⟩
      rw [Exec.bind_ok hwrite]
      exact hflush (socket.onWriter fun b => b.drained.push bytes)
    · have hwrite : Socket.writeAll out bytes socket
          = (.error (.err e), socket.onWriter fun b => b.advance n) := by
        rw [Socket.writeAll, Exec.get_bind, if_pos hfull, Exec.bind_fault hrun]
      exact Or.inl ⟨e, n, hfull, by rw [Exec.bind_fault hwrite]⟩
  · have hwrite : Socket.writeAll out bytes socket
        = (.ok (), socket.onWriter fun b => b.push bytes) := by
      rw [Socket.writeAll, Exec.get_bind, if_neg hfull]
      rfl
    refine Or.inr ⟨_, (if_neg hfull).symm, ?_⟩
    rw [Exec.bind_ok hwrite]
    exact hflush (socket.onWriter fun b => b.push bytes)

/-- How a write has ended, and where the task is then that was at `pc`. -/
def WriteEnd (task : Task) (health : HealthStatus) (o : Except (Fault IoError) Unit)
    (task' : Task) : Prop :=
  o = .ok () ∧ task' = task.goto (task.pc.afterWrite health task.buffer) ∨
    (∃ e, o = .error (.err e)) ∧ task' = task.goto task.pc.afterFailure

theorem writeFrame_run {net : Net} {frame : PeerFrames} {o : Except (Fault IoError) Unit}
    {socket : Socket} (h : (Socket.writeAll (net.outlet i) frame.toBeBytes >>= fun _ =>
      Socket.flush (net.outlet i)) (w.sockets i) = (o, socket)) :
    writeFrameGivenStream (World.stream net i) frame w
      = (o, { w with sockets := Function.update w.sockets i socket }) := by
  have hrun : writeFrameGivenStream (World.stream net i) frame w
      = World.onSocket i (Socket.writeAll (net.outlet i) frame.toBeBytes >>= fun _ =>
          Socket.flush (net.outlet i)) w := congrFun (World.onSocket_bind i _ _).symm w
  rw [hrun, World.onSocket, h]

/-- **Writing a frame.** -/
theorem realize_write (cfg : Config) (net : Net) (h : Matches t w s) (hi : i < s.accepted)
    (frame : PeerFrames)
    (hpc : (s.pc t).writes t .lock = some i)
    (hframe : (s.pc t).frame (s.tasks t).address = some frame) :
    ∃ o w', writeFrameGivenStream (World.stream net i) frame w = (o, w') ∧
      w'.probes = w.probes ∧ Realizes cfg t s w' (WriteEnd (s.tasks t) s.healthStatus o) := by
  obtain ⟨hwants, hwrite, -, hframes, -, hfailure, -⟩ := Pc.writing_places hpc
  obtain ⟨hwriter, st, hsends, hunread, hclosed⟩ := h.sockets i hi
  obtain ⟨s₁, hlock⟩ := did_lock cfg hwants (h.free i)
  have hpc₁ : s₁.pc t = (s.pc t).granted := congrArg Task.pc hlock.task
  have hwrites₁ : (s₁.pc t).writes t .write = some i := by rw [hpc₁]; exact hwrite
  have hframe₁ : (s₁.pc t).frame (s₁.tasks t).address = some frame := by
    rw [hpc₁, hframes, hlock.task]
    exact hframe
  rcases socket_write_cases (net.outlet i) (w.sockets i) frame.toBeBytes with
    ⟨e, n, hfull, hsocket⟩ | ⟨b, hb, hends⟩
  · have hfull₁ : (s₁.channels i).Overfull frame.toBeBytes := by
      show bufWriterCapacity < (s₁.channels i).unflushed.length + _
      rw [hlock.channel]
      rw [hwriter] at hfull
      exact hfull
    obtain ⟨s', hfailed⟩ := did_writeFailed cfg n hwrites₁ hframe₁ hfull₁
    rw [hpc₁, hfailure, hlock.task, hlock.channel] at hfailed
    refine ⟨.error (.err e), _, writeFrame_run hsocket, rfl, ?_⟩
    have hend : WriteEnd (s.tasks t) s.healthStatus (.error (.err e))
        ((s.tasks t).goto (s.pc t).afterFailure) := Or.inr ⟨⟨e, rfl⟩, rfl⟩
    refine (hlock.trans hfailed).realizes h hi ((w.sockets i).onWriter fun b => b.advance n) ?_
      st hsends hunread hclosed rfl hend
    show BufWriter.advance (w.sockets i).toBufWriter n = _
    rw [hwriter]
    rfl
  · obtain ⟨s₂, hall⟩ := did_writeAll cfg hwrites₁ hframe₁
    rw [hpc₁, hlock.task, hlock.channel] at hall
    have hdid := hlock.trans hall
    -- the `BufWriter` of the channel is that of the socket
    have hb' : (Channel.writeAll frame.toBeBytes ((s.channels i).take t)).toBufWriter = b := by
      rw [hb, hwriter]
      rfl
    obtain ⟨hflushed, hfailed⟩ := did_flushed hdid hpc rfl
    rcases hends with hsocket | ⟨e, n, hsocket⟩
    · obtain ⟨s', hflush⟩ := hflushed
      refine ⟨.ok (), _, writeFrame_run hsocket, rfl, ?_⟩
      have hend : WriteEnd (s.tasks t) s.healthStatus (.ok ())
          ((s.tasks t).goto ((s.pc t).afterWrite s.healthStatus (s.tasks t).buffer)) :=
        Or.inl ⟨rfl, rfl⟩
      refine hflush.realizes h hi { w.sockets i with toBufWriter := b.drained } ?_ st hsends hunread
        hclosed rfl hend
      show b.drained = BufWriter.drained _
      rw [← hb']
    · obtain ⟨s', hflush⟩ := hfailed n
      refine ⟨.error (.err e), _, writeFrame_run hsocket, rfl, ?_⟩
      have hend : WriteEnd (s.tasks t) s.healthStatus (.error (.err e))
          ((s.tasks t).goto (s.pc t).afterFailure) := Or.inr ⟨⟨e, rfl⟩, rfl⟩
      refine hflush.realizes h hi { w.sockets i with toBufWriter := b.advance n } ?_ st hsends
        hunread hclosed rfl hend
      show b.advance n = BufWriter.advance _ n
      rw [← hb']

/-! ### Reading a frame -/

/-- A task that reads stream `i`, by what its buffer holds; `eof` is where it goes at the end of the
stream when the buffer is empty. -/
structure ReaderOf (t : TaskId) (i : StreamId) (health : HealthStatus) (elapsed : Duration)
    (task : BytesMut → Task) (eof : Pc) : Prop where
  wants : ∀ b, parsed RelayFrames b.bytes = .error (.err .incomplete) →
    (task b).pc.wants t = some i
  reads : ∀ b, parsed RelayFrames b.bytes = .error (.err .incomplete) →
    (task b).pc.granted.reads t = some i
  target : ∀ b, parsed RelayFrames b.bytes = .error (.err .incomplete) →
    (task b).pc.granted.target (task b).buffer = b
  received : ∀ b bytes, parsed RelayFrames b.bytes = .error (.err .incomplete) →
    Task.received health elapsed bytes ((task b).goto (task b).pc.granted)
      = task (b.extend bytes)
  atEnd : ∀ b, parsed RelayFrames b.bytes = .error (.err .incomplete) →
    (task b).pc.granted.afterEnd (task b).buffer
      = if b.bytes = [] then eof else .ended .panicked
  refused : ∀ b e, parsed RelayFrames b.bytes = .error (.err (.other e)) →
    (task b).pc = .ended .panicked

/-- A task that reads its own stream. -/
theorem readerOf_own (t : TaskId) (address : IpAddr) (health : HealthStatus) (elapsed : Duration) :
    ReaderOf t t health elapsed (fun b => ⟨address, b, dispatch health b⟩) (.ended .ok) := by
  have hpc : ∀ b : BytesMut, parsed RelayFrames b.bytes = .error (.err .incomplete) →
      dispatch health b = .receive .lock := by
    intro b hb
    rw [dispatch, parseFrame, hb]
  refine ⟨?_, ?_, ?_, ?_, ?_, ?_⟩
  · intro b hb
    simp only [hpc b hb]
    rfl
  · intro b hb
    simp only [hpc b hb]
    rfl
  · intro b hb
    simp only [hpc b hb]
    rfl
  · intro b bytes hb
    simp only [hpc b hb]
    rfl
  · intro b hb
    simp only [hpc b hb]
    rfl
  · intro b e hb
    simp only [dispatch, parseFrame, hb]

/-- A probe that reads the answer. -/
theorem readerOf_ack (t : TaskId) (address : IpAddr) (own : BytesMut) (health : HealthStatus)
    (id : PeerId) (connMd : PeerConnectionMetadata) (elapsed : Duration) :
    ReaderOf t connMd.stream health elapsed
      (fun b => ⟨address, own, afterAck id connMd elapsed b⟩)
      (.reply (.probeResult none) .lock) := by
  have hpc : ∀ b : BytesMut, parsed RelayFrames b.bytes = .error (.err .incomplete) →
      afterAck id connMd elapsed b = .ack id connMd b .lock := by
    intro b hb
    rw [afterAck, parseFrame, hb]
  refine ⟨?_, ?_, ?_, ?_, ?_, ?_⟩
  · intro b hb
    simp only [hpc b hb]
    rfl
  · intro b hb
    simp only [hpc b hb]
    rfl
  · intro b hb
    simp only [hpc b hb]
    rfl
  · intro b bytes hb
    simp only [hpc b hb]
    rfl
  · intro b hb
    simp only [hpc b hb]
    rfl
  · intro b e hb
    simp only [afterAck, parseFrame, hb]

theorem did_read (cfg : Config) {n : ℕ} (elapsed : Duration)
    (hreads : (s.pc t).reads t = some i) (hpos : 0 < n)
    (hn : n ≤ (s.channels i).unread.length)
    (hroom : n ≤ cfg.reserve.room ((s.pc t).target (s.tasks t).buffer).capacity
      ((s.pc t).target (s.tasks t).buffer).bytes.length) :
    ∃ s', Did cfg t i s
      (Task.received s.healthStatus elapsed ((s.channels i).unread.take n) (s.tasks t))
      (((s.channels i).consume n).release) s' := by
  have hstep : step cfg s (.read t n elapsed)
      = some ((s.onTask t
          (Task.received s.healthStatus elapsed ((s.channels i).unread.take n))).onChannel i
        fun c => (c.consume n).release) := by
    show readStep cfg s t n elapsed = _
    rw [readStep, hreads]
    simp only [if_neg (Nat.pos_iff_ne_zero.mp hpos), if_pos (And.intro hn hroom)]
  exact ⟨_, Did.step hstep rfl⟩

theorem did_readEnd (cfg : Config) (hreads : (s.pc t).reads t = some i)
    (hempty : (s.channels i).unread = []) (hclosed : (s.channels i).closed = true) :
    ∃ s', Did cfg t i s ((s.tasks t).goto ((s.pc t).afterEnd (s.tasks t).buffer))
      ((s.channels i).release) s' := by
  have hstep : step cfg s (.read t 0 (.fromMillis 0))
      = some ((s.onTask t fun task => task.goto (task.pc.afterEnd task.buffer)).onChannel i
          Channel.release) := by
    show readStep cfg s t 0 _ = _
    rw [readStep, hreads]
    simp only [if_true, if_pos (And.intro hempty hclosed)]
  exact ⟨_, Did.step hstep rfl⟩

/-- Where a task is that has read a frame, by how the reading has ended. -/
def ReadOutcome (task : BytesMut → Task) (eof : Pc) (buffer : BytesMut) :
    Except (Fault IoError) (Option RelayFrames) → Task → Prop
  | .ok (some frame), task' => parsed RelayFrames buffer.bytes = .ok frame ∧ task' = task buffer
  | .ok none, task' => task' = (task buffer).goto eof
  | .error .outOfFuel, _ => True
  | .error _, task' => task'.pc = .ended .panicked

variable {net : Net} {shard : PeerId → ℕ} {health : HealthStatus} {task : BytesMut → Task}
  {eof : Pc} {buffer : BytesMut}

/-- One turn of a reader that goes to the stream. -/
theorem realize_turn (net : Net) (shard : PeerId → ℕ)
    (hreader : ReaderOf t i health (net.elapsed w.probes) task eof)
    (h : Matches t w s) (hhealth : s.healthStatus = health) (hi : i < s.accepted)
    (htask : s.tasks t = task buffer)
    (hparsed : parsed RelayFrames buffer.bytes = .error (.err .incomplete)) :
    ∃ st, w.Sends i st ∧ ∀ bytes st',
      st.read (net.reserve.room buffer.capacity buffer.bytes.length) = (bytes, st') →
        Realizes ⟨net.reserve, shard⟩ t s (w.receiving i st') fun task' =>
          task' = if bytes = [] then
              if buffer.bytes = [] then (task buffer).goto eof
              else (task buffer).goto (.ended .panicked)
            else task (buffer.extend bytes) := by
  obtain ⟨hwriter, st, hsends, hunread, hclosed⟩ := h.sockets i hi
  refine ⟨st, hsends, ?_⟩
  intro bytes st' hread
  have hroompos := net.reserve.room_pos buffer.capacity buffer.bytes.length
  have happend := st.read_append (net.reserve.room buffer.capacity buffer.bytes.length)
  have hlength := st.read_length_le (net.reserve.room buffer.capacity buffer.bytes.length)
  have hnil := st.read_eq_nil_iff (net.reserve.room buffer.capacity buffer.bytes.length)
  rw [hread] at happend hlength hnil
  simp only at happend hlength hnil
  have hpc : s.pc t = (task buffer).pc := congrArg Task.pc htask
  have hwants : (s.pc t).wants t = some i := by rw [hpc]; exact hreader.wants buffer hparsed
  obtain ⟨s₁, hlock⟩ := did_lock ⟨net.reserve, shard⟩ hwants (h.free i)
  have htask₁ : s₁.tasks t = (task buffer).goto (task buffer).pc.granted := by
    rw [hlock.task, hpc, htask]
  have hpc₁ : s₁.pc t = (task buffer).pc.granted := congrArg Task.pc htask₁
  have hreads₁ : (s₁.pc t).reads t = some i := by rw [hpc₁]; exact hreader.reads buffer hparsed
  have hunread₁ : (s₁.channels i).unread = st.elems := by rw [hlock.channel]; exact hunread
  have hclosed₁ : (s₁.channels i).closed = true := by rw [hlock.channel]; exact hclosed
  by_cases hbytes : bytes = []
  · -- the end of the stream
    have hend : st.elems = [] := (hnil.mp hbytes).resolve_left (Nat.pos_iff_ne_zero.mp hroompos)
    have hrest : st'.elems = [] := by rwa [hbytes, List.nil_append, hend] at happend
    obtain ⟨s₂, hlast⟩ := did_readEnd ⟨net.reserve, shard⟩ hreads₁
      (hunread₁.trans hend) hclosed₁
    have hafter := hreader.atEnd buffer hparsed
    have htask₂ : (s₁.tasks t).goto ((s₁.pc t).afterEnd (s₁.tasks t).buffer)
        = (task buffer).goto (if buffer.bytes = [] then eof else .ended .panicked) := by
      rw [hpc₁, htask₁, ← hafter]
      rfl
    rw [htask₂] at hlast
    refine (hlock.trans hlast).realizes h hi { w.sockets i with incoming := Feed.ofStream st' }
      ?_ st' rfl ?_ ?_ rfl ?_
    · rw [hlock.channel]
      exact hwriter
    · show (s₁.channels i).unread = _
      rw [hunread₁, hend, hrest]
    · exact hclosed₁
    · rw [if_pos hbytes]
      split <;> rfl
  · have hpos : 0 < bytes.length := List.length_pos_iff.mpr hbytes
    have htarget : (s₁.pc t).target (s₁.tasks t).buffer = buffer := by
      rw [hpc₁, htask₁]
      exact hreader.target buffer hparsed
    have htake : (s₁.channels i).unread.take bytes.length = bytes := by
      rw [hunread₁, ← happend, List.take_left]
    have hn : bytes.length ≤ (s₁.channels i).unread.length := by
      rw [hunread₁, ← happend, List.length_append]
      exact Nat.le_add_right _ _
    obtain ⟨s₂, hgot⟩ := did_read ⟨net.reserve, shard⟩ (net.elapsed w.probes) hreads₁ hpos
      hn (by rw [htarget]; exact hlength)
    rw [htake, hlock.health, hhealth, htask₁, hreader.received buffer bytes hparsed] at hgot
    refine (hlock.trans hgot).realizes h hi { w.sockets i with incoming := Feed.ofStream st' }
      ?_ st' rfl ?_ ?_ rfl ?_
    · rw [hlock.channel]
      exact hwriter
    · show (s₁.channels i).unread.drop bytes.length = _
      rw [hunread₁, ← happend, List.drop_left]
    · exact hclosed₁
    · rw [if_neg hbytes]

/-- What a reader does, the system can do too, up to the frame it returns. -/
def ReadRealized (net : Net) (shard : PeerId → ℕ) (t : TaskId) (s : State) (w : World)
    (task : BytesMut → Task) (eof : Pc) (o : Except (Fault IoError) (Option RelayFrames))
    (s' : BytesMut × World) : Prop :=
  s'.2.probes = w.probes ∧
    Realizes ⟨net.reserve, shard⟩ t s s'.2 (ReadOutcome task eof s'.1 o)

/-- The turn of a reader that goes to the stream, and what follows it. -/
theorem realize_readMore {fuel : ℕ}
    (hreader : ReaderOf t i health (net.elapsed w.probes) task eof)
    (h : Matches t w s) (hhealth : s.healthStatus = health) (hi : i < s.accepted)
    (htask : s.tasks t = task buffer)
    (hparsed : parsed RelayFrames buffer.bytes = .error (.err .incomplete))
    (ih : ∀ {buffer : BytesMut} {w : World} {s : State},
      ReaderOf t i health (net.elapsed w.probes) task eof → Matches t w s →
      s.healthStatus = health → i < s.accepted → s.tasks t = task buffer →
        Exec.Ensures (readFrameGivenStream net.reserve (World.stream net i) fuel) (buffer, w)
          (ReadRealized net shard t s w task eof)) :
    Exec.Ensures (readMore (World.stream net i)
      (net.reserve.room buffer.capacity buffer.bytes.length) buffer
      (readFrameGivenStream net.reserve (World.stream net i) fuel)) (buffer, w)
      (ReadRealized net shard t s w task eof) := by
  obtain ⟨st, hsends, hturn⟩ := realize_turn net shard hreader h hhealth hi htask hparsed
  generalize net.reserve.room buffer.capacity buffer.bytes.length = room at hturn
  obtain ⟨w', hrun, hw'⟩ := World.stream_readsFrom net i w room w st hsends.eq_receiving
  subst hw'
  have hnext := hturn (st.read room).1 (st.read room).2 rfl
  rw [readMore]
  refine Exec.Ensures.step (Exec.onSecond_run buffer hrun) ?_
  refine Exec.Ensures.step (Exec.modify_run _ _) ?_
  by_cases hnil : (st.read room).1 = []
  · simp only [if_pos hnil] at hnext ⊢
    by_cases hempty : buffer.bytes = []
    · simp only [if_pos hempty] at hnext ⊢
      refine ⟨rfl, hnext.mono fun task' htask' => ?_⟩
      show task' = (task (buffer.extend (st.read room).1)).goto eof
      rw [hnil, htask', BytesMut.extend, List.append_nil]
    · simp only [if_neg hempty] at hnext ⊢
      exact ⟨rfl, hnext.mono fun task' htask' => congrArg Task.pc htask'⟩
  · simp only [if_neg hnil] at hnext ⊢
    obtain ⟨s₁, hruns, hmatch, hacc, hhealth₁, htask₁⟩ := hnext
    have hrest := ih (w := w.receiving i (st.read room).2) hreader hmatch
      (hhealth₁.trans hhealth) (hacc ▸ hi) htask₁
    exact ⟨hrest.1, Realizes.after hruns hacc hhealth₁ hrest.2⟩

/-- **Reading a frame.** -/
theorem realize_read (net : Net) (shard : PeerId → ℕ)
    (hreader : ReaderOf t i health (net.elapsed w.probes) task eof) (fuel : ℕ)
    (h : Matches t w s) (hhealth : s.healthStatus = health) (hi : i < s.accepted)
    (htask : s.tasks t = task buffer) :
    Exec.Ensures (readFrameGivenStream net.reserve (World.stream net i) fuel) (buffer, w)
      (ReadRealized net shard t s w task eof) := by
  induction fuel generalizing buffer w s with
  | zero => exact ⟨rfl, Realizes.refl h trivial⟩
  | succ fuel ih =>
      rw [readFrameGivenStream, Exec.Ensures, Exec.get_bind]
      cases hparsed : parsed RelayFrames buffer.bytes with
      | ok frame =>
          simp only [parseFrame, hparsed, Exec.ofResult_ok_bind, Exec.pure_run]
          exact ⟨rfl, Realizes.refl h ⟨hparsed, htask⟩⟩
      | error φ =>
          obtain ⟨e, rfl⟩ := parsed_fault RelayFrames.steady hparsed
          cases e with
          | other e =>
              simp only [parseFrame, hparsed, Exec.ofResult_error_bind]
              refine ⟨rfl, Realizes.refl h ?_⟩
              rw [htask]
              exact hreader.refused buffer e hparsed
          | incomplete =>
              simp only [parseFrame, hparsed, Exec.ofResult_ok_bind]
              exact realize_readMore hreader h hhealth hi htask hparsed ih

/-! ### The registry -/

variable {address : IpAddr} {own : BytesMut} {id : PeerId} {inquiry : Inquiry}
  {connMd : PeerConnectionMetadata}

/-- Counting a probe changes nothing that the system shows. -/
theorem Matches.counted (h : Matches t w s) (n : ℕ) : Matches t { w with probes := n } s :=
  ⟨h.cache, h.health, h.sockets, h.free, h.entries, h.alone, h.accepted⟩

/-- No other task keeps an entry of any shard. -/
theorem Matches.shardFree (h : Matches t w s) (hpc : s.pc t = .register id) (n : ℕ) :
    s.ShardFree cfg n := by
  intro u _ id' hentry
  by_cases hu : u = t
  · rw [hu, hpc] at hentry
    cases hentry
  · rw [h.alone u hu] at hentry
    cases hentry

/-- The task inserts its entry. -/
theorem realize_insert (cfg : Config) (h : Matches t w s)
    (htask : s.tasks t = ⟨address, own, .register id⟩) :
    Realizes cfg t s { w with connCache := (w.connCache.insert id ⟨t, address⟩).2 } fun task' =>
      task' = match w.connCache.get id with
        | some _ => ⟨address, own, .reply (.registerResult .success) .lock⟩
        | none => ⟨address, own, .ended .panicked⟩ := by
  have hpc : s.pc t = .register id := congrArg Task.pc htask
  have hstep : step cfg s (.access t) = some ((s.onTask t (Task.goto
      (match w.connCache.get id with
        | some _ => .reply (.registerResult .success) .lock
        | none => .ended .panicked))).withCache (s.connCache.insert id ⟨t, address⟩).2) := by
    show accessStep cfg s t = _
    simp only [accessStep, hpc, htask, if_pos (h.shardFree hpc _), Cache.insert_old, h.cache]
    cases s.connCache.get id with
    | none => rfl
    | some old => rfl
  refine ⟨_, Runs.one rfl hstep, ?_, rfl, rfl, ?_⟩
  · refine ⟨by rw [h.cache]; rfl, h.health, h.sockets, h.free, ?_, ?_, h.accepted⟩
    · intro id' connMd hget
      by_cases hid : id' = id
      · subst hid
        have hself : some (⟨t, address⟩ : PeerConnectionMetadata) = some connMd :=
          (Cache.get_insert_self _ _ _).symm.trans hget
        cases hself
        exact h.accepted
      · exact h.entries id' connMd ((Cache.get_insert_ne _ _ hid).symm.trans hget)
    · intro u hu
      show (State.pc (s.onTask t _) u).entry = none
      rw [State.pc, State.tasks_onTask_ne _ _ hu]
      exact h.alone u hu
  · show (s.onTask t _).tasks t = _
    rw [State.tasks_onTask_self, htask]
    cases w.connCache.get id with
    | none => rfl
    | some old => rfl

/-- The task looks a peer up. -/
theorem realize_lookup (cfg : Config) (h : Matches t w s)
    (htask : s.tasks t = ⟨address, own, .lookup inquiry id⟩) :
    Realizes cfg t s w fun task' =>
      task' = match w.connCache.get id with
        | some connMd => ⟨address, own, .command inquiry id connMd .lock⟩
        | none => ⟨address, own, .reply inquiry.refusal .lock⟩ := by
  have hpc : s.pc t = .lookup inquiry id := congrArg Task.pc htask
  have hstep : step cfg s (.access t) = some (s.onTask t (Task.goto
      (match w.connCache.get id with
        | some connMd => .command inquiry id connMd .lock
        | none => .reply inquiry.refusal .lock))) := by
    show accessStep cfg s t = _
    simp only [accessStep, hpc, h.cache]
    cases s.connCache.get id with
    | none => rfl
    | some old => rfl
  refine ⟨_, Runs.one rfl hstep, ?_, rfl, rfl, ?_⟩
  · refine ⟨h.cache, h.health, h.sockets, h.free, h.entries, ?_, h.accepted⟩
    intro u hu
    rw [State.pc, State.tasks_onTask_ne _ _ hu]
    exact h.alone u hu
  · rw [State.tasks_onTask_self, htask]
    cases w.connCache.get id with
    | none => rfl
    | some old => rfl

/-! ### The handlers -/

/-- Where a task is that has handled a frame, by how the handler has ended. -/
def HandlerOutcome (address : IpAddr) (own : BytesMut) (health : HealthStatus) :
    Except (Fault IoError) Unit → Task → Prop
  | .ok (), task' => task' = ⟨address, own, dispatch health own⟩
  | .error (.err _), task' => task'.pc = .ended .err
  | .error (.panic _), task' => task'.pc = .ended .panicked
  | .error .outOfFuel, _ => True

/-- Where a task is that has run a method of the server: at the reply that its handler makes of
the result. -/
def MethodOutcome {α : Type} (address : IpAddr) (own : BytesMut)
    (reply : Except IoError α → PeerFrames) : Except (Fault IoError) α → Task → Prop
  | .ok a, task' => task' = ⟨address, own, .reply (reply (.ok a)) .lock⟩
  | .error (.err e), task' => task' = ⟨address, own, .reply (reply (.error e)) .lock⟩
  | .error (.panic _), task' => task'.pc = .ended .panicked
  | .error .outOfFuel, _ => True

/-- The task writes its reply. -/
theorem realize_reply (cfg : Config) (net : Net) (h : Matches t w s) {frame : PeerFrames}
    (htask : s.tasks t = ⟨address, own, .reply frame .lock⟩) :
    Exec.Ensures (RelayConnection.writeFrame (World.stream net t) frame) w fun o w' =>
      Realizes cfg t s w' (HandlerOutcome address own s.healthStatus o) := by
  have hpc : s.pc t = .reply frame .lock := congrArg Task.pc htask
  obtain ⟨o, w', hrun, -, hreal⟩ := realize_write cfg net h h.accepted
    frame (by rw [hpc]; rfl) (by rw [hpc]; rfl)
  rw [Exec.Ensures, RelayConnection.writeFrame, hrun]
  refine hreal.mono ?_
  intro task' hend
  rw [WriteEnd, htask] at hend
  rcases hend with ⟨rfl, rfl⟩ | ⟨⟨e, rfl⟩, rfl⟩
  · rfl
  · rfl

/-- A handler runs a method of the server and writes what it makes of the result. -/
theorem realize_handler {α : Type} {method : Exec IoError World α}
    {reply : Except IoError α → PeerFrames}
    (hmethod : Exec.Ensures method w fun o w' =>
      Realizes cfg t s w' (MethodOutcome address own reply o)) :
    Exec.Ensures (Exec.attempt method >>= fun result =>
      RelayConnection.writeFrame (World.stream net t) (reply result)) w fun o w' =>
      Realizes cfg t s w' (HandlerOutcome address own s.healthStatus o) := by
  have hreply : ∀ {s₁ w'} frame, Matches t w' s₁ → s₁.healthStatus = s.healthStatus →
      s₁.tasks t = ⟨address, own, .reply frame .lock⟩ →
      Exec.Ensures (RelayConnection.writeFrame (World.stream net t) frame) w' fun o w'' =>
        Realizes cfg t s₁ w'' (HandlerOutcome address own s.healthStatus o) := by
    intro s₁ w' frame hmatch hhealth htask
    rw [← hhealth]
    exact realize_reply cfg net hmatch htask
  rcases hrun : method w with ⟨(e | msg | _) | a, w'⟩
  all_goals have hreal := hmethod.of_run hrun
  · refine Exec.Ensures.step (Exec.attempt_err hrun) ?_
    exact hreal.trans fun s₁ hmatch _ hhealth htask => hreply _ hmatch hhealth htask
  · rw [Exec.Ensures, Exec.bind_fault (Exec.attempt_panic hrun)]
    exact hreal
  · rw [Exec.Ensures, Exec.bind_fault (Exec.attempt_outOfFuel hrun)]
    exact hreal
  · refine Exec.Ensures.step (Exec.attempt_ok hrun) ?_
    exact hreal.trans fun s₁ hmatch _ hhealth htask => hreply _ hmatch hhealth htask

/-- The reply that tells whether a method returned. -/
def statusReply (success failure : PeerFrames) : Except IoError Unit → PeerFrames
  | .ok () => success
  | .error _ => failure

/-- The reply to a probe. -/
def probeReply : Except IoError PeerInfo → PeerFrames
  | .ok peerInfo => .probeResult (some peerInfo)
  | .error _ => .probeResult none

theorem realize_register (h : Matches t w s)
    (htask : s.tasks t = ⟨address, own, .register id⟩) :
    Exec.Ensures (processRegisterFrame net t address id) w fun o w' =>
      Realizes cfg t s w' (HandlerOutcome address own s.healthStatus o) := by
  have heq : processRegisterFrame net t address id
      = Exec.attempt (Server.register id address t) >>= fun result =>
          RelayConnection.writeFrame (World.stream net t)
            (statusReply (.registerResult .success) (.registerResult .failure) result) := by
    refine congrArg (Exec.attempt (Server.register id address t) >>= ·) ?_
    funext result
    cases result with
    | ok _ => rfl
    | error _ => rfl
  rw [heq]
  refine realize_handler ?_
  have hinsert := realize_insert cfg h htask
  rw [Server.register, Exec.Ensures, Exec.get_bind, Exec.modify_bind]
  simp only [Cache.insert_old]
  cases hget : w.connCache.get id with
  | none =>
      simp only [hget] at hinsert
      exact hinsert.mono fun task' htask' => congrArg Task.pc htask'
  | some old =>
      simp only [hget] at hinsert
      exact hinsert

/-- The command that a lookup leads to. -/
theorem realize_command (cfg : Config) (net : Net) (h : Matches t w s)
    (hi : connMd.stream < s.accepted)
    (htask : s.tasks t = ⟨address, own, .command inquiry id connMd .lock⟩) :
    ∃ o w', writeFrameGivenStream (World.stream net connMd.stream)
        (PeerFrames.command (inquiry.command address)) w = (o, w') ∧ w'.probes = w.probes ∧
      Realizes cfg t s w' fun task' =>
        o = .ok () ∧ task' = ⟨address, own,
            (Pc.command inquiry id connMd .lock).afterWrite s.healthStatus own⟩ ∨
          (∃ e, o = .error (.err e)) ∧ task' = ⟨address, own, .reply inquiry.refusal .lock⟩ := by
  have hpc : s.pc t = .command inquiry id connMd .lock := congrArg Task.pc htask
  obtain ⟨o, w', hrun, hprobes, hreal⟩ := realize_write cfg net h hi
    (.command (inquiry.command address)) (by rw [hpc]; rfl) (by rw [hpc, htask]; rfl)
  refine ⟨o, w', hrun, hprobes, hreal.mono ?_⟩
  intro task' hend
  rw [WriteEnd, htask] at hend
  exact hend

theorem realize_doConnect (h : Matches t w s)
    (htask : s.tasks t = ⟨address, own, .lookup .doConnect id⟩) :
    Exec.Ensures (processSyncFrame net t address id) w fun o w' =>
      Realizes cfg t s w' (HandlerOutcome address own s.healthStatus o) := by
  have heq : processSyncFrame net t address id
      = Exec.attempt (Server.doconnect net id address) >>= fun result =>
          RelayConnection.writeFrame (World.stream net t)
            (statusReply (.doConnectResult .success) (.doConnectResult .failure) result) := by
    refine congrArg (Exec.attempt (Server.doconnect net id address) >>= ·) ?_
    funext result
    cases result with
    | ok _ => rfl
    | error _ => rfl
  rw [heq]
  refine realize_handler ?_
  have hlookup := realize_lookup cfg h htask
  rw [Server.doconnect]
  refine Exec.Ensures.step (Exec.get_run w) ?_
  cases hget : w.connCache.get id with
  | none =>
      simp only [hget] at hlookup ⊢
      exact hlookup
  | some connMd =>
      simp only [hget] at hlookup ⊢
      refine hlookup.trans fun s₁ hmatch hacc hhealth htask₁ => ?_
      have hi : connMd.stream < s₁.accepted := hmatch.entries id connMd (hmatch.cache ▸ hget)
      obtain ⟨o, w', hrun, -, hreal⟩ := realize_command cfg net hmatch hi htask₁
      have hwrite : writeFrameGivenStream (World.stream net connMd.stream)
          (PeerFrames.command (.doConnect address)) w = (o, w') := hrun
      rw [hwrite]
      refine hreal.mono ?_
      rintro task' (⟨rfl, htask'⟩ | ⟨⟨e, rfl⟩, htask'⟩)
      · exact htask'
      · exact htask'

/-- The part of `Server::probe` that waits for the answer. -/
def awaitAck (net : Net) (fuel : ℕ) (id : PeerId) (connMd : PeerConnectionMetadata) :
    Exec IoError World PeerInfo := do
  let result ← Exec.attempt (Exec.withLocal (BytesMut.withCapacity Server.probeAckLength)
    (readFrameGivenStream net.reserve (World.stream net connMd.stream) fuel))
  match result with
  | .error _ => Exec.unwind unwrapErr
  | .ok (some RelayFrames.probeAck) => do
      let w ← Exec.get
      Exec.modify fun w => { w with probes := w.probes + 1 }
      pure ⟨id, connMd.ipAddr, net.elapsed w.probes⟩
  | .ok (some _) =>
      Exec.fail ⟨.invalidData, "Invalid data received from peer " ++ net.display id⟩
  | .ok none =>
      Exec.fail ⟨.brokenPipe, "Ack not received from peer " ++ net.display id⟩

theorem realize_awaitAck (fuel : ℕ) (h : Matches t w s) (hi : connMd.stream < s.accepted)
    (htask : s.tasks t
      = ⟨address, own, .ack id connMd (BytesMut.withCapacity Server.probeAckLength) .lock⟩) :
    Exec.Ensures (awaitAck net fuel id connMd) w fun o w' =>
      Realizes ⟨net.reserve, shard⟩ t s w' (MethodOutcome address own probeReply o) := by
  have hshort : parsed RelayFrames (BytesMut.withCapacity Server.probeAckLength).bytes
      = .error (.err .incomplete) := parsed_of_short RelayFrames.short_nil
  have hstart : s.tasks t = ⟨address, own,
      afterAck id connMd (net.elapsed w.probes) (BytesMut.withCapacity Server.probeAckLength)⟩ := by
    rw [htask, afterAck, parseFrame, hshort]
  have hread := realize_read net shard
    (readerOf_ack t address own s.healthStatus id connMd (net.elapsed w.probes)) fuel h rfl hi
    hstart
  rcases hrun : readFrameGivenStream (F := RelayFrames) net.reserve
    (World.stream net connMd.stream) fuel (BytesMut.withCapacity Server.probeAckLength, w) with
    ⟨(e | msg | _) | frame, buffer, w'⟩
  all_goals
    obtain ⟨hprobes, hreal⟩ := hread.of_run hrun
    simp only at hprobes hreal
    rw [awaitAck]
  · refine Exec.Ensures.step (Exec.attempt_err (Exec.withLocal_run hrun)) ?_
    exact hreal
  · rw [Exec.Ensures, Exec.bind_fault (Exec.attempt_panic (Exec.withLocal_run hrun))]
    exact hreal
  · rw [Exec.Ensures, Exec.bind_fault (Exec.attempt_outOfFuel (Exec.withLocal_run hrun))]
    exact hreal
  · refine Exec.Ensures.step (Exec.attempt_ok (Exec.withLocal_run hrun)) ?_
    cases frame with
    | none => exact hreal
    | some frame =>
        have hafter : ∀ task', ReadOutcome
            (fun b => ⟨address, own, afterAck id connMd (net.elapsed w.probes) b⟩)
            (.reply (.probeResult none) .lock) buffer (.ok (some frame)) task' →
            task' = ⟨address, own, .reply (.probeResult (if frame = .probeAck then
              some ⟨id, connMd.ipAddr, net.elapsed w.probes⟩ else none)) .lock⟩ := by
          rintro task' ⟨hparsed, rfl⟩
          show (⟨address, own, afterAck id connMd (net.elapsed w.probes) buffer⟩ : Task) = _
          rw [afterAck, parseFrame, hparsed]
          cases frame <;> rfl
        have hreply := hreal.mono hafter
        cases frame with
        | probeAck =>
            obtain ⟨s', hruns, hmatch, hacc, hhealth, htask'⟩ := hreply
            refine ⟨s', hruns, hmatch.counted _, hacc, hhealth, htask'.trans ?_⟩
            rw [← hprobes]
            rfl
        | register id' => exact hreply
        | probe id' => exact hreply
        | doConnect id' => exact hreply
        | ping => exact hreply

theorem realize_probe (fuel : ℕ) (h : Matches t w s)
    (htask : s.tasks t = ⟨address, own, .lookup .probe id⟩) :
    Exec.Ensures (processProbeFrame net fuel t id) w fun o w' =>
      Realizes ⟨net.reserve, shard⟩ t s w' (HandlerOutcome address own s.healthStatus o) := by
  have heq : processProbeFrame net fuel t id
      = Exec.attempt (Server.probe net fuel id) >>= fun result =>
          RelayConnection.writeFrame (World.stream net t) (probeReply result) := by
    refine congrArg (Exec.attempt (Server.probe net fuel id) >>= ·) ?_
    funext result
    cases result with
    | ok _ => rfl
    | error _ => rfl
  rw [heq]
  refine realize_handler ?_
  have hlookup := realize_lookup ⟨net.reserve, shard⟩ h htask
  rw [Server.probe]
  refine Exec.Ensures.step (Exec.get_run w) ?_
  cases hget : w.connCache.get id with
  | none =>
      simp only [hget] at hlookup ⊢
      exact hlookup
  | some connMd =>
      simp only [hget] at hlookup ⊢
      refine hlookup.trans fun s₁ hmatch hacc hhealth htask₁ => ?_
      have hi : connMd.stream < s₁.accepted := hmatch.entries id connMd (hmatch.cache ▸ hget)
      obtain ⟨o, w', hrun, hprobes, hreal⟩ :=
        realize_command ⟨net.reserve, shard⟩ net hmatch hi htask₁
      have hwrite : writeFrameGivenStream (World.stream net connMd.stream)
          (PeerFrames.command .sync) w = (o, w') := hrun
      have hmethod : Exec.Ensures (writeFrameGivenStream (World.stream net connMd.stream)
          (PeerFrames.command .sync) >>= fun _ => awaitAck net fuel id connMd) w fun o w' =>
          Realizes ⟨net.reserve, shard⟩ t s₁ w' (MethodOutcome address own probeReply o) := by
        obtain ⟨s₂, hruns, hmatch₂, hacc₂, hhealth₂, ⟨rfl, htask₂⟩ | ⟨⟨e, rfl⟩, htask₂⟩⟩ := hreal
        · refine Exec.Ensures.step hwrite ?_
          exact Realizes.after hruns hacc₂ hhealth₂
            (realize_awaitAck fuel hmatch₂ (hacc₂ ▸ hi) htask₂)
        · rw [Exec.Ensures, Exec.bind_fault hwrite]
          exact ⟨s₂, hruns, hmatch₂, hacc₂, hhealth₂, htask₂⟩
      exact hmethod

/-- **Handling a frame.** -/
theorem realize_frame (net : Net) (shard : PeerId → ℕ) (fuel : ℕ) (h : Matches t w s)
    {frame : RelayFrames} (hparsed : parsed RelayFrames own.bytes = .ok frame)
    (htask : s.tasks t = ⟨address, own, dispatch s.healthStatus own⟩) :
    Exec.Ensures (processFrame net fuel t address frame) w fun o w' =>
      Realizes ⟨net.reserve, shard⟩ t s w' (HandlerOutcome address own s.healthStatus o) := by
  rw [dispatch, parseFrame, hparsed] at htask
  cases frame with
  | register id => exact realize_register h htask
  | probe id => exact realize_probe fuel h htask
  | doConnect id => exact realize_doConnect h htask
  | ping =>
      have hping := realize_reply ⟨net.reserve, shard⟩ net h htask
      rw [← h.health] at hping
      refine Exec.Ensures.step (Exec.get_run w) ?_
      rw [← h.health]
      exact hping
  | probeAck => exact Realizes.refl h (congrArg Task.pc htask)

/-! ### The loop -/

/-- The record of a request is not shown by the system. -/
theorem Matches.recorded (h : Matches t w s) (i : StreamId) (frame : RelayFrames) :
    Matches t (w.record i frame) s := by
  cases frame with
  | probeAck => exact h
  | register id => exact ⟨h.cache, h.health, h.sockets, h.free, h.entries, h.alone, h.accepted⟩
  | probe id => exact ⟨h.cache, h.health, h.sockets, h.free, h.entries, h.alone, h.accepted⟩
  | doConnect id => exact ⟨h.cache, h.health, h.sockets, h.free, h.entries, h.alone, h.accepted⟩
  | ping => exact ⟨h.cache, h.health, h.sockets, h.free, h.entries, h.alone, h.accepted⟩

/-- Where a task is whose `process_connection` has ended. -/
def EndedAs : Except (Fault IoError) Unit → Task → Prop
  | .ok (), task' => task'.pc = .ended .ok
  | .error (.err _), task' => task'.pc = .ended .err
  | .error (.panic _), task' => task'.pc = .ended .panicked
  | .error .outOfFuel, _ => True

/-- **One task alone.**  Whatever `process_connection` does as one task runs it, up to its end or
to any turn of its loop, the system can do by steps of that task. -/
theorem processConnection_refines (net : Net) (shard : PeerId → ℕ) (fuel : ℕ) {t : TaskId}
    {address : IpAddr} {buffer : BytesMut} {w : World} {s : State} (h : Matches t w s)
    (htask : s.tasks t = ⟨address, buffer, dispatch s.healthStatus buffer⟩) :
    Exec.Ensures (processConnection net t address fuel) (buffer, w) fun o s' =>
      Realizes ⟨net.reserve, shard⟩ t s s'.2 (EndedAs o) := by
  induction fuel generalizing buffer w s with
  | zero => exact Realizes.refl h trivial
  | succ fuel ih =>
      have hread : Exec.Ensures (RelayConnection.readFrame net.reserve (World.stream net t) fuel)
          (buffer, w) (ReadRealized net shard t s w
            (fun b => ⟨address, b, dispatch s.healthStatus b⟩) (.ended .ok)) :=
        realize_read net shard (readerOf_own t address s.healthStatus _) fuel h rfl h.accepted htask
      rw [processConnection]
      rcases hrun : RelayConnection.readFrame net.reserve (World.stream net t) fuel (buffer, w) with
        ⟨(e | msg | _) | frame, buffer', w'⟩
      all_goals
        obtain ⟨-, hreal⟩ := hread.of_run hrun
        simp only at hreal
      · refine Exec.Ensures.step (Exec.attempt_err hrun) ?_
        exact hreal
      · rw [Exec.Ensures, Exec.bind_fault (Exec.attempt_panic hrun)]
        exact hreal
      · rw [Exec.Ensures, Exec.bind_fault (Exec.attempt_outOfFuel hrun)]
        exact hreal
      · refine Exec.Ensures.step (Exec.attempt_ok hrun) ?_
        cases frame with
        | none => exact hreal.mono fun task' htask' => congrArg Task.pc htask'
        | some frame =>
            obtain ⟨s₁, hruns, hmatch, hacc, hhealth, hparsed, htask₁⟩ := hreal
            rw [← hhealth] at htask₁
            have hframe := realize_frame net shard fuel
              (hmatch.recorded t frame) hparsed htask₁
            refine Exec.Ensures.step (Exec.onSecond_run buffer' (Exec.modify_run _ w')) ?_
            rcases hhandled : processFrame net fuel t address frame (w'.record t frame) with
              ⟨φ | _, w''⟩
            · have hfault := hframe.of_run hhandled
              rw [Exec.Ensures, Exec.bind_fault (Exec.onSecond_run buffer' hhandled)]
              cases φ with
              | err e => exact Realizes.after hruns hacc hhealth hfault
              | panic msg => exact Realizes.after hruns hacc hhealth hfault
              | outOfFuel => exact Realizes.after hruns hacc hhealth hfault
            · refine Exec.Ensures.step (Exec.onSecond_run buffer' hhandled) ?_
              refine Realizes.after hruns hacc hhealth ?_
              exact (hframe.of_run hhandled).trans fun s₂ hmatch₂ _ hhealth₂ htask₂ =>
                ih hmatch₂ (hhealth₂ ▸ htask₂)

end

/-- The relay behind one connection whose peer has sent a Ping and closed. -/
def pinged : State :=
  ((State.init.connect localAddress).onChannel 0
    (Channel.arrive RelayFrames.ping.toBeBytes)).onChannel 0 Channel.close

theorem pinged_matches :
    Matches 0 (World.new (SegStream.single RelayFrames.ping.toBeBytes (by decide))) pinged where
  cache := rfl
  health := rfl
  sockets i hi := by
    rw [Nat.lt_one_iff.mp hi]
    exact ⟨rfl, _, rfl, rfl, rfl⟩
  free i := by
    by_cases hi : i = 0
    · rw [hi]
      rfl
    · rw [pinged, State.channels_onChannel_ne _ _ hi, State.channels_onChannel_ne _ _ hi]
      rfl
  entries id connMd hget := absurd hget (by simp [pinged, State.init, State.connect,
    State.onChannel, State.onTask, Cache.get, Cache.new])
  alone u hu := by
    have hidle : pinged.tasks u = State.init.tasks u := Function.update_of_ne hu _ _
    rw [State.pc, hidle]
    rfl
  accepted := Nat.one_pos

/-- Its task, for five turns, alone. -/
theorem processConnection_refines_pinged :
    Exec.Ensures (processConnection Net.open 0 localAddress 5)
      (Connection.newBuffer,
        World.new (SegStream.single RelayFrames.ping.toBeBytes (by decide))) fun o s' =>
      Realizes ⟨Net.open.reserve, fun _ => 0⟩ 0 pinged s'.2 (EndedAs o) :=
  processConnection_refines Net.open (fun _ => 0) 5 pinged_matches rfl

end Pcopy.Relay
