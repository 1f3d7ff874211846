import Pcopy.Relay.Course

/-!
# The registry over whole runs

An entry is made by the task of the connection that it is of, while that task handles a
Register; nothing else touches the registry, and no task that has read the whole of a Register
gets past the insertion without having made it.  A probe that is answered reads the answer from
the stream of the entry it looked up, so the address it reports is that of the connection the
answer came from.

* `Consistent` — what holds of the registry and of the answers to probes;
* `registry_consistent` — it holds in every state of every run.
-/

namespace Pcopy.Relay

open Pcopy.Lib

/-- The task that was the last to insert an entry for `id`. -/
def lastInserter (id : PeerId) (log : List (TaskId × Event)) : Option TaskId :=
  (log.filterMap fun e => if e.2 = .inserted id then some e.1 else none).getLast?

/-- The stream that a task was the last to read, by its events. -/
def lastRead (past : List Event) : Option StreamId :=
  (past.filterMap fun
    | .read i _ => some i
    | _ => none).getLast?

/-- Among the frames that a peer has sent is `f`. -/
def SentFrame (arrived : List UInt8) (f : RelayFrames) : Prop :=
  ∃ (frames : List RelayFrames) (rest : List UInt8),
    arrived = frames.flatMap RelayFrames.toBeBytes ++ rest ∧ f ∈ frames

/-- The registry is what the insertions have made of it. -/
structure Consistent (cfg : Config) (s : State) (h : History) : Prop where
  /-- An entry is the stream and the address of the connection that inserted it last, and there
  is none where nobody did. -/
  entry : ∀ id, s.connCache.get id
    = (lastInserter id h.log).map fun t => ⟨t, (s.tasks t).address⟩
  /-- The connections that insert have sent the Register. -/
  requested : ∀ t id, (t, .inserted id) ∈ h.log →
    t < s.accepted ∧ SentFrame (h.arrived t) (.register id)
  /-- Where a connection has sent a Register first, its task has not read the whole of it yet, or
  is about to insert, or has inserted, and there is an entry. -/
  registered : ∀ t id, parsed RelayFrames (h.arrived t) = .ok (.register id) →
    (∃ phase, s.pc t = .receive phase ∧
        parsed RelayFrames (s.tasks t).buffer.bytes = .error (.err .incomplete)) ∨
      s.pc t = .register id ∨ (t, .inserted id) ∈ h.log ∧ s.connCache.get id ≠ none
  /-- A step leaves the registry as it is, unless a task handles a Register in it. -/
  untouched : ∀ a s', step cfg s a = some s' → s'.connCache = s.connCache ∨
    ∃ t id, a = .access t ∧ s.pc t = .register id ∧
      parsed RelayFrames (s.tasks t).buffer.bytes = .ok (.register id) ∧
        s'.connCache = (s.connCache.insert id ⟨t, (s.tasks t).address⟩).2
  /-- The address in an answer to a probe is that of the connection whose stream the task has
  read last. -/
  answers : ∀ past t i info future,
    h.log = past ++ (t, .wrote i (.probeResult (some info))) :: future →
      ∃ j, lastRead (trace t past) = some j ∧ j < s.accepted ∧ info.ip = (s.tasks j).address

section

variable {cfg : Config} {s s' : State} {h : History} {a : Action} {t : TaskId}

/-! ### The log, event by event -/

theorem lastInserter_self (id : PeerId) (log : List (TaskId × Event)) (t : TaskId) :
    lastInserter id (log ++ [(t, .inserted id)]) = some t := by
  rw [lastInserter, List.filterMap_append]
  simp

theorem lastInserter_other {id : PeerId} {e : TaskId × Event} (he : e.2 ≠ .inserted id)
    (log : List (TaskId × Event)) : lastInserter id (log ++ [e]) = lastInserter id log := by
  rw [lastInserter, List.filterMap_append]
  simp [lastInserter, he]

/-- Who inserted last is in the log. -/
theorem mem_of_lastInserter {id : PeerId} {log : List (TaskId × Event)}
    (hlast : lastInserter id log = some t) : (t, .inserted id) ∈ log := by
  have hmem := List.mem_of_getLast? hlast
  rw [List.mem_filterMap] at hmem
  obtain ⟨e, he, hsome⟩ := hmem
  by_cases hins : e.2 = .inserted id
  · rw [if_pos hins, Option.some.injEq] at hsome
    rwa [← hsome, ← hins]
  · rw [if_neg hins] at hsome
    cases hsome

/-- Where somebody has inserted, somebody was the last to do so. -/
theorem lastInserter_ne_none {id : PeerId} {log : List (TaskId × Event)}
    (hmem : (t, .inserted id) ∈ log) : lastInserter id log ≠ none := by
  rw [lastInserter, ne_eq, List.getLast?_eq_none_iff]
  have hlast : t ∈ log.filterMap fun e => if e.2 = .inserted id then some e.1 else none :=
    List.mem_filterMap.mpr ⟨(t, .inserted id), hmem, if_pos rfl⟩
  exact List.ne_nil_of_mem hlast

theorem lastRead_read (past : List Event) (i : StreamId) (n : ℕ) :
    lastRead (past ++ [.read i n]) = some i := by
  rw [lastRead, List.filterMap_append]
  simp

theorem lastRead_other {e : Event} (he : ∀ i n, e ≠ .read i n) (past : List Event) :
    lastRead (past ++ [e]) = lastRead past := by
  rw [lastRead, List.filterMap_append]
  cases e with
  | read i n => exact absurd rfl (he i n)
  | _ => simp [lastRead]

/-! ### What a step does -/

/-- The frames that a task writes as its reply, or as a command. -/
theorem frame_cases {pc : Pc} {i : StreamId} {address : IpAddr} {frame : PeerFrames}
    {phase : WritePhase} (hwrites : pc.writes t phase = some i)
    (hframe : pc.frame address = some frame) :
    (∃ inquiry id connMd, pc = .command inquiry id connMd phase ∧ connMd.stream = i ∧
        frame = .command (inquiry.command address)) ∨ pc = .reply frame phase ∧ t = i := by
  rcases Pc.writes_cases hwrites with ⟨inquiry, id, connMd, rfl, hi⟩ | ⟨frame', rfl, hi⟩
  · cases hframe
    exact Or.inl ⟨inquiry, id, connMd, rfl, hi, rfl⟩
  · cases hframe
    exact Or.inr ⟨rfl, hi⟩

theorem SentFrame.grow {arrived : List UInt8} {f : RelayFrames} (hsent : SentFrame arrived f)
    (more : List UInt8) : SentFrame (arrived ++ more) f := by
  obtain ⟨frames, rest, rfl, hmem⟩ := hsent
  exact ⟨frames, rest ++ more, List.append_assoc _ _ _, hmem⟩

/-- What a task serves its peer has sent. -/
theorem Orderly.sentFrame (h' : Orderly s h) {f : RelayFrames}
    (hparsed : parsed RelayFrames (s.tasks t).buffer.bytes = .ok f) :
    SentFrame (h.arrived t) f := by
  obtain ⟨rest, hbytes⟩ := RelayFrames.parse_ok_bytes hparsed
  obtain ⟨more, harrived⟩ := h'.arrived t
  refine ⟨[f], rest ++ more, ?_, List.mem_singleton_self f⟩
  rw [← harrived, hbytes, List.flatMap_singleton, List.append_assoc]

/-- A task that is about to insert serves a Register. -/
theorem Orderly.registering (h' : Orderly s h) {id : PeerId} (hpc : s.pc t = .register id) :
    parsed RelayFrames (s.tasks t).buffer.bytes = .ok (.register id) := by
  rw [State.pc] at hpc
  obtain ⟨f, hparsed, hserves⟩ := (h'.serving t).request (by rw [hpc]; rfl)
  rw [hpc] at hserves
  rwa [show f = .register id from hserves] at hparsed

/-- The tasks that serve a Register are about to insert, or have inserted. -/
def Entered (s : State) (h : History) : Prop :=
  ∀ t id, parsed RelayFrames (s.tasks t).buffer.bytes = .ok (.register id) →
    s.pc t = .register id ∨ (t, .inserted id) ∈ h.log

theorem dispatch_at_register (health : HealthStatus) {buffer : BytesMut} {id : PeerId}
    (hparsed : parsed RelayFrames buffer.bytes = .ok (.register id)) :
    dispatch health buffer = .register id := by
  rw [dispatch, parseFrame, hparsed]

/-- The task that moves, if it serves a Register: it has just read the end of it, or it inserts,
or it did so before. -/
theorem entered_move (he : Entered s h) {task' : Task} (hm : Move s t a task') {id : PeerId}
    (hparsed : parsed RelayFrames task'.buffer.bytes = .ok (.register id)) :
    task'.pc = .register id ∨ (t, .inserted id) ∈ (observe s a h).log := by
  have hinserts : ∀ {id'}, s.pc t = .register id' → a = .access t →
      parsed RelayFrames (s.tasks t).buffer.bytes = .ok (.register id) →
        (t, .inserted id) ∈ (observe s a h).log := by
    rintro id' hpc rfl hparsed
    rcases he t id hparsed with hpc' | hmem
    · rw [log_observe (event_inserted hpc')]
      exact List.mem_append_right _ (List.mem_singleton_self _)
    · exact List.mem_append_left _ hmem
  cases hm with
  | readReceive hpc hpos hn => exact Or.inl (dispatch_at_register _ hparsed)
  | insertNew hpc hnew => exact Or.inr (hinserts hpc rfl hparsed)
  | insertAgain hpc hold => exact Or.inr (hinserts hpc rfl hparsed)
  | _ hpc =>
      -- elsewhere the buffer stays, and the task was not about to insert
      rcases he t id hparsed with hpc' | hmem
      · cases hpc.symm.trans hpc'
      · exact Or.inr (List.mem_append_left _ hmem)

theorem entered_step (he : Entered s h) (hstep : step cfg s a = some s') :
    Entered s' (observe s a h) := by
  intro t id hparsed
  rcases tasks_step hstep t with ⟨_, hm⟩ | ⟨_, hsame⟩ | ⟨_, _, address, hnew⟩
  · exact entered_move he hm hparsed
  · rw [State.pc, hsame]
    rw [hsame] at hparsed
    exact (he t id hparsed).imp_right (List.mem_append_left _)
  · have hempty : parsed RelayFrames ([] : List UInt8) = .ok (.register id) := by
      rwa [hnew] at hparsed
    cases hempty

/-- The tasks that are about to report the answer to a probe read it from the connection whose
address they report. -/
def Pending (s : State) (h : History) : Prop :=
  ∀ t info phase, s.pc t = .reply (.probeResult (some info)) phase →
    ∃ j, lastRead (trace t h.log) = some j ∧ j < s.accepted ∧ info.ip = (s.tasks j).address

/-- An answer and the connection it comes from, after a step that is not a read. -/
theorem answer_step (hstep : step cfg s a = some s') {past : List Event} {info : PeerInfo}
    (hanswer : ∃ j, lastRead past = some j ∧ j < s.accepted ∧ info.ip = (s.tasks j).address) :
    ∃ j, lastRead past = some j ∧ j < s'.accepted ∧ info.ip = (s'.tasks j).address := by
  obtain ⟨j, hlast, hlt, hip⟩ := hanswer
  exact ⟨j, hlast, Nat.lt_of_lt_of_le hlt (accepted_step hstep),
    by rw [hip, address_step hstep hlt]⟩

/-- A report is made of the entry that the probe holds. -/
theorem afterAck_reports {id : PeerId} {connMd : PeerConnectionMetadata} {elapsed : Duration}
    {buffer : BytesMut} {info : PeerInfo} {phase : WritePhase}
    (hreports : afterAck id connMd elapsed buffer = .reply (.probeResult (some info)) phase) :
    info.ip = connMd.ipAddr := by
  rw [afterAck] at hreports
  split at hreports
  · cases hreports
    rfl
  · cases hreports
  · cases hreports
  · cases hreports

theorem dispatch_reports_nothing (health : HealthStatus) (buffer : BytesMut)
    (info : Option PeerInfo) (phase : WritePhase) :
    dispatch health buffer ≠ .reply (.probeResult info) phase := by
  rcases dispatch_cases health buffer with ⟨hd, _⟩ | ⟨_, hd⟩ | ⟨_, _, hd⟩ | hd | ⟨_, hd⟩ <;>
    rw [hd] <;> nofun

theorem refusal_ne_report (inquiry : Inquiry) (info : PeerInfo) :
    inquiry.refusal ≠ .probeResult (some info) := by
  cases inquiry with
  | probe => nofun
  | doConnect => nofun

/-- The task that moves, if it is about to report: it has just read the answer, or it was about
to report before. -/
theorem pending_move (h' : Orderly s h) (hp : Pending s h) {task' : Task}
    (hm : Move s t a task') {info : PeerInfo} {phase : WritePhase}
    (hpc' : task'.pc = .reply (.probeResult (some info)) phase) :
    ∃ j, lastRead (trace t (observe s a h).log) = some j ∧ j < s.accepted ∧
      info.ip = (s.tasks j).address := by
  cases hm with
  | lockReply hpc =>
      cases hpc'
      rw [log_observe_none rfl]
      exact hp t info _ hpc
  | writeReply hpc =>
      cases hpc'
      have hwrites : (s.pc t).writes t .write = some t := by rw [hpc]; rfl
      have hframe : (s.pc t).frame (s.tasks t).address = some (.probeResult (some info)) := by
        rw [hpc]; rfl
      rw [trace_observe (event_wrote hwrites hframe),
        lastRead_other (fun _ _ heq => by cases heq)]
      exact hp t info _ hpc
  | @readAck id connMd buffer n elapsed hpc hpos hn =>
      have hreads : (s.pc t).reads t = some connMd.stream := by rw [hpc]; rfl
      obtain ⟨hlt, haddress, _⟩ := h'.users t connMd (by rw [hpc]; rfl)
      rw [trace_observe (event_read hreads n elapsed), lastRead_read]
      exact ⟨connMd.stream, rfl, hlt, (afterAck_reports hpc').trans haddress⟩
  | readReceive hpc hpos hn => exact absurd hpc' (dispatch_reports_nothing _ _ _ _)
  | flushReply hpc => exact absurd hpc' (dispatch_reports_nothing _ _ _ _)
  | endAck hpc hclosed hnext =>
      rcases hnext with ⟨_, rfl⟩ | ⟨_, rfl⟩
      · cases hpc'
      · cases hpc'
  | commandFailed hpc ha => exact absurd (Pc.reply.inj hpc').1 (refusal_ne_report _ _)
  | missing hpc hmissing => exact absurd (Pc.reply.inj hpc').1 (refusal_ne_report _ _)
  | _ => cases hpc'

theorem pending_step (h' : Orderly s h) (hp : Pending s h) (hstep : step cfg s a = some s') :
    Pending s' (observe s a h) := by
  intro t info phase hpc'
  refine answer_step hstep ?_
  rcases tasks_step hstep t with ⟨_, hm⟩ | ⟨ht, hsame⟩ | ⟨_, _, address, hnew⟩
  · exact pending_move h' hp hm hpc'
  · rw [trace_observe_ne ht]
    exact hp t info phase ((congrArg Task.pc hsame).symm.trans hpc')
  · rw [State.pc, hnew] at hpc'
    cases hpc'

/-! ### The registry -/

theorem entry_step (hc : Consistent cfg s h) (hstep : step cfg s a = some s') (id : PeerId) :
    s'.connCache.get id
      = (lastInserter id (observe s a h).log).map fun t => ⟨t, (s'.tasks t).address⟩ := by
  have hold : s.connCache.get id
      = (lastInserter id h.log).map fun t => ⟨t, (s'.tasks t).address⟩ := by
    rw [hc.entry id]
    cases hlast : lastInserter id h.log with
    | none => rfl
    | some t =>
        have hlt := (hc.requested t id (mem_of_lastInserter hlast)).1
        rw [Option.map_some, Option.map_some, address_step hstep hlt]
  show _ = (lastInserter id (h.log ++ (event s a).toList)).map _
  rcases registry_step hstep with ⟨hsame, hnone⟩ | ⟨t, id', rfl, hpc, hinsert⟩
  · rw [hsame, hold]
    cases he : event s a with
    | none => rw [Option.toList_none, List.append_nil]
    | some e =>
        rw [Option.toList_some, lastInserter_other ?_]
        intro hins
        obtain ⟨t, e⟩ := e
        cases hins
        rcases event_cases he with ⟨_, _, _, _, _, h0⟩ | ⟨_, _, _, _, _, h0⟩ | ⟨_, _, _, h0⟩ |
          ⟨id', ha, hpc, _⟩ | ⟨_, _, _, _, h0⟩
        · cases h0
        · cases h0
        · cases h0
        · exact hnone t id' ha hpc
        · cases h0
  · rw [event_inserted hpc, Option.toList_some, hinsert]
    by_cases hid : id = id'
    · subst hid
      have haddress := (moves_cases hstep (rfl : (Action.access t).task = some t)).address
      rw [Cache.get_insert_self, lastInserter_self, Option.map_some, haddress]
    · rw [Cache.get_insert_ne _ _ hid, hold, lastInserter_other]
      exact fun heq => hid (Event.inserted.inj heq).symm

theorem requested_step (h' : Orderly s h) (hc : Consistent cfg s h)
    (hstep : step cfg s a = some s') {id : PeerId}
    (hmem : (t, Event.inserted id) ∈ (observe s a h).log) :
    t < s'.accepted ∧ SentFrame ((observe s a h).arrived t) (.register id) := by
  have hle := accepted_step hstep
  rcases List.mem_append.mp hmem with hmem | hmem
  · obtain ⟨hlt, hsent⟩ := hc.requested t id hmem
    exact ⟨Nat.lt_of_lt_of_le hlt hle, hsent.grow _⟩
  · rw [Option.mem_toList] at hmem
    rcases event_cases hmem with ⟨_, _, _, _, _, h0⟩ | ⟨_, _, _, _, _, h0⟩ | ⟨_, _, _, h0⟩ |
      ⟨id', _, hpc, h0⟩ | ⟨_, _, _, _, h0⟩
    · cases h0
    · cases h0
    · cases h0
    · cases h0
      have hlt : t < s.accepted := h'.tidy.lt (by rw [hpc]; nofun)
      exact ⟨Nat.lt_of_lt_of_le hlt hle, (h'.sentFrame (h'.registering hpc)).grow _⟩
    · cases h0

/-- What has come of a Register that was sent first. -/
theorem registered_of_course (h' : Orderly s h) (hcourse : Course s h t) (he : Entered s h)
    (hentry : ∀ id, s.connCache.get id
      = (lastInserter id h.log).map fun t => ⟨t, (s.tasks t).address⟩) {id : PeerId}
    (hsent : parsed RelayFrames (h.arrived t) = .ok (.register id)) :
    (∃ phase, s.pc t = .receive phase ∧
        parsed RelayFrames (s.tasks t).buffer.bytes = .error (.err .incomplete)) ∨
      s.pc t = .register id ∨ (t, .inserted id) ∈ h.log ∧ s.connCache.get id ≠ none := by
  cases hcourse with
  | receiving hpc hparsed hreads => exact Or.inl ⟨_, hpc, hparsed⟩
  | stopped hpc hhow hparsed hclosed harrived hreads =>
      rw [harrived, hparsed] at hsent
      cases hsent
  | refused hpc hparsed hreads =>
      rw [parsed_arrived h' (by rw [hparsed]; simp), hparsed] at hsent
      cases hsent
  | serving hparsed hpc htrace hreads hwork =>
      rw [parsed_arrived h' (by rw [hparsed]; simp)] at hsent
      rcases he t id hsent with hregister | hmem
      · exact Or.inr (Or.inl hregister)
      · refine Or.inr (Or.inr ⟨hmem, ?_⟩)
        rw [hentry id, ne_eq, Option.map_eq_none_iff]
        exact lastInserter_ne_none hmem

theorem untouched_of_orderly (h' : Orderly s h) (hstep : step cfg s a = some s') :
    s'.connCache = s.connCache ∨
      ∃ t id, a = .access t ∧ s.pc t = .register id ∧
        parsed RelayFrames (s.tasks t).buffer.bytes = .ok (.register id) ∧
          s'.connCache = (s.connCache.insert id ⟨t, (s.tasks t).address⟩).2 := by
  rcases registry_step hstep with ⟨hsame, _⟩ | ⟨t, id, ha, hpc, hinsert⟩
  · exact Or.inl hsame
  · exact Or.inr ⟨t, id, ha, hpc, h'.registering hpc, hinsert⟩

theorem answers_step (hp : Pending s h) (hc : Consistent cfg s h)
    (hstep : step cfg s a = some s') {past future : List (TaskId × Event)} {i : StreamId}
    {info : PeerInfo} (hlog : (observe s a h).log
      = past ++ (t, .wrote i (.probeResult (some info))) :: future) :
    ∃ j, lastRead (trace t past) = some j ∧ j < s'.accepted ∧ info.ip = (s'.tasks j).address := by
  refine answer_step hstep ?_
  change h.log ++ (event s a).toList = _ at hlog
  cases he : event s a with
  | none =>
      rw [he, Option.toList_none, List.append_nil] at hlog
      exact hc.answers past t i info future hlog
  | some e =>
      rw [he, Option.toList_some] at hlog
      rcases log_split hlog with ⟨rfl, rfl⟩ | ⟨future', hlog'⟩
      · rcases event_cases he with ⟨_, _, _, _, _, h0⟩ | ⟨_, frame, _, hwrites, hframe, h0⟩ |
          ⟨_, _, _, h0⟩ | ⟨_, _, _, h0⟩ | ⟨_, _, _, _, h0⟩
        · cases h0
        · cases h0
          rcases frame_cases hwrites hframe with ⟨_, _, _, _, _, h0⟩ | ⟨hpc, _⟩
          · cases h0
          · exact hp t info .write hpc
        · cases h0
        · cases h0
        · cases h0
      · exact hc.answers past t i info future' hlog'

end

/-- What the steps keep of the registry and of the tasks that use it. -/
structure Recorded (cfg : Config) (s : State) (h : History) : Prop where
  orderly : Orderly s h
  courses : ∀ t, Course s h t
  entered : Entered s h
  reporting : Pending s h
  consistent : Consistent cfg s h

theorem Recorded.init (cfg : Config) : Recorded cfg State.init History.new where
  orderly := Orderly.init
  courses := Course.init
  entered := fun _ _ hparsed => by cases hparsed
  reporting := fun _ _ _ hpc => by cases hpc
  consistent := {
    entry := fun _ => rfl
    requested := fun _ _ hmem => absurd hmem List.not_mem_nil
    registered := fun _ _ hsent => by cases hsent
    untouched := fun _ _ hstep => untouched_of_orderly Orderly.init hstep
    answers := fun past _ _ _ _ hlog => by cases past <;> cases hlog }

/-- **Every step** keeps it. -/
theorem recorded_step {cfg : Config} {s s' : State} {h : History} {a : Action}
    (hr : Recorded cfg s h) (hstep : step cfg s a = some s') :
    Recorded cfg s' (observe s a h) := by
  have h' := orderly_step hr.orderly hstep
  have hcourses := course_step hr.orderly hr.courses hstep
  have hentered := entered_step hr.entered hstep
  have hentry := entry_step hr.consistent hstep
  exact {
    orderly := h'
    courses := hcourses
    entered := hentered
    reporting := pending_step hr.orderly hr.reporting hstep
    consistent := {
      entry := hentry
      requested := fun _ _ hmem => requested_step hr.orderly hr.consistent hstep hmem
      registered := fun t _ hsent => registered_of_course h' (hcourses t) hentered hentry hsent
      untouched := fun _ _ hstep' => untouched_of_orderly h' hstep'
      answers := fun _ _ _ _ _ hlog => answers_step hr.reporting hr.consistent hstep hlog } }

/-- **The registry is consistent in every run.**  However many peers connect, whatever they
send, in whatever order the tasks take their steps and however they end. -/
theorem registry_consistent (cfg : Config) (as : List Action) :
    InStates (observedStep cfg) (State.init, History.new) as fun s => Consistent cfg s.1 s.2 := by
  refine inStates_of_invariant (I := fun s : State × History => Recorded cfg s.1 s.2)
    (Recorded.init cfg) ?_ (fun _ hinv => hinv.consistent) as
  intro s a s' hinv hstep
  obtain ⟨hstep, hobserve⟩ := observed_some.mp hstep
  rw [hobserve]
  exact recorded_step hinv hstep

/-- A connection that sends a ProbeAck and, behind it, a Register. -/
def strayAckRun : List Action :=
  [.connect (.v4 (Ipv4Addr.new 10 0 0 1)),
    .send 0 (RelayFrames.probeAck.toBeBytes ++ (RelayFrames.register PeerId.zero).toBeBytes),
    .lock 0, .read 0 66 (Duration.fromMillis 0)]

/-- The ProbeAck ends its task, and there is no entry for what it sent behind it: it is not true
that an identifier has an entry exactly where some connection has sent its Register. -/
theorem sent_register_without_entry :
    ¬ ∀ (cfg : Config) (as : List Action),
      InStates (observedStep cfg) (State.init, History.new) as fun s => ∀ id,
        (s.1.connCache.get id ≠ none ↔ ∃ i, SentFrame (s.2.arrived i) (.register id)) := by
  intro hall
  have hempty : (runFrom (observedStep ⟨BytesMut.reserve, fun _ => 0⟩)
      (State.init, History.new) strayAckRun).map (fun s => s.1.connCache.get PeerId.zero)
        = some none := by decide +kernel
  have hsent : (runFrom (observedStep ⟨BytesMut.reserve, fun _ => 0⟩)
      (State.init, History.new) strayAckRun).map (fun s => s.2.arrived 0)
        = some (RelayFrames.probeAck.toBeBytes ++ (RelayFrames.register PeerId.zero).toBeBytes) := by
    decide +kernel
  obtain ⟨s, hs, hget⟩ := Option.map_eq_some_iff.mp hempty
  obtain ⟨s', hs', harrived⟩ := Option.map_eq_some_iff.mp hsent
  rw [hs, Option.some.injEq] at hs'
  subst hs'
  refine (hall ⟨BytesMut.reserve, fun _ => 0⟩ strayAckRun strayAckRun List.prefix_rfl s hs
    PeerId.zero).mpr ⟨0, [.probeAck, .register PeerId.zero], [], ?_, ?_⟩ hget
  · rw [harrived]
    rfl
  · exact List.mem_cons_of_mem _ List.mem_cons_self

end Pcopy.Relay
