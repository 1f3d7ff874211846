import Pcopy.Relay.History
import Pcopy.Relay.IncrementalReading
import Pcopy.Relay.Serving

/-!
# How far a task has come

A request is never taken from the buffer of its connection.  So a task reads its own stream until
there is a whole frame, and from then on all that it does is about that frame, for as long as it
runs.

* `Course` — how far the task of a connection has come;
* `course_move` — what a move makes of it;
* `inStates_course` — in every state of every run each task is on its course.
-/

namespace Pcopy.Relay

open Pcopy.Lib

/-- The request that an inquiry is made for. -/
def Inquiry.request (id : PeerId) : Inquiry → RelayFrames
  | .probe => .probe id
  | .doConnect => .doConnect id

/-- What a task does that serves `f` for a peer with the address. -/
def Event.For (t : TaskId) (address : IpAddr) (f : RelayFrames) : Event → Prop
  | .read _ _ => ∃ id, f = .probe id
  | .inserted id => f = .register id
  | .lookup inquiry id _ => f = inquiry.request id
  | .wrote i frame => i = t ∧ Answers f frame ∨
      ∃ inquiry id, f = Inquiry.request id inquiry ∧ frame = .command (inquiry.command address)
  | .flushed i => i = t ∨ ∃ inquiry id, f = Inquiry.request id inquiry

/-- Where a task is that serves `f`. -/
def Pc.For (f : RelayFrames) : Pc → Prop
  | .receive _ => False
  | .register id => f = .register id
  | .lookup inquiry id => f = inquiry.request id
  | .command inquiry id _ _ => f = inquiry.request id
  | .ack id _ _ _ => f = .probe id
  | .reply frame _ => Answers f frame
  | .ended how => how = .err ∨ how = .panicked ∧ ∃ id, f = .register id ∨ f = .probe id

/-- Reads of the task's own stream. -/
def OwnReads (t : TaskId) (events : List Event) : Prop := ∀ e ∈ events, ∃ n, e = .read t n

/-- How far the task of a connection has come: it has no whole frame yet; the stream has ended
before there was one; there is something else than a frame; or it serves one. -/
inductive Course (s : State) (h : History) (t : TaskId) : Prop where
  | receiving {phase : ReadPhase} (hpc : s.pc t = .receive phase)
      (hparsed : parsed RelayFrames (s.tasks t).buffer.bytes = .error (.err .incomplete))
      (hreads : OwnReads t (trace t h.log))
  | stopped {how : TaskEnd} (hpc : s.pc t = .ended how)
      (hhow : how = .ok ∧ (s.tasks t).buffer.bytes = [] ∨ how = .panicked)
      (hparsed : parsed RelayFrames (s.tasks t).buffer.bytes = .error (.err .incomplete))
      (hclosed : t < s.accepted → (s.channels t).closed = true)
      (harrived : h.arrived t = (s.tasks t).buffer.bytes) (hreads : OwnReads t (trace t h.log))
  | refused {e : IoError} (hpc : s.pc t = .ended .panicked)
      (hparsed : parsed RelayFrames (s.tasks t).buffer.bytes = .error (.err (.other e)))
      (hreads : OwnReads t (trace t h.log))
  | serving {f : RelayFrames} {reads work : List Event}
      (hparsed : parsed RelayFrames (s.tasks t).buffer.bytes = .ok f) (hpc : (s.pc t).For f)
      (htrace : trace t h.log = reads ++ work) (hreads : OwnReads t reads)
      (hwork : ∀ e ∈ work, e.For t (s.tasks t).address f)

section

variable {cfg : Config} {s s' : State} {h : History} {a : Action} {t : TaskId}

theorem OwnReads.concat {events : List Event} (h : OwnReads t events) (n : ℕ) :
    OwnReads t (events ++ [.read t n]) := by
  intro e he
  rcases List.mem_append.mp he with he | he
  · exact h e he
  · exact ⟨n, List.mem_singleton.mp he⟩

/-- Where the dispatcher goes with a frame. -/
theorem dispatch_for (health : HealthStatus) {buffer : BytesMut} {f : RelayFrames}
    (hparsed : parsed RelayFrames buffer.bytes = .ok f) : (dispatch health buffer).For f := by
  rw [dispatch, parseFrame, hparsed]
  cases f with
  | register id => rfl
  | probe id => rfl
  | doConnect id => rfl
  | ping => trivial
  | probeAck => exact Or.inl rfl

/-- Where a probe goes with the bytes that it has read. -/
theorem afterAck_for (id : PeerId) (connMd : PeerConnectionMetadata) (elapsed : Duration)
    (buffer : BytesMut) : (afterAck id connMd elapsed buffer).For (.probe id) := by
  rw [afterAck]
  split
  · trivial
  · trivial
  · rfl
  · exact Or.inr ⟨rfl, id, Or.inr rfl⟩

theorem answers_refusal (inquiry : Inquiry) (id : PeerId) :
    Answers (inquiry.request id) inquiry.refusal := by
  cases inquiry with
  | probe => trivial
  | doConnect => trivial

/-! ### The steps of a task -/

/-- A task that serves a frame has made a move, with no event or with one that is about the
frame. -/
theorem Course.goto {f : RelayFrames} {reads work : List Event}
    (hparsed : parsed RelayFrames (s.tasks t).buffer.bytes = .ok f)
    (htrace : trace t h.log = reads ++ work) (hreads : OwnReads t reads)
    (hwork : ∀ e ∈ work, e.For t (s.tasks t).address f) {pc : Pc}
    (htask : s'.tasks t = (s.tasks t).goto pc) (hpc : pc.For f)
    (hevent : event s a = none ∨ ∃ e, event s a = some (t, e) ∧ e.For t (s.tasks t).address f) :
    Course s' (observe s a h) t := by
  have hbuffer : (s'.tasks t).buffer = (s.tasks t).buffer := by rw [htask]; rfl
  have haddress : (s'.tasks t).address = (s.tasks t).address := by rw [htask]; rfl
  have hpc' : (s'.pc t).For f := by rw [State.pc, htask]; exact hpc
  rcases hevent with hnone | ⟨e, he, hfor⟩
  · refine .serving (hbuffer ▸ hparsed) hpc' ?_ hreads (haddress ▸ hwork)
    rw [log_observe_none hnone, htrace]
  · have htrace' : trace t (observe s a h).log = reads ++ (work ++ [e]) := by
      rw [trace_observe he, htrace, List.append_assoc]
    refine .serving (hbuffer ▸ hparsed) hpc' htrace' hreads ?_
    intro e' he'
    rw [haddress]
    rcases List.mem_append.mp he' with hmem | hmem
    · exact hwork e' hmem
    · rw [List.mem_singleton.mp hmem]
      exact hfor

/-- A task that has read more of its own stream. -/
theorem course_received {n : ℕ} {elapsed : Duration}
    (hreads : OwnReads t (trace t h.log)) (hpc : s.pc t = .receive .read)
    {buffer : BytesMut} {address : IpAddr}
    (htask : s'.tasks t = ⟨address, buffer, dispatch s.healthStatus buffer⟩) :
    Course s' (observe s (.read t n elapsed) h) t := by
  have hown : (s.pc t).reads t = some t := by rw [hpc]; rfl
  have htrace := trace_observe (h := h) (event_read hown n elapsed)
  have hreads' : OwnReads t (trace t (observe s (.read t n elapsed) h).log) := by
    rw [htrace]
    exact hreads.concat n
  have hpc' : s'.pc t = dispatch s.healthStatus buffer := congrArg Task.pc htask
  have hbuffer : (s'.tasks t).buffer = buffer := congrArg Task.buffer htask
  cases hparsed : parsed RelayFrames buffer.bytes with
  | ok f =>
      refine .serving (hbuffer ▸ hparsed) ?_ (List.append_nil _).symm hreads' ?_
      · rw [hpc']
        exact dispatch_for _ hparsed
      · exact fun e he => absurd he List.not_mem_nil
  | error φ =>
      obtain ⟨e, rfl⟩ := parsed_fault RelayFrames.steady hparsed
      cases e with
      | incomplete =>
          have hreceive : s'.pc t = .receive .lock := by rw [hpc', dispatch, parseFrame, hparsed]
          exact .receiving hreceive (hbuffer ▸ hparsed) hreads'
      | other e =>
          refine .refused ?_ (hbuffer ▸ hparsed) hreads'
          rw [hpc', dispatch, parseFrame, hparsed]

/-- **A move of a task that serves a frame** leaves it at one, and does nothing that is not about
it. -/
theorem Move.for {task' : Task} {f : RelayFrames} (hm : Move s t a task')
    (hparsed : parsed RelayFrames (s.tasks t).buffer.bytes = .ok f) (hfor : (s.pc t).For f) :
    ∃ pc, task' = (s.tasks t).goto pc ∧ pc.For f ∧
      (event s a = none ∨ ∃ e, event s a = some (t, e) ∧ e.For t (s.tasks t).address f) := by
  have hat : ∀ {pc}, s.pc t = pc → pc.For f := fun hpc => hpc ▸ hfor
  cases hm with
  | lockReceive hpc => exact (hat hpc).elim
  | lockCommand hpc =>
      have hf := hat hpc
      exact ⟨_, rfl, hf, Or.inl rfl⟩
  | lockAck hpc =>
      have hf := hat hpc
      exact ⟨_, rfl, hf, Or.inl rfl⟩
  | lockReply hpc =>
      have hf := hat hpc
      exact ⟨_, rfl, hf, Or.inl rfl⟩
  | endReceive hpc hclosed => exact (hat hpc).elim
  | @endAck id connMd buffer elapsed pc hpc hclosed hnext =>
      obtain rfl : f = .probe id := hat hpc
      have hreads : (s.pc t).reads t = some connMd.stream := by rw [hpc]; rfl
      refine ⟨pc, rfl, ?_, Or.inr ⟨_, event_read hreads 0 elapsed, id, rfl⟩⟩
      rcases hnext with ⟨_, rfl⟩ | ⟨_, rfl⟩
      · trivial
      · exact Or.inr ⟨rfl, id, Or.inr rfl⟩
  | readReceive hpc hpos hn => exact (hat hpc).elim
  | @readAck id connMd buffer n elapsed hpc hpos hn =>
      obtain rfl : f = .probe id := hat hpc
      have hreads : (s.pc t).reads t = some connMd.stream := by rw [hpc]; rfl
      exact ⟨_, rfl, afterAck_for id connMd elapsed _,
        Or.inr ⟨_, event_read hreads n elapsed, id, rfl⟩⟩
  | @writeCommand inquiry id connMd hpc =>
      have hf : f = inquiry.request id := hat hpc
      have hwrites : (s.pc t).writes t .write = some connMd.stream := by rw [hpc]; rfl
      have hframe : (s.pc t).frame (s.tasks t).address
          = some (.command (inquiry.command (s.tasks t).address)) := by rw [hpc]; rfl
      exact ⟨_, rfl, hf, Or.inr ⟨_, event_wrote hwrites hframe, Or.inr ⟨inquiry, id, hf, rfl⟩⟩⟩
  | @writeReply frame hpc =>
      have hf : Answers f frame := hat hpc
      have hwrites : (s.pc t).writes t .write = some t := by rw [hpc]; rfl
      have hframe : (s.pc t).frame (s.tasks t).address = some frame := by rw [hpc]; rfl
      exact ⟨_, rfl, hf, Or.inr ⟨_, event_wrote hwrites hframe, Or.inl ⟨rfl, hf⟩⟩⟩
  | @commandFailed inquiry id connMd phase _ n hpc ha =>
      have hf : f = inquiry.request id := hat hpc
      refine ⟨_, rfl, ?_, Or.inl ?_⟩
      · rw [hf]
        exact answers_refusal inquiry id
      · rcases ha with rfl | rfl
        · rfl
        · rfl
  | replyFailed hpc ha =>
      refine ⟨_, rfl, Or.inl rfl, Or.inl ?_⟩
      rcases ha with rfl | rfl
      · rfl
      · rfl
  | @flushProbe id connMd hpc =>
      have hf : f = Inquiry.request id .probe := hat hpc
      have hwrites : (s.pc t).writes t .flush = some connMd.stream := by rw [hpc]; rfl
      exact ⟨_, rfl, hf, Or.inr ⟨_, event_flushed hwrites, Or.inr ⟨.probe, id, hf⟩⟩⟩
  | @flushDoConnect id connMd hpc =>
      have hf : f = Inquiry.request id .doConnect := hat hpc
      have hwrites : (s.pc t).writes t .flush = some connMd.stream := by rw [hpc]; rfl
      refine ⟨_, rfl, ?_, Or.inr ⟨_, event_flushed hwrites, Or.inr ⟨.doConnect, id, hf⟩⟩⟩
      rw [hf]
      trivial
  | flushReply hpc =>
      have hwrites : (s.pc t).writes t .flush = some t := by rw [hpc]; rfl
      exact ⟨_, rfl, dispatch_for _ hparsed, Or.inr ⟨_, event_flushed hwrites, Or.inl rfl⟩⟩
  | @insertNew id hpc hnew =>
      have hf : f = .register id := hat hpc
      exact ⟨_, rfl, Or.inr ⟨rfl, id, Or.inl hf⟩, Or.inr ⟨_, event_inserted hpc, hf⟩⟩
  | @insertAgain id old hpc hold =>
      have hf : f = .register id := hat hpc
      refine ⟨_, rfl, ?_, Or.inr ⟨_, event_inserted hpc, hf⟩⟩
      rw [hf]
      trivial
  | @found inquiry id connMd hpc hfound =>
      have hf : f = inquiry.request id := hat hpc
      exact ⟨_, rfl, hf, Or.inr ⟨_, event_lookup hpc, hf⟩⟩
  | @missing inquiry id hpc hmissing =>
      have hf : f = inquiry.request id := hat hpc
      refine ⟨_, rfl, ?_, Or.inr ⟨_, event_lookup hpc, hf⟩⟩
      rw [hf]
      exact answers_refusal inquiry id

/-- A task that finds the end of its own stream. -/
theorem pc_endReceive {elapsed : Duration} (hstep : step cfg s (.read t 0 elapsed) = some s')
    (hpc : s.pc t = .receive .read) :
    (s.channels t).unread = [] ∧ (s'.channels t).closed = true ∧
      s'.tasks t = (s.tasks t).goto
        (if (s.tasks t).buffer.bytes = [] then .ended .ok else .ended .panicked) := by
  have hclosed := closed_step hstep t
  cases step_cases hstep with
  | @readEnd _ i _ hreads hempty hopen =>
      rw [hpc] at hreads
      cases hreads
      refine ⟨hempty, ?_, ?_⟩
      · rcases hclosed with hsame | ⟨heq, -⟩
        · rw [hsame, hopen]
        · cases heq
      · rw [State.tasks_onChannel, State.tasks_onTask_self,
          show (s.tasks t).pc = .receive .read from hpc]
        rfl
  | read hreads hpos hn hroom => exact absurd hpos (Nat.lt_irrefl 0)

/-- A task that has ended makes no move. -/
theorem Move.ne_ended {task' : Task} (hm : Move s t a task') (how : TaskEnd) :
    s.pc t ≠ .ended how := by
  intro hended
  cases hm with
  | _ hpc => cases hended.symm.trans hpc

/-- **A move of a task** takes it further on its course. -/
theorem course_move (h' : Orderly s h) (hc : Course s h t) (hstep : step cfg s a = some s')
    (ht : a.task = some t) : Course s' (observe s a h) t := by
  have hm := moves_cases hstep ht
  cases hc with
  | serving hparsed hpc htrace hreads hwork =>
      obtain ⟨pc, htask, hfor, hevent⟩ := hm.for hparsed hpc
      exact .goto hparsed htrace hreads hwork htask hfor hevent
  | stopped hpc hhow hparsed hclosed harrived hreads => exact absurd hpc (hm.ne_ended _)
  | refused hpc hparsed hreads => exact absurd hpc (hm.ne_ended _)
  | @receiving phase hpc hparsed hreads =>
      generalize htask : s'.tasks t = task' at hm
      cases hm with
      | lockReceive hpc' =>
          have hreceive : s'.pc t = .receive .read := congrArg Task.pc htask
          refine .receiving hreceive ?_ ?_
          · rw [htask]
            exact hparsed
          · rw [log_observe_none rfl]
            exact hreads
      | endReceive hpc' hclosed =>
          obtain ⟨hempty, hclosed', htask'⟩ := pc_endReceive hstep hpc'
          have hown : (s.pc t).reads t = some t := by rw [hpc']; rfl
          have hbuffer : (s'.tasks t).buffer = (s.tasks t).buffer := by rw [htask']; rfl
          have hended : s'.pc t
              = .ended (if (s.tasks t).buffer.bytes = [] then .ok else .panicked) := by
            rw [State.pc, htask', Task.goto]
            split
            · rfl
            · rfl
          refine .stopped hended ?_ (hbuffer ▸ hparsed) (fun _ => hclosed') ?_ ?_
          · rw [hbuffer]
            by_cases hnil : (s.tasks t).buffer.bytes = []
            · exact Or.inl ⟨if_pos hnil, hnil⟩
            · exact Or.inr (if_neg hnil)
          · have harrived := h'.unread t .read hpc'
            rw [hempty, List.append_nil] at harrived
            rw [hbuffer, ← harrived]
            exact List.append_nil _
          · rw [trace_observe (event_read hown 0 _)]
            exact hreads.concat 0
      | readReceive hpc' hpos hn => exact course_received hreads hpc' htask
      | _ hpc' => cases hpc.symm.trans hpc'

/-- Bytes come in on open connections only. -/
theorem brings_open (hstep : step cfg s a = some s') {i : StreamId} (hbrings : a.brings i ≠ []) :
    (s.channels i).closed = false := by
  cases step_cases hstep with
  | @send j bytes hj hopen hbytes =>
      by_cases hi : i = j
      · exact hi ▸ hopen
      · exact absurd (if_neg hi) hbrings
  | @answer j hj hopen =>
      by_cases hi : i = j
      · exact hi ▸ hopen
      · exact absurd (if_neg hi) hbrings
  | _ => exact absurd rfl hbrings

/-- A task that has just been spawned reads its stream. -/
theorem pc_spawned (hstep : step cfg s a = some s') (hold : s.accepted ≤ t)
    (hnew : t < s'.accepted) : s'.pc t = .receive .lock := by
  cases step_cases hstep with
  | connect address =>
      obtain rfl : t = s.accepted := Nat.le_antisymm (Nat.le_of_lt_succ hnew) hold
      exact s.pc_connect_self address
  | _ => exact absurd hnew (Nat.not_lt.mpr hold)

/-- A task that makes no move stays where it is on its course. -/
theorem course_stays (hc : Course s h t) (hstep : step cfg s a = some s')
    (ht : a.task ≠ some t) (hsame : s'.tasks t = s.tasks t) : Course s' (observe s a h) t := by
  have hpc' : s'.pc t = s.pc t := congrArg Task.pc hsame
  have htrace := trace_observe_ne (h := h) (s := s) ht
  cases hc with
  | receiving hpc hparsed hreads =>
      exact .receiving (hpc'.trans hpc) (hsame ▸ hparsed) (htrace ▸ hreads)
  | refused hpc hparsed hreads =>
      exact .refused (hpc'.trans hpc) (hsame ▸ hparsed) (htrace ▸ hreads)
  | serving hparsed hpc htrace' hreads hwork =>
      exact .serving (hsame ▸ hparsed) (hpc' ▸ hpc) (htrace.trans htrace') hreads (hsame ▸ hwork)
  | @stopped how hpc hhow hparsed hclosed harrived hreads =>
      -- nothing comes in behind the end of a stream
      have hbrings : a.brings t = [] := by
        by_contra hne
        have hopen := brings_open hstep hne
        rw [hclosed (brings_accepted hstep hne)] at hopen
        cases hopen
      refine .stopped (hpc'.trans hpc) (hsame ▸ hhow) (hsame ▸ hparsed) ?_ ?_ (htrace ▸ hreads)
      · intro hlt
        rcases Nat.lt_or_ge t s.accepted with hold | hnew
        · rcases closed_step hstep t with heq | ⟨-, heq⟩
          · rw [heq, hclosed hold]
          · exact heq
        · cases (pc_spawned hstep hnew hlt).symm.trans (hpc'.trans hpc)
      · show h.arrived t ++ a.brings t = _
        rw [hbrings, List.append_nil, hsame, harrived]

/-- **Every step** takes all tasks further on their courses. -/
theorem course_step (h' : Orderly s h) (hc : ∀ t, Course s h t)
    (hstep : step cfg s a = some s') : ∀ t, Course s' (observe s a h) t := by
  intro t
  rcases tasks_step hstep t with ⟨ht, _⟩ | ⟨ht, hsame⟩ | ⟨hnew, ht, address, htask⟩
  · exact course_move h' (hc t) hstep ht
  · exact course_stays (hc t) hstep ht hsame
  · have hreceive : s'.pc t = .receive .lock := congrArg Task.pc htask
    refine .receiving hreceive (by rw [htask]; rfl) ?_
    rw [trace_observe_ne ht]
    -- nothing is known of a task before it is spawned but that it has done nothing
    have hidle := h'.tidy.idle t (le_of_eq hnew.symm)
    cases hc t with
    | receiving hpc hparsed hreads => exact hreads
    | stopped hpc hhow hparsed hclosed harrived hreads => exact hreads
    | refused hpc hparsed hreads => exact hreads
    | serving hparsed hpc htrace hreads hwork =>
        rw [hidle] at hpc
        rcases hpc with hpc | ⟨hpc, -⟩
        · cases hpc
        · cases hpc

theorem Course.init (t : TaskId) : Course State.init History.new t :=
  .stopped rfl (Or.inl ⟨rfl, rfl⟩) rfl (fun hlt => absurd hlt (Nat.not_lt_zero t)) rfl
    (fun _ he => absurd he List.not_mem_nil)

/-- What a buffer parses to, all that has arrived does. -/
theorem parsed_arrived (h' : Orderly s h)
    (hparsed : parsed RelayFrames (s.tasks t).buffer.bytes ≠ .error (.err .incomplete)) :
    parsed RelayFrames (h.arrived t) = parsed RelayFrames (s.tasks t).buffer.bytes := by
  obtain ⟨more, harrived⟩ := h'.arrived t
  rcases parsed_steady RelayFrames.steady (s.tasks t).buffer.bytes more with hshort | ⟨heq, -⟩
  · exact absurd hshort hparsed
  · rw [← harrived, heq]

end

/-- All tasks are on their courses. -/
theorem inStates_course (cfg : Config) (as : List Action) {P : State × History → Prop}
    (himp : ∀ s h, Orderly s h → (∀ t, Course s h t) → P (s, h)) :
    InStates (observedStep cfg) (State.init, History.new) as P := by
  refine inStates_of_invariant
    (I := fun s : State × History => Orderly s.1 s.2 ∧ ∀ t, Course s.1 s.2 t)
    ⟨Orderly.init, Course.init⟩ ?_ (fun s hinv => himp s.1 s.2 hinv.1 hinv.2) as
  intro s a s' hinv hstep
  obtain ⟨hstep, hobserve⟩ := observed_some.mp hstep
  rw [hobserve]
  exact ⟨orderly_step hinv.1 hstep, course_step hinv.1 hinv.2 hstep⟩

end Pcopy.Relay
