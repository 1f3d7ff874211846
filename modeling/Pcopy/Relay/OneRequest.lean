import Pcopy.Relay.Agreement
import Pcopy.Relay.Course

/-!
# One request for each connection

What a task has done, and why it has ended, by the first frame that its peer has sent.

* `one_request` — a task does nothing that is not about the first frame its peer has sent;
* `ends_explained` — why a task has ended, by what its peer has sent.
-/

namespace Pcopy.Relay

open Pcopy.Lib

/-- **One request for each connection.**  In every state of every run, of any number of connections
and in any order of their steps: what a task has done are reads of its own stream, and then only
work on one request, which is the first frame of what its peer has sent. -/
theorem one_request (cfg : Config) (as : List Action) :
    InStates (observedStep cfg) (State.init, History.new) as fun s =>
      ∀ t, ∃ reads work, trace t s.2.log = reads ++ work ∧ OwnReads t reads ∧
        (work = [] ∨ ∃ f, parsed RelayFrames (s.2.arrived t) = .ok f ∧
          ∀ e ∈ work, e.For t (s.1.tasks t).address f) := by
  refine inStates_course cfg as ?_
  intro s h h' hc t
  cases hc t with
  | receiving hpc hparsed hreads => exact ⟨_, [], (List.append_nil _).symm, hreads, Or.inl rfl⟩
  | stopped hpc hhow hparsed hclosed harrived hreads =>
      exact ⟨_, [], (List.append_nil _).symm, hreads, Or.inl rfl⟩
  | refused hpc hparsed hreads => exact ⟨_, [], (List.append_nil _).symm, hreads, Or.inl rfl⟩
  | @serving f reads work hparsed hpc htrace hreads hwork =>
      refine ⟨reads, work, htrace, hreads, Or.inr ⟨f, ?_, hwork⟩⟩
      rw [parsed_arrived h' (by rw [hparsed]; simp), hparsed]

/-- What a peer can have sent, and done, when its task has ended in this way.  A task that panics
without a whole frame has found the end of the stream behind a part of one; a reset of the
connection, which is no step here, ends it in the same way. -/
def Explained (arrived : List UInt8) (closed : Bool) : TaskEnd → Prop
  | .ok => arrived = []
  | .err => ∃ f, parsed RelayFrames arrived = .ok f
  | .panicked => (∃ id, parsed RelayFrames arrived = .ok (.register id) ∨
      parsed RelayFrames arrived = .ok (.probe id)) ∨
      (∃ e, parsed RelayFrames arrived = .error (.err (.other e))) ∨
      parsed RelayFrames arrived = .error (.err .incomplete) ∧ closed = true

/-- What has ended a task, by what its peer has sent. -/
theorem explained (cfg : Config) (as : List Action) :
    InStates (observedStep cfg) (State.init, History.new) as fun s =>
      ∀ t < s.1.accepted, ∀ how, s.1.pc t = .ended how →
        Explained (s.2.arrived t) (s.1.channels t).closed how := by
  refine inStates_course cfg as ?_
  intro s h h' hc t hlt how hended
  cases hc t with
  | receiving hpc hparsed hreads => cases hpc.symm.trans hended
  | stopped hpc hhow hparsed hclosed harrived hreads =>
      cases hpc.symm.trans hended
      rcases hhow with ⟨rfl, hnil⟩ | rfl
      · exact harrived.trans hnil
      · exact Or.inr (Or.inr ⟨harrived ▸ hparsed, hclosed hlt⟩)
  | @refused e hpc hparsed hreads =>
      cases hpc.symm.trans hended
      refine Or.inr (Or.inl ⟨e, ?_⟩)
      rw [parsed_arrived h' (by rw [hparsed]; simp), hparsed]
  | @serving f reads work hparsed hpc htrace hreads hwork =>
      have harrived : parsed RelayFrames (h.arrived t) = .ok f := by
        rw [parsed_arrived h' (by rw [hparsed]; simp), hparsed]
      rw [hended] at hpc
      rcases hpc with rfl | ⟨rfl, id, hf⟩
      · exact ⟨f, harrived⟩
      · refine Or.inl ⟨id, ?_⟩
        rcases hf with rfl | rfl
        · exact Or.inl harrived
        · exact Or.inr harrived

section

variable {cfg : Config} {s s' : State} {h : History} {a : Action} {t : TaskId}

/-- Where no write fails, only a ProbeAck ends a task with an error. -/
def ErrsOnProbeAck (s : State) : Prop :=
  ∀ t, s.pc t = .ended .err → parsed RelayFrames (s.tasks t).buffer.bytes = .ok .probeAck

theorem dispatch_err {health : HealthStatus} {buffer : BytesMut}
    (hend : dispatch health buffer = .ended .err) :
    parsed RelayFrames buffer.bytes = .ok .probeAck := by
  rw [dispatch, parseFrame] at hend
  cases hparsed : parsed RelayFrames buffer.bytes with
  | ok f =>
      rw [hparsed] at hend
      cases f with
      | probeAck => rfl
      | _ => cases hend
  | error φ =>
      rw [hparsed] at hend
      rcases φ with (_ | e) | msg | _ <;> cases hend

theorem errsOnProbeAck_step (herrs : ErrsOnProbeAck s) (hok : a.WritesOk)
    (hstep : step cfg s a = some s') : ErrsOnProbeAck s' := by
  intro t hend
  rcases tasks_step hstep t with ⟨-, hm⟩ | ⟨-, hsame⟩ | ⟨-, -, address, htask⟩
  · rw [State.pc] at hend
    generalize htask : s'.tasks t = task' at hm hend
    cases hm with
    | endReceive hpc hclosed =>
        obtain ⟨-, -, htask'⟩ := pc_endReceive hstep hpc
        have hpc' := (congrArg Task.pc (htask'.symm.trans htask)).trans hend
        simp only [Task.goto] at hpc'
        split at hpc'
        · cases hpc'
        · cases hpc'
    | endAck hpc hclosed hnext =>
        rcases hnext with ⟨-, rfl⟩ | ⟨-, rfl⟩
        · cases hend
        · cases hend
    | readReceive hpc hpos hn => exact dispatch_err hend
    | readAck hpc hpos hn =>
        simp only [Task.goto, afterAck] at hend
        split at hend
        · cases hend
        · cases hend
        · cases hend
        · cases hend
    | @replyFailed frame phase _ n hpc ha =>
        rcases ha with rfl | rfl
        · exact absurd rfl (hok.ne t n).1
        · exact absurd rfl (hok.ne t n).2
    | flushReply hpc => exact dispatch_err hend
    | _ => cases hend
  · rw [hsame]
    exact herrs t ((congrArg Task.pc hsame).symm.trans hend)
  · rw [State.pc, htask] at hend
    cases hend

end

/-- Where no write fails, only a ProbeAck ends a task with an error. -/
theorem errsOnProbeAck (cfg : Config) {as : List Action} (hok : ∀ a ∈ as, a.WritesOk) :
    InStates (observedStep cfg) (State.init, History.new) as fun s =>
      ∀ t, s.1.pc t = .ended .err → parsed RelayFrames (s.2.arrived t) = .ok .probeAck := by
  refine inStates_of_invariant_on (C := Action.WritesOk)
    (I := fun s : State × History => Orderly s.1 s.2 ∧ ErrsOnProbeAck s.1)
    ⟨Orderly.init, fun _ hend => by cases hend⟩ ?_ ?_ hok
  · intro s a s' hok hinv hstep
    obtain ⟨hstep, hobserve⟩ := observed_some.mp hstep
    rw [hobserve]
    exact ⟨orderly_step hinv.1 hstep, errsOnProbeAck_step hinv.2 hok hstep⟩
  · intro s hinv t hend
    have hparsed := hinv.2 t hend
    rw [parsed_arrived hinv.1 (by rw [hparsed]; simp), hparsed]

/-- **Why tasks end.**  In every state of every run: a task that has returned `Ok` has got no byte,
one that has returned an error has got a frame, and where no write fails a ProbeAck, and one that
has panicked has got a Register or a Probe, or something else than a frame, or no whole frame before
its peer closed or was reset.  So whatever the other peers do, the task of one that has sent a Ping
or a DoConnect does not panic, nor end at all where no write fails. -/
theorem ends_explained (cfg : Config) (as : List Action) :
    InStates (observedStep cfg) (State.init, History.new) as fun s =>
      ∀ t < s.1.accepted, ∀ how, s.1.pc t = .ended how →
        Explained (s.2.arrived t) (s.1.channels t).closed how ∧
          ((∀ a ∈ as, a.WritesOk) → how = .err →
            parsed RelayFrames (s.2.arrived t) = .ok .probeAck) := by
  intro front hpre s hs t hlt how hended
  refine ⟨explained cfg as front hpre s hs t hlt how hended, ?_⟩
  rintro hok rfl
  exact errsOnProbeAck cfg hok front hpre s hs t hended

end Pcopy.Relay
