import Pcopy.Relay.Server

/-!
# How a connection is served

What `process_connection` should make of the bytes that a peer sends: one handling and one
reply for every complete request up to the end of the stream or to the first bad point, and
an end that tells the two apart.

* `processConnection_repeats` — a request in the buffer is handled for ever;
* `served_iff` — a connection is served so only where it sends no request at all.
-/

namespace Pcopy.Relay

open Pcopy.Lib

/-! ### What serving a connection means -/

/-- How a stream of requests ends. -/
inductive Ending where
  | clean : Ending
  | bad : Ending

/-- What is left of a stream behind its complete requests: nothing, or a bad point. -/
inductive EndsIn : List UInt8 → Ending → Prop where
  | closed : EndsIn [] .clean
  | truncated (front : List UInt8) (f : RelayFrames) : front ≠ [] → front <+: f.toBeBytes →
      front ≠ f.toBeBytes → EndsIn front .bad
  | unknown (value : UInt8) (rest : List UInt8) : (∀ op : RelayOperations, value ≠ op.toU8) →
      EndsIn (value :: rest) .bad
  | strayProbeAck (rest : List UInt8) : EndsIn (RelayFrames.probeAck.toBeBytes ++ rest) .bad

/-- `bytes` are these requests, up to the end of the stream or a bad point. -/
def Carries (bytes : List UInt8) (requests : List RelayFrames) (ending : Ending) : Prop :=
  (∀ f ∈ requests, f ≠ .probeAck) ∧
    ∃ tail, bytes = requests.flatMap RelayFrames.toBeBytes ++ tail ∧ EndsIn tail ending

/-- The reply is of the kind of the request. -/
def Answers : RelayFrames → PeerFrames → Prop
  | .register _, .registerResult _ => True
  | .probe _, .probeResult _ => True
  | .doConnect _, .doConnectResult _ => True
  | .ping, .pingResult _ => True
  | _, _ => False

/-- The frames that are replies, not commands. -/
def PeerFrames.isResult : PeerFrames → Bool
  | .command _ => false
  | _ => true

/-- A run ends as the stream does: with `Ok` where it was closed, with an error at a bad
point. -/
def EndsLike : Ending → Except (Fault IoError) Unit → Prop
  | .clean, o => o = .ok ()
  | .bad, o => ∃ e, o = .error (.err e)

/-- The connection is served: the task ends as the stream does, it has handled every request
once and in order, and of the frames written to the requester those that are no commands
are one reply to each. -/
def Served (net : Net) (i : StreamId) (peerAddress : IpAddr) (w : World)
    (st : SegStream UInt8) : Prop :=
  ∃ requests ending fuel o buffer w',
    Carries st.elems requests ending ∧
    processConnection net i peerAddress fuel (Connection.newBuffer, w) = (o, (buffer, w')) ∧
    EndsLike ending o ∧
    w'.handled i = w.handled i ++ requests ∧
    ∃ written : List PeerFrames,
      (w'.sockets i).written = (w.sockets i).written ++ written.flatMap PeerFrames.toBeBytes ∧
      List.Forall₂ Answers requests (written.filter PeerFrames.isResult)

section

variable {net : Net} {i : StreamId} {peerAddress : IpAddr}

/-! ### A request in the buffer -/

/-- The task has not ended, or it has panicked. -/
def Unreturned (o : Except (Fault IoError) Unit) : Prop := o ≠ .ok () ∧ ∀ e, o ≠ .error (.err e)

theorem unreturned_outOfFuel : Unreturned (.error .outOfFuel) := ⟨by simp, by simp⟩

theorem unreturned_panic (msg : String) : Unreturned (.error (.panic msg)) :=
  ⟨by simp, by simp⟩

/-- What the loop does with a frame: handle it and go on. -/
def handleAndLoop (net : Net) (i : StreamId) (peerAddress : IpAddr) (fuel : ℕ)
    (frame : RelayFrames) : Exec IoError (BytesMut × World) Unit := do
  Exec.onSecond (Exec.modify (World.record i frame))
  Exec.onSecond (processFrame net fuel i peerAddress frame)
  processConnection net i peerAddress fuel

variable {fuel : ℕ} {s s' : BytesMut × World}

theorem processConnection_frame {frame : RelayFrames}
    (hread : RelayConnection.readFrame net.reserve (World.stream net i) fuel s
      = (.ok (some frame), s')) :
    processConnection net i peerAddress (fuel + 1) s
      = handleAndLoop net i peerAddress fuel frame s' := by
  rw [processConnection, Exec.bind_ok (Exec.attempt_ok hread), handleAndLoop]

theorem processConnection_closed
    (hread : RelayConnection.readFrame net.reserve (World.stream net i) fuel s
      = (.ok none, s')) :
    processConnection net i peerAddress (fuel + 1) s = (.ok (), s') := by
  rw [processConnection, Exec.bind_ok (Exec.attempt_ok hread)]
  rfl

/-- A frame that cannot be read ends the task in a panic. -/
theorem processConnection_unreadable {φ : Fault IoError}
    (hread : RelayConnection.readFrame net.reserve (World.stream net i) fuel s
      = (.error φ, s')) :
    Unreturned (processConnection net i peerAddress (fuel + 1) s).1 := by
  cases φ with
  | err e =>
      rw [processConnection, Exec.bind_ok (Exec.attempt_err hread)]
      exact unreturned_panic _
  | panic msg =>
      rw [processConnection, Exec.bind_fault (Exec.attempt_panic hread)]
      exact unreturned_panic msg
  | outOfFuel =>
      rw [processConnection, Exec.bind_fault (Exec.attempt_outOfFuel hread)]
      exact unreturned_outOfFuel

/-- The turn of the loop that has a request. -/
theorem handleAndLoop_unreturned (h : net.Writable i) {frame : RelayFrames}
    (hframe : frame ≠ .probeAck) {buffer : BytesMut}
    (hloop : ∀ w, Unreturned (processConnection net i peerAddress fuel (buffer, w)).1)
    (w : World) :
    Unreturned (handleAndLoop net i peerAddress fuel frame (buffer, w)).1 := by
  rw [handleAndLoop,
    Exec.bind_ok (Exec.onSecond_run buffer (Exec.modify_run (World.record i frame) w))]
  have hnoerr := processFrame_noErr (i := i) h fuel peerAddress hframe (w.record i frame)
  rcases hrun : processFrame net fuel i peerAddress frame (w.record i frame) with ⟨φ | _, w'⟩
  · rw [Exec.bind_fault (Exec.onSecond_run buffer hrun)]
    cases φ with
    | err e => exact absurd (by rw [hrun]) (hnoerr e)
    | panic msg => exact unreturned_panic msg
    | outOfFuel => exact unreturned_outOfFuel
  · rw [Exec.bind_ok (Exec.onSecond_run buffer hrun)]
    exact hloop w'

/-- **A request in the buffer is handled for ever.**  Nothing takes it out of the buffer, so
that the next turn handles it again; only a panic ends that. -/
theorem processConnection_repeats (h : net.Writable i) {buffer : BytesMut} {frame : RelayFrames}
    (hparsed : parsed RelayFrames buffer.bytes = .ok frame) (hframe : frame ≠ .probeAck)
    (fuel : ℕ) (w : World) :
    Unreturned (processConnection net i peerAddress fuel (buffer, w)).1 := by
  induction fuel generalizing w with
  | zero => exact unreturned_outOfFuel
  | succ fuel ih =>
      cases fuel with
      | zero => exact unreturned_outOfFuel
      | succ fuel =>
          rw [processConnection_frame (readFrame_of_parsed hparsed fuel w)]
          exact handleAndLoop_unreturned h hframe ih w

/-! ### The first turn -/

/-- A stream that neither is empty nor starts with a ProbeAck is never served to its end. -/
theorem processConnection_unreturned (h : net.Writable i) {st : SegStream UInt8} {w : World}
    (hin : w.Sends i st) (hne : st.elems ≠ [])
    (hack : st.elems.head? ≠ some RelayOperations.probeAck.toU8) (fuel : ℕ) :
    Unreturned (processConnection net i peerAddress fuel (Connection.newBuffer, w)).1 := by
  cases fuel with
  | zero => exact unreturned_outOfFuel
  | succ fuel =>
      have hpost := readFrame_ensures (F := RelayFrames) (r := net.reserve)
        (World.stream_readsFrom net i w) fuel Connection.newBuffer hin.eq_receiving
      rcases hread : readFrameGivenStream (F := RelayFrames) net.reserve (World.stream net i) fuel
        (Connection.newBuffer, w) with ⟨φ | result, s'⟩
      · exact processConnection_unreadable hread
      · have hend := hpost.of_run hread
        obtain ⟨st', _, _, hbytes, hend⟩ := hend
        cases result with
        | none =>
            refine absurd (hbytes.symm.trans ?_) hne
            rw [hend.2.1, hend.2.2, List.append_nil]
        | some frame =>
            have hframe : frame ≠ .probeAck := by
              intro hprobe
              subst hprobe
              obtain ⟨rest, hrest⟩ := RelayFrames.parse_ok_bytes (show _ = _ from hend)
              apply hack
              rw [show st.elems = _ from hbytes.symm, hrest]
              rfl
            rw [processConnection_frame hread]
            obtain ⟨buffer, w'⟩ := s'
            exact handleAndLoop_unreturned h hframe
              (processConnection_repeats h hend hframe fuel) w'

theorem served_of_closed {st : SegStream UInt8} {w : World} (hin : w.Sends i st)
    (hst : st.elems = []) : Served net i peerAddress w st := by
  have hread := readFrame_closed (r := net.reserve) (World.stream_readsFrom net i w)
    RelayFrames.short_nil hin.eq_receiving hst 1024 Nat.one_pos
  obtain ⟨hok, st', hw'⟩ := hread
  generalize hrun : readFrameGivenStream (F := RelayFrames) net.reserve (World.stream net i) 1
    (BytesMut.withCapacity 1024, w) = out at hok hw'
  obtain ⟨o, buffer, w'⟩ := out
  simp only at hok hw'
  subst hok hw'
  refine ⟨[], .clean, 2, .ok (), buffer, w.receiving i st', ⟨by simp, [], by simp [hst], .closed⟩,
    processConnection_closed hrun, rfl, by simp [World.receiving], [], ?_, by simp⟩
  simp [World.receiving]

theorem served_of_probeAck {st : SegStream UInt8} {w : World} (hin : w.Sends i st)
    {rest : List UInt8} (hst : st.elems = RelayFrames.probeAck.toBeBytes ++ rest) :
    Served net i peerAddress w st := by
  have hread := readFrame_first (r := net.reserve) (World.stream_readsFrom net i w)
    RelayFrames.probeAck.delimits hin.eq_receiving hst 1024 (st.elems.length + 1)
  generalize hrun : readFrameGivenStream (F := RelayFrames) net.reserve (World.stream net i)
    (st.elems.length + 1) (BytesMut.withCapacity 1024, w) = out at hread
  obtain ⟨o, buffer, w'⟩ := out
  rcases hread.of_run hrun with ⟨_, hfuel⟩ | ⟨hok, _, st', hw'⟩
  · omega
  · simp only at hok hw'
    subst hok hw'
    refine ⟨[], .bad, st.elems.length + 2, .error (.err unexpectedProbeAck), buffer,
      w.receiving i st', ⟨by simp, _, hst, .strayProbeAck rest⟩, ?_, ⟨_, rfl⟩,
      by simp [World.receiving], [], ?_, by simp⟩
    · rw [Connection.newBuffer, processConnection_frame hrun]
      rfl
    · simp [World.receiving]

theorem head_of_served (hwritable : net.Writable i) {w : World} {st : SegStream UInt8}
    (hin : w.Sends i st) (hserved : Served net i peerAddress w st) :
    st.elems = [] ∨ st.elems.head? = some RelayOperations.probeAck.toU8 := by
  obtain ⟨requests, ending, fuel, o, buffer, w', _, hrun, hends, _⟩ := hserved
  by_contra hbad
  rw [not_or] at hbad
  have hunreturned : Unreturned (processConnection net i peerAddress fuel _).1 :=
    processConnection_unreturned hwritable hin hbad.1 hbad.2 fuel
  rw [hrun] at hunreturned
  cases ending with
  | clean => exact hunreturned.1 hends
  | bad =>
      obtain ⟨e, he⟩ := hends
      exact hunreturned.2 e he

end

/-- **A connection is served only where it sends no request.**  Unless its stream is closed at
once or starts with a ProbeAck, the first request is handled again and again, or the task
panics. -/
theorem served_iff (net : Net) (i : StreamId) (peerAddress : IpAddr) (w : World)
    (st : SegStream UInt8) (hwritable : net.Writable i) (hin : w.Sends i st) :
    Served net i peerAddress w st ↔
      st.elems = [] ∨ st.elems.head? = some RelayOperations.probeAck.toU8 := by
  constructor
  · exact head_of_served hwritable hin
  · intro h
    rcases h with hnil | hhead
    · exact served_of_closed hin hnil
    · obtain ⟨rest, hrest⟩ := List.head?_eq_some_iff.mp hhead
      exact served_of_probeAck hin hrest

/-- A stray ProbeAck is refused as it should be. -/
theorem served_iff_strayProbeAck :
    Served Net.open 0 localAddress (World.new (SegStream.single [5] (by simp)))
        (SegStream.single [5] (by simp)) ↔
      (SegStream.single [(5 : UInt8)] (by simp)).elems = [] ∨
        (SegStream.single [(5 : UInt8)] (by simp)).elems.head?
          = some RelayOperations.probeAck.toU8 :=
  served_iff Net.open 0 localAddress _ _ (fun _ _ => rfl) rfl

/-- One Ping, in a run of five turns, is handled and answered four times; the connection is
not served. -/
theorem ping_not_served :
    ((processConnection Net.open 0 localAddress 5
        (Connection.newBuffer, World.new (SegStream.single [4] (by simp)))).2.2.handled 0
      = [.ping, .ping, .ping, .ping] ∧
    ((processConnection Net.open 0 localAddress 5
        (Connection.newBuffer, World.new (SegStream.single [4] (by simp)))).2.2.sockets 0).sent
      = [24, 1, 24, 1, 24, 1, 24, 1]) ∧
    ¬ Served Net.open 0 localAddress (World.new (SegStream.single [4] (by simp)))
      (SegStream.single [4] (by simp)) := by
  refine ⟨by decide +kernel, ?_⟩
  intro hserved
  have hwritable : Net.open.Writable 0 := fun _ _ => rfl
  have hin : (World.new (SegStream.single [4] (by simp))).Sends 0
      (SegStream.single [4] (by simp)) := rfl
  have hhead := head_of_served hwritable hin hserved
  rw [SegStream.elems_single] at hhead
  exact absurd hhead (by decide)

end Pcopy.Relay
