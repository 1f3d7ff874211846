import Pcopy.Relay.Cache
import Pcopy.Relay.Connection

/-!
# The relay server: its methods and its handlers of frames

`Server::register`, `Server::probe` and `Server::doconnect`, the four handlers above them,
and `process_connection`, each as one task runs it when no other task is in its way.

* `World` — the sockets of all connections and the registry;
* `writeFrame_cases` — a frame is written and sent whole where the socket takes it;
* `processFrame_noErr` — a handler whose reply can be written ends without an error,
  whatever the method of the server returned.
-/

namespace Pcopy.Relay

open Pcopy.Lib

/-- A connection, by the order in which it was accepted; its socket has the same number. -/
abbrev StreamId : Type := ℕ

/-- `PeerConnectionMetadata`. -/
structure PeerConnectionMetadata where
  stream : StreamId
  ipAddr : IpAddr
  deriving DecidableEq

/-- What the relay does not determine: how its buffers grow, how the sockets take what is
written to them, the time that the `n`-th probe measures and how an identifier is shown. -/
structure Net where
  reserve : Reserve
  outlet : StreamId → Outlet
  elapsed : ℕ → Duration
  display : PeerId → String

/-- The state of the relay, with the probes that got their answer counted and the requests
that every task has handled on record. -/
structure World where
  sockets : StreamId → Socket
  connCache : Cache PeerId PeerConnectionMetadata
  healthStatus : HealthStatus
  probes : ℕ
  handled : StreamId → List RelayFrames

namespace World

/-- Work on the socket of one connection. -/
def onSocket {α : Type} (i : StreamId) (x : Exec IoError Socket α) : Exec IoError World α :=
  fun w => ((x (w.sockets i)).1,
    { w with sockets := Function.update w.sockets i (x (w.sockets i)).2 })

/-- The socket of one connection as a stream. -/
def stream (net : Net) (i : StreamId) : AsyncStream World :=
  ⟨fun room => onSocket i (Socket.readBuf room),
    fun bytes => onSocket i (Socket.writeAll (net.outlet i) bytes),
    onSocket i (Socket.flush (net.outlet i))⟩

/-- The other side of connection `i` still sends `st`. -/
def Sends (i : StreamId) (w : World) (st : SegStream UInt8) : Prop :=
  Relay.Sends (w.sockets i) st

/-- The relay with nothing changed but what the other side of connection `i` still sends. -/
def receiving (i : StreamId) (w : World) (st : SegStream UInt8) : World :=
  { w with sockets :=
      Function.update w.sockets i { w.sockets i with incoming := Feed.ofStream st } }

theorem Sends.eq_receiving {i : StreamId} {w : World} {st : SegStream UInt8}
    (h : w.Sends i st) : w = w.receiving i st := by
  have hsocket : { w.sockets i with incoming := Feed.ofStream st } = w.sockets i := by
    rw [← show (w.sockets i).incoming = _ from h]
  rw [receiving, hsocket, Function.update_eq_self]

/-- Reading from a connection changes nothing but what is still to be read. -/
theorem stream_readsFrom (net : Net) (i : StreamId) (w : World) :
    ReadsFrom (stream net i) fun w' st => w' = w.receiving i st := by
  intro room w' st hw'
  refine ⟨w.receiving i (st.read room).2, ?_, rfl⟩
  subst hw'
  show onSocket i (Socket.readBuf room) (w.receiving i st) = _
  simp [onSocket, Socket.readBuf, receiving, Feed.read_ofStream]

end World

/-! ### The methods of the server -/

section

variable (net : Net)

/-- The panic of `Option::unwrap`. -/
def unwrapNone : String := "called `Option::unwrap()` on a `None` value"

/-- The panic of `Result::unwrap`. -/
def unwrapErr : String := "called `Result::unwrap()` on an `Err` value"

namespace Server

/-- `Server::register`.  The entry is in the registry when the replaced value is unwrapped. -/
def register (peerId : PeerId) (sourceIp : IpAddr) (stream : StreamId) :
    Exec IoError World Unit := do
  let w ← Exec.get
  let inserted := w.connCache.insert peerId ⟨stream, sourceIp⟩
  Exec.modify fun w => { w with connCache := inserted.2 }
  match inserted.1 with
  | some _ => pure ()
  | none => Exec.unwind unwrapNone

/-- `PROBE_ACK_LENGTH`. -/
def probeAckLength : ℕ := 1

/-- The error for an identifier that has no entry. -/
def notRegistered (peerId : PeerId) : IoError :=
  ⟨.invalidInput, "Peer " ++ net.display peerId ++ " not registered yet"⟩

/-- `Server::probe`. -/
def probe (fuel : ℕ) (peerId : PeerId) : Exec IoError World PeerInfo := do
  let w ← Exec.get
  match w.connCache.get peerId with
  | some connMd => do
      writeFrameGivenStream (World.stream net connMd.stream) (PeerFrames.command .sync)
      let result ← Exec.attempt (Exec.withLocal (BytesMut.withCapacity probeAckLength)
        (readFrameGivenStream net.reserve (World.stream net connMd.stream) fuel))
      match result with
      | .error _ => Exec.unwind unwrapErr
      | .ok (some RelayFrames.probeAck) => do
          let w ← Exec.get
          Exec.modify fun w => { w with probes := w.probes + 1 }
          pure ⟨peerId, connMd.ipAddr, net.elapsed w.probes⟩
      | .ok (some _) =>
          Exec.fail ⟨.invalidData, "Invalid data received from peer " ++ net.display peerId⟩
      | .ok none =>
          Exec.fail ⟨.brokenPipe, "Ack not received from peer " ++ net.display peerId⟩
  | none => Exec.fail (notRegistered net peerId)

/-- `Server::doconnect`. -/
def doconnect (destinationPeerId : PeerId) (sourceIp : IpAddr) : Exec IoError World Unit := do
  let w ← Exec.get
  match w.connCache.get destinationPeerId with
  | some connMd =>
      writeFrameGivenStream (World.stream net connMd.stream)
        (PeerFrames.command (.doConnect sourceIp))
  | none => Exec.fail (notRegistered net destinationPeerId)

end Server

/-! ### The handlers -/

/-- `process_ping_frame`. -/
def processPingFrame (i : StreamId) : Exec IoError World Unit := do
  let w ← Exec.get
  RelayConnection.writeFrame (World.stream net i) (.pingResult w.healthStatus)

/-- `process_sync_frame`. -/
def processSyncFrame (i : StreamId) (peerAddress : IpAddr) (peerId : PeerId) :
    Exec IoError World Unit := do
  match ← Exec.attempt (Server.doconnect net peerId peerAddress) with
  | .ok () => RelayConnection.writeFrame (World.stream net i) (.doConnectResult .success)
  | .error _ => RelayConnection.writeFrame (World.stream net i) (.doConnectResult .failure)

/-- `process_probe_frame`. -/
def processProbeFrame (fuel : ℕ) (i : StreamId) (peerId : PeerId) : Exec IoError World Unit := do
  match ← Exec.attempt (Server.probe net fuel peerId) with
  | .ok peerInfo => RelayConnection.writeFrame (World.stream net i) (.probeResult (some peerInfo))
  | .error _ => RelayConnection.writeFrame (World.stream net i) (.probeResult none)

/-- `process_register_frame`. -/
def processRegisterFrame (i : StreamId) (peerAddress : IpAddr) (peerId : PeerId) :
    Exec IoError World Unit := do
  match ← Exec.attempt (Server.register peerId peerAddress i) with
  | .ok () => RelayConnection.writeFrame (World.stream net i) (.registerResult .success)
  | .error _ => RelayConnection.writeFrame (World.stream net i) (.registerResult .failure)

/-- The error for a ProbeAck that no probe waits for. -/
def unexpectedProbeAck : IoError := ⟨.invalidData, "Unexpected ProbeAck frame found"⟩

/-- The branches of `process_connection` on a frame. -/
def processFrame (fuel : ℕ) (i : StreamId) (peerAddress : IpAddr) :
    RelayFrames → Exec IoError World Unit
  | .register peerId => processRegisterFrame net i peerAddress peerId
  | .probe peerId => processProbeFrame net fuel i peerId
  | .doConnect peerId => processSyncFrame net i peerAddress peerId
  | .ping => processPingFrame net i
  | .probeAck => Exec.fail unexpectedProbeAck

/-- The record that the task of connection `i` handles a request; a ProbeAck is none. -/
def World.record (i : StreamId) (frame : RelayFrames) (w : World) : World :=
  match frame with
  | .probeAck => w
  | frame => { w with handled := Function.update w.handled i (w.handled i ++ [frame]) }

/-- `process_connection`.  The state is the buffer of the connection and the relay's. -/
def processConnection (i : StreamId) (peerAddress : IpAddr) :
    ℕ → Exec IoError (BytesMut × World) Unit
  | 0 => Exec.outOfFuel
  | fuel + 1 => do
      match ← Exec.attempt (RelayConnection.readFrame net.reserve (World.stream net i) fuel) with
      | .error _ => Exec.unwind unwrapErr
      | .ok (some frame) => do
          Exec.onSecond (Exec.modify (World.record i frame))
          Exec.onSecond (processFrame net fuel i peerAddress frame)
          processConnection i peerAddress fuel
      | .ok none => pure ()

end

/-! ### Writing a frame -/

section

variable {net : Net} {i : StreamId}

namespace World

theorem onSocket_bind {α β : Type} (i : StreamId) (x : Exec IoError Socket α)
    (f : α → Exec IoError Socket β) :
    onSocket i (x >>= f) = onSocket i x >>= fun a => onSocket i (f a) := by
  funext w
  rcases hx : x (w.sockets i) with ⟨φ | a, s₁⟩
  · have hon : onSocket i x w
        = (.error φ, { w with sockets := Function.update w.sockets i s₁ }) := by rw [onSocket, hx]
    rw [Exec.bind_fault hon, onSocket, Exec.bind_fault hx]
  · have hon : onSocket i x w
        = (.ok a, { w with sockets := Function.update w.sockets i s₁ }) := by rw [onSocket, hx]
    rw [Exec.bind_ok hon, onSocket, Exec.bind_ok hx]
    simp [onSocket]

/-- The whole frame is sent on the socket of connection `i`. -/
def wrote (i : StreamId) (frame : PeerFrames) (w : World) : World :=
  { w with sockets :=
      Function.update w.sockets i ((w.sockets i).wrote frame.toBeBytes) }

end World

/-- Writing a frame sends it whole, or fails. -/
theorem writeFrame_cases (net : Net) (i : StreamId) (frame : PeerFrames) (w : World) :
    (w.sockets i).Takes (net.outlet i) frame.toBeBytes ∧
        writeFrameGivenStream (World.stream net i) frame w = (.ok (), w.wrote i frame) ∨
      ¬ (w.sockets i).Takes (net.outlet i) frame.toBeBytes ∧
        ∃ e w', writeFrameGivenStream (World.stream net i) frame w = (.error (.err e), w') := by
  have heq : writeFrameGivenStream (World.stream net i) frame
      = World.onSocket i (Socket.writeAll (net.outlet i) frame.toBeBytes >>= fun _ =>
          Socket.flush (net.outlet i)) := (World.onSocket_bind i _ _).symm
  rcases (w.sockets i).write_cases (net.outlet i) frame.toBeBytes with
    ⟨htakes, hrun⟩ | ⟨htakes, e, s', hrun⟩
  · exact Or.inl ⟨htakes, by rw [heq, World.onSocket, hrun]; rfl⟩
  · exact Or.inr ⟨htakes, e, _, by rw [heq, World.onSocket, hrun]⟩

/-- The socket of connection `i` takes whatever is written to it. -/
def Net.Writable (net : Net) (i : StreamId) : Prop :=
  ∀ sent pending, net.outlet i sent pending = none

theorem Net.Writable.takes (h : net.Writable i) (s : Socket) (bytes : List UInt8) :
    s.Takes (net.outlet i) bytes := by
  rw [Socket.Takes]
  split
  · exact ⟨h _ _, h _ _⟩
  · exact h _ _

theorem writeFrame_noErr (h : net.Writable i) (frame : PeerFrames) :
    Exec.NoErr (RelayConnection.writeFrame (World.stream net i) frame) := by
  intro w e
  rcases writeFrame_cases net i frame w with ⟨_, hrun⟩ | ⟨htakes, _⟩
  · rw [RelayConnection.writeFrame, hrun]
    simp
  · exact absurd (h.takes _ _) htakes

theorem get_noErr : Exec.NoErr (Exec.get : Exec IoError World World) := by
  intro w e
  simp

/-- **No reply, no error.**  A handler fails only where its reply cannot be written:
whatever the method of the server returned goes into the reply. -/
theorem processFrame_noErr (h : net.Writable i) (fuel : ℕ) (peerAddress : IpAddr)
    {frame : RelayFrames} (hframe : frame ≠ .probeAck) :
    Exec.NoErr (processFrame net fuel i peerAddress frame) := by
  cases frame with
  | register id =>
      refine (Exec.NoErr.attempt _).bind fun result => ?_
      cases result <;> exact writeFrame_noErr h _
  | probe id =>
      refine (Exec.NoErr.attempt _).bind fun result => ?_
      cases result <;> exact writeFrame_noErr h _
  | doConnect id =>
      refine (Exec.NoErr.attempt _).bind fun result => ?_
      cases result <;> exact writeFrame_noErr h _
  | ping => exact get_noErr.bind fun w => writeFrame_noErr h _
  | probeAck => exact absurd rfl hframe

end

/-! ### A small relay -/

/-- A network that takes everything. -/
def Net.open : Net :=
  ⟨BytesMut.reserve, fun _ _ _ => none, fun _ => Duration.fromMillis 0, fun _ => ""⟩

/-- A new relay whose only connection sends `st`. -/
def World.new (st : SegStream UInt8) : World :=
  ⟨fun _ => Socket.fresh st, Cache.new, .healthy, 0, fun _ => []⟩

/-- The address of a peer. -/
def localAddress : IpAddr := .v4 ⟨[127, 0, 0, 1], rfl⟩

end Pcopy.Relay
