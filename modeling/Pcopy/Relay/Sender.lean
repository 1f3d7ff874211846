import Pcopy.Relay.Connection

/-!
# `Sender::connect_to_peer`

The sender registers with the relay, asks it for the address of a peer, and connects.  Both
replies are read through the same connection, whose buffer still holds the first one when the
second is awaited: the sender takes it for the second.

The state is the list of the addresses that were dialled, the buffer of the connection and its
socket.  `local_ip` and `TcpStream::connect` are code outside the repository and enter as
`Dialer`.

* `awaitReply_ensures` — how the wait for a reply ends;
* `handshake_dials_nothing` — no connection to a peer is ever opened;
* `handshake_iff` — which relays the handshake is right with.
-/

namespace Pcopy.Relay

open Pcopy.Lib

/-- What the machine of the sender offers: its own address, and what connecting to an address
leads to. -/
structure Dialer where
  localIp : Except String IpAddr
  connect : IpAddr × ℕ → Option IoError

section

variable {σ : Type} {α : Type}

/-- The loops that wait for a reply.  A reply is accepted or ends the handshake; when the relay
has closed the connection the loop goes on. -/
def awaitReply (r : Reserve) (stream : AsyncStream σ) (accept : PeerFrames → Except IoError α) :
    ℕ → Exec IoError (BytesMut × σ) α
  | 0 => Exec.outOfFuel
  | fuel + 1 => do
      match ← Exec.attempt (PeerConnection.readFrame r stream fuel) with
      | .ok (some f) =>
          match accept f with
          | .ok a => pure a
          | .error e => Exec.fail e
      | .ok none => awaitReply r stream accept fuel
      | .error e => Exec.fail ⟨.connectionReset, e.message⟩

/-- What is made of the reply to Register. -/
def registered : PeerFrames → Except IoError Unit
  | .registerResult statusCodes =>
      if statusCodes = .success then .ok ()
      else .error ⟨.other, "Peer Registeration failed with Relay Server"⟩
  | _ => .error ⟨.invalidData, "Invalid Registeration response from Relay Server. "⟩

/-- What is made of the reply to Probe. -/
def probed : PeerFrames → Except IoError PeerInfo
  | .probeResult (some peerInfo) => .ok peerInfo
  | .probeResult none => .error ⟨.other, "Peer Info Not found in Relay Server"⟩
  | _ => .error ⟨.invalidData, "Invalid Probe response from Relay Server. "⟩

/-- `TcpStream::connect`: the address is dialled, and the stream is known by it. -/
def dial (d : Dialer) (addr : IpAddr × ℕ) : Exec IoError (List (IpAddr × ℕ) × σ) (IpAddr × ℕ) :=
  fun s => match d.connect addr with
    | none => (.ok addr, (s.1 ++ [addr], s.2))
    | some e => (.error (.err e), (s.1 ++ [addr], s.2))

/-- `Sender::connect_to_peer`. -/
def connectToPeer (d : Dialer) (r : Reserve) (stream : AsyncStream σ) (fuel : ℕ)
    (sourcePeerId destinationPeerId : PeerId) :
    Exec IoError (List (IpAddr × ℕ) × (BytesMut × σ)) (IpAddr × ℕ) := do
  Exec.onSecond (Exec.onSecond (PeerConnection.writeFrame stream (.register sourcePeerId)))
  Exec.onSecond (awaitReply r stream registered fuel)
  Exec.onSecond (Exec.onSecond (PeerConnection.writeFrame stream (.probe destinationPeerId)))
  let _peerInfo ← Exec.onSecond (awaitReply r stream probed fuel)
  match d.localIp with
  -- the address of the peer is not looked at
  | .ok ip => dial d (ip, 8080)
  | .error e => Exec.fail ⟨.other, e⟩

/-! ### Waiting for a reply -/

/-- How a wait ends that was given `fuel`, with `ahead` bytes on the stream and `all` bytes there
and in the buffer, and that leaves `buffer`. -/
def AwaitEnd (accept : PeerFrames → Except IoError α) (fuel ahead : ℕ) (all buffer : List UInt8) :
    Except (Fault IoError) α → Prop
  | .ok a => ∃ f, parsed PeerFrames buffer = .ok f ∧ accept f = .ok a
  | .error (.err _) => True
  | .error (.panic _) => False
  | .error .outOfFuel => fuel ≤ ahead + 1 ∨ all = []

/-- **The end of a wait.**  A reply that is accepted is in the buffer, every byte is accounted
for, and where there is a byte at all, enough fuel ends the wait. -/
theorem awaitReply_ensures {r : Reserve} {stream : AsyncStream σ}
    {source : σ → SegStream UInt8 → Prop} (hreads : ReadsFrom stream source)
    (accept : PeerFrames → Except IoError α) (fuel : ℕ) :
    ∀ (buffer : BytesMut) (s : σ) (st : SegStream UInt8), source s st →
      Exec.Ensures (awaitReply r stream accept fuel) (buffer, s) fun o s' =>
        ∃ st', source s'.2 st' ∧ s'.1.bytes ++ st'.elems = buffer.bytes ++ st.elems ∧
          AwaitEnd accept fuel st.elems.length (buffer.bytes ++ st.elems) s'.1.bytes o := by
  induction fuel with
  | zero => intro buffer s st hs; exact ⟨st, hs, rfl, Or.inl (Nat.zero_le _)⟩
  | succ fuel ih =>
      intro buffer s st hs
      have hread := readFrame_ensures (F := PeerFrames) (r := r) hreads fuel buffer hs
      rcases hrun : readFrameGivenStream (F := PeerFrames) r stream fuel (buffer, s) with ⟨o, s₁⟩
      obtain ⟨st₁, hs₁, _, hbytes, hend⟩ := hread.of_run hrun
      rw [awaitReply, PeerConnection.readFrame]
      match o, hend with
      | .ok (some f), hend =>
          refine Exec.Ensures.step (Exec.attempt_ok hrun) ?_
          dsimp only
          cases haccept : accept f with
          | ok a => exact ⟨st₁, hs₁, hbytes, f, hend, haccept⟩
          | error e => exact ⟨st₁, hs₁, hbytes, trivial⟩
      | .ok none, hend =>
          refine Exec.Ensures.step (Exec.attempt_ok hrun) ?_
          have hnil : buffer.bytes ++ st.elems = [] := by
            rw [← hbytes, hend.2.1, hend.2.2, List.append_nil]
          refine Exec.Ensures.mono (ih s₁.1 s₁.2 st₁ hs₁) ?_
          intro o' s' h
          obtain ⟨st', hs', hbytes', hend'⟩ := h
          refine ⟨st', hs', hbytes'.trans hbytes, ?_⟩
          match o', hend' with
          | .ok _, hend' => exact hend'
          | .error (.err _), _ => exact trivial
          | .error .outOfFuel, _ => exact Or.inr hnil
      | .error (.err e), _ =>
          refine Exec.Ensures.step (Exec.attempt_err hrun) ?_
          exact ⟨st₁, hs₁, hbytes, trivial⟩
      | .error (.panic msg), hend =>
          obtain ⟨e, he⟩ := parsed_fault PeerFrames.steady hend
          cases he
      | .error .outOfFuel, hend =>
          have hfuel : fuel ≤ st.elems.length := by
            rcases hend with hend | hend
            · obtain ⟨e, he⟩ := parsed_fault PeerFrames.steady hend
              cases he
            · exact hend
          rw [Exec.Ensures, Exec.bind_fault (Exec.attempt_outOfFuel hrun)]
          exact ⟨st₁, hs₁, hbytes, Or.inl (by omega)⟩

/-- A frame that is already in the buffer is taken for the reply. -/
theorem awaitReply_of_parsed {r : Reserve} {stream : AsyncStream σ}
    {accept : PeerFrames → Except IoError α} {buffer : BytesMut} {f : PeerFrames} {e : IoError}
    (hparsed : parsed PeerFrames buffer.bytes = .ok f) (haccept : accept f = .error e) (fuel : ℕ)
    (s : σ) :
    awaitReply r stream accept (fuel + 2) (buffer, s) = (.error (.err e), (buffer, s)) := by
  rw [awaitReply, PeerConnection.readFrame,
    Exec.bind_ok (Exec.attempt_ok (readFrame_of_parsed hparsed fuel s))]
  simp only [haccept]
  rfl

/-- A relay that has closed the connection without a reply is waited for without end. -/
theorem awaitReply_closed {r : Reserve} {stream : AsyncStream σ}
    {source : σ → SegStream UInt8 → Prop} (hreads : ReadsFrom stream source)
    (accept : PeerFrames → Except IoError α) (fuel : ℕ) :
    ∀ (buffer : BytesMut) (s : σ) (st : SegStream UInt8), source s st → buffer.bytes = [] →
      st.elems = [] → (awaitReply r stream accept fuel (buffer, s)).1 = .error .outOfFuel := by
  induction fuel with
  | zero => intro buffer s st _ _ _; rfl
  | succ fuel ih =>
      intro buffer s st hs hbuffer hst
      have hread := readFrame_ensures (F := PeerFrames) (r := r) hreads fuel buffer hs
      rcases hrun : readFrameGivenStream (F := PeerFrames) r stream fuel (buffer, s) with ⟨o, s₁⟩
      obtain ⟨st₁, hs₁, _, hbytes, hend⟩ := hread.of_run hrun
      rw [hbuffer, hst, List.nil_append, List.append_eq_nil_iff] at hbytes
      rw [hbytes.1] at hend
      rw [awaitReply, PeerConnection.readFrame]
      rcases hend.of_incomplete (parsed_of_short PeerFrames.short_nil) with
        ⟨ho, _⟩ | ⟨ho, _⟩ | ⟨_, hne, _⟩
      · rw [ho] at hrun
        rw [Exec.bind_fault (Exec.attempt_outOfFuel hrun)]
      · rw [ho] at hrun
        rw [Exec.bind_ok (Exec.attempt_ok hrun)]
        exact ih s₁.1 s₁.2 st₁ hs₁ hbytes.1 hbytes.2
      · exact absurd rfl hne

end

/-! ### The handshake -/

/-- A socket that takes whatever is written to it. -/
def Outlet.open : Outlet := fun _ _ => none

/-- The other side still sends `st`, and `b` is what has been written so far. -/
def SendsBehind (b : BufWriter) (s : Socket) (st : SegStream UInt8) : Prop :=
  s.toBufWriter = b ∧ Sends s st

theorem sendsBehind_readsFrom (out : Outlet) (b : BufWriter) :
    ReadsFrom (socketStream out) (SendsBehind b) := by
  intro room s st hs
  refine ⟨{ s with incoming := Feed.ofStream (st.read room).2 }, ?_, hs.1, rfl⟩
  show Socket.readBuf room s = _
  rw [Socket.readBuf, show s.incoming = _ from hs.2, Feed.read_ofStream]

theorem Socket.takes_open (s : Socket) (bytes : List UInt8) : s.Takes Outlet.open bytes := by
  unfold Socket.Takes
  split
  · exact ⟨rfl, rfl⟩
  · rfl

theorem writeFrame_open (frame : RelayFrames) (s : Socket) :
    PeerConnection.writeFrame (socketStream Outlet.open) frame s
      = (.ok (), s.wrote frame.toBeBytes) := by
  rcases Socket.write_cases Outlet.open s frame.toBeBytes with ⟨_, hrun⟩ | ⟨hnot, _⟩
  · exact hrun
  · exact absurd (s.takes_open _) hnot

/-- The handshake with a relay whose replies are `st`, on a new connection. -/
def handshake (d : Dialer) (r : Reserve) (sourcePeerId destinationPeerId : PeerId)
    (st : SegStream UInt8) (fuel : ℕ) :
    Except (Fault IoError) (IpAddr × ℕ) × (List (IpAddr × ℕ) × (BytesMut × Socket)) :=
  connectToPeer d r (socketStream Outlet.open) fuel sourcePeerId destinationPeerId
    ([], (Connection.newBuffer, Socket.fresh st))

/-- The first reply in what the relay sends. -/
def firstReply (bytes : List UInt8) : Except (Fault FrameError) PeerFrames :=
  parsed PeerFrames bytes

/-- What the relay sends behind its first reply. -/
def afterFirst (bytes : List UInt8) : List UInt8 :=
  bytes.drop (PeerFrames.parse (Cursor.new bytes)).2.position

/-- The second reply in what the relay sends. -/
def secondReply (bytes : List UInt8) : Except (Fault FrameError) PeerFrames :=
  parsed PeerFrames (afterFirst bytes)

/-- The relay accepts the registration, and then tells where the peer is. -/
def Introduces (bytes : List UInt8) (peerInfo : PeerInfo) : Prop :=
  firstReply bytes = .ok (.registerResult .success) ∧
    secondReply bytes = .ok (.probeResult (some peerInfo))

/-- The first reply of the relay, or the second after a first that accepts the registration, is
another one, be it malformed or cut off. -/
def Refuses (bytes : List UInt8) : Prop :=
  bytes ≠ [] ∧ firstReply bytes ≠ .ok (.registerResult .success) ∨
    firstReply bytes = .ok (.registerResult .success) ∧ afterFirst bytes ≠ [] ∧
      ∀ peerInfo, secondReply bytes ≠ .ok (.probeResult (some peerInfo))

/-- The handshake that is meant. -/
structure SoundHandshake (d : Dialer) (r : Reserve) (sourcePeerId destinationPeerId : PeerId)
    (st : SegStream UInt8) : Prop where
  /-- Register is sent first, and Probe only after the registration was accepted: what has been
  read from the relay by then starts with that reply. -/
  ordered : ∀ fuel,
    let socket := (handshake d r sourcePeerId destinationPeerId st fuel).2.2.2
    socket.sent = (RelayFrames.register sourcePeerId).toBeBytes ∨
      socket.sent = (RelayFrames.register sourcePeerId).toBeBytes
          ++ (RelayFrames.probe destinationPeerId).toBeBytes ∧
        ∃ read rest, st.elems = read ++ rest.elems ∧ Sends socket rest ∧
          firstReply read = .ok (.registerResult .success)
  /-- The address that the relay tells is dialled. -/
  connects : ∀ peerInfo, Introduces st.elems peerInfo → ∃ n, ∀ fuel ≥ n, ∃ port,
    (handshake d r sourcePeerId destinationPeerId st fuel).2.1 = [(peerInfo.ip, port)]
  /-- Every other reply ends the handshake with an error, and nothing is dialled. -/
  refuses : Refuses st.elems → ∃ n, ∀ fuel ≥ n,
    (∃ e, (handshake d r sourcePeerId destinationPeerId st fuel).1 = .error (.err e)) ∧
      (handshake d r sourcePeerId destinationPeerId st fuel).2.1 = []

/-- A reply to Register that is accepted is a success. -/
theorem registered_eq_ok {f : PeerFrames} (h : registered f = .ok ()) :
    f = .registerResult .success := by
  cases f with
  | registerResult status =>
      cases status with
      | success => rfl
      | failure => cases h
  | probeResult info => cases h
  | doConnectResult status => cases h
  | pingResult health => cases h
  | command c => cases h

/-- What a run of the handshake comes to: it waits in vain, or a reply to Register ends it, or
the registration is accepted and taken for the reply to Probe. -/
theorem handshake_cases (d : Dialer) (r : Reserve) (sourcePeerId destinationPeerId : PeerId)
    (st : SegStream UInt8) (fuel : ℕ) :
    (∃ φ s', handshake d r sourcePeerId destinationPeerId st fuel = (.error φ, ([], s')) ∧
        s'.2.sent = (RelayFrames.register sourcePeerId).toBeBytes ∧
        ((∃ e, φ = .err e) ∨ fuel ≤ st.elems.length + 1 ∨ st.elems = [])) ∨
      ∃ φ s', handshake d r sourcePeerId destinationPeerId st fuel = (.error φ, ([], s')) ∧
        s'.2.sent = (RelayFrames.register sourcePeerId).toBeBytes
          ++ (RelayFrames.probe destinationPeerId).toBeBytes ∧
        (∃ rest, st.elems = s'.1.bytes ++ rest.elems ∧ Sends s'.2 rest ∧
          firstReply s'.1.bytes = .ok (.registerResult .success)) ∧
        ((∃ e, φ = .err e) ∨ fuel ≤ 1) := by
  have hregister := Exec.onSecond_run ([] : List (IpAddr × ℕ)) (Exec.onSecond_run
    Connection.newBuffer (writeFrame_open (.register sourcePeerId) (Socket.fresh st)))
  have hwait := awaitReply_ensures (r := r) (sendsBehind_readsFrom Outlet.open _) registered fuel
    Connection.newBuffer ((Socket.fresh st).wrote (RelayFrames.register sourcePeerId).toBeBytes)
    st ⟨rfl, rfl⟩
  rcases hrun : awaitReply r (socketStream Outlet.open) registered fuel (Connection.newBuffer,
    (Socket.fresh st).wrote (RelayFrames.register sourcePeerId).toBeBytes) with ⟨o, buffer, s₁⟩
  obtain ⟨st₁, hs₁, hbytes, hend⟩ := hwait.of_run hrun
  rw [handshake, connectToPeer, Exec.bind_ok hregister]
  cases o with
  | error φ =>
      left
      refine ⟨φ, (buffer, s₁), Exec.bind_fault (Exec.onSecond_run [] hrun), ?_, ?_⟩
      · show s₁.toBufWriter.sent = _
        rw [hs₁.1, Socket.wrote_sent, Socket.fresh_written, List.nil_append]
      · cases φ with
        | err e => exact Or.inl ⟨e, rfl⟩
        | panic msg => exact hend.elim
        | outOfFuel => exact Or.inr hend
  | ok u =>
      right
      obtain ⟨f, hparsed, haccept⟩ := hend
      obtain rfl := registered_eq_ok haccept
      have hprobe := Exec.onSecond_run ([] : List (IpAddr × ℕ)) (Exec.onSecond_run
        buffer (writeFrame_open (.probe destinationPeerId) s₁))
      have hwritten : s₁.written = (RelayFrames.register sourcePeerId).toBeBytes := by
        show s₁.toBufWriter.written = _
        rw [hs₁.1, Socket.wrote_written, Socket.fresh_written, List.nil_append]
      have hsent : (s₁.wrote (RelayFrames.probe destinationPeerId).toBeBytes).sent
          = (RelayFrames.register sourcePeerId).toBeBytes
            ++ (RelayFrames.probe destinationPeerId).toBeBytes := by
        rw [Socket.wrote_sent, hwritten]
      have hread : ∃ rest, st.elems = buffer.bytes ++ rest.elems ∧
          Sends (s₁.wrote (RelayFrames.probe destinationPeerId).toBeBytes) rest ∧
            firstReply buffer.bytes = .ok (.registerResult .success) :=
        ⟨st₁, hbytes.symm, hs₁.2, hparsed⟩
      rw [Exec.bind_ok (Exec.onSecond_run [] hrun), Exec.bind_ok hprobe]
      match fuel with
      | 0 => exact ⟨.outOfFuel, _, Exec.bind_fault (Exec.onSecond_run [] rfl), hsent, hread,
          Or.inr (Nat.zero_le _)⟩
      | 1 => exact ⟨.outOfFuel, _, Exec.bind_fault (Exec.onSecond_run [] rfl), hsent, hread,
          Or.inr le_rfl⟩
      | fuel + 2 =>
          -- the reply to Register is still in the buffer
          have hagain : awaitReply r (socketStream Outlet.open) probed (fuel + 2)
              (buffer, s₁.wrote (RelayFrames.probe destinationPeerId).toBeBytes) = _ :=
            awaitReply_of_parsed hparsed rfl fuel _
          exact ⟨_, _, Exec.bind_fault (Exec.onSecond_run [] hagain), hsent, hread,
            Or.inl ⟨_, rfl⟩⟩

/-- **Nothing is ever dialled**, whatever the relay replies. -/
theorem handshake_dials_nothing (d : Dialer) (r : Reserve)
    (sourcePeerId destinationPeerId : PeerId) (st : SegStream UInt8) (fuel : ℕ) :
    (handshake d r sourcePeerId destinationPeerId st fuel).2.1 = [] := by
  rcases handshake_cases d r sourcePeerId destinationPeerId st fuel with
    ⟨φ, s', hrun, _⟩ | ⟨φ, s', hrun, _⟩
  · rw [hrun]
  · rw [hrun]

/-- **When the handshake is what is meant.**  For all identifiers and whatever the relay
replies, in any segments, the order and the refusals are right; so the handshake is right
exactly when the relay does not tell where the peer is. -/
theorem handshake_iff (d : Dialer) (r : Reserve) (sourcePeerId destinationPeerId : PeerId)
    (st : SegStream UInt8) :
    SoundHandshake d r sourcePeerId destinationPeerId st ↔
      ¬ ∃ peerInfo, Introduces st.elems peerInfo := by
  constructor
  · intro h hintro
    obtain ⟨peerInfo, hintro⟩ := hintro
    obtain ⟨n, hconnects⟩ := h.connects peerInfo hintro
    obtain ⟨port, hdialled⟩ := hconnects n le_rfl
    rw [handshake_dials_nothing] at hdialled
    cases hdialled
  · intro hnever
    refine ⟨?_, fun peerInfo hintro => absurd ⟨peerInfo, hintro⟩ hnever, ?_⟩
    · intro fuel
      rcases handshake_cases d r sourcePeerId destinationPeerId st fuel with
        ⟨φ, s', hrun, hsent, _⟩ | ⟨φ, s', hrun, hsent, ⟨rest, hread⟩, _⟩
      · rw [hrun]
        exact Or.inl hsent
      · rw [hrun]
        exact Or.inr ⟨hsent, s'.1.bytes, rest, hread⟩
    · intro hrefuses
      have hne : st.elems ≠ [] := by
        intro hnil
        rcases hrefuses with ⟨hne, _⟩ | ⟨hfirst, _⟩
        · exact hne hnil
        · rw [hnil, firstReply, parsed_of_short PeerFrames.short_nil] at hfirst
          cases hfirst
      refine ⟨st.elems.length + 2, fun fuel hfuel => ⟨?_, handshake_dials_nothing ..⟩⟩
      rcases handshake_cases d r sourcePeerId destinationPeerId st fuel with
        ⟨φ, s', hrun, _, hend⟩ | ⟨φ, s', hrun, _, _, hend⟩
      · rw [hrun]
        rcases hend with ⟨e, rfl⟩ | hle | hnil
        · exact ⟨e, rfl⟩
        · omega
        · exact absurd hnil hne
      · rw [hrun]
        rcases hend with ⟨e, rfl⟩ | hle
        · exact ⟨e, rfl⟩
        · omega

/-- What the relay knows of a peer at 10.0.0.2. -/
def knownPeer : PeerInfo := ⟨PeerId.zero, .v4 ⟨[10, 0, 0, 2], rfl⟩, Duration.fromMillis 3⟩

/-- A relay that accepts the registration and then tells where the peer is. -/
def helpfulRelay : SegStream UInt8 where
  segs := [(PeerFrames.registerResult .success).toBeBytes,
    (PeerFrames.probeResult (some knownPeer)).toBeBytes]
  nonempty := by simp [PeerFrames.toBeBytes]

/-- The relay does all it should, and the sender does not connect. -/
theorem helpfulRelay_not_dialled :
    ¬ ∀ (d : Dialer) (r : Reserve) (sourcePeerId destinationPeerId : PeerId)
      (st : SegStream UInt8), SoundHandshake d r sourcePeerId destinationPeerId st := by
  intro h
  have hsound := h ⟨.error "", fun _ => none⟩ BytesMut.reserve PeerId.zero PeerId.zero helpfulRelay
  have hintro : Introduces helpfulRelay.elems knownPeer := by
    refine ⟨?_, ?_⟩ <;> decide +kernel
  obtain ⟨n, hconnects⟩ := hsound.connects knownPeer hintro
  obtain ⟨port, hdialled⟩ := hconnects n le_rfl
  rw [handshake_dials_nothing] at hdialled
  cases hdialled

end Pcopy.Relay
