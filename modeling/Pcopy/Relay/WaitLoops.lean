import Pcopy.Relay.Sender

/-!
# The wait loops of the sender end

`connect_to_peer` waits for two replies in loops that go on when the reader says that the
relay has closed the connection.  The relay sends a finite stream and closes, and the socket
of the sender may refuse to take what is written to it.

* `connect_ends` — where the relay sends anything at all, the handshake ends with an error;
* `senderReturns_iff` — the loops end unless the relay closes without a reply.
-/

namespace Pcopy.Relay

open Pcopy.Lib

/-- The end of `connect_to_peer` on a new connection over which the relay sends `st`. -/
def connectEnd (d : Dialer) (r : Reserve) (out : Outlet) (sourcePeerId destinationPeerId : PeerId)
    (st : SegStream UInt8) (fuel : ℕ) : Except (Fault IoError) (IpAddr × ℕ) :=
  (connectToPeer d r (socketStream out) fuel sourcePeerId destinationPeerId
    ([], (Connection.newBuffer, Socket.fresh st))).1

/-- Given enough turns of its loops `connect_to_peer` returns, and if the relay closes before
it has accepted the registration and told where the peer is, it returns an error. -/
structure SenderReturns (d : Dialer) (r : Reserve) (out : Outlet)
    (sourcePeerId destinationPeerId : PeerId) (st : SegStream UInt8) : Prop where
  returns : ∃ n, ∀ fuel, n ≤ fuel →
    (∃ addr, connectEnd d r out sourcePeerId destinationPeerId st fuel = .ok addr) ∨
      ∃ e, connectEnd d r out sourcePeerId destinationPeerId st fuel = .error (.err e)
  fails : (¬ ∃ peerInfo, Introduces st.elems peerInfo) → ∃ n, ∀ fuel, n ≤ fuel →
    ∃ e, connectEnd d r out sourcePeerId destinationPeerId st fuel = .error (.err e)

/-- The socket of the sender takes the Register frame. -/
def RegisterTaken (out : Outlet) (sourcePeerId : PeerId) (st : SegStream UInt8) : Prop :=
  (Socket.fresh st).Takes out (RelayFrames.register sourcePeerId).toBeBytes

/-- The part of `connect_to_peer` behind the Register frame. -/
def connectRest (d : Dialer) (r : Reserve) (out : Outlet) (fuel : ℕ)
    (destinationPeerId : PeerId) :
    Exec IoError (List (IpAddr × ℕ) × (BytesMut × Socket)) (IpAddr × ℕ) := do
  Exec.onSecond (awaitReply r (socketStream out) registered fuel)
  Exec.onSecond (Exec.onSecond
    (PeerConnection.writeFrame (socketStream out) (.probe destinationPeerId)))
  let _peerInfo ← Exec.onSecond (awaitReply r (socketStream out) probed fuel)
  match d.localIp with
  | .ok ip => dial d (ip, 8080)
  | .error e => Exec.fail ⟨.other, e⟩

section

variable {d : Dialer} {r : Reserve} {out : Outlet} {sourcePeerId destinationPeerId : PeerId}
  {st : SegStream UInt8}

/-- Writing a frame sends it whole, or fails. -/
theorem peerWrite_cases (out : Outlet) (frame : RelayFrames) (s : Socket) :
    s.Takes out frame.toBeBytes ∧
        PeerConnection.writeFrame (socketStream out) frame s
          = (.ok (), s.wrote frame.toBeBytes) ∨
      ¬ s.Takes out frame.toBeBytes ∧
        ∃ e s', PeerConnection.writeFrame (socketStream out) frame s = (.error (.err e), s') :=
  s.write_cases out frame.toBeBytes

/-- A Register frame that the socket does not take ends the handshake. -/
theorem connect_unregistered (hnot : ¬ RegisterTaken out sourcePeerId st) (fuel : ℕ) :
    ∃ e, connectEnd d r out sourcePeerId destinationPeerId st fuel = .error (.err e) := by
  rcases peerWrite_cases out (.register sourcePeerId) (Socket.fresh st) with
    ⟨htakes, _⟩ | ⟨_, e, s', hrun⟩
  · exact absurd htakes hnot
  · have hregister := Exec.onSecond_run ([] : List (IpAddr × ℕ))
      (Exec.onSecond_run Connection.newBuffer hrun)
    exact ⟨e, by rw [connectEnd, connectToPeer, Exec.bind_fault hregister]⟩

theorem connect_registered (htakes : RegisterTaken out sourcePeerId st) (fuel : ℕ) :
    connectEnd d r out sourcePeerId destinationPeerId st fuel
      = (connectRest d r out fuel destinationPeerId ([], (Connection.newBuffer,
          (Socket.fresh st).wrote (RelayFrames.register sourcePeerId).toBeBytes))).1 := by
  rcases peerWrite_cases out (.register sourcePeerId) (Socket.fresh st) with
    ⟨_, hrun⟩ | ⟨hnot, _⟩
  · have hregister := Exec.onSecond_run ([] : List (IpAddr × ℕ))
      (Exec.onSecond_run Connection.newBuffer hrun)
    rw [connectEnd, connectToPeer, Exec.bind_ok hregister]
    rfl
  · exact absurd htakes hnot

/-- The other side still sends `st` after the Register frame. -/
theorem sendsBehind_register (sourcePeerId : PeerId) (st : SegStream UInt8) :
    SendsBehind ((Socket.fresh st).wrote (RelayFrames.register sourcePeerId).toBeBytes).toBufWriter
      ((Socket.fresh st).wrote (RelayFrames.register sourcePeerId).toBeBytes) st :=
  ⟨rfl, rfl⟩

/-- An accepted registration is still in the buffer when the reply to Probe is awaited, and is
taken for it. -/
theorem connectRest_again {fuel : ℕ} {s s₁ : BytesMut × Socket}
    (hwait : awaitReply r (socketStream out) registered (fuel + 2) s = (.ok (), s₁))
    (hparsed : parsed PeerFrames s₁.1.bytes = .ok (.registerResult .success)) :
    ∃ e, (connectRest d r out (fuel + 2) destinationPeerId ([], s)).1 = .error (.err e) := by
  obtain ⟨buffer, s₁⟩ := s₁
  rw [connectRest, Exec.bind_ok (Exec.onSecond_run [] hwait)]
  rcases peerWrite_cases out (.probe destinationPeerId) s₁ with ⟨_, hrun⟩ | ⟨_, e, s', hrun⟩
  · have hprobe := Exec.onSecond_run ([] : List (IpAddr × ℕ)) (Exec.onSecond_run buffer hrun)
    have hagain : awaitReply r (socketStream out) probed (fuel + 2)
        (buffer, s₁.wrote (RelayFrames.probe destinationPeerId).toBeBytes) = _ :=
      awaitReply_of_parsed hparsed rfl fuel _
    rw [Exec.bind_ok hprobe, Exec.bind_fault (Exec.onSecond_run [] hagain)]
    exact ⟨_, rfl⟩
  · have hprobe := Exec.onSecond_run ([] : List (IpAddr × ℕ)) (Exec.onSecond_run buffer hrun)
    exact ⟨e, by rw [Exec.bind_fault hprobe]⟩

/-- **The handshake ends with an error** when the relay sends anything at all. -/
theorem connectRest_ends (hne : st.elems ≠ []) {fuel : ℕ} (hfuel : st.elems.length + 2 ≤ fuel) :
    ∃ e, (connectRest d r out fuel destinationPeerId ([], (Connection.newBuffer,
      (Socket.fresh st).wrote (RelayFrames.register sourcePeerId).toBeBytes))).1
        = .error (.err e) := by
  rcases hwait : awaitReply r (socketStream out) registered fuel (Connection.newBuffer,
    (Socket.fresh st).wrote (RelayFrames.register sourcePeerId).toBeBytes) with ⟨o, s₁⟩
  obtain ⟨st₁, _, _, hend⟩ := (awaitReply_ensures (r := r) (sendsBehind_readsFrom out _)
    registered fuel Connection.newBuffer _ st (sendsBehind_register sourcePeerId st)).of_run hwait
  cases o with
  | error φ =>
      rw [connectRest, Exec.bind_fault (Exec.onSecond_run [] hwait)]
      match φ, hend with
      | .err e, _ => exact ⟨e, rfl⟩
      | .outOfFuel, .inl hle => omega
      | .outOfFuel, .inr hnil => exact absurd hnil hne
  | ok _ =>
      obtain ⟨f, hparsed, haccept⟩ := hend
      obtain rfl := registered_eq_ok haccept
      obtain ⟨fuel, rfl⟩ := Nat.exists_eq_add_of_le' (le_of_add_le_right hfuel)
      exact connectRest_again hwait hparsed

/-- A relay that closes without a reply is waited for without end. -/
theorem connect_closed (htakes : RegisterTaken out sourcePeerId st) (hnil : st.elems = [])
    (fuel : ℕ) :
    connectEnd d r out sourcePeerId destinationPeerId st fuel = .error .outOfFuel := by
  have hforever := awaitReply_closed (r := r) (sendsBehind_readsFrom out _) registered fuel
    Connection.newBuffer _ st (sendsBehind_register sourcePeerId st) rfl hnil
  rw [connect_registered htakes, connectRest,
    Exec.bind_fault (Exec.onSecond_run [] (Exec.run_eq hforever))]

theorem not_senderReturns (htakes : RegisterTaken out sourcePeerId st) (hnil : st.elems = []) :
    ¬ SenderReturns d r out sourcePeerId destinationPeerId st := by
  intro h
  obtain ⟨n, hreturns⟩ := h.returns
  have hend : connectEnd d r out sourcePeerId destinationPeerId st n = .error .outOfFuel :=
    connect_closed htakes hnil n
  rcases hreturns n le_rfl with ⟨addr, hok⟩ | ⟨e, herr⟩
  · cases hend.symm.trans hok
  · cases hend.symm.trans herr

/-- **When the wait loops end**: exactly when the relay sends a byte before it closes, or the
sender cannot send its Register frame. -/
theorem senderReturns_iff (d : Dialer) (r : Reserve) (out : Outlet)
    (sourcePeerId destinationPeerId : PeerId) (st : SegStream UInt8) :
    SenderReturns d r out sourcePeerId destinationPeerId st ↔
      (RegisterTaken out sourcePeerId st → st.elems ≠ []) := by
  constructor
  · intro h htakes hnil
    exact not_senderReturns htakes hnil h
  · intro h
    have hends : ∀ fuel, st.elems.length + 2 ≤ fuel →
        ∃ e, connectEnd d r out sourcePeerId destinationPeerId st fuel = .error (.err e) := by
      intro fuel hfuel
      by_cases htakes : RegisterTaken out sourcePeerId st
      · rw [connect_registered htakes]
        exact connectRest_ends (h htakes) hfuel
      · exact connect_unregistered htakes fuel
    exact ⟨⟨_, fun fuel hfuel => Or.inr (hends fuel hfuel)⟩, fun _ => ⟨_, hends⟩⟩

end

/-- A relay that closes the connection at once. -/
def silentClose : SegStream UInt8 := ⟨[], by simp⟩

/-- A relay that closes the connection before its first reply keeps the sender waiting. -/
theorem silentClose_keeps_waiting :
    ¬ ∀ (d : Dialer) (r : Reserve) (out : Outlet) (sourcePeerId destinationPeerId : PeerId)
      (st : SegStream UInt8), SenderReturns d r out sourcePeerId destinationPeerId st := by
  intro h
  exact not_senderReturns (Socket.takes_open _ _) rfl
    (h ⟨.error "", fun _ => none⟩ BytesMut.reserve Outlet.open PeerId.zero PeerId.zero silentClose)

end Pcopy.Relay
