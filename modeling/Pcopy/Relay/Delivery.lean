import Pcopy.Relay.Connection

/-!
# Whether the frames on a stream are delivered

The reader of frames never takes from its buffer the frame it has returned.  So the first
frame of a connection is the only one that is ever read, and every further read returns it.

* `successive_first` — successive reads return nothing but the first frame;
* `frames_delivered_iff` — the frames that were sent arrive, each once and in order, only
  where none was sent.
-/

namespace Pcopy.Relay

open Pcopy.Lib

/-! ### Successive reads -/

/-- `n` calls of `read`, one after the other, and what they return. -/
def successive {ε σ α : Type} (read : Exec ε σ α) : ℕ → Exec ε σ (List α)
  | 0 => pure []
  | n + 1 => do
      let first ← read
      let rest ← successive read n
      pure (first :: rest)

/-- The frames arrive: so many successive reads of a new connection return them in order,
and one more finds the end of the stream. -/
def Delivered {F : Type} (readFrame : ℕ → Exec IoError (BytesMut × Socket) (Option F))
    (st : SegStream UInt8) (frames : List F) : Prop :=
  ∃ fuel s', successive (readFrame fuel) (frames.length + 1)
    (Connection.newBuffer, Socket.fresh st) = (.ok (frames.map some ++ [none]), s')

section

variable {F : Type} [Frame F] {r : Reserve} {out : Outlet}

/-- Reads of a buffer that holds a frame all return it. -/
theorem successive_of_parsed {buffer : BytesMut} {f : F} (h : parsed F buffer.bytes = .ok f)
    (fuel n : ℕ) (s : Socket) :
    successive (readFrameGivenStream r (socketStream out) (fuel + 1)) n (buffer, s)
      = (.ok (List.replicate n (some f)), (buffer, s)) := by
  induction n with
  | zero => rfl
  | succ n ih =>
      rw [successive, Exec.bind_ok (readFrame_of_parsed h fuel s), Exec.bind_ok ih,
        Exec.pure_run, List.replicate_succ]

/-- Successive reads of a stream that starts with a frame return nothing but that frame. -/
theorem successive_first {bytes rest : List UInt8} {f : F} {st : SegStream UInt8}
    (h : Delimits (Frame.parse : Parser F) bytes f) (hst : st.elems = bytes ++ rest)
    {fuel n : ℕ} {results : List (Option F)} {s' : BytesMut × Socket}
    (hrun : successive (readFrameGivenStream r (socketStream out) fuel) n
      (Connection.newBuffer, Socket.fresh st) = (.ok results, s')) :
    results = List.replicate n (some f) := by
  cases n with
  | zero =>
      rw [successive, Exec.pure_run, Prod.mk.injEq] at hrun
      exact (Except.ok.inj hrun.1).symm
  | succ n =>
      rw [successive, Exec.bind_eq_ok] at hrun
      obtain ⟨first, s₁, hread, hrun⟩ := hrun
      obtain ⟨others, s₂, hothers, hpure⟩ := Exec.bind_eq_ok.mp hrun
      have hfirst := (readFrame_first (socketStream_readsFrom out) h
        (rfl : Sends (Socket.fresh st) st) hst 1024 fuel).of_run hread
      rcases hfirst with ⟨hfuel, _⟩ | ⟨hok, hparsed, _⟩
      · cases hfuel
      · obtain ⟨buffer, s₁⟩ := s₁
        cases fuel with
        | zero => cases hread
        | succ fuel =>
            rw [successive_of_parsed hparsed, Prod.mk.injEq] at hothers
            rw [Exec.pure_run, Prod.mk.injEq] at hpure
            rw [← Except.ok.inj hpure.1, ← Except.ok.inj hothers.1, Except.ok.inj hok,
              List.replicate_succ]

/-- **Only nothing is delivered.**  The second read of a connection returns the first frame
again, so that frames that were sent are delivered only where there are none. -/
theorem delivered_iff_nil {frames : List F} {st : SegStream UInt8}
    (hframes : ∀ f ∈ frames, Delimits (Frame.parse : Parser F) (Frame.toBeBytes f) f)
    (hnil : Short (Frame.parse : Parser F) [])
    (hst : st.elems = frames.flatMap Frame.toBeBytes) :
    Delivered (readFrameGivenStream (F := F) r (socketStream out)) st frames ↔ frames = [] := by
  constructor
  · intro h
    obtain ⟨fuel, s', hrun⟩ := h
    cases frames with
    | nil => rfl
    | cons f fs =>
        rw [List.flatMap_cons] at hst
        have hall := successive_first (hframes f List.mem_cons_self) hst hrun
        have hlast := congrArg List.getLast? hall
        rw [List.getLast?_append, List.getLast?_replicate] at hlast
        simp at hlast
  · intro h
    subst h
    have hclosed : (readFrameGivenStream (F := F) r (socketStream out) 1
        (Connection.newBuffer, Socket.fresh st)).1 = .ok none :=
      (readFrame_closed (socketStream_readsFrom out) hnil
        (rfl : Sends (Socket.fresh st) st) hst 1024 Nat.one_pos).1
    refine ⟨1, (readFrameGivenStream (F := F) r (socketStream out) 1
      (Connection.newBuffer, Socket.fresh st)).2, ?_⟩
    rw [List.length_nil, successive, Exec.bind_ok (Exec.run_eq hclosed), successive,
      Exec.pure_bind, Exec.pure_run]
    rfl

end

/-! ### Both ends of a connection -/

/-- A `PeerFrames` that its encoding does not change: IPv4 addresses, no identifier, and a
round trip time of whole milliseconds that fits a `u64`. -/
def PeerFrames.Plain : PeerFrames → Prop
  | .probeResult (some peerInfo) =>
      peerInfo.peerId = PeerId.zero ∧ (∃ ip, peerInfo.ip = .v4 ip) ∧
        ∃ ms < 2 ^ 64, peerInfo.pingRtt = Duration.fromMillis ms
  | .command (.doConnect sourceIp) => ∃ ip, sourceIp = .v4 ip
  | _ => True

theorem Duration.asMillis_fromMillis {ms : ℕ} (h : ms < 2 ^ 64) :
    (Duration.fromMillis ms).asMillis = ms := by
  simp only [Duration.asMillis, Duration.fromMillis]
  omega

theorem PeerFrames.Plain.delimits {f : PeerFrames} (h : f.Plain) :
    Delimits PeerFrames.parse f.toBeBytes f := by
  match f, h with
  | .registerResult status, _ => exact PeerFrames.delimits (.registerResult status) trivial
  | .probeResult none, _ => exact PeerFrames.delimits (.probeResult none) trivial
  | .probeResult (some ⟨id, ip, rtt⟩), ⟨hid, _, ms, hms, hrtt⟩ =>
      have hwire : PeerFrames.onWire (.probeResult (some ⟨id, ip, rtt⟩))
          = .probeResult (some ⟨id, ip, rtt⟩) := by
        simp only at hid hrtt
        rw [PeerFrames.onWire, PeerInfo.onWire, hid, hrtt, Duration.asMillis_fromMillis hms]
      have hdelim := PeerFrames.delimits (.probeResult (some ⟨id, ip, rtt⟩)) trivial
      rwa [hwire] at hdelim
  | .doConnectResult status, _ => exact PeerFrames.delimits (.doConnectResult status) trivial
  | .pingResult health, _ => exact PeerFrames.delimits (.pingResult health) trivial
  | .command .sync, _ => exact PeerFrames.delimits (.command .sync) trivial
  | .command (.doConnect _), ⟨ip, rfl⟩ =>
      exact PeerFrames.delimits (.command (.doConnect (.v4 ip))) trivial

/-- **Frames arrive only where there are none.**  At the relay's end and at the peer's end of
a connection alike, whatever the frames and the segments they come in. -/
theorem frames_delivered_iff (r : Reserve) (out : Outlet) (st : SegStream UInt8) :
    (∀ frames : List RelayFrames, st.elems = frames.flatMap RelayFrames.toBeBytes →
      (Delivered (RelayConnection.readFrame r (socketStream out)) st frames ↔ frames = [])) ∧
    ∀ frames : List PeerFrames, (∀ f ∈ frames, f.Plain) →
      st.elems = frames.flatMap PeerFrames.toBeBytes →
        (Delivered (PeerConnection.readFrame r (socketStream out)) st frames ↔ frames = []) := by
  constructor
  · intro frames hst
    exact delivered_iff_nil (fun f _ => f.delimits) RelayFrames.short_nil hst
  · intro frames hplain hst
    exact delivered_iff_nil (fun f hf => (hplain f hf).delimits) PeerFrames.short_nil hst

/-- A single Ping, and a single SYNC command at the other end, are not delivered. -/
theorem frames_delivered_iff_single :
    (Delivered (RelayConnection.readFrame BytesMut.reserve (socketStream fun _ _ => none))
      (SegStream.single [4] (by simp)) [.ping] ↔ [RelayFrames.ping] = []) ∧
    (Delivered (PeerConnection.readFrame BytesMut.reserve (socketStream fun _ _ => none))
      (SegStream.single [25, 100] (by simp)) [.command .sync] ↔
        [PeerFrames.command .sync] = []) :=
  ⟨(frames_delivered_iff BytesMut.reserve (fun _ _ => none) _).1 [.ping] (by decide),
    (frames_delivered_iff BytesMut.reserve (fun _ _ => none) _).2 [.command .sync]
      (by simp [PeerFrames.Plain]) (by decide)⟩

/-- Two Pings in one segment are sent, and the first is returned by all three reads. -/
theorem two_pings_read_three_times :
    (successive (RelayConnection.readFrame BytesMut.reserve (socketStream fun _ _ => none) 2) 3
        (Connection.newBuffer, Socket.fresh (SegStream.single [4, 4] (by simp)))).1
      = .ok [some .ping, some .ping, some .ping] ∧
    ¬ Delivered (RelayConnection.readFrame BytesMut.reserve (socketStream fun _ _ => none))
      (SegStream.single [4, 4] (by simp)) [.ping, .ping] := by
  refine ⟨by decide +kernel, ?_⟩
  intro h
  have hnil := (delivered_iff_nil (F := RelayFrames) (fun f _ => f.delimits)
    RelayFrames.short_nil (by decide)).mp h
  cases hnil

end Pcopy.Relay
