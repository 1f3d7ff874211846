import Pcopy.Relay.IncrementalReading
import Pcopy.Relay.Server

/-!
# What a probed peer can do to the prober

`process_probe_frame` writes SYNC to the destination, reads one frame from it and answers the
requester.  What the destination sends is arbitrary, and it closes in the end.

* `probe_replies` — where the bytes of the destination parse, or there are none, one
  `ProbeResult` is written, with information exactly for a ProbeAck;
* `probe_panics` — where they do not parse, the error is unwrapped and the handler panics;
* `probeAnswered_iff` — the two together.
-/

namespace Pcopy.Relay

open Pcopy.Lib

/-! ### What is written on the way -/

namespace Socket

theorem flush_written (out : Outlet) (s : Socket) : (flush out s).2.written = s.written := by
  rw [flush]
  split <;> rfl

/-- A write that fails has put all of the bytes into the buffer, or none. -/
theorem write_written (out : Outlet) (s : Socket) (bytes : List UInt8) :
    ((writeAll out bytes >>= fun _ => flush out) s).2.written = s.written ∨
      ((writeAll out bytes >>= fun _ => flush out) s).2.written = s.written ++ bytes := by
  have hpush : ∀ s' : Socket, s'.written = s.written →
      ((flush out) (s'.onWriter fun b => b.push bytes)).2.written = s.written ++ bytes := by
    intro s' hs'
    rw [flush_written, ← hs']
    rfl
  by_cases hfull : bufWriterCapacity < s.unflushed.length + bytes.length
  · have hflushed := flush_written out s
    rcases hrun : flush out s with ⟨φ | u, s'⟩
    · have hwrite : writeAll out bytes s = (.error φ, s') := by
        rw [writeAll, Exec.get_bind, if_pos hfull, Exec.bind_fault hrun]
      rw [hrun] at hflushed
      rw [Exec.bind_fault hwrite]
      exact Or.inl hflushed
    · have hwrite : writeAll out bytes s = (.ok (), s'.onWriter fun b => b.push bytes) := by
        rw [writeAll, Exec.get_bind, if_pos hfull, Exec.bind_ok hrun]
        rfl
      rw [hrun] at hflushed
      rw [Exec.bind_ok hwrite]
      exact Or.inr (hpush s' hflushed)
  · have hwrite : writeAll out bytes s = (.ok (), s.onWriter fun b => b.push bytes) := by
      rw [writeAll, Exec.get_bind, if_neg hfull]
      rfl
    rw [Exec.bind_ok hwrite]
    exact Or.inr (hpush s rfl)

end Socket

/-- The bytes of a SYNC. -/
def syncBytes : List UInt8 := (PeerFrames.command .sync).toBeBytes

/-- From `w` to `w'` nothing was written on connection `i`, or a SYNC. -/
def World.OnlySync (i : StreamId) (w w' : World) : Prop :=
  (w'.sockets i).written = (w.sockets i).written ∨
    (w'.sockets i).written = (w.sockets i).written ++ syncBytes

section

variable {net : Net} {i j : StreamId} {w : World}

theorem World.onlySync_writeFrame (net : Net) (i j : StreamId) (w : World) :
    World.OnlySync i w
      (writeFrameGivenStream (World.stream net j) (PeerFrames.command .sync) w).2 := by
  have heq : writeFrameGivenStream (World.stream net j) (PeerFrames.command .sync)
      = World.onSocket j (Socket.writeAll (net.outlet j) syncBytes >>= fun _ =>
          Socket.flush (net.outlet j)) := (World.onSocket_bind j _ _).symm
  rw [heq, World.onSocket, World.OnlySync]
  dsimp only
  by_cases hij : i = j
  · subst hij
    rw [Function.update_self]
    exact (w.sockets i).write_written (net.outlet i) syncBytes
  · rw [Function.update_of_ne hij]
    exact Or.inl rfl

@[simp] theorem World.receiving_written (i j : StreamId) (w : World) (st : SegStream UInt8) :
    ((w.receiving j st).sockets i).written = (w.sockets i).written := by
  by_cases hij : i = j
  · subst hij
    simp [World.receiving]
  · simp [World.receiving, Function.update_of_ne hij]

theorem World.wrote_sends {st : SegStream UInt8} (frame : PeerFrames) (h : w.Sends j st) :
    (w.wrote j frame).Sends j st := by
  show ((w.wrote j frame).sockets j).incoming = _
  simp only [World.wrote, Function.update_self, Socket.wrote_incoming]
  exact h

/-! ### The probe -/

variable {fuel : ℕ} {id : PeerId} {st : SegStream UInt8}

/-- The destination is registered, and its socket takes a SYNC. -/
def SyncTaken (net : Net) (id : PeerId) (w : World) : Prop :=
  ∃ md, w.connCache.get id = some md ∧
    (w.sockets md.stream).Takes (net.outlet md.stream) syncBytes

/-- The destination, if it is registered, sends `st` and closes. -/
def DestinationSends (id : PeerId) (w : World) (st : SegStream UInt8) : Prop :=
  ∀ md, w.connCache.get id = some md → w.Sends md.stream st

/-- What the destination sends is nothing, or begins with a frame. -/
def Readable (st : SegStream UInt8) : Prop :=
  st.elems = [] ∨ ∃ f, parsed RelayFrames st.elems = .ok f

/-- How a probe ends: with a ProbeAck read, with an error, or in the panic of an unwrapped
read error. -/
inductive ProbeEnd (net : Net) (id : PeerId) (w : World) (st : SegStream UInt8) :
    Except (Fault IoError) PeerInfo → Prop where
  | acked (info : PeerInfo) : info.peerId = id → SyncTaken net id w →
      parsed RelayFrames st.elems = .ok .probeAck → ProbeEnd net id w st (.ok info)
  | unsent (e : IoError) : ¬ SyncTaken net id w → ProbeEnd net id w st (.error (.err e))
  | unanswered (e : IoError) : Readable st → parsed RelayFrames st.elems ≠ .ok .probeAck →
      ProbeEnd net id w st (.error (.err e))
  | unreadable : SyncTaken net id w → ¬ Readable st →
      ProbeEnd net id w st (.error (.panic unwrapErr))

/-- The reader that a probe starts behind its SYNC. -/
theorem probe_reads (net : Net) {md : PeerConnectionMetadata}
    (honly : World.OnlySync i w (w.wrote md.stream (.command .sync)))
    (hin : w.Sends md.stream st) (hfuel : st.elems.length < fuel) :
    ∃ w₁, Exec.withLocal (BytesMut.withCapacity Server.probeAckLength)
        (readFrameGivenStream (F := RelayFrames) net.reserve (World.stream net md.stream) fuel)
        (w.wrote md.stream (.command .sync)) = (readAll RelayFrames st.elems, w₁) ∧
      World.OnlySync i w w₁ := by
  have hreads := World.stream_readsFrom net md.stream (w.wrote md.stream (.command .sync))
  have hsource := (World.wrote_sends (.command .sync) hin).eq_receiving
  rcases hrun : readFrameGivenStream (F := RelayFrames) net.reserve (World.stream net md.stream)
    fuel (BytesMut.withCapacity Server.probeAckLength, w.wrote md.stream (.command .sync))
    with ⟨o, buffer, w₁⟩
  have hall := readFrame_eq_readAll (r := net.reserve) hreads RelayFrames.steady hsource
    Server.probeAckLength hfuel
  rw [hrun] at hall
  obtain rfl : o = readAll RelayFrames st.elems := hall
  obtain ⟨st₁, rfl, _⟩ := (readFrame_ensures hreads fuel _ hsource).of_run hrun
  refine ⟨_, Exec.withLocal_run hrun, ?_⟩
  rw [World.OnlySync, World.receiving_written]
  exact honly

/-- **Every probe ends in one of these ways**, and has written nothing but its SYNC. -/
theorem probe_ends (net : Net) (i : StreamId) (hin : DestinationSends id w st)
    (hfuel : st.elems.length < fuel) :
    ∃ o w₁, Server.probe net fuel id w = (o, w₁) ∧ ProbeEnd net id w st o ∧
      World.OnlySync i w w₁ := by
  rw [Server.probe, Exec.get_bind]
  cases hget : w.connCache.get id with
  | none =>
      refine ⟨_, w, rfl, ProbeEnd.unsent _ ?_, Or.inl rfl⟩
      rintro ⟨md, hmd, _⟩
      cases hget.symm.trans hmd
  | some md =>
      rcases writeFrame_cases net md.stream (.command .sync) w with
        ⟨htakes, hwrite⟩ | ⟨hnot, e, w₁, hwrite⟩
      · have hsync : SyncTaken net id w := ⟨md, hget, htakes⟩
        have hwritten := World.onlySync_writeFrame net i md.stream w
        rw [hwrite] at hwritten
        obtain ⟨w₁, hread, honly⟩ := probe_reads net hwritten (hin md hget) hfuel
        dsimp only
        rw [Exec.bind_ok hwrite]
        rw [readAll] at hread
        cases hparsed : parsed RelayFrames st.elems with
        | ok f =>
            rw [hparsed] at hread
            rw [Exec.bind_ok (Exec.attempt_ok hread)]
            cases f with
            | probeAck => exact ⟨_, _, rfl, ProbeEnd.acked _ rfl hsync hparsed, honly⟩
            | _ =>
                exact ⟨_, w₁, rfl, ProbeEnd.unanswered _ (Or.inr ⟨_, hparsed⟩) (by simp [hparsed]),
                  honly⟩
        | error φ =>
            obtain ⟨e, rfl⟩ := parsed_fault RelayFrames.steady hparsed
            have hnoFrame : ¬ ∃ f, parsed RelayFrames st.elems = .ok f := by simp [hparsed]
            rw [hparsed] at hread
            cases e with
            | other e =>
                rw [Exec.bind_ok (Exec.attempt_err hread)]
                refine ⟨_, w₁, rfl, ProbeEnd.unreadable hsync ?_, honly⟩
                rintro (hnil | hframe)
                · rw [hnil, parsed_of_short RelayFrames.short_nil] at hparsed
                  cases hparsed
                · exact hnoFrame hframe
            | incomplete =>
                by_cases hnil : st.elems = []
                · simp only [if_pos hnil] at hread
                  rw [Exec.bind_ok (Exec.attempt_ok hread)]
                  exact ⟨_, w₁, rfl, ProbeEnd.unanswered _ (Or.inl hnil) (by simp [hparsed]), honly⟩
                · simp only [if_neg hnil] at hread
                  rw [Exec.bind_ok (Exec.attempt_err hread)]
                  exact ⟨_, w₁, rfl, ProbeEnd.unreadable hsync (not_or.mpr ⟨hnil, hnoFrame⟩),
                    honly⟩
      · have honly := World.onlySync_writeFrame net i md.stream w
        rw [hwrite] at honly
        dsimp only
        rw [Exec.bind_fault hwrite]
        refine ⟨_, w₁, rfl, ProbeEnd.unsent e ?_, honly⟩
        rintro ⟨md', hmd, htakes⟩
        obtain rfl := Option.some.inj (hget.symm.trans hmd)
        exact hnot htakes

/-! ### The handler -/

/-- `process_probe_frame` replies: its run is the write of one `ProbeResult` to the requester,
and before that nothing was written there but a SYNC; the result carries information about the
peer exactly if the first frame behind the SYNC is a ProbeAck. -/
structure RepliesWith (net : Net) (fuel : ℕ) (i : StreamId) (id : PeerId) (w : World)
    (st : SegStream UInt8) (reply : Option PeerInfo) (w₁ : World) : Prop where
  writes : processProbeFrame net fuel i id w
    = RelayConnection.writeFrame (World.stream net i) (.probeResult reply) w₁
  ends : (processProbeFrame net fuel i id w).1 = .ok () ∨
    ∃ e, (processProbeFrame net fuel i id w).1 = .error (.err e)
  before : World.OnlySync i w w₁
  acked : (∃ info, reply = some info) ↔
    SyncTaken net id w ∧ parsed RelayFrames st.elems = .ok .probeAck
  named : ∀ info, reply = some info → info.peerId = id

/-- The prober gets its answer, given enough turns of the reader. -/
def ProbeAnswered (net : Net) (i : StreamId) (id : PeerId) (w : World) (st : SegStream UInt8) :
    Prop :=
  ∃ n, ∀ fuel, n ≤ fuel → ∃ reply w₁, RepliesWith net fuel i id w st reply w₁

/-- Whatever a probe returns goes into the reply. -/
theorem repliesWith_of_run {reply : Option PeerInfo} {w₁ : World}
    (hwrites : processProbeFrame net fuel i id w
      = RelayConnection.writeFrame (World.stream net i) (.probeResult reply) w₁)
    (honly : World.OnlySync i w w₁)
    (hacked : (∃ info, reply = some info) ↔
      SyncTaken net id w ∧ parsed RelayFrames st.elems = .ok .probeAck)
    (hnamed : ∀ info, reply = some info → info.peerId = id) :
    RepliesWith net fuel i id w st reply w₁ := by
  refine ⟨hwrites, ?_, honly, hacked, hnamed⟩
  rw [hwrites, RelayConnection.writeFrame]
  rcases writeFrame_cases net i (.probeResult reply) w₁ with ⟨_, hrun⟩ | ⟨_, e, w', hrun⟩
  · exact Or.inl (by rw [hrun])
  · exact Or.inr ⟨e, by rw [hrun]⟩

/-- A destination that cannot be told, or whose bytes can be read, gets the prober its
answer. -/
theorem probe_replies (hin : DestinationSends id w st) (hfuel : st.elems.length < fuel)
    (hreadable : SyncTaken net id w → Readable st) :
    ∃ reply w₁, RepliesWith net fuel i id w st reply w₁ := by
  obtain ⟨o, w₁, hrun, hend, honly⟩ := probe_ends net i hin hfuel
  have hnothing : ¬ (SyncTaken net id w ∧ parsed RelayFrames st.elems = .ok .probeAck) →
      ((∃ info, (none : Option PeerInfo) = some info) ↔
        SyncTaken net id w ∧ parsed RelayFrames st.elems = .ok .probeAck) :=
    fun hnot => ⟨nofun, fun h => absurd h hnot⟩
  cases hend with
  | acked info hid hsync hparsed =>
      refine ⟨some info, w₁, repliesWith_of_run ?_ honly ⟨fun _ => ⟨hsync, hparsed⟩,
        fun _ => ⟨info, rfl⟩⟩ ?_⟩
      · rw [processProbeFrame, Exec.bind_ok (Exec.attempt_ok hrun)]
      · intro info' h
        rw [← Option.some.inj h]
        exact hid
  | unsent e hnot =>
      refine ⟨none, w₁, repliesWith_of_run ?_ honly (hnothing fun h => hnot h.1) nofun⟩
      rw [processProbeFrame, Exec.bind_ok (Exec.attempt_err hrun)]
  | unanswered e _ hnot =>
      refine ⟨none, w₁, repliesWith_of_run ?_ honly (hnothing fun h => hnot h.2) nofun⟩
      rw [processProbeFrame, Exec.bind_ok (Exec.attempt_err hrun)]
  | unreadable hsync hnot => exact absurd (hreadable hsync) hnot

/-- Bytes of the destination that do not parse break the prober. -/
theorem probe_panics (hin : DestinationSends id w st) (hfuel : st.elems.length < fuel)
    (hsync : SyncTaken net id w) (hnot : ¬ Readable st) :
    (processProbeFrame net fuel i id w).1 = .error (.panic unwrapErr) := by
  obtain ⟨o, w₁, hrun, hend, _⟩ := probe_ends net i hin hfuel
  cases hend with
  | acked info _ _ hparsed => exact absurd (Or.inr ⟨_, hparsed⟩) hnot
  | unsent e hunsent => exact absurd hsync hunsent
  | unanswered e hreadable _ => exact absurd hreadable hnot
  | unreadable _ _ => rw [processProbeFrame, Exec.bind_fault (Exec.attempt_panic hrun)]

theorem not_answered (hin : DestinationSends id w st) (hsync : SyncTaken net id w)
    (hnot : ¬ Readable st) : ¬ ProbeAnswered net i id w st := by
  rintro ⟨n, hanswered⟩
  obtain ⟨reply, w₁, hreply⟩ := hanswered (max n (st.elems.length + 1)) (le_max_left _ _)
  have hpanic := probe_panics (i := i) hin (Nat.lt_of_succ_le (le_max_right n _)) hsync hnot
  rcases hreply.ends with hok | ⟨e, herr⟩
  · cases hpanic.symm.trans hok
  · cases hpanic.symm.trans herr

/-- **When a probed peer cannot break the prober**: exactly when it is not registered, or
cannot be sent a SYNC, or closes without a byte, or sends bytes that begin with a frame. -/
theorem probeAnswered_iff (hin : DestinationSends id w st) :
    ProbeAnswered net i id w st ↔ (SyncTaken net id w → Readable st) := by
  constructor
  · intro hanswered hsync
    by_contra hnot
    exact not_answered hin hsync hnot hanswered
  · intro hreadable
    exact ⟨st.elems.length + 1, fun fuel hfuel => probe_replies hin hfuel hreadable⟩

end

/-- A relay at which the peer `0` is registered with its connection `1`, on which it sends
`st`. -/
def World.withPeer (st : SegStream UInt8) : World :=
  { World.new st with
    connCache := ((Cache.new : Cache PeerId PeerConnectionMetadata).insert PeerId.zero
      ⟨1, localAddress⟩).2 }

theorem World.withPeer_sends (st : SegStream UInt8) :
    DestinationSends PeerId.zero (World.withPeer st) st := fun _ _ => rfl

/-- An operation that the relay does not know. -/
def unknownOperation : SegStream UInt8 := SegStream.single [9] (by decide)

theorem probeAnswered_iff_unknownOperation :
    ProbeAnswered Net.open 0 PeerId.zero (World.withPeer unknownOperation) unknownOperation ↔
      (SyncTaken Net.open PeerId.zero (World.withPeer unknownOperation) →
        Readable unknownOperation) :=
  probeAnswered_iff (World.withPeer_sends unknownOperation)

/-- A peer that answers the SYNC with a byte that is no operation makes the task of the prober
panic. -/
theorem unknownOperation_breaks_prober :
    ¬ ∀ (net : Net) (i : StreamId) (id : PeerId) (w : World) (st : SegStream UInt8),
      DestinationSends id w st → ProbeAnswered net i id w st := by
  intro h
  have hopen : Net.open.Writable 1 := fun _ _ => rfl
  have hrefused : parsed RelayFrames unknownOperation.elems
      = .error (.err (.other ⟨.invalidInput, "Receiving Operation not supported"⟩)) := rfl
  refine not_answered (World.withPeer_sends unknownOperation)
    ⟨⟨1, localAddress⟩, Cache.get_insert_self _ _ _, hopen.takes _ _⟩ ?_
    (h Net.open 0 PeerId.zero (World.withPeer unknownOperation) unknownOperation
      (World.withPeer_sends unknownOperation))
  rintro (hnil | ⟨f, hf⟩)
  · cases hnil
  · cases hrefused.symm.trans hf

end Pcopy.Relay
