import Pcopy.Relay.BufWriter
import Pcopy.Relay.FrameHelper

/-!
# Connections: a socket behind a write buffer, and the frames on it

`BufWriter` around a socket, `RelayConnection` for the relay's end of it and
`PeerConnection` for the peer's.

* `Socket.write_cases` — bytes are written and sent whole where the socket takes them;
* `socketStream_readsFrom` — what the other side sends as a finite stream is read as such.
-/

namespace Pcopy.Relay

open Pcopy.Lib

/-! ### A socket -/

/-- A socket behind its `BufWriter`, and what the other side sends on it. -/
structure Socket extends BufWriter where
  incoming : Feed UInt8

/-- How a socket takes what is flushed to it, by what was sent on it before and what is
offered: everything, or so many bytes and an error. -/
abbrev Outlet : Type := List UInt8 → List UInt8 → Option (ℕ × IoError)

namespace Socket

/-- A socket whose other side sends a finite stream and closes. -/
def fresh (st : SegStream UInt8) : Socket := ⟨BufWriter.new, Feed.ofStream st⟩

/-- The socket with its `BufWriter` changed. -/
def onWriter (f : BufWriter → BufWriter) (s : Socket) : Socket :=
  { s with toBufWriter := f s.toBufWriter }

/-- `AsyncReadExt::read_buf` with so much room in the buffer.  It gets bytes or finds the end:
writes may fail here, by the `Outlet`, but no read does, so a peer that resets its connection is
not one of the peers described. -/
def readBuf (room : ℕ) : Exec IoError Socket (List UInt8) := fun s =>
  (.ok (s.incoming.read room).1, { s with incoming := (s.incoming.read room).2 })

/-- `BufWriter::flush`. -/
def flush (out : Outlet) : Exec IoError Socket Unit := fun s =>
  match out s.sent s.unflushed with
  | none => (.ok (), s.onWriter BufWriter.drained)
  | some (n, e) => (.error (.err e), s.onWriter fun b => b.advance n)

/-- `BufWriter::write_all`, of less than the capacity: what is in the way is flushed first. -/
def writeAll (out : Outlet) (bytes : List UInt8) : Exec IoError Socket Unit := do
  let s ← Exec.get
  if bufWriterCapacity < s.unflushed.length + bytes.length then flush out else pure ()
  Exec.modify fun s => s.onWriter fun b => b.push bytes

/-! ### What a write does -/

/-- All of `bytes` is written and sent. -/
def wrote (s : Socket) (bytes : List UInt8) : Socket := s.onWriter fun b => (b.push bytes).drained

@[simp] theorem wrote_sent (s : Socket) (bytes : List UInt8) :
    (s.wrote bytes).sent = s.written ++ bytes := by simp [wrote, onWriter]

@[simp] theorem wrote_written (s : Socket) (bytes : List UInt8) :
    (s.wrote bytes).written = s.written ++ bytes := rfl

@[simp] theorem wrote_incoming (s : Socket) (bytes : List UInt8) :
    (s.wrote bytes).incoming = s.incoming := rfl

@[simp] theorem fresh_written (st : SegStream UInt8) : (fresh st).written = [] := rfl

/-- The socket takes the bytes that are written to it. -/
def Takes (out : Outlet) (s : Socket) (bytes : List UInt8) : Prop :=
  if bufWriterCapacity < s.unflushed.length + bytes.length then
    out s.sent s.unflushed = none ∧ out s.written bytes = none
  else out s.sent (s.unflushed ++ bytes) = none

theorem flush_cases (out : Outlet) (s : Socket) :
    out s.sent s.unflushed = none ∧ flush out s = (.ok (), s.onWriter BufWriter.drained) ∨
      out s.sent s.unflushed ≠ none ∧ ∃ e s', flush out s = (.error (.err e), s') := by
  cases hout : out s.sent s.unflushed with
  | none => exact Or.inl ⟨rfl, by rw [flush, hout]⟩
  | some r => exact Or.inr ⟨by simp, r.2, s.onWriter fun b => b.advance r.1, by rw [flush, hout]⟩

/-- Writing and flushing sends everything, or fails. -/
theorem write_cases (out : Outlet) (s : Socket) (bytes : List UInt8) :
    Takes out s bytes ∧
        (writeAll out bytes >>= fun _ => flush out) s = (.ok (), s.wrote bytes) ∨
      ¬ Takes out s bytes ∧
        ∃ e s', (writeAll out bytes >>= fun _ => flush out) s = (.error (.err e), s') := by
  by_cases hfull : bufWriterCapacity < s.unflushed.length + bytes.length
  · rw [Takes, if_pos hfull]
    rcases flush_cases out s with ⟨hout, hrun⟩ | ⟨hout, e, s', hrun⟩
    · have hwrite : writeAll out bytes s
          = (.ok (), s.onWriter fun b => b.drained.push bytes) := by
        rw [writeAll, Exec.get_bind, if_pos hfull, Exec.bind_ok hrun]
        rfl
      have hsent : (s.onWriter fun b => b.drained.push bytes).sent = s.written := by
        simp [onWriter]
      have hleft : (s.onWriter fun b => b.drained.push bytes).unflushed = bytes := by
        simp [onWriter]
      rcases flush_cases out (s.onWriter fun b => b.drained.push bytes) with
        ⟨hout', hrun'⟩ | ⟨hout', e, s', hrun'⟩
      · rw [hsent, hleft] at hout'
        exact Or.inl ⟨⟨hout, hout'⟩, by rw [Exec.bind_ok hwrite, hrun']; rfl⟩
      · rw [hsent, hleft] at hout'
        exact Or.inr ⟨fun h => hout' h.2, e, s', by rw [Exec.bind_ok hwrite, hrun']⟩
    · have hwrite : writeAll out bytes s = (.error (.err e), s') := by
        rw [writeAll, Exec.get_bind, if_pos hfull, Exec.bind_fault hrun]
      exact Or.inr ⟨fun h => hout h.1, e, s', by rw [Exec.bind_fault hwrite]⟩
  · rw [Takes, if_neg hfull]
    have hwrite : writeAll out bytes s = (.ok (), s.onWriter fun b => b.push bytes) := by
      rw [writeAll, Exec.get_bind, if_neg hfull]
      rfl
    have hsent : (s.onWriter fun b => b.push bytes).sent = s.sent := by simp [onWriter]
    have hleft : (s.onWriter fun b => b.push bytes).unflushed = s.unflushed ++ bytes := by
      simp [onWriter]
    rcases flush_cases out (s.onWriter fun b => b.push bytes) with
      ⟨hout, hrun⟩ | ⟨hout, e, s', hrun⟩
    · rw [hsent, hleft] at hout
      exact Or.inl ⟨hout, by rw [Exec.bind_ok hwrite, hrun]; rfl⟩
    · rw [hsent, hleft] at hout
      exact Or.inr ⟨hout, e, s', by rw [Exec.bind_ok hwrite, hrun]⟩

end Socket

/-- A socket as a stream. -/
def socketStream (out : Outlet) : AsyncStream Socket :=
  ⟨Socket.readBuf, Socket.writeAll out, Socket.flush out⟩

/-- The other side of the socket still sends `st`. -/
def Sends (s : Socket) (st : SegStream UInt8) : Prop := s.incoming = Feed.ofStream st

theorem socketStream_readsFrom (out : Outlet) : ReadsFrom (socketStream out) Sends := by
  intro room s st hs
  refine ⟨{ s with incoming := Feed.ofStream (st.read room).2 }, ?_, rfl⟩
  show Socket.readBuf room s = _
  rw [Socket.readBuf, show s.incoming = _ from hs, Feed.read_ofStream]

/-! ### Connections -/

section

variable {σ : Type}

/-- The buffer of a new connection, at either end. -/
def Connection.newBuffer : BytesMut := BytesMut.withCapacity 1024

/-- `RelayConnection::read_frame`. -/
def RelayConnection.readFrame (r : Reserve) (stream : AsyncStream σ) (fuel : ℕ) :
    Exec IoError (BytesMut × σ) (Option RelayFrames) :=
  readFrameGivenStream r stream fuel

/-- `RelayConnection::write_frame`. -/
def RelayConnection.writeFrame (stream : AsyncStream σ) (frame : PeerFrames) :
    Exec IoError σ Unit :=
  writeFrameGivenStream stream frame

/-- `PeerConnection::read_frame`. -/
def PeerConnection.readFrame (r : Reserve) (stream : AsyncStream σ) (fuel : ℕ) :
    Exec IoError (BytesMut × σ) (Option PeerFrames) :=
  readFrameGivenStream r stream fuel

/-- `PeerConnection::write_frame`. -/
def PeerConnection.writeFrame (stream : AsyncStream σ) (frame : RelayFrames) :
    Exec IoError σ Unit :=
  writeFrameGivenStream stream frame

end

end Pcopy.Relay
