import Mathlib.Order.MinMax
import Mathlib.Order.Nat

/-!
# A write buffer in front of a socket

`BufWriter`, by the bytes that were given to it and how many of them the socket has taken.
-/

namespace Pcopy.Relay

/-- `BufWriter`: all bytes that were given to `write_all`, and how many of them the socket has
taken. -/
structure BufWriter where
  written : List UInt8
  flushed : ℕ
  flushed_le : flushed ≤ written.length

/-- The capacity of a `BufWriter`. -/
def bufWriterCapacity : ℕ := 8192

namespace BufWriter

/-- A `BufWriter` that nothing was written to. -/
def new : BufWriter := ⟨[], 0, le_rfl⟩

/-- What the other side is sent. -/
def sent (b : BufWriter) : List UInt8 := b.written.take b.flushed

/-- What is still in the buffer. -/
def unflushed (b : BufWriter) : List UInt8 := b.written.drop b.flushed

/-- `n` more bytes are sent, or all that are there. -/
def advance (b : BufWriter) (n : ℕ) : BufWriter :=
  ⟨b.written, min (b.flushed + n) b.written.length, min_le_right _ _⟩

/-- All bytes are sent. -/
def drained (b : BufWriter) : BufWriter := ⟨b.written, b.written.length, le_rfl⟩

/-- `bytes` are put into the buffer. -/
def push (b : BufWriter) (bytes : List UInt8) : BufWriter :=
  ⟨b.written ++ bytes, b.flushed, by
    have h := b.flushed_le
    rw [List.length_append]
    omega⟩

@[simp] theorem push_written (b : BufWriter) (bytes : List UInt8) :
    (b.push bytes).written = b.written ++ bytes := rfl

@[simp] theorem drained_written (b : BufWriter) : b.drained.written = b.written := rfl

@[simp] theorem advance_written (b : BufWriter) (n : ℕ) : (b.advance n).written = b.written := rfl

@[simp] theorem push_sent (b : BufWriter) (bytes : List UInt8) : (b.push bytes).sent = b.sent := by
  rw [sent, push, List.take_append_of_le_length b.flushed_le, sent]

@[simp] theorem push_unflushed (b : BufWriter) (bytes : List UInt8) :
    (b.push bytes).unflushed = b.unflushed ++ bytes := by
  rw [unflushed, push, List.drop_append_of_le_length b.flushed_le, unflushed]

@[simp] theorem drained_sent (b : BufWriter) : b.drained.sent = b.written := List.take_length

@[simp] theorem drained_unflushed (b : BufWriter) : b.drained.unflushed = [] := List.drop_length

end BufWriter

end Pcopy.Relay
