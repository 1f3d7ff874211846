import Pcopy.FileSystem
import Pcopy.Lib.BigEndian
import Pcopy.Lib.SegmentedStream

/-!
# What a connection task of the server can do

The state of one task spawned by `Server::run`: the socket it reads, the bytes it has sent
back, its receive buffer, and the file system.  The indexes `start_index` and `end_index`
are arguments and results of the functions, as in the source.

`crc32fast` and the count that one `File::write` accepts are code outside the repository
and enter as `Host`.  Two logs record what the statements are about and are never read by
the code: `effects`, the calls that reach the file system, and `rooms`, the free space
with which each read of the socket was issued.

Arithmetic on `usize` and `u32` is that of a build with overflow checks: a subtraction
that would go below zero panics.
-/

namespace Pcopy.Server

open Pcopy.Lib Pcopy.Path

/-- The code outside the repository that the server relies on.  `crc initial bytes` is what
`finalize` returns for a hasher started at `initial` and fed `bytes` in any pieces;
`accept n` is how many bytes of a slice of length `n` one `File::write` takes. -/
structure Host where
  crc : UInt32 → List UInt8 → UInt32
  crc_nil : ∀ v, crc v [] = v
  accept : ℕ → ℕ
  accept_le : ∀ n, accept n ≤ n

/-- `File::write` takes the whole slice. -/
def Host.FullWrites (host : Host) : Prop := ∀ n, host.accept n = n

/-- The calls of a task that reach the file system: `fs::create_dir_all` (whether or not it
succeeds), and the creations and writes of files that took place. -/
inductive Effect where
  | createDirAll : List Component → Effect
  | create : PathBytes → Effect
  | write : FileHandle → List UInt8 → Effect
  deriving DecidableEq, Repr

/-- The state of a connection task. -/
structure ServerState where
  socket : SegStream UInt8
  reply : List UInt8
  buf : List UInt8
  disk : FileSystem
  effects : List Effect
  rooms : List ℕ

/-- A step of a connection task. -/
abbrev Task (α : Type) := Exec IoError ServerState α

/-- `BufferState`: how far the buffer is processed, and how far it is filled. -/
structure BufferState where
  startIndex : ℕ
  endIndex : ℕ
  deriving DecidableEq, Repr

/-! ### Arithmetic and slices -/

/-- A subtraction of unsigned numbers in a build with overflow checks. -/
def checkedSub (a b : ℕ) : Task ℕ :=
  if b ≤ a then pure (a - b) else Exec.unwind "attempt to subtract with overflow"

/-- `&buf[a..b]`. -/
def slice (a b : ℕ) : Task (List UInt8) := fun s =>
  if a ≤ b ∧ b ≤ s.buf.length then (.ok (window s.buf a b), s)
  else (.error (.panic "range out of range for slice"), s)

/-- `n as u32`. -/
def asU32 (n : ℕ) : ℕ := n % 2 ^ 32

/-! ### `crc32fast::Hasher` -/

/-- A hasher: where it started and what it was fed. -/
structure Hasher where
  initial : UInt32
  fed : List UInt8
  deriving DecidableEq, Repr

/-- `Hasher::new_with_initial`. -/
def Hasher.newWithInitial (v : UInt32) : Hasher := ⟨v, []⟩

/-- `Hasher::new`. -/
def Hasher.new : Hasher := Hasher.newWithInitial 0

/-- `Hasher::update`. -/
def Hasher.update (h : Hasher) (bytes : List UInt8) : Hasher := { h with fed := h.fed ++ bytes }

/-- `Hasher::finalize`. -/
def Hasher.finalize (host : Host) (h : Hasher) : UInt32 := host.crc h.initial h.fed

/-- The CRC-32 of a byte string. -/
def crc32 (host : Host) (bytes : List UInt8) : UInt32 := host.crc 0 bytes

/-- A checksum as it stands on the wire. -/
def checksumBytes (host : Host) (bytes : List UInt8) : List UInt8 :=
  BigEndian.toBytes 4 (crc32 host bytes).toNat

@[simp] theorem checksumBytes_length (host : Host) (bytes : List UInt8) :
    (checksumBytes host bytes).length = 4 := BigEndian.toBytes_length _ _

/-! ### Reading the socket -/

/-- `ReadFromStream::read_data` of a `TcpStream`: read into `&mut buf[start_index..]`. -/
def readData (startIndex : ℕ) : Task ℕ := fun s =>
  if startIndex ≤ s.buf.length then
    let r := s.socket.read (s.buf.length - startIndex)
    (.ok r.1.length,
      { s with
        socket := r.2
        buf := overwrite s.buf startIndex r.1
        rooms := s.rooms ++ [s.buf.length - startIndex] })
  else (.error (.panic "range start index out of range for slice"), s)

/-- The read loops of the length, path and checksum fields are this one: read behind
`end_index` until `need` bytes stand between `start_index` and `end_index`, or fail with
`eof have` when a read returns nothing while `have` bytes are there. -/
def readUntilFuel (need : ℕ) (eof : ℕ → IoError) : ℕ → ℕ → ℕ → Task ℕ
  | 0, _, _ => Exec.outOfFuel
  | fuel + 1, endIndex, startIndex => do
    let available ← checkedSub endIndex startIndex
    if available < need then
      let n ← readData endIndex
      if n = 0 then Exec.fail (eof available)
      else readUntilFuel need eof fuel (endIndex + n) startIndex
    else pure endIndex

/-- The read loop with a turn for every byte the socket can still deliver, and one more. -/
def readUntil (need : ℕ) (eof : ℕ → IoError) (endIndex startIndex : ℕ) : Task ℕ := fun s =>
  readUntilFuel need eof (s.socket.elems.length + 1) endIndex startIndex s

/-! ### File operations -/

/-- `fs::create_dir_all`. -/
def createDirAll (dir : List Component) : Task Unit := fun s =>
  let s₁ := { s with effects := s.effects ++ [Effect.createDirAll dir] }
  match s.disk.createDirAll dir with
  | (.ok (), disk) => (.ok (), { s₁ with disk := disk })
  | (.error e, disk) => (.error (.err e), { s₁ with disk := disk })

/-- `File::create`. -/
def createFile (p : PathBytes) : Task FileHandle := fun s =>
  match s.disk.create p with
  | (.ok file, disk) => (.ok file, { s with disk := disk, effects := s.effects ++ [Effect.create p] })
  | (.error e, disk) => (.error (.err e), { s with disk := disk })

/-- `File::write_all` on an open file. -/
def writeAll (file : FileHandle) (data : List UInt8) : Task FileHandle := fun s =>
  (.ok (file.advance data.length),
    { s with disk := s.disk.write file data, effects := s.effects ++ [Effect.write file data] })

/-- `File::write` on an open file: the count it took, which may be short. -/
def writeSome (host : Host) (file : FileHandle) (data : List UInt8) :
    Task (ℕ × FileHandle) := do
  let file ← writeAll file (data.take (host.accept data.length))
  pure (host.accept data.length, file)

/-- `AsyncWriteExt::write_all` on the socket. -/
def sendReply (bytes : List UInt8) : Task Unit :=
  Exec.modify fun s => { s with reply := s.reply ++ bytes }

end Pcopy.Server
