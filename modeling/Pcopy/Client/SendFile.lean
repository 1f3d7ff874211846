import Pcopy.Server.SaveSoundness

/-!
# `Client::send_file`

The client opens a connection for each file and writes one save request to it: the fields
and the first data from one buffer of 1024 bytes, the rest of the data from the same
buffer, read by read, and the checksum of what it read.

The state of a job is the file that is still to be read, its length as `metadata` reports
it, and the bytes written to the socket.  Opening the file and the connection, and the
writes to the socket, are taken to succeed.

* `sendFile_emits` — what is on the wire in the end, whatever the reads of the file return;
* `sendFile_emits_iff` — and that this is so exactly for the fields that fit into the buffer.
-/

namespace Pcopy.Client

open Pcopy.Lib Pcopy.Path Pcopy.Server

/-- The state of one `send_file`. -/
structure ClientState where
  file : SegStream UInt8
  fileLength : ℕ
  wire : List UInt8

/-- A step of the client. -/
abbrev Job (α : Type) := Exec IoError ClientState α

/-- `File::read` into a slice of `room` bytes. -/
def readFile (room : ℕ) : Job (List UInt8) := fun s =>
  (.ok (s.file.read room).1, { s with file := (s.file.read room).2 })

/-- `write_all` on the socket. -/
def writeStream (bytes : List UInt8) : Job Unit :=
  Exec.modify fun s => { s with wire := s.wire ++ bytes }

/-- `Client::get_length_as_u16_bytes`. -/
def getLengthAsU16Bytes (path : PathBytes) : Job (List UInt8) :=
  if path.length < 2 ^ 16 then pure (BigEndian.toBytes 2 path.length)
  else Exec.unwind "called `Result::unwrap()` on an `Err` value: TryFromIntError(())"

/-- `Vec::resize`. -/
def resize (buf : List UInt8) (n : ℕ) : List UInt8 :=
  buf.take n ++ List.replicate (n - buf.length) 0

/-- How the open file is read: the bytes for a slice of some length, or a panic. -/
abbrev FileRead := ℕ → Job (List UInt8)

/-- The loop that sends the rest of the file. -/
def sendLoopFuel (read : FileRead) : ℕ → List UInt8 → Hasher → Job Hasher
  | 0, _, _ => Exec.outOfFuel
  | fuel + 1, buf, hasher => do
    let bytes ← read buf.length
    if bytes.length = 0 then pure hasher
    else
      let buf := overwrite buf 0 bytes
      writeStream (window buf 0 bytes.length)
      sendLoopFuel read fuel buf (hasher.update (window buf 0 bytes.length))

/-- The loop with a turn for every byte of the file, and one more. -/
def sendLoop (read : FileRead) (buf : List UInt8) (hasher : Hasher) : Job Hasher := fun s =>
  sendLoopFuel read (s.file.elems.length + 1) buf hasher s

/-- The part of `send_file` that sends: the fields and the data of the file, from one
buffer, and the checksum of the data. -/
def sendData (read : FileRead) (host : Host) (fields : List UInt8) : Job Unit := do
  let currentReadIndex := fields.length
  let buf := resize fields 1024
  if currentReadIndex ≤ buf.length then
    let bytes ← read (buf.length - currentReadIndex)
    let buf := overwrite buf currentReadIndex bytes
    let readEnd := currentReadIndex + bytes.length
    writeStream (window buf 0 readEnd)
    let hasher ← sendLoop read buf (Hasher.new.update (window buf currentReadIndex readEnd))
    writeStream (BigEndian.toBytes 4 (hasher.finalize host).toNat)
  else Exec.unwind "range start index out of range for slice"

/-- `Client::send_file`, from the open file and connection on, for a file that is read by
`read`. -/
def sendOpened (read : FileRead) (host : Host) (filePath : PathBytes) : Job Unit := do
  let lengthBytes ← getLengthAsU16Bytes filePath
  let buf := [2] ++ lengthBytes ++ filePath ++ checksumBytes host filePath
  let s ← Exec.get
  if s.fileLength < 2 ^ 32 then sendData read host (buf ++ BigEndian.toBytes 4 s.fileLength)
  else
    -- the size does not fit into the length field: logged, and nothing is sent
    pure ()

/-- `Client::send_file` of a file whose reads succeed, from the open file and connection
on. -/
def sendFile (host : Host) (filePath : PathBytes) : Job Unit := sendOpened readFile host filePath

/-! ### What is sent -/

theorem readFile_run (room : ℕ) (s : ClientState) :
    readFile room s = (.ok (s.file.read room).1, { s with file := (s.file.read room).2 }) := rfl

theorem getLengthAsU16Bytes_short {path : PathBytes} (hshort : path.length < 2 ^ 16)
    (s : ClientState) :
    getLengthAsU16Bytes path s = (.ok (BigEndian.toBytes 2 path.length), s) := by
  rw [getLengthAsU16Bytes, if_pos hshort]
  rfl

/-- The operation byte, the fields of the path and the length of the data. -/
def header (host : Host) (path : PathBytes) (length : ℕ) : List UInt8 :=
  [2] ++ BigEndian.toBytes 2 path.length ++ path ++ checksumBytes host path ++
    BigEndian.toBytes 4 length

theorem header_length (host : Host) (path : PathBytes) (length : ℕ) :
    (header host path length).length = path.length + 11 := by
  simp only [header, List.length_append, BigEndian.toBytes_length, checksumBytes_length,
    List.length_singleton]
  omega

/-- A path whose length fits into its field: what is left is to send the header and the
data, unless the file is too long. -/
theorem sendOpened_short (read : FileRead) (host : Host) {path : PathBytes}
    (hshort : path.length < 2 ^ 16) (s : ClientState) :
    sendOpened read host path s = if s.fileLength < 2 ^ 32
      then sendData read host (header host path s.fileLength) s else (.ok (), s) := by
  rw [sendOpened, Exec.bind_ok (getLengthAsU16Bytes_short hshort s), Exec.get_bind]
  split
  · rfl
  · rfl

theorem window_overwrite_zero (buf bytes : List UInt8) :
    window (overwrite buf 0 bytes) 0 bytes.length = bytes := by
  have h := window_overwrite buf bytes (le_refl 0) (Nat.zero_le buf.length)
  rwa [Nat.zero_add, window_self, List.nil_append] at h

/-- The loop sends and hashes what is left of the file. -/
theorem sendLoopFuel_run (fuel : ℕ) :
    ∀ (buf : List UInt8) (hasher : Hasher) (s : ClientState), buf.length = 1024 →
      s.file.elems.length < fuel →
      ∃ file, sendLoopFuel readFile fuel buf hasher s = (.ok (hasher.update s.file.elems),
        { s with file := file, wire := s.wire ++ s.file.elems }) := by
  induction fuel with
  | zero => intro buf hasher s _ hfuel; omega
  | succ fuel ih =>
      intro buf hasher s hbuf hfuel
      rw [sendLoopFuel, Exec.bind_ok (readFile_run _ _)]
      by_cases hnil : (s.file.read buf.length).1 = []
      · have hend : s.file.elems = [] := by
          rcases (s.file.read_eq_nil_iff _).mp hnil with h0 | h0
          · omega
          · exact h0
        rw [if_pos (by rw [hnil]; rfl), hend]
        exact ⟨(s.file.read buf.length).2, by simp [Hasher.update]⟩
      · have hlt := s.file.read_elems_lt _ hnil
        have hle := s.file.read_length_le buf.length
        have hbuf' : (overwrite buf 0 (s.file.read buf.length).1).length = 1024 := by
          rw [overwrite_length _ (by omega), hbuf]
        have hsplit := s.file.read_append buf.length
        rw [if_neg (by rw [List.length_eq_zero_iff]; exact hnil),
          window_overwrite_zero, writeStream, Exec.modify_bind]
        obtain ⟨file, hrun⟩ := ih (overwrite buf 0 (s.file.read buf.length).1)
          (hasher.update (s.file.read buf.length).1)
          { s with
            file := (s.file.read buf.length).2
            wire := s.wire ++ (s.file.read buf.length).1 } hbuf' (by
            show (s.file.read buf.length).2.elems.length < fuel
            omega)
        refine ⟨file, ?_⟩
        rw [hrun]
        simp only [Hasher.update, List.append_assoc, hsplit]

@[simp] theorem resize_length (buf : List UInt8) (n : ℕ) : (resize buf n).length = n := by
  rw [resize, List.length_append, List.length_take, List.length_replicate]
  omega

/-- From fields that fit into the buffer, what is sent is the fields, the data and the
checksum of the data. -/
theorem sendData_run (host : Host) {fields : List UInt8} (hfits : fields.length ≤ 1024)
    (s : ClientState) :
    ∃ file, sendData readFile host fields s = (.ok (), { s with
      file := file
      wire := s.wire ++ (fields ++ s.file.elems ++ checksumBytes host s.file.elems) }) := by
  have hresize : resize fields 1024 = fields ++ List.replicate (1024 - fields.length) 0 := by
    rw [resize, List.take_of_length_le hfits]
  have hbuf : (resize fields 1024).length = 1024 := resize_length fields 1024
  have hfields : window (resize fields 1024) 0 fields.length = fields := by
    rw [hresize, window, List.drop_zero, List.take_left]
  -- the first read goes behind the fields
  obtain ⟨bytes, rest, hread⟩ : ∃ bytes rest, s.file.read (1024 - fields.length) = (bytes, rest) :=
    ⟨_, _, rfl⟩
  have hsplit := s.file.read_append (1024 - fields.length)
  have hle := s.file.read_length_le (1024 - fields.length)
  rw [hread] at hsplit hle
  dsimp only at hsplit hle
  have hfirst : window (overwrite (resize fields 1024) fields.length bytes) fields.length
      (fields.length + bytes.length) = bytes := by
    rw [window_overwrite _ _ le_rfl (by omega), window_self, List.nil_append]
  have hall : window (overwrite (resize fields 1024) fields.length bytes) 0
      (fields.length + bytes.length) = fields ++ bytes := by
    rw [window_overwrite _ _ (Nat.zero_le _) (by omega), hfields]
  have hbuf' : (overwrite (resize fields 1024) fields.length bytes).length = 1024 := by
    rw [overwrite_length _ (by omega), hbuf]
  obtain ⟨file, hloop⟩ := sendLoopFuel_run (rest.elems.length + 1)
    (overwrite (resize fields 1024) fields.length bytes) (Hasher.new.update bytes)
    { s with file := rest, wire := s.wire ++ (fields ++ bytes) } hbuf' (Nat.lt_succ_self _)
  refine ⟨file, ?_⟩
  have hreadRun : readFile (1024 - fields.length) s = (.ok bytes, { s with file := rest }) := by
    rw [readFile_run, hread]
  rw [sendData]
  dsimp only
  rw [if_pos (by omega), hbuf, Exec.bind_ok hreadRun, hall, hfirst, writeStream,
    Exec.modify_bind]
  refine (Exec.bind_ok hloop).trans ?_
  have hsum : (((Hasher.new.update bytes).update rest.elems).finalize host)
      = crc32 host s.file.elems := by
    rw [← hsplit]
    rfl
  show (Except.ok (), _) = _
  dsimp only
  rw [hsum, ← hsplit, checksumBytes]
  simp only [List.append_assoc]

/-- **The client emits exactly the frame.**  For a stable file of fewer than `2 ^ 32` bytes
and a path whose fields fit into the buffer, and whatever the reads of the file return, the
bytes on the wire are the operation byte and a save request. -/
theorem sendFile_emits (host : Host) (path : PathBytes) {s : ClientState}
    (hstable : s.fileLength = s.file.elems.length) (hlen : s.file.elems.length < 2 ^ 32)
    (hfits : path.length + 11 ≤ 1024) :
    (sendFile host path s).1 = .ok () ∧
      (sendFile host path s).2.wire
        = s.wire ++ opSaveFile :: saveFrame host path s.file.elems := by
  have hheader : (header host path s.fileLength).length ≤ 1024 := by
    rw [header_length]
    exact hfits
  obtain ⟨file, hrun⟩ := sendData_run host hheader s
  rw [sendFile, sendOpened_short readFile host (by omega), if_pos (by omega), hrun]
  refine ⟨rfl, ?_⟩
  show s.wire ++ _ = _
  rw [header, saveFrame, pathFrame, dataFrame, hstable]
  simp only [List.append_assoc, List.cons_append, List.nil_append, opSaveFile]

/-- Fields that do not fit into the buffer: `resize` cuts them off, and the slice behind them
does not exist. -/
theorem sendOpened_overlong (read : FileRead) (host : Host) {path : PathBytes} {s : ClientState}
    (hshort : path.length < 2 ^ 16) (hlen : s.fileLength < 2 ^ 32)
    (hlong : 1024 < path.length + 11) :
    sendOpened read host path s
      = (.error (.panic "range start index out of range for slice"), s) := by
  have hheader := header_length host path s.fileLength
  rw [sendOpened_short read host hshort, if_pos hlen, sendData]
  dsimp only
  rw [if_neg (by rw [resize_length]; omega)]
  rfl

/-- **When the client emits the frame.**  For every path that `send_file` lets pass, every
stable file of at most `u32::MAX` bytes and whatever the reads of the file return, the bytes
on the wire are the operation byte and the save request exactly when the fields fit into the
buffer. -/
theorem sendFile_emits_iff (host : Host) (path : PathBytes) (s : ClientState)
    (hpath : path.length ≤ 65535) (hstable : s.fileLength = s.file.elems.length)
    (hlen : s.file.elems.length ≤ 4294967295) :
    (sendFile host path s).2.wire = s.wire ++ opSaveFile :: saveFrame host path s.file.elems ↔
      path.length ≤ 1013 := by
  constructor
  · intro hwire
    by_contra hlong
    rw [sendFile, sendOpened_overlong readFile host (by omega) (by omega) (by omega)] at hwire
    have hcount := congrArg List.length hwire
    rw [List.length_append, List.length_cons] at hcount
    dsimp only at hcount
    omega
  · intro hfits
    exact (sendFile_emits host path hstable (by omega) (by omega)).2

/-- An empty file. -/
def emptyFile : ClientState where
  file := SegStream.done
  fileLength := 0
  wire := []

theorem sendFile_emits_iff_emptyFile :
    (sendFile ieeeHost [97] emptyFile).2.wire = [] ++ opSaveFile :: saveFrame ieeeHost [97] [] ↔
      [97].length ≤ 1013 :=
  sendFile_emits_iff ieeeHost [97] emptyFile (by decide) rfl (by decide)

/-- A path of 1014 bytes passes the length check, and nothing is sent for it. -/
theorem long_path_not_emitted :
    ¬ ∀ (host : Host) (path : PathBytes) (s : ClientState), path.length ≤ 65535 →
      s.fileLength = s.file.elems.length → s.file.elems.length ≤ 4294967295 →
      (sendFile host path s).2.wire = s.wire ++ opSaveFile :: saveFrame host path s.file.elems := by
  intro h
  have hlength : (List.replicate 1014 (97 : UInt8)).length = 1014 := List.length_replicate ..
  have hwire := h ieeeHost (List.replicate 1014 97) emptyFile (by omega) rfl (by decide)
  rw [sendFile, sendOpened_overlong readFile ieeeHost (by omega) (by decide) (by omega)] at hwire
  cases hwire

end Pcopy.Client
