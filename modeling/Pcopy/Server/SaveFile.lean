import Pcopy.Server.CreateParentFolder

/-!
# `Server::save_file` and the connection task

A save request: the path field of `create_parent_folder`, four bytes of data length, the
data, and the checksum of the data.  The data goes to the file as it arrives; the last
chunk is the one whose read has also brought bytes of the checksum.

`connectionTask` is the closure that `Server::run` spawns for each connection.
-/

namespace Pcopy.Server

open Pcopy.Lib Pcopy.Path

/-- The variables of the data loop. -/
structure DataLoop where
  startIndex : ℕ
  endIndex : ℕ
  fileDataLength : ℕ
  totalFileDataBytesRead : ℕ
  hasher : Hasher
  file : FileHandle
  deriving DecidableEq, Repr

/-- The data that came with the fields before it. -/
def firstChunk (host : Host) (file : FileHandle) (endIndex startIndex fileDataLength : ℕ) :
    Task DataLoop := do
  let fileDataEndIndex := min (startIndex + fileDataLength) endIndex
  let chunk ← slice startIndex fileDataEndIndex
  let (written, file) ← writeSome host file chunk
  let remaining ← checkedSub fileDataLength (asU32 written)
  pure {
    startIndex := fileDataEndIndex
    endIndex := endIndex
    fileDataLength := remaining
    totalFileDataBytesRead := written
    hasher := Hasher.new.update chunk
    file := file }

/-- The chunk whose read went past the end of the data. -/
def lastChunk (v : DataLoop) : Task DataLoop := do
  let chunk ← slice v.startIndex (v.startIndex + v.fileDataLength)
  let file ← writeAll v.file chunk
  let startIndex := v.startIndex + v.fileDataLength
  -- the source subtracts the new `start_index` here, not the length of the chunk
  let remaining ← checkedSub v.fileDataLength (asU32 startIndex)
  if remaining = 0 then
    pure { v with
      startIndex := startIndex
      fileDataLength := remaining
      totalFileDataBytesRead := v.totalFileDataBytesRead + v.fileDataLength
      hasher := v.hasher.update chunk
      file := file }
  else Exec.unwind "assertion failed: file_data_length == 0"

/-- A chunk of `n` bytes, all of them data. -/
def middleChunk (n : ℕ) (v : DataLoop) : Task DataLoop := do
  let chunk ← slice v.startIndex v.endIndex
  let file ← writeAll v.file chunk
  let remaining ← checkedSub v.fileDataLength (asU32 n)
  pure { v with
    startIndex := v.startIndex + n
    fileDataLength := remaining
    totalFileDataBytesRead := v.totalFileDataBytesRead + n
    hasher := v.hasher.update chunk
    file := file }

/-- The indexes at the start of a turn: both go back to `0` when the buffer is used up. -/
def rewind (bufLen : ℕ) (v : DataLoop) : DataLoop :=
  if v.startIndex = bufLen then { v with startIndex := 0, endIndex := 0 } else v

/-- One turn of the data loop. -/
def dataTurn (v : DataLoop) : Task DataLoop := do
  let s ← Exec.get
  let v := rewind s.buf.length v
  let n ← readData v.endIndex
  if n = 0 then
    let available ← checkedSub v.endIndex v.startIndex
    Exec.fail ⟨.invalidData,
      s!"Cannot read full File name bytes. No of File name bytes read {available}"⟩
  else
    let endIndex := v.endIndex + n
    if v.startIndex + v.fileDataLength < endIndex then
      lastChunk { v with endIndex := endIndex }
    else middleChunk n { v with endIndex := endIndex }

/-- The data loop: turns while fewer bytes are buffered than are still to come. -/
def dataLoopFuel : ℕ → DataLoop → Task DataLoop
  | 0, _ => Exec.outOfFuel
  | fuel + 1, v => do
    let available ← checkedSub v.endIndex v.startIndex
    if available < v.fileDataLength then
      let v ← dataTurn v
      dataLoopFuel fuel v
    else pure v

/-- The data loop with a turn for every byte the socket can still deliver, and one more. -/
def dataLoop (v : DataLoop) : Task DataLoop := fun s =>
  dataLoopFuel (s.socket.elems.length + 1) v s

/-- The checksum of the data, and the outcome. -/
def checkData (host : Host) (path : PathBytes) (v : DataLoop) :
    Task (BufferState × PathBytes) := do
  let (receivedChecksum, state) ← readChecksum host v.endIndex v.startIndex
  let expectedChecksum := v.hasher.finalize host
  if receivedChecksum = expectedChecksum then pure (state, path)
  else Exec.fail ⟨.invalidData,
    "Computed checksum " ++ toString expectedChecksum.toNat ++ " and received checksum " ++
      toString receivedChecksum.toNat ++ " do not match for file " ++
      (String.fromUTF8? (ByteArray.mk path.toArray)).getD ""⟩

/-- The part of `save_file` after the file is open. -/
def receiveData (host : Host) (file : FileHandle) (path : PathBytes)
    (endIndex startIndex : ℕ) : Task (BufferState × PathBytes) := do
  let endIndex ← readUntil 4
    (fun _ => ⟨.invalidData, "No data to read from stream. Cannot read file data length"⟩)
    endIndex startIndex
  let field ← slice startIndex (startIndex + 4)
  let v ← firstChunk host file endIndex (startIndex + 4) (BigEndian.ofBytes field)
  let v ← dataLoop v
  checkData host path v

/-- `Server::save_file`. -/
def saveFile (host : Host) (endIndex startIndex : ℕ) : Task (BufferState × PathBytes) := do
  match ← Exec.attempt (createParentFolder host endIndex startIndex) with
  | .error e => Exec.fail ⟨.invalidInput, e.message⟩
  | .ok (state, path) =>
    let file ← createFile path
    receiveData host file path state.endIndex state.startIndex

/-! ### The connection task -/

/-- `Operation::CreateParentFolder`. -/
def opCreateParentFolder : UInt8 := 1

/-- `Operation::SaveFile`. -/
def opSaveFile : UInt8 := 2

/-- The branch in which a connection task that did not panic has ended. -/
inductive Served where
  | noData : Served
  | folderCreated : PathBytes → Served
  | folderFailed : IoError → Served
  | fileSaved : PathBytes → Served
  | fileFailed : IoError → Served
  | unknownOperation : UInt8 → Served
  deriving DecidableEq, Repr

/-- The closure `Server::run` spawns, from the first read on. -/
def connectionTask (host : Host) : Task Served := do
  let n ← readData 0
  if n = 0 then
    -- -1 as big-endian i16
    sendReply [255, 255]
    pure .noData
  else
    let s ← Exec.get
    let operation := s.buf.headD 0
    if operation = opCreateParentFolder then
      match ← Exec.attempt (createParentFolder host n 1) with
      | .ok (_, path) =>
        sendReply [0, 1]
        pure (.folderCreated path)
      | .error e =>
        -- the future of this `write_all` is never awaited, so nothing is sent
        pure (.folderFailed e)
    else if operation = opSaveFile then
      match ← Exec.attempt (saveFile host n 1) with
      | .ok (_, path) =>
        sendReply [0, 1]
        pure (.fileSaved path)
      | .error e =>
        sendReply [255, 255]
        pure (.fileFailed e)
    else pure (.unknownOperation operation)

/-- The state in which a connection task starts: a zeroed buffer of 1024 bytes. -/
def accepted (socket : SegStream UInt8) (disk : FileSystem) : ServerState where
  socket := socket
  reply := []
  buf := List.replicate 1024 0
  disk := disk
  effects := []
  rooms := []

end Pcopy.Server
