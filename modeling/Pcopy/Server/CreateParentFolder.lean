import Pcopy.Server.Task

/-!
# `Server::create_parent_folder`

The path field of a request: two bytes of length, the bytes of the path, its checksum.
The function reads the field, computes where the path lies under the saving directory,
and, when the checksum matches, creates the directory above it.

`readPathField` is the part that reads; `completePath` and `parentFolder` are the path
arithmetic.
-/

namespace Pcopy.Server

open Pcopy.Lib Pcopy.Path

/-- `ROOT_SAVING_DIRECTORY`. -/
def rootSavingDirectory : PathBytes :=
  "/Users/vikaspathania/Downloads/Backup".toUTF8.data.toList

/-- The bytes are the UTF-8 encoding of some string (`String::from_utf8`). -/
def isUtf8 (bytes : List UInt8) : Bool := (ByteArray.mk bytes.toArray).validateUTF8

/-- How `{:#?}` prints a vector of bytes. -/
def prettyDebug (bytes : List UInt8) : String :=
  if bytes.isEmpty then "[]"
  else "[\n" ++ String.join (bytes.map fun b => "    " ++ toString b.toNat ++ ",\n") ++ "]"

/-- `read_checksum`: four bytes, passed through a hasher that is started at them. -/
def readChecksum (host : Host) (endIndex startIndex : ℕ) : Task (UInt32 × BufferState) := do
  let endIndex ← readUntil 4
    (fun n => ⟨.invalidData,
      s!"Cannot read checksum from stream. No of checksum bytes read {n}"⟩)
    endIndex startIndex
  let field ← slice startIndex (startIndex + 4)
  let hasher := Hasher.newWithInitial (UInt32.ofNat (BigEndian.ofBytes field))
  pure (hasher.finalize host, ⟨startIndex + 4, endIndex⟩)

/-- The reading part: the path, the checksum that came with it, and the indexes after it. -/
def readPathField (host : Host) (endIndex startIndex : ℕ) :
    Task (PathBytes × UInt32 × BufferState) := do
  let endIndex ← readUntil 2
    (fun _ => ⟨.invalidData, "No data to read from stream. Cannot create Folder"⟩)
    endIndex startIndex
  let field ← slice startIndex (startIndex + 2)
  let filePath := BigEndian.ofBytes field
  let startIndex := startIndex + 2
  let endIndex ← readUntil filePath
    (fun n => ⟨.invalidData,
      s!"Cannot read full file path bytes. No of file path bytes read {n}"⟩)
    endIndex startIndex
  let relativeFilePath ← slice startIndex (startIndex + filePath)
  if isUtf8 relativeFilePath then
    let (receivedChecksum, state) ← readChecksum host endIndex (startIndex + filePath)
    pure (relativeFilePath, receivedChecksum, state)
  else Exec.fail ⟨.other,
    "Error converting file path bytes to utf8 " ++ prettyDebug relativeFilePath⟩

/-- The path under the saving directory; one leading `/` is removed first. -/
def completePath (relativeFilePath : PathBytes) : PathBytes :=
  join rootSavingDirectory (stripSlash relativeFilePath)

/-- The directory to create; `none` is a panic of `parent().unwrap()`. -/
def parentFolder (completeFilePath : PathBytes) : Option (List Component) :=
  if endsWith (components completeFilePath) (components [sep]) then
    (parent (components completeFilePath)).bind parent
  else parent (components completeFilePath)

/-- The directory part, once the checksum has matched. -/
def makeParentFolder (relativeFilePath : PathBytes) (state : BufferState) :
    Task (BufferState × PathBytes) :=
  match parentFolder (completePath relativeFilePath) with
  | none => Exec.unwind "called `Option::unwrap()` on a `None` value"
  | some dir => do
    match ← Exec.attempt (createDirAll dir) with
    | .ok () => pure (state, completePath relativeFilePath)
    | .error e => Exec.fail ⟨.other, "Error creating parent folder " ++ e.message⟩

/-- `Server::create_parent_folder`. -/
def createParentFolder (host : Host) (endIndex startIndex : ℕ) :
    Task (BufferState × PathBytes) := do
  let (relativeFilePath, receivedChecksum, state) ← readPathField host endIndex startIndex
  let expectedChecksum := (Hasher.new.update relativeFilePath).finalize host
  if expectedChecksum = receivedChecksum then makeParentFolder relativeFilePath state
  else Exec.fail ⟨.other,
    "Error creating parent folder, checksum mismatched received: " ++
      toString receivedChecksum.toNat ++ ", expected " ++ toString expectedChecksum.toNat⟩

end Pcopy.Server
