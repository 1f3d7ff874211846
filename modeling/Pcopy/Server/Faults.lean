import Pcopy.Server.Calls
import Pcopy.Server.ResultCode
import Pcopy.Server.System

/-!
# Reads and writes that fail

Every read of the socket is followed by `expect`, so that a connection that breaks, rather than
being closed, ends the task in a panic.  Of the writes to a file the first one and those of the
loop are followed by `unwrap`, and the one that ends the data by `?`.

* `connectionTaskOver` — the task of a connection, with a schedule of what fails; it is
  `connectionTask` where nothing does (`connectionTaskOver_none`);
* `Halts`, `Follows` — a computation with faults beside the one without;
* `faults_contained` — whatever fails: the run is the one without faults, or it has reported no
  success and left the disk as before, or as the other one does up to the end of the one file that
  the connection asks for.
-/

namespace Pcopy.Server

open Pcopy.Lib Pcopy.Path

/-! ### The task of a connection, with faults -/

/-- What fails, by the state of the task at the time: a read, or a write after so many bytes. -/
structure Faults where
  read : ServerState → Bool
  write : ServerState → FileHandle → List UInt8 → Option (ℕ × IoError)

/-- The message of `unwrap` on an error, up to the error. -/
def unwrapErr : String := "called `Result::unwrap()` on an `Err` value"

/-- The message of `expect` on most reads, up to the error. -/
def readErr : String := "failed to read data from socket"

section

variable (faults : Faults) (host : Host)

/-- `ReadFromStream::read_data`, and the `expect` behind it. -/
def readDataOver (expected : String) (startIndex : ℕ) : Task ℕ := fun s =>
  if startIndex ≤ s.buf.length ∧ faults.read s = true then (.error (.panic expected), s)
  else readData startIndex s

/-- `File::write_all`: one that fails may have written a part. -/
def tryWriteAll (file : FileHandle) (data : List UInt8) : Task FileHandle := fun s =>
  match faults.write s file data with
  | none => writeAll file data s
  | some (n, e) => (.error (.err e), afterWrite s file (data.take n))

/-- `File::write_all`, and the `unwrap` behind it. -/
def unwrapWriteAll (file : FileHandle) (data : List UInt8) : Task FileHandle := do
  match ← Exec.attempt (tryWriteAll faults file data) with
  | .ok file => pure file
  | .error _ => Exec.unwind unwrapErr

/-- `File::write`, and the `unwrap` behind it: one that fails has written nothing. -/
def unwrapWrite (file : FileHandle) (data : List UInt8) : Task (ℕ × FileHandle) := fun s =>
  match faults.write s file data with
  | none => writeSome host file data s
  | some _ => (.error (.panic unwrapErr), s)

/-- The read loop of the fields. -/
def readUntilFuelOver (need : ℕ) (eof : ℕ → IoError) : ℕ → ℕ → ℕ → Task ℕ
  | 0, _, _ => Exec.outOfFuel
  | fuel + 1, endIndex, startIndex => do
    let available ← checkedSub endIndex startIndex
    if available < need then
      let n ← readDataOver faults readErr endIndex
      if n = 0 then Exec.fail (eof available)
      else readUntilFuelOver need eof fuel (endIndex + n) startIndex
    else pure endIndex

/-- The read loop with a turn for every byte the socket can still deliver, and one more. -/
def readUntilOver (need : ℕ) (eof : ℕ → IoError) (endIndex startIndex : ℕ) : Task ℕ := fun s =>
  readUntilFuelOver faults need eof (s.socket.elems.length + 1) endIndex startIndex s

/-- `read_checksum`. -/
def readChecksumOver (endIndex startIndex : ℕ) : Task (UInt32 × BufferState) := do
  let endIndex ← readUntilOver faults 4
    (fun n => ⟨.invalidData,
      s!"Cannot read checksum from stream. No of checksum bytes read {n}"⟩)
    endIndex startIndex
  let field ← slice startIndex (startIndex + 4)
  let hasher := Hasher.newWithInitial (UInt32.ofNat (BigEndian.ofBytes field))
  pure (hasher.finalize host, ⟨startIndex + 4, endIndex⟩)

/-- The reading part of `create_parent_folder`. -/
def readPathFieldOver (endIndex startIndex : ℕ) :
    Task (PathBytes × UInt32 × BufferState) := do
  let endIndex ← readUntilOver faults 2
    (fun _ => ⟨.invalidData, "No data to read from stream. Cannot create Folder"⟩)
    endIndex startIndex
  let field ← slice startIndex (startIndex + 2)
  let filePath := BigEndian.ofBytes field
  let startIndex := startIndex + 2
  let endIndex ← readUntilOver faults filePath
    (fun n => ⟨.invalidData,
      s!"Cannot read full file path bytes. No of file path bytes read {n}"⟩)
    endIndex startIndex
  let relativeFilePath ← slice startIndex (startIndex + filePath)
  if isUtf8 relativeFilePath then
    let (receivedChecksum, state) ← readChecksumOver faults host endIndex (startIndex + filePath)
    pure (relativeFilePath, receivedChecksum, state)
  else Exec.fail ⟨.other,
    "Error converting file path bytes to utf8 " ++ prettyDebug relativeFilePath⟩

/-- `Server::create_parent_folder`. -/
def createParentFolderOver (endIndex startIndex : ℕ) : Task (BufferState × PathBytes) := do
  let (relativeFilePath, receivedChecksum, state) ←
    readPathFieldOver faults host endIndex startIndex
  let expectedChecksum := (Hasher.new.update relativeFilePath).finalize host
  if expectedChecksum = receivedChecksum then makeParentFolder relativeFilePath state
  else Exec.fail ⟨.other,
    "Error creating parent folder, checksum mismatched received: " ++
      toString receivedChecksum.toNat ++ ", expected " ++ toString expectedChecksum.toNat⟩

/-- The data that came with the fields before it. -/
def firstChunkOver (file : FileHandle) (endIndex startIndex fileDataLength : ℕ) :
    Task DataLoop := do
  let fileDataEndIndex := min (startIndex + fileDataLength) endIndex
  let chunk ← slice startIndex fileDataEndIndex
  let (written, file) ← unwrapWrite faults host file chunk
  let remaining ← checkedSub fileDataLength (asU32 written)
  pure {
    startIndex := fileDataEndIndex
    endIndex := endIndex
    fileDataLength := remaining
    totalFileDataBytesRead := written
    hasher := Hasher.new.update chunk
    file := file }

/-- The chunk whose read went past the end of the data. -/
def lastChunkOver (v : DataLoop) : Task DataLoop := do
  let chunk ← slice v.startIndex (v.startIndex + v.fileDataLength)
  let file ← tryWriteAll faults v.file chunk
  let startIndex := v.startIndex + v.fileDataLength
  let remaining ← checkedSub v.fileDataLength (asU32 startIndex)
  if remaining = 0 then
    pure { v with
      startIndex := startIndex
      fileDataLength := remaining
      totalFileDataBytesRead := v.totalFileDataBytesRead + v.fileDataLength
      hasher := v.hasher.update chunk
      file := file }
  else Exec.unwind "assertion failed: file_data_length == 0"

/-- A chunk of `n` bytes, all of them data. -/
def middleChunkOver (n : ℕ) (v : DataLoop) : Task DataLoop := do
  let chunk ← slice v.startIndex v.endIndex
  let file ← unwrapWriteAll faults v.file chunk
  let remaining ← checkedSub v.fileDataLength (asU32 n)
  pure { v with
    startIndex := v.startIndex + n
    fileDataLength := remaining
    totalFileDataBytesRead := v.totalFileDataBytesRead + n
    hasher := v.hasher.update chunk
    file := file }

/-- One turn of the data loop. -/
def dataTurnOver (v : DataLoop) : Task DataLoop := do
  let s ← Exec.get
  let v := rewind s.buf.length v
  let n ← readDataOver faults (readErr ++ ", cpi: " ++ toString v.startIndex ++ ", vri: " ++
    toString v.endIndex ++ ", fdl: " ++ toString v.fileDataLength) v.endIndex
  if n = 0 then
    let available ← checkedSub v.endIndex v.startIndex
    Exec.fail ⟨.invalidData,
      s!"Cannot read full File name bytes. No of File name bytes read {available}"⟩
  else
    let endIndex := v.endIndex + n
    if v.startIndex + v.fileDataLength < endIndex then
      lastChunkOver faults { v with endIndex := endIndex }
    else middleChunkOver faults n { v with endIndex := endIndex }

/-- The data loop. -/
def dataLoopFuelOver : ℕ → DataLoop → Task DataLoop
  | 0, _ => Exec.outOfFuel
  | fuel + 1, v => do
    let available ← checkedSub v.endIndex v.startIndex
    if available < v.fileDataLength then
      let v ← dataTurnOver faults v
      dataLoopFuelOver fuel v
    else pure v

/-- The data loop with a turn for every byte the socket can still deliver, and one more. -/
def dataLoopOver (v : DataLoop) : Task DataLoop := fun s =>
  dataLoopFuelOver faults (s.socket.elems.length + 1) v s

/-- The checksum of the data, and the outcome. -/
def checkDataOver (path : PathBytes) (v : DataLoop) : Task (BufferState × PathBytes) := do
  let (receivedChecksum, state) ← readChecksumOver faults host v.endIndex v.startIndex
  let expectedChecksum := v.hasher.finalize host
  if receivedChecksum = expectedChecksum then pure (state, path)
  else Exec.fail ⟨.invalidData,
    "Computed checksum " ++ toString expectedChecksum.toNat ++ " and received checksum " ++
      toString receivedChecksum.toNat ++ " do not match for file " ++
      (String.fromUTF8? (ByteArray.mk path.toArray)).getD ""⟩

/-- The part of `save_file` after the file is open. -/
def receiveDataOver (file : FileHandle) (path : PathBytes) (endIndex startIndex : ℕ) :
    Task (BufferState × PathBytes) := do
  let endIndex ← readUntilOver faults 4
    (fun _ => ⟨.invalidData, "No data to read from stream. Cannot read file data length"⟩)
    endIndex startIndex
  let field ← slice startIndex (startIndex + 4)
  let v ← firstChunkOver faults host file endIndex (startIndex + 4) (BigEndian.ofBytes field)
  let v ← dataLoopOver faults v
  checkDataOver faults host path v

/-- `Server::save_file`. -/
def saveFileOver (endIndex startIndex : ℕ) : Task (BufferState × PathBytes) := do
  match ← Exec.attempt (createParentFolderOver faults host endIndex startIndex) with
  | .error e => Exec.fail ⟨.invalidInput, e.message⟩
  | .ok (state, path) =>
    let file ← createFile path
    receiveDataOver faults host file path state.endIndex state.startIndex

/-- The closure `Server::run` spawns, from the first read on. -/
def connectionTaskOver : Task Served := do
  let n ← readDataOver faults readErr 0
  if n = 0 then
    sendReply [255, 255]
    pure .noData
  else
    let s ← Exec.get
    let operation := s.buf.headD 0
    if operation = opCreateParentFolder then
      match ← Exec.attempt (createParentFolderOver faults host n 1) with
      | .ok (_, path) =>
        sendReply [0, 1]
        pure (.folderCreated path)
      | .error e => pure (.folderFailed e)
    else if operation = opSaveFile then
      match ← Exec.attempt (saveFileOver faults host n 1) with
      | .ok (_, path) =>
        sendReply [0, 1]
        pure (.fileSaved path)
      | .error e =>
        sendReply [255, 255]
        pure (.fileFailed e)
    else pure (.unknownOperation operation)

end

/-! ### Without faults -/

/-- Nothing fails. -/
def Faults.none : Faults := ⟨fun _ => false, fun _ _ _ => Option.none⟩

theorem readDataOver_none (expected : String) (startIndex : ℕ) :
    readDataOver Faults.none expected startIndex = readData startIndex := by
  funext s
  rw [readDataOver, if_neg]
  intro h
  cases h.2

theorem tryWriteAll_none (file : FileHandle) (data : List UInt8) :
    tryWriteAll Faults.none file data = writeAll file data := rfl

theorem unwrapWriteAll_none (file : FileHandle) (data : List UInt8) :
    unwrapWriteAll Faults.none file data = writeAll file data := rfl

theorem unwrapWrite_none (host : Host) (file : FileHandle) (data : List UInt8) :
    unwrapWrite Faults.none host file data = writeSome host file data := rfl

theorem readUntilFuelOver_none (need : ℕ) (eof : ℕ → IoError) (fuel : ℕ) :
    ∀ endIndex startIndex, readUntilFuelOver Faults.none need eof fuel endIndex startIndex
      = readUntilFuel need eof fuel endIndex startIndex := by
  induction fuel with
  | zero => intro endIndex startIndex; rfl
  | succ fuel ih =>
      intro endIndex startIndex
      simp only [readUntilFuelOver, readUntilFuel, readDataOver_none, ih]

theorem readUntilOver_none (need : ℕ) (eof : ℕ → IoError) (endIndex startIndex : ℕ) :
    readUntilOver Faults.none need eof endIndex startIndex
      = readUntil need eof endIndex startIndex := by
  funext s
  rw [readUntilOver, readUntilFuelOver_none]
  rfl

theorem readChecksumOver_none (host : Host) (endIndex startIndex : ℕ) :
    readChecksumOver Faults.none host endIndex startIndex
      = readChecksum host endIndex startIndex := by
  simp only [readChecksumOver, readChecksum, readUntilOver_none]

theorem createParentFolderOver_none (host : Host) (endIndex startIndex : ℕ) :
    createParentFolderOver Faults.none host endIndex startIndex
      = createParentFolder host endIndex startIndex := by
  simp only [createParentFolderOver, createParentFolder, readPathFieldOver, readPathField,
    readUntilOver_none, readChecksumOver_none]

theorem dataTurnOver_none (v : DataLoop) : dataTurnOver Faults.none v = dataTurn v := by
  simp only [dataTurnOver, dataTurn, readDataOver_none, lastChunkOver, lastChunk, middleChunkOver,
    middleChunk, tryWriteAll_none, unwrapWriteAll_none]

theorem dataLoopFuelOver_none (fuel : ℕ) :
    ∀ v : DataLoop, dataLoopFuelOver Faults.none fuel v = dataLoopFuel fuel v := by
  induction fuel with
  | zero => intro v; rfl
  | succ fuel ih =>
      intro v
      simp only [dataLoopFuelOver, dataLoopFuel, dataTurnOver_none, ih]

theorem dataLoopOver_none (v : DataLoop) : dataLoopOver Faults.none v = dataLoop v := by
  funext s
  rw [dataLoopOver, dataLoopFuelOver_none]
  rfl

theorem receiveDataOver_none (host : Host) (file : FileHandle) (path : PathBytes)
    (endIndex startIndex : ℕ) :
    receiveDataOver Faults.none host file path endIndex startIndex
      = receiveData host file path endIndex startIndex := by
  simp only [receiveDataOver, receiveData, readUntilOver_none, firstChunkOver, firstChunk,
    unwrapWrite_none, dataLoopOver_none, checkDataOver, checkData, readChecksumOver_none]

theorem saveFileOver_none (host : Host) (endIndex startIndex : ℕ) :
    saveFileOver Faults.none host endIndex startIndex = saveFile host endIndex startIndex := by
  simp only [saveFileOver, createParentFolderOver_none, receiveDataOver_none]
  rfl

/-- The task of a connection is the one with faults where nothing fails. -/
theorem connectionTaskOver_none (host : Host) :
    connectionTaskOver Faults.none host = connectionTask host := by
  simp only [connectionTaskOver, readDataOver_none, createParentFolderOver_none,
    saveFileOver_none]
  rfl

/-! ### A computation that a failing read may end -/

section

variable {α β : Type} {x y : Task α} {f g : α → Task β}

/-- `x` only reads, and `y` is `x` up to a read that fails. -/
structure Halts (x y : Task α) : Prop where
  reads : Exec.Moves Reads x
  halts : ∀ s, y s = x s ∨ ∃ msg s', y s = (.error (.panic msg), s') ∧ Reads s s'

theorem Halts.same (h : Exec.Moves Reads x) : Halts x x := ⟨h, fun _ => Or.inl rfl⟩

/-- Whatever comes after it. -/
theorem Halts.before (h : Halts x y) (f : α → Task β) (s : ServerState) :
    (y >>= f) s = (x >>= f) s ∨
      ∃ msg s', (y >>= f) s = (.error (.panic msg), s') ∧ Reads s s' := by
  rcases h.halts s with hsame | ⟨msg, s', hrun, hreads⟩
  · refine Or.inl ?_
    rcases hx : x s with ⟨φ | a, s₁⟩
    · rw [Exec.bind_fault hx, Exec.bind_fault (hsame.trans hx)]
    · rw [Exec.bind_ok hx, Exec.bind_ok (hsame.trans hx)]
  · exact Or.inr ⟨msg, s', Exec.bind_fault hrun, hreads⟩

theorem Halts.bind (hx : Halts x y) (hf : ∀ a, Halts (f a) (g a)) :
    Halts (x >>= f) (y >>= g) := by
  refine ⟨Reads.bind hx.reads fun a => (hf a).reads, ?_⟩
  intro s
  rcases hx.halts s with hsame | ⟨msg, s', hrun, hreads⟩
  · have hfirst := hx.reads s
    rcases hrun : x s with ⟨φ | a, s₁⟩
    · rw [Exec.bind_fault hrun, Exec.bind_fault (hsame.trans hrun)]
      exact Or.inl rfl
    · rw [hrun] at hfirst
      rw [Exec.bind_ok hrun, Exec.bind_ok (hsame.trans hrun)]
      rcases (hf a).halts s₁ with hsame' | ⟨msg, s', hrun', hreads⟩
      · exact Or.inl hsame'
      · exact Or.inr ⟨msg, s', hrun', hfirst.trans hreads⟩
  · exact Or.inr ⟨msg, s', Exec.bind_fault hrun, hreads⟩

end

section

variable (faults : Faults)

theorem readDataOver_halts (expected : String) (startIndex : ℕ) :
    Halts (readData startIndex) (readDataOver faults expected startIndex) := by
  refine ⟨readData_reads startIndex, ?_⟩
  intro s
  unfold readDataOver
  split
  · exact Or.inr ⟨expected, s, rfl, Reads.refl s⟩
  · exact Or.inl rfl

theorem readUntilFuelOver_halts (need : ℕ) (eof : ℕ → IoError) (fuel : ℕ) :
    ∀ endIndex startIndex, Halts (readUntilFuel need eof fuel endIndex startIndex)
      (readUntilFuelOver faults need eof fuel endIndex startIndex) := by
  induction fuel with
  | zero => intro endIndex startIndex; exact Halts.same (readUntilFuel_reads need eof 0 _ _)
  | succ fuel ih =>
      intro endIndex startIndex
      refine Halts.bind (Halts.same (checkedSub_reads _ _)) ?_
      intro available
      split
      · refine Halts.bind (readDataOver_halts faults _ _) ?_
        intro n
        split
        · exact Halts.same Reads.refl
        · exact ih _ _
      · exact Halts.same Reads.refl

theorem readUntilOver_halts (need : ℕ) (eof : ℕ → IoError) (endIndex startIndex : ℕ) :
    Halts (readUntil need eof endIndex startIndex)
      (readUntilOver faults need eof endIndex startIndex) :=
  ⟨readUntil_reads need eof endIndex startIndex,
    fun s => (readUntilFuelOver_halts faults need eof _ endIndex startIndex).halts s⟩

theorem readChecksumOver_halts (host : Host) (endIndex startIndex : ℕ) :
    Halts (readChecksum host endIndex startIndex)
      (readChecksumOver faults host endIndex startIndex) :=
  Halts.bind (readUntilOver_halts faults _ _ _ _) fun _ =>
    Halts.bind (Halts.same (slice_reads _ _)) fun _ => Halts.same Reads.refl

theorem readPathFieldOver_halts (host : Host) (endIndex startIndex : ℕ) :
    Halts (readPathField host endIndex startIndex)
      (readPathFieldOver faults host endIndex startIndex) := by
  refine Halts.bind (readUntilOver_halts faults _ _ _ _) fun endIndex => ?_
  refine Halts.bind (Halts.same (slice_reads _ _)) fun field => ?_
  refine Halts.bind (readUntilOver_halts faults _ _ _ _) fun endIndex => ?_
  refine Halts.bind (Halts.same (slice_reads _ _)) fun path => ?_
  split
  · exact Halts.bind (readChecksumOver_halts faults host _ _) fun _ => Halts.same Reads.refl
  · exact Halts.same Reads.refl

/-- `create_parent_folder` does not write: only its reads can fail otherwise than they do
without faults. -/
theorem createParentFolderOver_cases (host : Host) (endIndex startIndex : ℕ) (s : ServerState) :
    createParentFolderOver faults host endIndex startIndex s
        = createParentFolder host endIndex startIndex s ∨
      ∃ msg s', createParentFolderOver faults host endIndex startIndex s
        = (.error (.panic msg), s') ∧ Reads s s' :=
  (readPathFieldOver_halts faults host endIndex startIndex).before _ s

end

/-! ### A computation that a failing read or write may end -/

section

variable {α β : Type} {file : FileHandle} {x y : Task α} {f g : α → Task β}
  {mid : α → FileHandle → Prop} {post : β → FileHandle → Prop}

/-- The log tells what was stored. -/
theorem Stored.unique {data data' : List UInt8} {s s' : ServerState} (h : Stored file data s s')
    (h' : Stored file data' s s') : data = data' := by
  obtain ⟨cs, rfl, heffects, -⟩ := h.log
  obtain ⟨cs', rfl, heffects', -⟩ := h'.log
  rw [writes_inj cs cs' file (List.append_cancel_left (heffects.symm.trans heffects'))]

/-- `s'` is reached from `s` with a first part of what was stored by `s''`. -/
def Truncates (file : FileHandle) (s s' s'' : ServerState) : Prop :=
  ∃ data data', Stored file data s s' ∧ Stored file data' s s'' ∧ data <+: data'

/-- `x` only stores data at `file`, and `y` is `x` up to a read or a write that fails. -/
structure Follows (file : FileHandle) (x y : Task α) (post : α → FileHandle → Prop) : Prop where
  stores : Stores file x post
  follows : ∀ s, y s = x s ∨ ∃ φ s', y s = (.error φ, s') ∧ Truncates file s s' (x s).2

theorem Follows.same (h : Stores file x mid) : Follows file x x mid := ⟨h, fun _ => Or.inl rfl⟩

theorem Follows.of_halts (h : Halts x y) : Follows file x y fun _ file' => file' = file := by
  refine ⟨Stores.of_reads h.reads, ?_⟩
  intro s
  rcases h.halts s with hsame | ⟨msg, s', hrun, hreads⟩
  · exact Or.inl hsame
  · exact Or.inr ⟨.panic msg, s', hrun, [], [], hreads.stored file, (h.reads s).stored file,
      List.prefix_rfl⟩

/-- **Sequencing.**  Where the first part of `y` has failed, `x` goes on and only adds to the
file. -/
theorem Follows.bind (hx : Follows file x y mid)
    (hf : ∀ a file', mid a file' → Follows file' (f a) (g a) post) :
    Follows file (x >>= f) (y >>= g) post := by
  refine ⟨hx.stores.bind fun a file' h => (hf a file' h).stores, ?_⟩
  intro s
  rcases hx.follows s with hsame | ⟨φ, s', hrun, data, data', hstored, hstored', hprefix⟩
  · obtain ⟨data, hstored, hmid⟩ := hx.stores s
    rcases hrun : x s with ⟨φ | a, s₁⟩
    · rw [Exec.bind_fault hrun, Exec.bind_fault (hsame.trans hrun)]
      exact Or.inl rfl
    · rw [hrun] at hstored hmid
      rw [Exec.bind_ok hrun, Exec.bind_ok (hsame.trans hrun)]
      rcases (hf a _ (hmid a rfl)).follows s₁ with
        hsame' | ⟨φ, s', hrun', part, whole, hpart, hwhole, hprefix⟩
      · exact Or.inl hsame'
      · exact Or.inr ⟨φ, s', hrun', data ++ part, data ++ whole, hstored.trans hpart,
          hstored.trans hwhole, (List.prefix_append_right_inj data).mpr hprefix⟩
  · refine Or.inr ⟨φ, s', Exec.bind_fault hrun, ?_⟩
    rcases hrunx : x s with ⟨φ' | a, s₁⟩
    · rw [Exec.bind_fault hrunx]
      rw [hrunx] at hstored'
      exact ⟨data, data', hstored, hstored', hprefix⟩
    · rw [Exec.bind_ok hrunx]
      obtain ⟨data'', hstored'', hmid⟩ := hx.stores s
      rw [hrunx] at hstored' hstored'' hmid
      obtain rfl := hstored'.unique hstored''
      obtain ⟨more, hmore, -⟩ := (hf a _ (hmid a rfl)).stores s₁
      exact ⟨data, data' ++ more, hstored, hstored'.trans hmore,
        hprefix.trans (List.prefix_append data' more)⟩

/-- A first part that does not touch the disk. -/
theorem Follows.after (hx : Halts x y) (hf : ∀ a, Follows file (f a) (g a) post) :
    Follows file (x >>= f) (y >>= g) post := by
  refine (Follows.of_halts hx).bind ?_
  intro a file' hfile
  subst hfile
  exact hf a

theorem Follows.after_reads (hx : Exec.Moves Reads x) (hf : ∀ a, Follows file (f a) (g a) post) :
    Follows file (x >>= f) (x >>= g) post := Follows.after (Halts.same hx) hf

end

section

variable (faults : Faults)

theorem tryWriteAll_follows (file : FileHandle) (data : List UInt8) :
    Follows file (writeAll file data) (tryWriteAll faults file data)
      fun file₁ file' => file₁ = file' := by
  refine ⟨writeAll_stores file data, ?_⟩
  intro s
  unfold tryWriteAll
  split
  · exact Or.inl rfl
  · exact Or.inr ⟨_, _, rfl, _, data, stored_afterWrite s file _, stored_afterWrite s file data,
      List.take_prefix _ data⟩

theorem unwrapWriteAll_follows (file : FileHandle) (data : List UInt8) :
    Follows file (writeAll file data) (unwrapWriteAll faults file data)
      fun file₁ file' => file₁ = file' := by
  refine ⟨writeAll_stores file data, ?_⟩
  intro s
  rcases (tryWriteAll_follows faults file data).follows s with hsame | ⟨φ, s', hrun, htruncates⟩
  · refine Or.inl ?_
    rw [unwrapWriteAll, Exec.bind_ok (Exec.attempt_ok hsame)]
    rfl
  · refine Or.inr ?_
    cases φ with
    | err e =>
        refine ⟨.panic unwrapErr, s', ?_, htruncates⟩
        rw [unwrapWriteAll, Exec.bind_ok (Exec.attempt_err hrun)]
        rfl
    | panic msg =>
        exact ⟨.panic msg, s', Exec.bind_fault (Exec.attempt_panic hrun), htruncates⟩
    | outOfFuel =>
        exact ⟨.outOfFuel, s', Exec.bind_fault (Exec.attempt_outOfFuel hrun), htruncates⟩

theorem unwrapWrite_follows (host : Host) (file : FileHandle) (data : List UInt8) :
    Follows file (writeSome host file data) (unwrapWrite faults host file data)
      fun r file' => r.2 = file' := by
  have hsome : Stores file (writeSome host file data) fun r file' => r.2 = file' :=
    (writeAll_stores _ _).bind fun _ _ h => Stores.pure h
  refine ⟨hsome, ?_⟩
  intro s
  unfold unwrapWrite
  split
  · exact Or.inl rfl
  · obtain ⟨stored, hstored, -⟩ := hsome s
    exact Or.inr ⟨_, s, rfl, [], stored, (Reads.refl s).stored file, hstored, List.nil_prefix⟩

theorem firstChunkOver_follows (host : Host) (file : FileHandle)
    (endIndex startIndex fileDataLength : ℕ) :
    Follows file (firstChunk host file endIndex startIndex fileDataLength)
      (firstChunkOver faults host file endIndex startIndex fileDataLength)
      fun v file' => v.file = file' := by
  refine Follows.after_reads (slice_reads _ _) fun chunk => ?_
  refine (unwrapWrite_follows faults host file chunk).bind ?_
  intro r file' hfile
  subst hfile
  exact Follows.after_reads (checkedSub_reads _ _) fun _ => Follows.same (Stores.pure rfl)

theorem lastChunkOver_follows (v : DataLoop) :
    Follows v.file (lastChunk v) (lastChunkOver faults v) fun v' file' => v'.file = file' := by
  refine Follows.after_reads (slice_reads _ _) fun chunk => ?_
  refine (tryWriteAll_follows faults v.file chunk).bind ?_
  intro file file' hfile
  subst hfile
  refine Follows.after_reads (checkedSub_reads _ _) fun remaining => ?_
  split
  · exact Follows.same (Stores.pure rfl)
  · exact Follows.same (Stores.unwind _ _)

theorem middleChunkOver_follows (n : ℕ) (v : DataLoop) :
    Follows v.file (middleChunk n v) (middleChunkOver faults n v)
      fun v' file' => v'.file = file' := by
  refine Follows.after_reads (slice_reads _ _) fun chunk => ?_
  refine (unwrapWriteAll_follows faults v.file chunk).bind ?_
  intro file file' hfile
  subst hfile
  exact Follows.after_reads (checkedSub_reads _ _) fun _ => Follows.same (Stores.pure rfl)

theorem dataTurnOver_follows (v : DataLoop) :
    Follows v.file (dataTurn v) (dataTurnOver faults v) fun v' file' => v'.file = file' := by
  refine Follows.after_reads Reads.refl fun s => ?_
  refine Follows.after (readDataOver_halts faults _ _) fun n => ?_
  split
  · exact Follows.same (Stores.after_reads (checkedSub_reads _ _) fun _ => Stores.fail _ _)
  · rw [← rewind_file s.buf.length v]
    generalize rewind s.buf.length v = w
    dsimp only
    split
    · exact lastChunkOver_follows faults { w with endIndex := w.endIndex + n }
    · exact middleChunkOver_follows faults n { w with endIndex := w.endIndex + n }

theorem dataLoopFuelOver_follows (fuel : ℕ) :
    ∀ v : DataLoop, Follows v.file (dataLoopFuel fuel v) (dataLoopFuelOver faults fuel v)
      fun v' file' => v'.file = file' := by
  induction fuel with
  | zero => intro v; exact Follows.same (dataLoopFuel_stores 0 v)
  | succ fuel ih =>
      intro v
      refine Follows.after_reads (checkedSub_reads _ _) fun available => ?_
      split
      · refine (dataTurnOver_follows faults v).bind ?_
        intro v' file' hfile
        subst hfile
        exact ih v'
      · exact Follows.same (Stores.pure rfl)

theorem dataLoopOver_follows (v : DataLoop) :
    Follows v.file (dataLoop v) (dataLoopOver faults v) fun v' file' => v'.file = file' :=
  ⟨dataLoop_stores v, fun s => (dataLoopFuelOver_follows faults _ v).follows s⟩

theorem checkDataOver_follows (host : Host) (file : FileHandle) (path : PathBytes)
    (v : DataLoop) :
    Follows file (checkData host path v) (checkDataOver faults host path v)
      fun r _ => r.2 = path := by
  refine Follows.after (readChecksumOver_halts faults host _ _) fun ⟨c, state⟩ => ?_
  dsimp only
  split
  · exact Follows.same (Stores.pure rfl)
  · exact Follows.same (Stores.fail _ _)

/-- Once the file is open, what fails only ends the run earlier. -/
theorem receiveDataOver_follows (host : Host) (file : FileHandle) (path : PathBytes)
    (endIndex startIndex : ℕ) :
    Follows file (receiveData host file path endIndex startIndex)
      (receiveDataOver faults host file path endIndex startIndex) fun r _ => r.2 = path := by
  refine Follows.after (readUntilOver_halts faults _ _ _ _) fun endIndex => ?_
  refine Follows.after_reads (slice_reads _ _) fun field => ?_
  refine (firstChunkOver_follows faults host file endIndex (startIndex + 4) _).bind ?_
  intro v file' hfile
  subst hfile
  refine (dataLoopOver_follows faults v).bind ?_
  intro v' file' hfile
  subst hfile
  exact checkDataOver_follows faults host v'.file path v'

end

/-! ### The task as a whole -/

/-- `part` is `whole` but for the file at `l`, of which it holds a first part. -/
def PartOf (l : Location) (part whole : FileSystem) : Prop :=
  (∀ l' ≠ l, part.node l' = whole.node l') ∧ ∃ content content', content <+: content' ∧
    part.node l = some (.file content) ∧ whole.node l = some (.file content')

theorem node_of_fileAt {fs : FileSystem} {l : Location} {content : List UInt8}
    (h : fs.fileAt l = some content) : fs.node l = some (.file content) := by
  unfold FileSystem.fileAt at h
  split at h
  · rename_i c hnode
    rw [hnode, Option.some.inj h]
  · cases h

/-- What was stored in an empty file. -/
theorem Truncates.partOf {file : FileHandle} {s s' s'' : ServerState}
    (h : Truncates file s s' s'') (hempty : s.disk.fileAt file.loc = some [])
    (hstart : file.offset = 0) : PartOf file.loc s'.disk s''.disk := by
  obtain ⟨data, data', hstored, hstored', hprefix⟩ := h
  refine ⟨fun l hl => (hstored.node_ne hl).trans (hstored'.node_ne hl).symm, data, data', hprefix,
    ?_, ?_⟩
  · exact node_of_fileAt (hstored.content hempty hstart)
  · exact node_of_fileAt (hstored'.content hempty hstart)

section

variable (host : Host) (startIndex endIndex : ℕ)

/-- The request ahead of the task in `s` is for a file at `l`. -/
def FileAhead (s : ServerState) (l : Location) : Prop :=
  ∃ path dir st s₁, Verified host startIndex endIndex (unread s startIndex endIndex) s path st s₁ ∧
    parentFolder (completePath path) = some dir ∧ l = destination (completePath path)

/-- A run of `s` has failed in `s'`, where the one without faults ends in `s''`: nothing was
sent, and the disk is as before or as the other one leaves it, up to the file asked for. -/
structure CutShort (s s' s'' : ServerState) : Prop where
  reply : s'.reply = s.reply
  disk : s'.disk = s.disk ∨ ∃ l, FileAhead host startIndex endIndex s l ∧ PartOf l s'.disk s''.disk

end

theorem Reads.cutShort {s s' : ServerState} (h : Reads s s') (host : Host)
    (startIndex endIndex : ℕ) (s'' : ServerState) :
    CutShort host startIndex endIndex s s' s'' := ⟨h.reply, Or.inl h.disk⟩

/-- The file that is ahead of the task is the one that its connection asks for. -/
theorem FileAhead.destined {host : Host} {socket : SegStream UInt8} {disk : FileSystem}
    {u : List UInt8} {l : Location} (helems : socket.elems = opSaveFile :: u)
    (h : FileAhead host 1 (firstCount socket disk) (firstRead socket disk) l) :
    Destined host socket l := by
  obtain ⟨path, dir, st, s₁, hver, hdir, hl⟩ := h
  exact ⟨path, dir, _, hver.asks helems hdir, hl⟩

/-- The path that `create_parent_folder` returns is that of the request. -/
theorem fileAhead_of_folder {host : Host} {s s₁ : ServerState} {startIndex endIndex : ℕ}
    {st : BufferState} {path : PathBytes} (hin : InBuffer s startIndex endIndex)
    (hrun : createParentFolder host endIndex startIndex s = (.ok (st, path), s₁)) :
    FileAhead host startIndex endIndex s (destination path) := by
  rcases createParentFolder_cases host hin hrun with ⟨rel, st', s₂, hver, hmake⟩ | ⟨-, ⟨e, he⟩, -⟩
  · rcases makeParentFolder_cases hmake with
      ⟨-, h0, -⟩ | ⟨dir, hdir, -, ⟨-, hok⟩ | ⟨_, _, _, h0⟩⟩
    · cases h0
    · obtain ⟨rfl, rfl⟩ := Prod.mk.inj (Except.ok.inj hok)
      exact ⟨rel, dir, _, s₂, hver, hdir, rfl⟩
    · cases h0
  · cases he

/-- A file that was just created is empty. -/
theorem created_empty {s : ServerState} {path : PathBytes} {file : FileHandle}
    (h : (s.disk.create path).1 = .ok file) :
    (afterCreate s path).disk.fileAt file.loc = some [] ∧ file.offset = 0 ∧
      file.loc = destination path := by
  rcases hc : s.disk.create path with ⟨o, disk⟩
  rw [hc] at h
  obtain rfl : o = .ok file := h
  obtain ⟨-, rfl, rfl⟩ := FileSystem.create_ok hc
  refine ⟨?_, rfl, rfl⟩
  show (s.disk.create path).2.fileAt _ = some []
  rw [hc]
  exact FileSystem.fileAt_set_file _ _ _

section

variable (faults : Faults) (host : Host)

theorem saveFileOver_cases {s : ServerState} {startIndex endIndex : ℕ}
    (hin : InBuffer s startIndex endIndex) :
    saveFileOver faults host endIndex startIndex s = saveFile host endIndex startIndex s ∨
      ∃ φ s', saveFileOver faults host endIndex startIndex s = (.error φ, s') ∧
        CutShort host startIndex endIndex s s' (saveFile host endIndex startIndex s).2 := by
  rcases createParentFolderOver_cases faults host endIndex startIndex s with
    hsame | ⟨msg, s', hrun, hreads⟩
  · rcases hcpf : createParentFolder host endIndex startIndex s with
      ⟨(e | msg | _) | ⟨st, path⟩, s₁⟩
    · refine Or.inl ?_
      rw [saveFile, saveFileOver, Exec.bind_ok (Exec.attempt_err hcpf),
        Exec.bind_ok (Exec.attempt_err (hsame.trans hcpf))]
    · refine Or.inl ?_
      rw [saveFile, saveFileOver, Exec.bind_fault (Exec.attempt_panic hcpf),
        Exec.bind_fault (Exec.attempt_panic (hsame.trans hcpf))]
    · refine Or.inl ?_
      rw [saveFile, saveFileOver, Exec.bind_fault (Exec.attempt_outOfFuel hcpf),
        Exec.bind_fault (Exec.attempt_outOfFuel (hsame.trans hcpf))]
    · have hreply : s₁.reply = s.reply := createParentFolder_reply hin hcpf
      rw [saveFile_after_folder hcpf, saveFileOver,
        Exec.bind_ok (Exec.attempt_ok (hsame.trans hcpf))]
      dsimp only
      cases hcreate : (s₁.disk.create path).1 with
      | error e =>
          refine Or.inl ?_
          rw [Exec.bind_fault (createFile_fails hcreate),
            Exec.bind_fault (createFile_fails hcreate)]
      | ok file =>
          rw [Exec.bind_ok (createFile_run hcreate), Exec.bind_ok (createFile_run hcreate)]
          rcases (receiveDataOver_follows faults host file path st.endIndex st.startIndex).follows
            (afterCreate s₁ path) with hsame' | ⟨φ, s', hrun, htruncates⟩
          · exact Or.inl hsame'
          · obtain ⟨hempty, hstart, hloc⟩ := created_empty hcreate
            have hahead : FileAhead host startIndex endIndex s file.loc :=
              hloc ▸ fileAhead_of_folder hin hcpf
            refine Or.inr ⟨φ, s', hrun, ?_,
              Or.inr ⟨file.loc, hahead, htruncates.partOf hempty hstart⟩⟩
            obtain ⟨data, data', hstored, -⟩ := htruncates
            exact hstored.reply.trans hreply
  · exact Or.inr ⟨.panic msg, s', Exec.bind_fault (Exec.attempt_panic hrun),
      hreads.cutShort _ _ _ _⟩

/-! ### From the first read to the function that serves -/

section

variable {socket : SegStream UInt8} {disk : FileSystem} {u : List UInt8}
  (hread : readDataOver faults readErr 0 (accepted socket disk) = readData 0 (accepted socket disk))

include hread

theorem connectionTaskOver_noData (h : socket.elems = []) :
    connectionTaskOver faults host (accepted socket disk)
      = (.ok .noData, replied (firstRead socket disk) [255, 255]) := by
  rw [connectionTaskOver, Exec.bind_ok (hread.trans (firstRead_run socket disk)),
    if_pos ((firstCount_eq_zero_iff socket disk).mpr h)]
  rfl

theorem connectionTaskOver_folder (h : socket.elems = opCreateParentFolder :: u) :
    connectionTaskOver faults host (accepted socket disk)
      = folderServed (createParentFolderOver faults host (firstCount socket disk) 1
          (firstRead socket disk)) := by
  obtain ⟨hne, hop, _⟩ := firstRead_unread socket disk h
  rw [connectionTaskOver, Exec.bind_ok (hread.trans (firstRead_run socket disk)), if_neg hne,
    Exec.get_bind, hop, if_pos rfl]
  rcases hrun : createParentFolderOver faults host (firstCount socket disk) 1
    (firstRead socket disk) with ⟨(e | msg | _) | r, s'⟩
  · rw [Exec.bind_ok (Exec.attempt_err hrun)]
    rfl
  · rw [Exec.bind_fault (Exec.attempt_panic hrun)]
    rfl
  · rw [Exec.bind_fault (Exec.attempt_outOfFuel hrun)]
    rfl
  · rw [Exec.bind_ok (Exec.attempt_ok hrun)]
    rfl

theorem connectionTaskOver_save (h : socket.elems = opSaveFile :: u) :
    connectionTaskOver faults host (accepted socket disk)
      = saveServed (saveFileOver faults host (firstCount socket disk) 1
          (firstRead socket disk)) := by
  obtain ⟨hne, hop, _⟩ := firstRead_unread socket disk h
  rw [connectionTaskOver, Exec.bind_ok (hread.trans (firstRead_run socket disk)), if_neg hne,
    Exec.get_bind, hop, if_neg (by decide), if_pos rfl]
  rcases hrun : saveFileOver faults host (firstCount socket disk) 1 (firstRead socket disk)
    with ⟨(e | msg | _) | r, s'⟩
  · rw [Exec.bind_ok (Exec.attempt_err hrun)]
    rfl
  · rw [Exec.bind_fault (Exec.attempt_panic hrun)]
    rfl
  · rw [Exec.bind_fault (Exec.attempt_outOfFuel hrun)]
    rfl
  · rw [Exec.bind_ok (Exec.attempt_ok hrun)]
    rfl

theorem connectionTaskOver_other {op : UInt8} (h : socket.elems = op :: u)
    (hfolder : op ≠ opCreateParentFolder) (hsave : op ≠ opSaveFile) :
    connectionTaskOver faults host (accepted socket disk)
      = (.ok (.unknownOperation op), firstRead socket disk) := by
  obtain ⟨hne, hop, _⟩ := firstRead_unread socket disk h
  rw [connectionTaskOver, Exec.bind_ok (hread.trans (firstRead_run socket disk)), if_neg hne,
    Exec.get_bind, hop, if_neg hfolder, if_neg hsave]
  rfl

end

end

theorem saveServed_disk (r : Except (Fault IoError) (BufferState × PathBytes) × ServerState) :
    (saveServed r).2.disk = r.2.disk := by
  obtain ⟨(e | msg | _) | r, s⟩ := r <;> rfl

theorem not_succeeded_error (φ : Fault IoError) (reply : List UInt8) :
    ¬ Outcome.Succeeded (.error φ, reply) := by
  rintro ⟨path, h | h⟩ <;> cases h

/-- **What fails does no harm.**  Whatever reads of the socket and writes to the file fail, and
after however many bytes: the task of a connection runs as it does without faults, or it
reports no success and answers none, and the disk is as before, or as it is left without
faults but for one file, of which it holds a first part; and that is the one at the destination of
the save request on the stream. -/
theorem faults_contained (faults : Faults) (host : Host) (socket : SegStream UInt8)
    (disk : FileSystem) :
    connectionTaskOver faults host (accepted socket disk)
        = connectionTask host (accepted socket disk) ∨
      ∃ o s', connectionTaskOver faults host (accepted socket disk) = (o, s') ∧
        ¬ Outcome.Succeeded (o, s'.reply) ∧ (s'.reply = [] ∨ s'.reply = [255, 255]) ∧
        (s'.disk = disk ∨ ∃ l, Destined host socket l ∧
          PartOf l s'.disk (connectionTask host (accepted socket disk)).2.disk) := by
  rcases (readDataOver_halts faults readErr 0).halts (accepted socket disk) with
    hread | ⟨msg, s', hrun, hreads⟩
  · rcases helems : socket.elems with _ | ⟨op, u⟩
    · refine Or.inl ?_
      rw [connectionTaskOver_noData faults host hread helems,
        connectionTask_noData host socket disk helems]
    · by_cases hfolder : op = opCreateParentFolder
      · subst hfolder
        rw [connectionTaskOver_folder faults host hread helems,
          connectionTask_folder host socket disk helems]
        rcases createParentFolderOver_cases faults host (firstCount socket disk) 1
          (firstRead socket disk) with hsame | ⟨msg, s', hrun, hreads⟩
        · exact Or.inl (congrArg folderServed hsame)
        · rw [hrun]
          exact Or.inr ⟨_, s', rfl, not_succeeded_error _ _, Or.inl hreads.reply,
            Or.inl hreads.disk⟩
      · by_cases hsave : op = opSaveFile
        · subst hsave
          obtain ⟨-, -, hin, -⟩ := firstRead_unread socket disk helems
          rw [connectionTaskOver_save faults host hread helems,
            connectionTask_save host socket disk helems]
          rcases saveFileOver_cases faults host hin with hsame | ⟨φ, s', hrun, hcut⟩
          · exact Or.inl (congrArg saveServed hsame)
          · have hreply : s'.reply = [] := hcut.reply
            have hdisk : s'.disk = disk ∨ ∃ l, Destined host socket l ∧ PartOf l s'.disk
                (saveFile host (firstCount socket disk) 1 (firstRead socket disk)).2.disk :=
              hcut.disk.imp_right fun ⟨l, hahead, hpart⟩ => ⟨l, hahead.destined helems, hpart⟩
            rw [hrun, saveServed_disk]
            cases φ with
            | err e =>
                refine Or.inr ⟨_, _, rfl, ?_, Or.inr (congrArg (· ++ _) hreply), hdisk⟩
                rintro ⟨path, h | h⟩ <;> cases h
            | panic msg =>
                exact Or.inr ⟨_, s', rfl, not_succeeded_error _ _, Or.inl hreply, hdisk⟩
            | outOfFuel =>
                exact Or.inr ⟨_, s', rfl, not_succeeded_error _ _, Or.inl hreply, hdisk⟩
        · refine Or.inl ?_
          rw [connectionTaskOver_other faults host hread helems hfolder hsave,
            connectionTask_other host socket disk helems hfolder hsave]
  · exact Or.inr ⟨_, s', Exec.bind_fault hrun, not_succeeded_error _ _, Or.inl hreads.reply,
      Or.inl hreads.disk⟩

/-- A request to save three bytes, of which one comes in the first segment. -/
def twoPartSegs : List (List UInt8) :=
  [opSaveFile :: (saveFrame ieeeHost [97] [1, 2, 3]).take 12,
    (saveFrame ieeeHost [97] [1, 2, 3]).drop 12]

theorem twoPartSegs_nonempty : ∀ seg ∈ twoPartSegs, seg ≠ [] := by decide +kernel

def twoPartSave : SegStream UInt8 := ⟨twoPartSegs, twoPartSegs_nonempty⟩

/-- A disk that is full after two bytes. -/
def fullDisk : Faults :=
  ⟨fun _ => false, fun _ file data =>
    if 2 < file.offset + data.length then some (2 - file.offset, ⟨.other, "disk full"⟩)
    else Option.none⟩

/-- The file is left with its first two bytes, and the task answers that it has failed. -/
example : ((connectionTaskOver fullDisk ieeeHost (accepted twoPartSave savingDisk)).2.reply,
    (connectionTaskOver fullDisk ieeeHost (accepted twoPartSave savingDisk)).2.disk.fileAt
      (destination (completePath [97]))) = ([255, 255], some [1, 2]) := by decide +kernel

end Pcopy.Server
