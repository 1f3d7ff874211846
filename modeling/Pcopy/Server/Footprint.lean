import Pcopy.Server.PathField

/-!
# What a save leaves on the disk

Every change a task makes to the file system is a call in its effect log, and replaying
the log gives the change (`replay`).  Once `save_file` has opened its file, it only writes
to it, each write where the last one ended; `Stored` says so of any part of the run, and
`receiveData_stores` proves it for the whole rest of `save_file`, whatever the stream
holds, however it is cut and however the run ends.

`SaveRun` is the inversion of `save_file`: the points at which it can end before the file
is open, and the run that follows when it is.
-/

namespace Pcopy.Server

open Pcopy.Lib Pcopy.Path

/-! ### Replaying a log -/

/-- What a call does to the file system. -/
def Effect.apply (fs : FileSystem) : Effect → FileSystem
  | .createDirAll dir => (fs.createDirAll dir).2
  | .create p => (fs.create p).2
  | .write file data => fs.write file data

/-- What a log does to the file system. -/
def replay (fs : FileSystem) (log : List Effect) : FileSystem := log.foldl Effect.apply fs

@[simp] theorem replay_nil (fs : FileSystem) : replay fs [] = fs := rfl

@[simp] theorem replay_cons (fs : FileSystem) (e : Effect) (log : List Effect) :
    replay fs (e :: log) = replay (e.apply fs) log := rfl

@[simp] theorem replay_append (fs : FileSystem) (log log' : List Effect) :
    replay fs (log ++ log') = replay (replay fs log) log' := List.foldl_append ..

/-- Writes of one chunk after the other, each where the last one ended. -/
def writes (file : FileHandle) : List (List UInt8) → List Effect
  | [] => []
  | c :: cs => Effect.write file c :: writes (file.advance c.length) cs

@[simp] theorem loc_advance (file : FileHandle) (n : ℕ) : (file.advance n).loc = file.loc := rfl

@[simp] theorem offset_advance (file : FileHandle) (n : ℕ) :
    (file.advance n).offset = file.offset + n := rfl

@[simp] theorem advance_zero (file : FileHandle) : file.advance 0 = file := rfl

@[simp] theorem advance_advance (file : FileHandle) (m n : ℕ) :
    (file.advance m).advance n = file.advance (m + n) := by
  simp only [FileHandle.advance, Nat.add_assoc]

theorem writes_append (cs cs' : List (List UInt8)) :
    ∀ file : FileHandle,
      writes file (cs ++ cs') = writes file cs ++ writes (file.advance cs.flatten.length) cs' := by
  induction cs with
  | nil => intro file; rfl
  | cons c cs ih =>
      intro file
      simp only [List.cons_append, writes, ih, advance_advance, List.flatten_cons,
        List.length_append]

/-- Writing leaves every other place of the disk alone. -/
theorem node_replay_writes_ne (cs : List (List UInt8)) :
    ∀ (fs : FileSystem) (file : FileHandle) {l : Location}, l ≠ file.loc →
      (replay fs (writes file cs)).node l = fs.node l := by
  induction cs with
  | nil => intro fs file l _; rfl
  | cons c cs ih =>
      intro fs file l hl
      rw [writes, replay_cons, ih _ _ (by simpa using hl)]
      exact FileSystem.node_write_ne fs file c hl

/-- **Writing chunk after chunk from the end of a file appends them.** -/
theorem fileAt_replay_writes (cs : List (List UInt8)) :
    ∀ (fs : FileSystem) (file : FileHandle) (content : List UInt8),
      fs.fileAt file.loc = some content → file.offset = content.length →
      (replay fs (writes file cs)).fileAt file.loc = some (content ++ cs.flatten) := by
  induction cs with
  | nil => intro fs file content hfile _; simpa [writes] using hfile
  | cons c cs ih =>
      intro fs file content hfile hoff
      have hwrite := FileSystem.fileAt_write_self hfile c
      rw [hoff, writeAt_end] at hwrite
      have hrec := ih (fs.write file c) (file.advance c.length) (content ++ c) hwrite
        (by simp [hoff])
      rw [writes, replay_cons, List.flatten_cons, ← List.append_assoc]
      exact hrec

/-! ### The part of a run that stores data -/

/-- From `s` to `s'` the bytes `data` were written to the open file, chunk by chunk, and
nothing else was done to the disk. -/
structure Stored (file : FileHandle) (data : List UInt8) (s s' : ServerState) : Prop
    extends Consumes s s' where
  log : ∃ chunks, chunks.flatten = data ∧ s'.effects = s.effects ++ writes file chunks ∧
    s'.disk = replay s.disk (writes file chunks)

theorem Reads.stored {s s' : ServerState} (h : Reads s s') (file : FileHandle) :
    Stored file [] s s' :=
  ⟨h.toConsumes, [], rfl, by simp [writes, h.effects], by simp [writes, h.disk]⟩

theorem Stored.trans {file : FileHandle} {data data' : List UInt8} {s s₁ s' : ServerState}
    (h : Stored file data s s₁) (h' : Stored (file.advance data.length) data' s₁ s') :
    Stored file (data ++ data') s s' := by
  obtain ⟨cs, rfl, heff, hdisk⟩ := h.log
  obtain ⟨cs', rfl, heff', hdisk'⟩ := h'.log
  refine ⟨h.toConsumes.trans h'.toConsumes, cs ++ cs', List.flatten_append, ?_, ?_⟩
  · rw [heff', heff, writes_append, List.append_assoc]
  · rw [hdisk', hdisk, writes_append, replay_append]

/-- The rest of the disk is as it was. -/
theorem Stored.node_ne {file : FileHandle} {data : List UInt8} {s s' : ServerState}
    (h : Stored file data s s') {l : Location} (hl : l ≠ file.loc) :
    s'.disk.node l = s.disk.node l := by
  obtain ⟨cs, _, _, hdisk⟩ := h.log
  rw [hdisk, node_replay_writes_ne cs _ _ hl]

/-- A file that was empty when it was opened holds exactly what was stored. -/
theorem Stored.content {file : FileHandle} {data : List UInt8} {s s' : ServerState}
    (h : Stored file data s s') (hempty : s.disk.fileAt file.loc = some [])
    (hstart : file.offset = 0) : s'.disk.fileAt file.loc = some data := by
  obtain ⟨cs, rfl, _, hdisk⟩ := h.log
  rw [hdisk, fileAt_replay_writes cs _ _ [] hempty hstart, List.nil_append]

/-- The state after a write. -/
def afterWrite (s : ServerState) (file : FileHandle) (data : List UInt8) : ServerState :=
  { s with disk := s.disk.write file data, effects := s.effects ++ [Effect.write file data] }

theorem writeAll_run (file : FileHandle) (data : List UInt8) (s : ServerState) :
    writeAll file data s = (.ok (file.advance data.length), afterWrite s file data) := rfl

theorem stored_afterWrite (s : ServerState) (file : FileHandle) (data : List UInt8) :
    Stored file data s (afterWrite s file data) :=
  ⟨⟨rfl, rfl, List.suffix_rfl, fun _ _ => Iff.rfl⟩, [data], by simp, rfl, rfl⟩

/-! ### Steps that do not touch the disk -/

theorem Reads.bind {α β : Type} {x : Task α} {f : α → Task β} (hx : Exec.Moves Reads x)
    (hf : ∀ a, Exec.Moves Reads (f a)) : Exec.Moves Reads (x >>= f) := by
  refine Exec.Moves.bind ?_ hx hf
  intro s s₁ s'
  exact Reads.trans

theorem readData_reads (endIndex : ℕ) : Exec.Moves Reads (readData endIndex) := by
  intro s
  by_cases h : endIndex ≤ s.buf.length
  · rw [readData_run h]
    exact reads_afterRead h
  · rw [readData, if_neg h]
    exact Reads.refl s

theorem slice_reads (a b : ℕ) : Exec.Moves Reads (slice a b) := by
  intro s
  unfold slice
  split <;> exact Reads.refl s

theorem checkedSub_reads (a b : ℕ) : Exec.Moves Reads (checkedSub a b) := by
  intro s
  unfold checkedSub
  split <;> exact Reads.refl s

theorem readUntilFuel_reads (need : ℕ) (eof : ℕ → IoError) (fuel : ℕ) :
    ∀ endIndex startIndex, Exec.Moves Reads (readUntilFuel need eof fuel endIndex startIndex) := by
  induction fuel with
  | zero => intro endIndex startIndex s; exact Reads.refl s
  | succ fuel ih =>
      intro endIndex startIndex
      refine Reads.bind (checkedSub_reads _ _) ?_
      intro available
      split
      · refine Reads.bind (readData_reads _) ?_
        intro n
        split
        · exact Reads.refl
        · exact ih _ _
      · exact Reads.refl

theorem readUntil_reads (need : ℕ) (eof : ℕ → IoError) (endIndex startIndex : ℕ) :
    Exec.Moves Reads (readUntil need eof endIndex startIndex) :=
  fun s => readUntilFuel_reads need eof _ endIndex startIndex s

theorem readChecksum_reads (host : Host) (endIndex startIndex : ℕ) :
    Exec.Moves Reads (readChecksum host endIndex startIndex) :=
  Reads.bind (readUntil_reads _ _ _ _) fun _ => Reads.bind (slice_reads _ _) fun _ => Reads.refl

theorem readPathField_reads (host : Host) (endIndex startIndex : ℕ) :
    Exec.Moves Reads (readPathField host endIndex startIndex) := by
  refine Reads.bind (readUntil_reads _ _ _ _) fun endIndex => Reads.bind (slice_reads _ _)
    fun field => Reads.bind (readUntil_reads _ _ _ _) fun endIndex =>
      Reads.bind (slice_reads _ _) fun path => ?_
  split
  · exact Reads.bind (readChecksum_reads _ _ _) fun _ => Reads.refl
  · exact Reads.refl

/-! ### Steps that write to one open file -/

/-- However `x` ends, it only stores data at `file`; a value it returns is related by `post`
to the handle after it. -/
def Stores {α : Type} (file : FileHandle) (x : Task α) (post : α → FileHandle → Prop) : Prop :=
  ∀ s, ∃ data, Stored file data s (x s).2 ∧
    ∀ a, (x s).1 = .ok a → post a (file.advance data.length)

section Stores

variable {α β : Type} {file : FileHandle}

theorem Stores.of_reads {x : Task α} (h : Exec.Moves Reads x) :
    Stores file x fun _ file' => file' = file :=
  fun s => ⟨[], (h s).stored file, fun _ _ => rfl⟩

theorem Stores.mono {x : Task α} {post post' : α → FileHandle → Prop} (h : Stores file x post)
    (himp : ∀ a file', post a file' → post' a file') : Stores file x post' := by
  intro s
  obtain ⟨data, hstored, hpost⟩ := h s
  exact ⟨data, hstored, fun a ha => himp a _ (hpost a ha)⟩

theorem Stores.fail (e : IoError) (post : α → FileHandle → Prop) :
    Stores file (Exec.fail e) post :=
  fun s => ⟨[], (Reads.refl s).stored file, fun _ h => nomatch h⟩

theorem Stores.unwind (msg : String) (post : α → FileHandle → Prop) :
    Stores file (Exec.unwind msg) post :=
  fun s => ⟨[], (Reads.refl s).stored file, fun _ h => nomatch h⟩

theorem Stores.pure {a : α} {post : α → FileHandle → Prop} (h : post a file) :
    Stores file (pure a : Task α) post :=
  fun s => ⟨[], (Reads.refl s).stored file, fun _ h' => Except.ok.inj h' ▸ h⟩

/-- **Sequencing.**  The continuation stores where the first part stopped. -/
theorem Stores.bind {x : Task α} {f : α → Task β} {mid : α → FileHandle → Prop}
    {post : β → FileHandle → Prop} (hx : Stores file x mid)
    (hf : ∀ a file', mid a file' → Stores file' (f a) post) : Stores file (x >>= f) post := by
  intro s
  obtain ⟨data, hstored, hmid⟩ := hx s
  rcases hrun : x s with ⟨_ | a, s₁⟩
  · rw [hrun] at hstored
    rw [Exec.bind_fault hrun]
    exact ⟨data, hstored, fun _ h => nomatch h⟩
  · rw [hrun] at hstored hmid
    obtain ⟨data', hstored', hpost⟩ := hf a _ (hmid a rfl) s₁
    rw [Exec.bind_ok hrun]
    refine ⟨data ++ data', hstored.trans hstored', ?_⟩
    intro b hb
    rw [List.length_append, ← advance_advance]
    exact hpost b hb

/-- A first part that does not touch the disk. -/
theorem Stores.after_reads {x : Task α} {f : α → Task β} {post : β → FileHandle → Prop}
    (hx : Exec.Moves Reads x) (hf : ∀ a, Stores file (f a) post) : Stores file (x >>= f) post := by
  refine (Stores.of_reads hx).bind ?_
  rintro a file' rfl
  exact hf a

end Stores

theorem writeAll_stores (file : FileHandle) (data : List UInt8) :
    Stores file (writeAll file data) fun file₁ file' => file₁ = file' :=
  fun s => ⟨data, stored_afterWrite s file data, fun _ h => (Except.ok.inj h).symm⟩

theorem firstChunk_stores (host : Host) (file : FileHandle)
    (endIndex startIndex fileDataLength : ℕ) :
    Stores file (firstChunk host file endIndex startIndex fileDataLength)
      fun v file' => v.file = file' := by
  refine Stores.after_reads (slice_reads _ _) ?_
  intro chunk
  have hsome : Stores file (writeSome host file chunk) fun r file' => r.2 = file' :=
    (writeAll_stores _ _).bind fun _ _ h => Stores.pure h
  refine hsome.bind ?_
  rintro ⟨written, file₁⟩ _ rfl
  refine Stores.after_reads (checkedSub_reads _ _) ?_
  intro remaining
  exact Stores.pure rfl

theorem lastChunk_stores (v : DataLoop) :
    Stores v.file (lastChunk v) fun v' file' => v'.file = file' := by
  refine Stores.after_reads (slice_reads _ _) ?_
  intro chunk
  refine (writeAll_stores _ _).bind ?_
  rintro file _ rfl
  refine Stores.after_reads (checkedSub_reads _ _) ?_
  intro remaining
  split
  · exact Stores.pure rfl
  · exact Stores.unwind _ _

theorem middleChunk_stores (n : ℕ) (v : DataLoop) :
    Stores v.file (middleChunk n v) fun v' file' => v'.file = file' := by
  refine Stores.after_reads (slice_reads _ _) ?_
  intro chunk
  refine (writeAll_stores _ _).bind ?_
  rintro file _ rfl
  refine Stores.after_reads (checkedSub_reads _ _) ?_
  intro remaining
  exact Stores.pure rfl

@[simp] theorem rewind_file (bufLen : ℕ) (v : DataLoop) : (rewind bufLen v).file = v.file := by
  unfold rewind
  split <;> rfl

theorem dataTurn_stores (v : DataLoop) :
    Stores v.file (dataTurn v) fun v' file' => v'.file = file' := by
  refine Stores.after_reads Reads.refl ?_
  intro s
  refine Stores.after_reads (readData_reads _) ?_
  intro n
  split
  · exact Stores.after_reads (checkedSub_reads _ _) fun _ => Stores.fail _ _
  · rw [← rewind_file s.buf.length v]
    generalize rewind s.buf.length v = w
    dsimp only
    split
    · exact lastChunk_stores { w with endIndex := w.endIndex + n }
    · exact middleChunk_stores n { w with endIndex := w.endIndex + n }

theorem dataLoopFuel_stores (fuel : ℕ) :
    ∀ v : DataLoop, Stores v.file (dataLoopFuel fuel v) fun v' file' => v'.file = file' := by
  induction fuel with
  | zero =>
      intro v s
      exact ⟨[], (Reads.refl s).stored v.file, fun _ h => nomatch h⟩
  | succ fuel ih =>
      intro v
      refine Stores.after_reads (checkedSub_reads _ _) ?_
      intro available
      split
      · refine (dataTurn_stores v).bind ?_
        rintro v' _ rfl
        exact ih v'
      · exact Stores.pure rfl

theorem dataLoop_stores (v : DataLoop) :
    Stores v.file (dataLoop v) fun v' file' => v'.file = file' :=
  fun s => dataLoopFuel_stores _ v s

theorem checkData_stores (host : Host) (file : FileHandle) (path : PathBytes) (v : DataLoop) :
    Stores file (checkData host path v) fun r _ => r.2 = path := by
  refine Stores.after_reads (readChecksum_reads _ _ _) ?_
  rintro ⟨receivedChecksum, state⟩
  dsimp only
  split
  · exact Stores.pure rfl
  · exact Stores.fail _ _

/-- **Once the file is open, the rest of `save_file` only appends to it.** -/
theorem receiveData_stores (host : Host) (file : FileHandle) (path : PathBytes)
    (endIndex startIndex : ℕ) :
    Stores file (receiveData host file path endIndex startIndex) fun r _ => r.2 = path := by
  refine Stores.after_reads (readUntil_reads _ _ _ _) ?_
  intro endIndex
  refine Stores.after_reads (slice_reads _ _) ?_
  intro field
  refine (firstChunk_stores host file endIndex (startIndex + 4) _).bind ?_
  rintro v _ rfl
  refine (dataLoop_stores v).bind ?_
  rintro v' _ rfl
  exact checkData_stores host v'.file path v'

/-! ### Taking a run of `save_file` apart -/

/-- The state after a file was created. -/
def afterCreate (s : ServerState) (path : PathBytes) : ServerState :=
  { s with
    disk := (s.disk.create path).2
    effects := s.effects ++ [Effect.create path] }

/-- The ways in which `save_file`, started at `s`, ends: with an error or a panic before it
has opened its file, or as the rest of the function ends once it has. -/
inductive SaveRun (host : Host) (startIndex endIndex : ℕ) (s : ServerState) :
    Except (Fault IoError) (BufferState × PathBytes) → ServerState → Prop
  | notVerified (e : IoError) (s' : ServerState) (hreads : Reads s s')
      (hnone : ∀ path rest, ¬ PathFieldAhead s.buf.length startIndex
        (unread s startIndex endIndex) path (crc32 host path) rest) :
      SaveRun host startIndex endIndex s (.error (.err e)) s'
  | noParent (path : PathBytes) (st : BufferState) (s₁ : ServerState)
      (hver : Verified host startIndex endIndex (unread s startIndex endIndex) s path st s₁)
      (hdir : parentFolder (completePath path) = none) :
      SaveRun host startIndex endIndex s (.error (.panic noParentMessage)) s₁
  | dirFailed (path : PathBytes) (st : BufferState) (s₁ : ServerState) (dir : List Component)
      (e e' : IoError)
      (hver : Verified host startIndex endIndex (unread s startIndex endIndex) s path st s₁)
      (hdir : parentFolder (completePath path) = some dir)
      (hmk : (s₁.disk.createDirAll dir).1 = .error e) :
      SaveRun host startIndex endIndex s (.error (.err e')) (afterDir s₁ dir)
  | createFailed (path : PathBytes) (st : BufferState) (s₁ : ServerState)
      (dir : List Component) (e : IoError)
      (hver : Verified host startIndex endIndex (unread s startIndex endIndex) s path st s₁)
      (hdir : parentFolder (completePath path) = some dir)
      (hmk : (s₁.disk.createDirAll dir).1 = .ok ())
      (hcreate : ((afterDir s₁ dir).disk.create (completePath path)).1 = .error e) :
      SaveRun host startIndex endIndex s (.error (.err e)) (afterDir s₁ dir)
  | opened (path : PathBytes) (st : BufferState) (s₁ : ServerState) (dir : List Component)
      (file : FileHandle) (o : Except (Fault IoError) (BufferState × PathBytes))
      (s' : ServerState)
      (hver : Verified host startIndex endIndex (unread s startIndex endIndex) s path st s₁)
      (hdir : parentFolder (completePath path) = some dir)
      (hmk : (s₁.disk.createDirAll dir).1 = .ok ())
      (hcreate : ((afterDir s₁ dir).disk.create (completePath path)).1 = .ok file)
      (hrun : receiveData host file (completePath path) st.endIndex st.startIndex
        (afterCreate (afterDir s₁ dir) (completePath path)) = (o, s')) :
      SaveRun host startIndex endIndex s o s'

theorem createFile_run {s : ServerState} {path : PathBytes} {file : FileHandle}
    (h : (s.disk.create path).1 = .ok file) :
    createFile path s = (.ok file, afterCreate s path) := by
  rcases hc : s.disk.create path with ⟨o, disk⟩
  rw [hc] at h
  obtain rfl : o = .ok file := h
  simp only [createFile, afterCreate, hc]

theorem createFile_fails {s : ServerState} {path : PathBytes} {e : IoError}
    (h : (s.disk.create path).1 = .error e) : createFile path s = (.error (.err e), s) := by
  rcases hc : s.disk.create path with ⟨o, disk⟩
  rw [hc] at h
  obtain rfl : o = .error e := h
  simp only [createFile, hc, FileSystem.create_error hc]

theorem createFile_eq_ok {s s' : ServerState} {path : PathBytes} {file : FileHandle} :
    createFile path s = (.ok file, s') ↔
      (s.disk.create path).1 = .ok file ∧ s' = afterCreate s path := by
  constructor
  · intro h
    cases hc : (s.disk.create path).1 with
    | error e =>
        rw [createFile_fails hc] at h
        cases h
    | ok file' =>
        rw [createFile_run hc] at h
        cases h
        exact ⟨rfl, rfl⟩
  · rintro ⟨hc, rfl⟩
    exact createFile_run hc

/-- Past `create_parent_folder`, `save_file` opens the file and goes on. -/
theorem saveFile_after_folder {host : Host} {s s₁ : ServerState} {startIndex endIndex : ℕ}
    {st : BufferState} {path : PathBytes}
    (hcpf : createParentFolder host endIndex startIndex s = (.ok (st, path), s₁)) :
    saveFile host endIndex startIndex s
      = (createFile path >>= fun file =>
          receiveData host file path st.endIndex st.startIndex) s₁ := by
  rw [saveFile, Exec.bind_ok (Exec.attempt_ok hcpf)]

/-- **Every run of `save_file` is one of these.** -/
theorem saveFile_run (host : Host) {s s' : ServerState} {startIndex endIndex : ℕ}
    (hin : InBuffer s startIndex endIndex)
    {o : Except (Fault IoError) (BufferState × PathBytes)}
    (hrun : saveFile host endIndex startIndex s = (o, s')) :
    SaveRun host startIndex endIndex s o s' := by
  rcases hcpf : createParentFolder host endIndex startIndex s with ⟨o₁, s₁'⟩
  rcases createParentFolder_cases host hin hcpf with
    ⟨path, st, s₁, hver, hmake⟩ | ⟨hreads, ⟨e, rfl⟩, hnone⟩
  · rcases makeParentFolder_cases hmake with
      ⟨hdir, rfl, rfl⟩ | ⟨dir, hdir, rfl, ⟨hmk, rfl⟩ | ⟨e, e', hmk, rfl⟩⟩
    · rw [saveFile, Exec.bind_fault (Exec.attempt_panic hcpf)] at hrun
      obtain ⟨rfl, rfl⟩ := Prod.mk.inj hrun
      exact .noParent path st _ hver hdir
    · rw [saveFile_after_folder hcpf] at hrun
      cases hcreate : ((afterDir s₁ dir).disk.create (completePath path)).1 with
      | error e =>
          rw [Exec.bind_fault (createFile_fails hcreate)] at hrun
          obtain ⟨rfl, rfl⟩ := Prod.mk.inj hrun
          exact .createFailed path st s₁ dir e hver hdir hmk hcreate
      | ok file =>
          rw [Exec.bind_ok (createFile_run hcreate)] at hrun
          exact .opened path st s₁ dir file o s' hver hdir hmk hcreate hrun
    · rw [saveFile, Exec.bind_ok (Exec.attempt_err hcpf)] at hrun
      obtain ⟨rfl, rfl⟩ := Prod.mk.inj hrun
      exact .dirFailed path st s₁ dir e _ hver hdir hmk
  · rw [saveFile, Exec.bind_ok (Exec.attempt_err hcpf)] at hrun
    obtain ⟨rfl, rfl⟩ := Prod.mk.inj hrun
    exact .notVerified _ _ hreads hnone

end Pcopy.Server
