import Pcopy.Server.Footprint

/-!
# From the first read of a connection to the function that serves it

The first read of a connection task is issued into the whole buffer; the operation byte is
the first byte of the stream, and what `create_parent_folder` or `save_file` then finds
unread is the rest of it, however little the first read returned.

`connectionTask_folder` and `connectionTask_save` reduce a connection to the run of the
function that serves it; `connectionTask_log` is what any connection, served in any way,
has asked of the file system.
-/

namespace Pcopy.Server

open Pcopy.Lib Pcopy.Path

variable (host : Host) (socket : SegStream UInt8) (disk : FileSystem)

/-- The state after the first read. -/
def firstRead : ServerState := afterRead (accepted socket disk) 0

/-- The count of the first read. -/
def firstCount : ℕ := readCount (accepted socket disk) 0

theorem accepted_inBuffer : InBuffer (accepted socket disk) 0 0 := ⟨le_rfl, Nat.zero_le _⟩

theorem accepted_bufLen : (accepted socket disk).buf.length = 1024 := List.length_replicate ..

theorem firstRead_reads : Reads (accepted socket disk) (firstRead socket disk) :=
  reads_afterRead (Nat.zero_le _)

theorem firstRead_bufLen : (firstRead socket disk).buf.length = 1024 := by
  rw [(firstRead_reads socket disk).bufLen, accepted_bufLen]

theorem firstRead_run :
    readData 0 (accepted socket disk)
      = (.ok (firstCount socket disk), firstRead socket disk) :=
  readData_run (Nat.zero_le _)

/-- The first read returns nothing exactly when the client closed without a byte. -/
theorem firstCount_eq_zero_iff : firstCount socket disk = 0 ↔ socket.elems = [] := by
  rw [firstCount, readCount_eq_zero_iff (Nat.zero_le _)]
  constructor
  · rintro (h | h)
    · rw [accepted_bufLen] at h
      exact nomatch h
    · exact h
  · exact Or.inr

/-- After the first read the operation byte is at the front of the buffer and the rest of
the stream is unread. -/
theorem firstRead_unread {op : UInt8} {u : List UInt8} (h : socket.elems = op :: u) :
    firstCount socket disk ≠ 0 ∧ (firstRead socket disk).buf.headD 0 = op ∧
      InBuffer (firstRead socket disk) 1 (firstCount socket disk) ∧
      unread (firstRead socket disk) 1 (firstCount socket disk) = u := by
  have hne : firstCount socket disk ≠ 0 := by
    rw [Ne, firstCount_eq_zero_iff, h]
    simp
  have hin := inBuffer_afterRead (accepted_inBuffer socket disk)
  have hun := unread_afterRead (accepted_inBuffer socket disk)
  rw [Nat.zero_add] at hin hun
  change InBuffer (firstRead socket disk) 0 (firstCount socket disk) at hin
  change unread (firstRead socket disk) 0 (firstCount socket disk) = _ at hun
  rw [unread_caughtUp] at hun
  change _ = socket.elems at hun
  have hone : 0 + 1 ≤ firstCount socket disk := by omega
  rw [h, slice_front _ hone] at hun
  rcases hbuf : (firstRead socket disk).buf with _ | ⟨b, rest⟩
  · have hlen := firstRead_bufLen socket disk
    rw [hbuf] at hlen
    simp at hlen
  · rw [hbuf] at hun
    have hwin : window (b :: rest) 0 (0 + 1) = [b] := by simp [window]
    rw [hwin, Nat.zero_add, List.singleton_append, List.cons.injEq] at hun
    exact ⟨hne, hun.1, ⟨by omega, hin.fits⟩, hun.2⟩

/-! ### Serving -/

/-- The state after bytes were sent back. -/
def replied (s : ServerState) (bytes : List UInt8) : ServerState :=
  { s with reply := s.reply ++ bytes }

/-- What a connection makes of the outcome of `create_parent_folder`. -/
def folderServed : Except (Fault IoError) (BufferState × PathBytes) × ServerState →
    Except (Fault IoError) Served × ServerState
  | (.ok r, s) => (.ok (.folderCreated r.2), replied s [0, 1])
  | (.error (.err e), s) => (.ok (.folderFailed e), s)
  | (.error (.panic msg), s) => (.error (.panic msg), s)
  | (.error .outOfFuel, s) => (.error .outOfFuel, s)

/-- What a connection makes of the outcome of `save_file`. -/
def saveServed : Except (Fault IoError) (BufferState × PathBytes) × ServerState →
    Except (Fault IoError) Served × ServerState
  | (.ok r, s) => (.ok (.fileSaved r.2), replied s [0, 1])
  | (.error (.err e), s) => (.ok (.fileFailed e), replied s [255, 255])
  | (.error (.panic msg), s) => (.error (.panic msg), s)
  | (.error .outOfFuel, s) => (.error .outOfFuel, s)

theorem connectionTask_noData (h : socket.elems = []) :
    connectionTask host (accepted socket disk)
      = (.ok .noData, replied (firstRead socket disk) [255, 255]) := by
  rw [connectionTask, Exec.bind_ok (firstRead_run socket disk),
    if_pos ((firstCount_eq_zero_iff socket disk).mpr h)]
  rfl

theorem connectionTask_folder {u : List UInt8} (h : socket.elems = opCreateParentFolder :: u) :
    connectionTask host (accepted socket disk)
      = folderServed (createParentFolder host (firstCount socket disk) 1
          (firstRead socket disk)) := by
  obtain ⟨hne, hop, _⟩ := firstRead_unread socket disk h
  rw [connectionTask, Exec.bind_ok (firstRead_run socket disk), if_neg hne, Exec.get_bind, hop,
    if_pos rfl]
  rcases hrun : createParentFolder host (firstCount socket disk) 1 (firstRead socket disk)
    with ⟨(e | msg | _) | r, s'⟩
  · rw [Exec.bind_ok (Exec.attempt_err hrun)]
    rfl
  · rw [Exec.bind_fault (Exec.attempt_panic hrun)]
    rfl
  · rw [Exec.bind_fault (Exec.attempt_outOfFuel hrun)]
    rfl
  · rw [Exec.bind_ok (Exec.attempt_ok hrun)]
    rfl

theorem connectionTask_save {u : List UInt8} (h : socket.elems = opSaveFile :: u) :
    connectionTask host (accepted socket disk)
      = saveServed (saveFile host (firstCount socket disk) 1 (firstRead socket disk)) := by
  obtain ⟨hne, hop, _⟩ := firstRead_unread socket disk h
  rw [connectionTask, Exec.bind_ok (firstRead_run socket disk), if_neg hne, Exec.get_bind, hop,
    if_neg (by decide), if_pos rfl]
  rcases hrun : saveFile host (firstCount socket disk) 1 (firstRead socket disk)
    with ⟨(e | msg | _) | r, s'⟩
  · rw [Exec.bind_ok (Exec.attempt_err hrun)]
    rfl
  · rw [Exec.bind_fault (Exec.attempt_panic hrun)]
    rfl
  · rw [Exec.bind_fault (Exec.attempt_outOfFuel hrun)]
    rfl
  · rw [Exec.bind_ok (Exec.attempt_ok hrun)]
    rfl

theorem connectionTask_other {op : UInt8} {u : List UInt8} (h : socket.elems = op :: u)
    (hfolder : op ≠ opCreateParentFolder) (hsave : op ≠ opSaveFile) :
    connectionTask host (accepted socket disk)
      = (.ok (.unknownOperation op), firstRead socket disk) := by
  obtain ⟨hne, hop, _⟩ := firstRead_unread socket disk h
  rw [connectionTask, Exec.bind_ok (firstRead_run socket disk), if_neg hne, Exec.get_bind, hop,
    if_neg hfolder, if_neg hsave]
  rfl

/-! ### What a connection asks of the file system -/

/-- The stream carries a request of either kind whose path field is whole, within the
buffer of the server, and passes its checksum. -/
def Requested (path : PathBytes) : Prop :=
  ∃ op u rest, socket.elems = op :: u ∧ (op = opCreateParentFolder ∨ op = opSaveFile) ∧
    PathFieldAhead 1024 1 u path (crc32 host path) rest

/-- A stream carries at most one such request. -/
theorem Requested.unique {path path' : PathBytes} (h : Requested host socket path)
    (h' : Requested host socket path') : path = path' := by
  obtain ⟨op, u, rest, helems, _, hahead⟩ := h
  obtain ⟨op', u', rest', helems', _, hahead'⟩ := h'
  obtain ⟨_, rfl⟩ := List.cons.inj (helems.symm.trans helems')
  exact (hahead.unique hahead').1

/-- The path field of a request that is behind the first byte of the stream. -/
theorem Requested.of_ahead {op : UInt8} {u rest : List UInt8} {path : PathBytes}
    (h : socket.elems = op :: u) (hop : op = opCreateParentFolder ∨ op = opSaveFile)
    (hahead : PathFieldAhead (firstRead socket disk).buf.length 1
      (unread (firstRead socket disk) 1 (firstCount socket disk)) path (crc32 host path) rest) :
    Requested host socket path := by
  obtain ⟨_, _, _, hun⟩ := firstRead_unread socket disk h
  rw [firstRead_bufLen, hun] at hahead
  exact ⟨op, u, rest, h, hop, hahead⟩

/-- Where no path field is, nothing is requested. -/
theorem not_requested {op : UInt8} {u : List UInt8} (h : socket.elems = op :: u)
    (hnone : ∀ path rest, ¬ PathFieldAhead (firstRead socket disk).buf.length 1
      (unread (firstRead socket disk) 1 (firstCount socket disk)) path (crc32 host path) rest)
    (path : PathBytes) : ¬ Requested host socket path := by
  rintro ⟨op', u', rest, h', _, hahead⟩
  obtain ⟨_, _, _, hun⟩ := firstRead_unread socket disk h
  obtain ⟨_, rfl⟩ := List.cons.inj (h.symm.trans h')
  rw [firstRead_bufLen, hun] at hnone
  exact hnone path rest hahead

/-- The calls that a connection may make.  Either no path was verified, or the path has no
directory to create, and the file system was not called; or the directory was asked for, and
after it the file was created and written at most. -/
def Logged (effects : List Effect) : Prop :=
  (effects = [] ∧
      ∀ path, Requested host socket path → parentFolder (completePath path) = none) ∨
    ∃ path dir, Requested host socket path ∧ parentFolder (completePath path) = some dir ∧
      (effects = [.createDirAll dir] ∨
        ∃ file chunks, ((disk.createDirAll dir).2.create (completePath path)).1 = .ok file ∧
          effects = .createDirAll dir :: .create (completePath path) :: writes file chunks)

/-- The calls of `create_parent_folder`. -/
theorem createParentFolder_log {u : List UInt8} (h : socket.elems = opCreateParentFolder :: u) :
    Logged host socket disk (createParentFolder host (firstCount socket disk) 1
      (firstRead socket disk)).2.effects := by
  have heff : (firstRead socket disk).effects = [] := rfl
  obtain ⟨_, _, hin, _⟩ := firstRead_unread socket disk h
  rcases hrun : createParentFolder host (firstCount socket disk) 1 (firstRead socket disk)
    with ⟨o, s'⟩
  rcases createParentFolder_cases host hin hrun with
    ⟨path, st, s₁, hver, hmake⟩ | ⟨hreads, _, hnone⟩
  · have hreq := Requested.of_ahead host socket disk h (Or.inl rfl) hver.ahead
    rcases makeParentFolder_cases hmake with ⟨hdir, _, rfl⟩ | ⟨dir, hdir, rfl, _⟩
    · refine Or.inl ⟨by rw [hver.reads.effects, heff], ?_⟩
      intro path' hreq'
      rw [← hreq.unique host socket hreq']
      exact hdir
    · refine Or.inr ⟨path, dir, hreq, hdir, Or.inl ?_⟩
      show s₁.effects ++ _ = _
      rw [hver.reads.effects, heff]
      rfl
  · refine Or.inl ⟨by rw [hreads.effects, heff], ?_⟩
    exact fun path hreq => absurd hreq (not_requested host socket disk h hnone path)

/-- The calls of `save_file`. -/
theorem saveFile_log {u : List UInt8} (h : socket.elems = opSaveFile :: u) :
    Logged host socket disk (saveFile host (firstCount socket disk) 1
      (firstRead socket disk)).2.effects := by
  have heff : (firstRead socket disk).effects = [] := rfl
  obtain ⟨_, _, hin, _⟩ := firstRead_unread socket disk h
  have hreq : ∀ {path rest}, PathFieldAhead (firstRead socket disk).buf.length 1
      (unread (firstRead socket disk) 1 (firstCount socket disk)) path (crc32 host path)
      rest → Requested host socket path :=
    fun hahead => Requested.of_ahead host socket disk h (Or.inr rfl) hahead
  rcases hrun : saveFile host (firstCount socket disk) 1 (firstRead socket disk) with ⟨o, s'⟩
  cases saveFile_run host hin hrun with
  | notVerified _ _ hreads hnone =>
      refine Or.inl ⟨by rw [hreads.effects, heff], ?_⟩
      exact fun path hreq => absurd hreq (not_requested host socket disk h hnone path)
  | noParent path st _ hver hdir =>
      refine Or.inl ⟨by rw [hver.reads.effects, heff], ?_⟩
      intro path' hreq'
      rw [← (hreq hver.ahead).unique host socket hreq']
      exact hdir
  | dirFailed path st s₁ dir _ _ hver hdir _ =>
      refine Or.inr ⟨path, dir, hreq hver.ahead, hdir, Or.inl ?_⟩
      show s₁.effects ++ _ = _
      rw [hver.reads.effects, heff]
      rfl
  | createFailed path st s₁ dir _ hver hdir _ _ =>
      refine Or.inr ⟨path, dir, hreq hver.ahead, hdir, Or.inl ?_⟩
      show s₁.effects ++ _ = _
      rw [hver.reads.effects, heff]
      rfl
  | opened path st s₁ dir file _ _ hver hdir _ hcreate hreceive =>
      obtain ⟨data, hstored, _⟩ := receiveData_stores host file (completePath path)
        st.endIndex st.startIndex (afterCreate (afterDir s₁ dir) (completePath path))
      rw [hreceive] at hstored
      obtain ⟨chunks, _, hlog, _⟩ := hstored.log
      refine Or.inr ⟨path, dir, hreq hver.ahead, hdir, Or.inr ⟨file, chunks, ?_, ?_⟩⟩
      · have hdisk : s₁.disk = disk := hver.reads.disk
        rw [← hdisk]
        exact hcreate
      · rw [hlog]
        show (s₁.effects ++ _ ++ _) ++ _ = _
        rw [hver.reads.effects, heff]
        rfl

/-- **The calls of a connection**, served in any way. -/
theorem connectionTask_log :
    Logged host socket disk (connectionTask host (accepted socket disk)).2.effects := by
  rcases helems : socket.elems with _ | ⟨op, u⟩
  · refine Or.inl ⟨by rw [connectionTask_noData host socket disk helems]; rfl, ?_⟩
    rintro path ⟨op, u, rest, h, _⟩
    exact nomatch helems.symm.trans h
  · by_cases hfolder : op = opCreateParentFolder
    · subst hfolder
      have hlog := createParentFolder_log host socket disk helems
      rw [connectionTask_folder host socket disk helems]
      rcases hrun : createParentFolder host (firstCount socket disk) 1 (firstRead socket disk)
        with ⟨(e | msg | _) | r, s'⟩ <;> rw [hrun] at hlog <;> exact hlog
    · by_cases hsave : op = opSaveFile
      · subst hsave
        have hlog := saveFile_log host socket disk helems
        rw [connectionTask_save host socket disk helems]
        rcases hrun : saveFile host (firstCount socket disk) 1 (firstRead socket disk)
          with ⟨(e | msg | _) | r, s'⟩ <;> rw [hrun] at hlog <;> exact hlog
      · refine Or.inl ⟨?_, ?_⟩
        · rw [connectionTask_other host socket disk helems hfolder hsave]
          rfl
        · rintro path ⟨op', u', rest, helems', hop, _⟩
          obtain ⟨rfl, _⟩ := List.cons.inj (helems.symm.trans helems')
          rcases hop with h | h
          · exact absurd h hfolder
          · exact absurd h hsave

end Pcopy.Server
