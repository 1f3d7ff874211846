import Pcopy.Server.Crc32
import Pcopy.Server.DataLoop

/-!
# What an answer of `save_file` is worth

`receiveData_ensures` describes how the part of `save_file` after the file is open ends,
for every stream and every way it is cut: with the data field off the front of the unread
bytes and in the file, or with an error after exactly the data that arrived was stored.

* `saveFile_sound` — an `Ok` means that one whole save request came off the stream and
  that the file holds its data;
* `saveFile_error` — an `Err` before the file is open leaves every file as it was; after,
  it leaves the destination with the data that arrived and every other file as it was.
-/

namespace Pcopy.Server

open Pcopy.Lib Pcopy.Path

/-- The data field of a request as the client writes it. -/
def dataFrame (host : Host) (data : List UInt8) : List UInt8 :=
  BigEndian.toBytes 4 data.length ++ data ++ checksumBytes host data

/-- A save request after its operation byte. -/
def saveFrame (host : Host) (path data : List UInt8) : List UInt8 :=
  pathFrame host path ++ dataFrame host data

theorem saveFrame_length (host : Host) (path data : List UInt8) :
    (saveFrame host path data).length = 2 + path.length + 4 + 4 + data.length + 4 := by
  simp only [saveFrame, pathFrame, dataFrame, List.length_append, BigEndian.toBytes_length,
    checksumBytes_length]
  omega

theorem dataFrame_length (host : Host) (data : List UInt8) :
    (dataFrame host data).length = data.length + 8 := by
  simp only [dataFrame, List.length_append, BigEndian.toBytes_length, checksumBytes_length]
  omega

/-- The data of a data field `u` as far as it arrived.  A length that does not fit between
`startIndex` and the end of the buffer is never read, and no data is then taken. -/
def arrivedData (bufLen startIndex : ℕ) (u : List UInt8) : List UInt8 :=
  if startIndex + 4 ≤ bufLen then (u.drop 4).take (BigEndian.ofBytes (u.take 4)) else []

/-- A data field comes off the front of the unread bytes in one way only. -/
theorem dataFrame_inj {host : Host} {data data' rest rest' : List UInt8}
    (hlen : data.length < 2 ^ 32) (hlen' : data'.length < 2 ^ 32)
    (h : dataFrame host data ++ rest = dataFrame host data' ++ rest') : data = data' := by
  simp only [dataFrame, List.append_assoc] at h
  obtain ⟨hfield, htail⟩ := List.append_inj h (by simp)
  have hlength := congrArg BigEndian.ofBytes hfield
  rw [BigEndian.ofBytes_toBytes hlen, BigEndian.ofBytes_toBytes hlen'] at hlength
  exact (List.append_inj htail hlength).1

/-! ### The checksum behind the data -/

/-- How the check of the checksum ends, where the unread bytes are `u`. -/
def CheckPost (host : Host) (path : PathBytes) (v : DataLoop) (u : List UInt8)
    (s₀ : ServerState) : Except (Fault IoError) (BufferState × PathBytes) → ServerState → Prop
  | .ok (st, p), s => Reads s₀ s ∧ p = path ∧ InBuffer s st.startIndex st.endIndex ∧
      u = BigEndian.toBytes 4 (v.hasher.finalize host).toNat ++
        unread s st.startIndex st.endIndex
  | .error (.err _), s => Reads s₀ s
  | .error (.panic _), _ => False
  | .error .outOfFuel, _ => False

theorem checkData_ensures (host : Host) (path : PathBytes) {v : DataLoop} {s : ServerState}
    (hin : InBuffer s v.startIndex v.endIndex) :
    (checkData host path v).Ensures s
      (CheckPost host path v (unread s v.startIndex v.endIndex) s) := by
  refine Exec.Ensures.bind ((readChecksum_ensures host hin).mono ?_)
  intro o s₁ hsum
  match o with
  | .error φ =>
      obtain ⟨hreads, ⟨e, rfl⟩, _⟩ := hsum
      exact hreads
  | .ok (c, st) =>
      obtain ⟨hreads, _, hin₁, _, hun⟩ := hsum
      dsimp only
      by_cases hc : c = v.hasher.finalize host
      · rw [if_pos hc]
        exact Exec.Ensures.pure ⟨hreads, rfl, hin₁, by rw [← hc]; exact hun⟩
      · rw [if_neg hc]
        exact hreads

/-! ### The part after the file is open -/

/-- How the part of `save_file` after the file is open ends. -/
def ReceivePost (host : Host) (file : FileHandle) (path : PathBytes) (startIndex : ℕ)
    (u : List UInt8) (s₀ : ServerState) :
    Except (Fault IoError) (BufferState × PathBytes) → ServerState → Prop
  | .ok (st, p), s => p = path ∧ InBuffer s st.startIndex st.endIndex ∧
      ∃ data, data.length < 2 ^ 32 ∧ Stored file data s₀ s ∧
        u = dataFrame host data ++ unread s st.startIndex st.endIndex
  | .error (.err _), s => Stored file (arrivedData s₀.buf.length startIndex u) s₀ s
  | .error (.panic _), _ => True
  | .error .outOfFuel, _ => False

/-- When the records are in step and nothing is left, or nothing missing, the hasher was
fed the data that arrived. -/
theorem InStep.take_eq {file : FileHandle} {s₀ s : ServerState} {len : ℕ} {u : List UInt8}
    {v : DataLoop} (h : InStep file s₀ len u v s)
    (hend : v.fileDataLength = 0 ∨ unread s v.startIndex v.endIndex = []) :
    u.take len = v.hasher.fed := by
  have hlen := h.length
  rw [h.bytes]
  rcases hend with h0 | h0
  · rw [List.take_append_of_le_length (by omega), List.take_of_length_le (by omega)]
  · rw [h0, List.append_nil, List.take_of_length_le (by omega)]

theorem receiveData_ensures {host : Host} (hfull : host.FullWrites) (file : FileHandle)
    (path : PathBytes) {s : ServerState} {startIndex endIndex : ℕ}
    (hin : InBuffer s startIndex endIndex) :
    (receiveData host file path endIndex startIndex).Ensures s
      (ReceivePost host file path startIndex (unread s startIndex endIndex) s) := by
  refine readField_ensures hin ?_ ?_
  · -- stuck in the length: nothing was stored
    intro e s' hreads hstuck
    have hnone : arrivedData s.buf.length startIndex (unread s startIndex endIndex) = [] := by
      unfold arrivedData
      split
      · have hshort : (unread s startIndex endIndex).length < 4 := by omega
        rw [List.drop_eq_nil_of_le (by omega), List.take_nil]
      · rfl
    show Stored file (arrivedData _ _ _) s s'
    rw [hnone]
    exact hreads.stored file
  · intro e s₁ field hreads _ hin₁ hfield hun
    have hlt : BigEndian.ofBytes field < 2 ^ 32 := BigEndian.ofBytes_lt_of_length hfield
    have hroom : startIndex + 4 ≤ s.buf.length := by
      have ho := hin₁.ordered
      have hf := hin₁.fits
      have hb := hreads.bufLen
      omega
    -- the data that arrived is what stands behind the length
    have harrived : arrivedData s.buf.length startIndex (unread s startIndex endIndex)
        = (unread s₁ (startIndex + 4) e).take (BigEndian.ofBytes field) := by
      rw [arrivedData, if_pos hroom, hun, List.take_append_of_le_length (le_of_eq hfield.symm),
        List.take_of_length_le (le_of_eq hfield), List.drop_append_of_le_length
          (le_of_eq hfield.symm), List.drop_eq_nil_of_le (le_of_eq hfield), List.nil_append]
    obtain ⟨v, s₂, hfirst, hstep, _, _, _, hbuf₂⟩ := firstChunk_run hfull hin₁ hlt file
    refine Exec.Ensures.step hfirst ?_
    have hbuf : 0 < s₂.buf.length := by
      rw [hbuf₂, hreads.bufLen]
      omega
    refine Exec.Ensures.bind ((dataLoop_ensures hlt hbuf hstep).mono ?_)
    intro o s₃ hloop
    match o with
    | .error (.err e₃) =>
        obtain ⟨v', hstep', _, hend⟩ := hloop
        show Stored file (arrivedData _ _ _) s s₃
        rw [harrived, hstep'.take_eq (Or.inr hend)]
        exact (hreads.stored file).trans hstep'.stored
    | .error (.panic _) => exact trivial
    | .error .outOfFuel => exact hloop
    | .ok v' =>
        obtain ⟨hstep', hdone⟩ := hloop
        have hdata := hstep'.take_eq (Or.inl hdone)
        have hstored : Stored file v'.hasher.fed s s₃ :=
          (hreads.stored file).trans hstep'.stored
        have hkept : ∀ {s₄}, Reads s₃ s₄ → Stored file v'.hasher.fed s s₄ := by
          intro s₄ hreads₄
          rw [← List.append_nil v'.hasher.fed]
          exact hstored.trans (hreads₄.stored _)
        refine (checkData_ensures host path hstep'.inBuffer).mono ?_
        intro o₄ s₄ hcheck
        match o₄ with
        | .error (.err _) =>
            show Stored file (arrivedData _ _ _) s s₄
            rw [harrived, hdata]
            exact hkept hcheck
        | .error (.panic _) => exact trivial
        | .error .outOfFuel => exact hcheck
        | .ok (st, p) =>
            obtain ⟨hreads₄, hp, hin₄, hun₄⟩ := hcheck
            have hcrc : v'.hasher.finalize host = crc32 host v'.hasher.fed := by
              rw [Hasher.finalize, hstep'.initial, crc32]
            have hlen : v'.hasher.fed.length = BigEndian.ofBytes field := by
              have hl := hstep'.length
              omega
            refine ⟨hp, hin₄, v'.hasher.fed, by omega, hkept hreads₄, ?_⟩
            rw [hun, hstep'.bytes, hun₄, hcrc, dataFrame, hlen,
              BigEndian.toBytes_ofBytes_of_length hfield, checksumBytes]
            simp only [List.append_assoc]

/-! ### An `Ok` of `save_file` -/

/-- Where the file named by a path stands. -/
def destination (path : PathBytes) : Location := resolve (components path)

/-- A file that was just created is empty, its handle is at its start, and nothing else
has changed. -/
theorem create_opens {s : ServerState} {path : PathBytes} {file : FileHandle}
    (h : (s.disk.create path).1 = .ok file) :
    file = ⟨destination path, 0⟩ ∧
      (afterCreate s path).disk.fileAt (destination path) = some [] ∧
      ∀ l ≠ destination path, (afterCreate s path).disk.node l = s.disk.node l := by
  rcases hc : s.disk.create path with ⟨o, disk⟩
  rw [hc] at h
  obtain rfl : o = .ok file := h
  obtain ⟨_, hfile, hdisk⟩ := FileSystem.create_ok hc
  have hafter : (afterCreate s path).disk = s.disk.set (destination path) (.file []) := by
    simp only [afterCreate, hc, hdisk, destination]
  refine ⟨hfile, ?_, ?_⟩
  · rw [hafter, FileSystem.fileAt_set_file]
  · intro l hl
    rw [hafter, FileSystem.node_set_ne _ _ hl]

/-- A whole save request for `rel` and `data` came off the stream between `s` and `s'`. -/
structure Saved (host : Host) (startIndex endIndex : ℕ) (s : ServerState) (rel data : List UInt8)
    (st : BufferState) (path : PathBytes) (s' : ServerState) : Prop where
  utf8 : isUtf8 rel = true
  pathLength : rel.length < 2 ^ 16
  dataLength : data.length < 2 ^ 32
  named : path = completePath rel
  content : s'.disk.fileAt (destination path) = some data
  others : ∀ l ≠ destination path, s'.disk.fileAt l = s.disk.fileAt l
  inBuffer : InBuffer s' st.startIndex st.endIndex
  received : ∃ delivered, s.socket.elems = delivered ++ s'.socket.elems ∧
    window s.buf startIndex endIndex ++ delivered
      = saveFrame host rel data ++ window s'.buf st.startIndex st.endIndex
  processed : (unread s startIndex endIndex).length
    = 2 + rel.length + 4 + 4 + data.length + 4 + (unread s' st.startIndex st.endIndex).length

/-- What was unread is the request and what is unread now. -/
theorem Saved.unread_eq {host : Host} {startIndex endIndex : ℕ} {s s' : ServerState}
    {rel data : List UInt8} {st : BufferState} {path : PathBytes}
    (h : Saved host startIndex endIndex s rel data st path s') :
    unread s startIndex endIndex
      = saveFrame host rel data ++ unread s' st.startIndex st.endIndex := by
  obtain ⟨delivered, hsocket, hwindow⟩ := h.received
  rw [unread, hsocket, ← List.append_assoc, hwindow, List.append_assoc]
  rfl

/-- **An `Ok` is a whole request.**  Whatever the stream holds and however it is cut: when
`save_file` returns `Ok`, one frame came off the front of the unread bytes, the file it
created holds exactly the data of that frame, and the window it returns is what was
received behind it. -/
theorem saveFile_sound {host : Host} (hfull : host.FullWrites) {s s' : ServerState}
    {startIndex endIndex : ℕ} (hin : InBuffer s startIndex endIndex) {st : BufferState}
    {path : PathBytes} (hrun : saveFile host endIndex startIndex s = (.ok (st, path), s')) :
    ∃ rel data, Saved host startIndex endIndex s rel data st path s' := by
  cases saveFile_run host hin hrun with
  | opened rel st₁ s₁ dir file o s' hver hdir hmk hcreate hreceive =>
      obtain ⟨rfl, hempty, hrest⟩ := create_opens hcreate
      have hin₂ : InBuffer (afterCreate (afterDir s₁ dir) (completePath rel)) st₁.startIndex
          st₁.endIndex := ⟨hver.inBuffer.ordered, hver.inBuffer.fits⟩
      obtain ⟨rfl, hin', data, hdata, hstored, hun⟩ :=
        (receiveData_ensures hfull _ _ hin₂).of_run hreceive
      have hframe : unread s startIndex endIndex
          = saveFrame host rel data ++ unread s' st.startIndex st.endIndex := by
        rw [hver.unread_eq, saveFrame, List.append_assoc]
        exact congrArg _ hun
      refine ⟨rel, data, hver.ahead.utf8, hver.ahead.short, hdata, rfl, ?_, ?_, hin', ?_, ?_⟩
      · exact hstored.content hempty rfl
      · intro l hl
        rw [FileSystem.fileAt_congr (hstored.node_ne hl), FileSystem.fileAt_congr (hrest l hl)]
        show (s₁.disk.createDirAll dir).2.fileAt l = _
        rw [FileSystem.fileAt_createDirAll, hver.reads.disk]
      · -- what was delivered is what the socket no longer holds
        obtain ⟨delivered₁, h₁⟩ := hver.reads.suffix
        obtain ⟨delivered₂, h₂⟩ := hstored.suffix
        have hsocket : delivered₂ ++ s'.socket.elems = s₁.socket.elems := h₂
        refine ⟨delivered₁ ++ delivered₂, ?_, ?_⟩
        · rw [List.append_assoc, hsocket, h₁]
        · have htail : (window s.buf startIndex endIndex ++ (delivered₁ ++ delivered₂))
              ++ s'.socket.elems
              = (saveFrame host rel data ++ window s'.buf st.startIndex st.endIndex)
              ++ s'.socket.elems := by
            simp only [List.append_assoc, hsocket, h₁]
            exact hframe
          exact List.append_cancel_right htail
      · rw [hframe, List.length_append, saveFrame_length]

/-- A request for the file `a` with three bytes of data, cut inside the checksum of the
path, with two bytes of a next request behind it. -/
def pipelinedRequest : SegStream UInt8 where
  segs := [(saveFrame ieeeHost [97] [1, 2, 3]).take 5,
    (saveFrame ieeeHost [97] [1, 2, 3]).drop 5 ++ [7, 7]]
  nonempty := by decide +kernel

theorem saveFile_sound_pipelined :
    ∃ rel data, Saved ieeeHost 0 0 (accepted pipelinedRequest savingDisk) rel data ⟨18, 20⟩
      (completePath [97]) (saveFile ieeeHost 0 0 (accepted pipelinedRequest savingDisk)).2 :=
  saveFile_sound ieeeHost_fullWrites ⟨le_rfl, Nat.zero_le _⟩
    (Exec.run_eq (by decide +kernel))

/-! ### An `Err` of `save_file` -/

/-- The directory of the path can be made, and then its file created. -/
def Creatable (disk : FileSystem) (path : PathBytes) : Prop :=
  ∃ dir file, parentFolder (completePath path) = some dir ∧
    (disk.createDirAll dir).1 = .ok () ∧
    ((disk.createDirAll dir).2.create (completePath path)).1 = .ok file

/-- The request in the unread bytes gets as far as an open file: its path field is whole
and its checksum matches, the directory above it can be made, and the file created.
`rest` is what follows the path field. -/
structure Opens (host : Host) (startIndex endIndex : ℕ) (s : ServerState) (path : PathBytes)
    (rest : List UInt8) : Prop where
  ahead : PathFieldAhead s.buf.length startIndex (unread s startIndex endIndex) path
    (crc32 host path) rest
  created : Creatable s.disk path

/-- **What an `Err` leaves on the disk.**  If the file was never opened, every file is as it
was.  If it was, the destination holds the data of the request as far as it arrived, all of
it when writes are not short, and every other file is as it was. -/
theorem saveFile_error (host : Host) {s s' : ServerState} {startIndex endIndex : ℕ}
    (hin : InBuffer s startIndex endIndex) {e : IoError}
    (hrun : saveFile host endIndex startIndex s = (.error (.err e), s')) :
    ((∀ path rest, ¬ Opens host startIndex endIndex s path rest) ∧
        ∀ l, s'.disk.fileAt l = s.disk.fileAt l) ∨
      ∃ path rest content, Opens host startIndex endIndex s path rest ∧
        s'.disk.fileAt (destination (completePath path)) = some content ∧
        (host.FullWrites →
          content = arrivedData s.buf.length (startIndex + (path.length + 6)) rest) ∧
        ∀ l ≠ destination (completePath path), s'.disk.fileAt l = s.disk.fileAt l := by
  cases saveFile_run host hin hrun with
  | notVerified _ _ hreads hnone =>
      refine Or.inl ⟨?_, fun l => by rw [hreads.disk]⟩
      rintro path rest hopen
      exact hnone path rest hopen.ahead
  | dirFailed path st s₁ dir e₁ _ hver hdir hmk =>
      refine Or.inl ⟨?_, ?_⟩
      · rintro path' rest ⟨hahead, dir', file, hdir', hmk', _⟩
        obtain ⟨rfl, _, _⟩ := hver.ahead.unique hahead
        obtain rfl : dir = dir' := Option.some.inj (hdir.symm.trans hdir')
        rw [hver.reads.disk, hmk'] at hmk
        cases hmk
      · intro l
        show (s₁.disk.createDirAll dir).2.fileAt l = _
        rw [FileSystem.fileAt_createDirAll, hver.reads.disk]
  | createFailed path st s₁ dir _ hver hdir hmk hcreate =>
      refine Or.inl ⟨?_, ?_⟩
      · rintro path' rest ⟨hahead, dir', file, hdir', _, hcreate'⟩
        obtain ⟨rfl, _, _⟩ := hver.ahead.unique hahead
        obtain rfl : dir = dir' := Option.some.inj (hdir.symm.trans hdir')
        rw [← hver.reads.disk] at hcreate'
        exact nomatch hcreate'.symm.trans hcreate
      · intro l
        show (s₁.disk.createDirAll dir).2.fileAt l = _
        rw [FileSystem.fileAt_createDirAll, hver.reads.disk]
  | opened path st s₁ dir file _ _ hver hdir hmk hcreate hreceive =>
      obtain ⟨rfl, hempty, hrest⟩ := create_opens hcreate
      have hin₂ : InBuffer (afterCreate (afterDir s₁ dir) (completePath path)) st.startIndex
          st.endIndex := ⟨hver.inBuffer.ordered, hver.inBuffer.fits⟩
      obtain ⟨data, hstored, _⟩ := receiveData_stores host ⟨destination (completePath path), 0⟩
        (completePath path) st.endIndex st.startIndex
        (afterCreate (afterDir s₁ dir) (completePath path))
      rw [hreceive] at hstored
      refine Or.inr ⟨path, unread s₁ st.startIndex st.endIndex, data, ⟨hver.ahead, dir,
        ⟨destination (completePath path), 0⟩, hdir, ?_, ?_⟩, hstored.content hempty rfl, ?_, ?_⟩
      · rw [← hver.reads.disk]
        exact hmk
      · rw [← hver.reads.disk]
        exact hcreate
      · intro hfull
        have hpost := (receiveData_ensures hfull ⟨destination (completePath path), 0⟩
          (completePath path) hin₂).of_run hreceive
        have hboth := (hstored.content hempty rfl).symm.trans
          (Stored.content hpost hempty rfl)
        rw [Option.some.inj hboth, ← hver.advanced, ← hver.reads.bufLen]
        rfl
      · intro l hl
        rw [FileSystem.fileAt_congr (hstored.node_ne hl), FileSystem.fileAt_congr (hrest l hl)]
        show (s₁.disk.createDirAll dir).2.fileAt l = _
        rw [FileSystem.fileAt_createDirAll, hver.reads.disk]

/-- A request for the file `a` whose stream ends after the first of three bytes of data. -/
def truncatedRequest : SegStream UInt8 where
  segs := [(saveFrame ieeeHost [97] [1, 2, 3]).take 12]
  nonempty := by decide +kernel

/-- The saving directory with a file `a` in it. -/
def occupiedDisk : FileSystem := savingDisk.set (destination (completePath [97])) (.file [9, 9])

theorem saveFile_error_truncated :
    ((∀ path rest, ¬ Opens ieeeHost 0 0 (accepted truncatedRequest occupiedDisk) path rest) ∧
        ∀ l, (saveFile ieeeHost 0 0 (accepted truncatedRequest occupiedDisk)).2.disk.fileAt l
          = (accepted truncatedRequest occupiedDisk).disk.fileAt l) ∨
      ∃ path rest content,
        Opens ieeeHost 0 0 (accepted truncatedRequest occupiedDisk) path rest ∧
        (saveFile ieeeHost 0 0 (accepted truncatedRequest occupiedDisk)).2.disk.fileAt
          (destination (completePath path)) = some content ∧
        (ieeeHost.FullWrites → content = arrivedData
          (accepted truncatedRequest occupiedDisk).buf.length (0 + (path.length + 6)) rest) ∧
        ∀ l ≠ destination (completePath path),
          (saveFile ieeeHost 0 0 (accepted truncatedRequest occupiedDisk)).2.disk.fileAt l
            = (accepted truncatedRequest occupiedDisk).disk.fileAt l :=
  saveFile_error (e := ⟨.invalidData,
      "Cannot read full File name bytes. No of File name bytes read 0"⟩)
    ieeeHost ⟨le_rfl, Nat.zero_le _⟩ (Exec.run_eq (by decide +kernel))

/-- The file at the destination does not survive a request that fails after its file was
opened: `File::create` has truncated it before the data is checked. -/
theorem saveFile_error_changes_destination :
    ¬ ∀ (host : Host) (s s' : ServerState) (startIndex endIndex : ℕ) (e : IoError)
        (path : PathBytes) (rest : List UInt8),
      InBuffer s startIndex endIndex →
      saveFile host endIndex startIndex s = (.error (.err e), s') →
      PathFieldAhead s.buf.length startIndex (unread s startIndex endIndex) path
        (crc32 host path) rest →
      s'.disk.fileAt (destination (completePath path))
        = s.disk.fileAt (destination (completePath path)) := by
  intro h
  have hsame := h ieeeHost (accepted truncatedRequest occupiedDisk)
    (saveFile ieeeHost 0 0 (accepted truncatedRequest occupiedDisk)).2 0 0
    ⟨.invalidData, "Cannot read full File name bytes. No of File name bytes read 0"⟩
    [97] [0, 0, 0, 3, 1] ⟨le_rfl, Nat.zero_le _⟩ (Exec.run_eq (by decide +kernel))
    ⟨by decide +kernel, by decide, by decide +kernel, by decide +kernel⟩
  revert hsame
  decide +kernel

end Pcopy.Server
