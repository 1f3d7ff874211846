import Pcopy.Transfer

/-!
# A full buffer and the end of the stream

On a stream that carries one whole frame of the client, the server reads into a full buffer
exactly when it comes to a checksum of the data that does not fit into the buffer behind the
data: only the data loop rewinds the buffer.  It then reports a truncated stream.

* `receiveData_frame_err` — the only error behind the open file is that one;
* `neverStuffed_iff` — the frames on which a read that returns nothing means the end of the
  stream.
-/

namespace Pcopy

open Pcopy.Lib Pcopy.Path Pcopy.Server

/-- On the stream `net` the server never reads into a full buffer, and it does not report a
save as failed unless the path is no UTF-8 or its file cannot be created. -/
structure NeverStuffed (host : Host) (net : SegStream UInt8) (disk : FileSystem)
    (path : PathBytes) : Prop where
  room : ∀ room ∈ (connectionTask host (accepted net disk)).2.rooms, 0 < room
  complete : ∀ e, (connectionTask host (accepted net disk)).1 = .ok (.fileFailed e) →
    ¬ (isUtf8 path = true ∧ Creatable disk path)

/-- If the server comes to the checksum of the data at all, because the path is UTF-8, its file
can be created and the cuts within the data do not make the last chunk panic, then the
checksum fits into the buffer behind the data. -/
def ChecksumFits (net : SegStream UInt8) (disk : FileSystem) (path : PathBytes)
    (dataLength : ℕ) : Prop :=
  isUtf8 path = true → Creatable disk path →
    (∀ q, path.length + 11 ≤ q → q < path.length + 11 + dataLength → net.IsCut q → ¬ 1024 ∣ q →
      ∃ p, q < p ∧ p ≤ path.length + 11 + dataLength ∧ (net.IsCut p ∨ 1024 ∣ p)) →
    1 ≤ (path.length + 11 + dataLength) % 1024 ∧ (path.length + 11 + dataLength) % 1024 ≤ 1020

/-- The error that a save on a whole frame returns, once the file is open: the checksum of the
data does not fit into the buffer. -/
theorem receiveData_frame_err {host : Host} (hfull : host.FullWrites) {file : FileHandle}
    {path : PathBytes} {s s' : ServerState} {startIndex endIndex : ℕ} {data : List UInt8}
    {e : IoError} (hin : InBuffer s startIndex endIndex) (hbuf : s.buf.length = 1024)
    (hdata : data.length < 2 ^ 32) (hun : unread s startIndex endIndex = dataFrame host data)
    (hroom : startIndex + 4 ≤ 1024)
    (hrun : receiveData host file path endIndex startIndex s = (.error (.err e), s')) :
    FollowedUp 1024 (startIndex + 4 + data.length + 4) Misplaced 4 (data.length + 4) s.socket ∧
      ¬ (1 ≤ (startIndex + 4 + data.length) % 1024 ∧
        (startIndex + 4 + data.length) % 1024 ≤ 1020) := by
  have hiff := receiveData_transfer hfull file path hin hbuf hdata hun hroom
  have hfollowed : FollowedUp 1024 (startIndex + 4 + data.length + 4) Misplaced 4
      (data.length + 4) s.socket := by
    by_contra hnot
    have hun' := hun
    rw [dataFrame, List.append_assoc] at hun'
    obtain ⟨v, s₁, s₂, henters⟩ := receiveData_enters hfull file hin hdata hun' (by omega)
    obtain ⟨msg, s₃, hpanic⟩ := (dataLoop_transfer hdata hbuf henters).2 hnot
    rw [henters.run path, Exec.bind_fault hpanic] at hrun
    cases hrun
  refine ⟨hfollowed, fun hfits => ?_⟩
  obtain ⟨x, s'', hok⟩ := hiff.mpr ⟨hfits, hfollowed⟩
  cases hrun.symm.trans hok

/-- **When a full buffer is never mistaken for the end of the stream.**  For every frame that
`send_file` produces, its header within the buffer, every length of the data and every
segmentation: each read is issued with room, and no save is reported as truncated, exactly
if the checksum of the data fits into the buffer behind the data wherever it is reached. -/
theorem neverStuffed_iff {host : Host} (hfull : host.FullWrites) {path : PathBytes}
    (hfits : path.length + 11 ≤ 1024) {job : Client.ClientState} (hfresh : job.wire = [])
    (hstable : job.fileLength = job.file.elems.length) (hlen : job.file.elems.length < 2 ^ 32)
    {net : SegStream UInt8} (hnet : net.elems = (Client.sendFile host path job).2.wire)
    (disk : FileSystem) :
    NeverStuffed host net disk path ↔ ChecksumFits net disk path job.file.elems.length := by
  obtain ⟨_, hwire⟩ := Client.sendFile_emits host path hstable hlen hfits
  rw [hwire, hfresh, List.nil_append] at hnet
  generalize job.file.elems = data at hnet hlen
  obtain ⟨_, _, hin, hun⟩ := firstRead_unread net disk hnet
  have hserved := connectionTask_save host net disk hnet
  rcases hrun : saveFile host (firstCount net disk) 1 (firstRead net disk) with ⟨o, s'⟩
  rw [hrun] at hserved
  -- the reply is no read
  have hrooms : (connectionTask host (accepted net disk)).2.rooms = s'.rooms := by
    rw [hserved]
    rcases o with (e | msg | _) | x <;> rfl
  have hroom : (∀ room ∈ (connectionTask host (accepted net disk)).2.rooms, 0 < room) ↔
      Roomy s' := by
    rw [hrooms]
    constructor
    · intro h hzero
      exact absurd (h 0 hzero) (lt_irrefl 0)
    · intro h room hmem
      exact Nat.pos_of_ne_zero fun hzero => h (hzero ▸ hmem)
  have hfailed : ∀ e, (connectionTask host (accepted net disk)).1 = .ok (.fileFailed e) →
      o = .error (.err e) := by
    intro e h
    rw [hserved] at h
    rcases o with (e' | msg | _) | x <;> cases h
    rfl
  cases saveFile_frame hin (firstRead_bufLen net disk) hfits hun (firstRead_roomy net disk) hrun with
  | early hroomy hnot =>
      exact ⟨fun _ hutf hdest => absurd ⟨hutf, hdest⟩ hnot,
        fun _ => ⟨hroom.mpr hroomy, fun _ _ => hnot⟩⟩
  | opened st s₁ hutf hdest hin₁ hstart hbuf hun₁ hroomy hfetch _ hreceive =>
      have hcuts := followedUp_frame hnet hstart hin₁ hbuf hun₁ hfetch
      have hlen' : (data ++ checksumBytes host data).length = data.length + 4 := by
        rw [List.length_append, checksumBytes_length]
      have hiff := receiveData_roomy_iff hfull ⟨destination (completePath path), 0⟩
        (completePath path) hin₁ hlen (by rw [hun₁, dataFrame, List.append_assoc]) (by omega)
        (by omega) hroomy
      rw [hreceive, hlen', Nat.add_sub_cancel_left, hbuf, ← Nat.add_assoc, ← hcuts,
        show st.startIndex + 4 = path.length + 11 by omega] at hiff
      constructor
      · intro h _ _ hfollowed
        obtain ⟨hpos, hle⟩ := hiff.mp (hroom.mp h.room) hfollowed
        exact ⟨hpos, by omega⟩
      · intro h
        refine ⟨hroom.mpr (hiff.mpr fun hfollowed => ?_), ?_⟩
        · obtain ⟨hpos, hle⟩ := h hutf hdest hfollowed
          exact ⟨hpos, by omega⟩
        · intro e he _
          obtain rfl := hfailed e he
          obtain ⟨hfollowed, hnot⟩ :=
            receiveData_frame_err hfull hin₁ hbuf hlen hun₁ (by omega) hreceive
          rw [← hcuts] at hfollowed
          rw [show st.startIndex + 4 = path.length + 11 by omega] at hnot
          exact hnot (h hutf hdest hfollowed)

theorem neverStuffed_iff_cutInFields :
    NeverStuffed ieeeHost (cutRequest 5 cutInFields) savingDisk [97] ↔
      ChecksumFits (cutRequest 5 cutInFields) savingDisk [97] 3 :=
  @neverStuffed_iff ieeeHost ieeeHost_fullWrites [97] (by decide) slowFile rfl rfl (by decide) _
    (by decide +kernel) savingDisk

/-- A file of 1009 zeros, so that the data of its frame ends three bytes before the buffer. -/
def fullFile : Client.ClientState where
  file := SegStream.single (List.replicate 1009 0) (by decide +kernel)
  fileLength := 1009
  wire := []

/-- Its request, in one segment. -/
def fullRequest : SegStream UInt8 :=
  SegStream.single (opSaveFile :: saveFrame ieeeHost [97] (List.replicate 1009 0))
    (List.cons_ne_nil _ _)

/-- The checksum behind 1009 bytes of data is read into a full buffer. -/
theorem fullRequest_stuffed :
    ¬ ∀ (host : Host) (path : PathBytes) (job : Client.ClientState) (net : SegStream UInt8)
        (disk : FileSystem),
      host.FullWrites → path.length + 11 ≤ 1024 → job.wire = [] →
      job.fileLength = job.file.elems.length → job.file.elems.length < 2 ^ 32 →
      net.elems = (Client.sendFile host path job).2.wire → NeverStuffed host net disk path := by
  intro h
  have hlength : fullFile.file.elems.length = 1009 := by
    rw [fullFile, SegStream.elems_single, List.length_replicate]
  obtain ⟨_, hwire⟩ := Client.sendFile_emits ieeeHost [97] (s := fullFile) hlength.symm (by omega)
    (by decide)
  have hnet : fullRequest.elems = (Client.sendFile ieeeHost [97] fullFile).2.wire := by
    rw [hwire, fullRequest, SegStream.elems_single, fullFile, SegStream.elems_single]
    rfl
  have hroom := (h ieeeHost [97] fullFile fullRequest savingDisk ieeeHost_fullWrites (by decide) rfl
    hlength.symm (by omega) hnet).room 0 (by decide +kernel)
  exact absurd hroom (lt_irrefl 0)

end Pcopy
