import Pcopy.Client.SendFile
import Pcopy.Server.Connection
import Pcopy.Server.FrameRun

/-!
# A file on its way from the client to the server

The client emits the frame (`sendFile_emits`); the stream may be cut anywhere; the server
reads it through a buffer of 1024 bytes.  A read stops at a cut, or where the buffer is
full, and since the buffer is rewound only when it is full, that is at a multiple of 1024.

The last chunk of the data is stored without a panic only from the start of the buffer, so
the transfer fails when a read goes over the end of the data from anywhere else; and the
checksum is found only if it fits into the buffer behind the data.  `transfer_iff` says that
these are the only ways to fail.
-/

namespace Pcopy

open Pcopy.Lib Pcopy.Path Pcopy.Server

/-! ### The part after the file is open -/

/-- With the data stored, the save succeeds exactly if its checksum fits into the buffer. -/
theorem checksum_transfer {host : Host} {file : FileHandle} (path : PathBytes)
    {s₀ s : ServerState} {data : List UInt8} {v : DataLoop} {len : ℕ}
    (h : InStep file s₀ len (data ++ checksumBytes host data) v s) (hdone : v.fileDataLength = 0)
    (hlen : len = data.length) :
    (∃ r s', checkData host path v s = (.ok r, s')) ↔
      v.startIndex + 4 ≤ s.buf.length := by
  have hfedLen := h.length
  obtain ⟨hfed, hun⟩ := List.append_inj h.bytes (by omega)
  have hcrc : v.hasher.finalize host = crc32 host data := by
    rw [Hasher.finalize, h.initial, hfed, crc32]
  have hsum := readChecksum_ensures host h.inBuffer
  rw [← hun] at hsum
  constructor
  · rintro ⟨r, s', hrun⟩
    obtain ⟨⟨c, st⟩, s₁, hread, _⟩ := Exec.bind_eq_ok.mp hrun
    obtain ⟨hreads, _, hin, hstart, _⟩ := hsum.of_run hread
    have ho := hin.ordered
    have hf := hin.fits
    have hb := hreads.bufLen
    omega
  · intro hroom
    rcases hread : readChecksum host v.endIndex v.startIndex s with ⟨_ | ⟨c, st⟩, s₁⟩
    · obtain ⟨_, _, hstuck⟩ := hsum.of_run hread
      rw [checksumBytes_length] at hstuck
      omega
    · obtain ⟨_, _, _, _, hbytes⟩ := hsum.of_run hread
      have hc : c = crc32 host data := by
        have hfour := congrArg (List.take 4) hbytes
        rw [checksumBytes, List.take_of_length_le (by simp),
          List.take_append_of_le_length (by simp), List.take_of_length_le (by simp)] at hfour
        have hval := congrArg BigEndian.ofBytes hfour
        rw [BigEndian.ofBytes_toBytes (crc32 host data).toNat_lt,
          BigEndian.ofBytes_toBytes c.toNat_lt] at hval
        exact (UInt32.toNat_inj.mp hval).symm
      refine ⟨(st, path), s₁, ?_⟩
      rw [checkData, Exec.bind_ok hread]
      dsimp only
      rw [hcrc, if_pos hc]
      rfl

/-- The transfer of `data` behind `fields` bytes goes through in the segmentation `net`:
the checksum fits into the buffer behind the data, and a cut within the data that is not a
multiple of the buffer is followed by another boundary before or at the end of the data. -/
structure ReadsFit (net : SegStream UInt8) (fields dataLength : ℕ) : Prop where
  checksumFits : 1 ≤ (fields + dataLength) % 1024 ∧ (fields + dataLength) % 1024 ≤ 1020
  stepped : ∀ q, fields ≤ q → q < fields + dataLength → net.IsCut q → ¬ 1024 ∣ q →
    ∃ p, q < p ∧ p ≤ fields + dataLength ∧ (net.IsCut p ∨ 1024 ∣ p)

/-- The cuts within the data of a stream of `fields` bytes, the data and four bytes more, by
the place they are at. -/
theorem stepped_iff {net : SegStream UInt8} {fields dataLength : ℕ}
    (htotal : net.elems.length = fields + dataLength + 4) :
    (∀ q, fields ≤ q → q < fields + dataLength → net.IsCut q → ¬ 1024 ∣ q →
      ∃ p, q < p ∧ p ≤ fields + dataLength ∧ (net.IsCut p ∨ 1024 ∣ p)) ↔
      FollowedUp 1024 net.elems.length Misplaced 4 (dataLength + 4) net := by
  have hcut : ∀ {q}, q ≤ net.elems.length →
      (net.IsCut q ↔ net.CutLeaving (net.elems.length - q)) := by
    intro q hq
    rw [SegStream.CutLeaving, Nat.sub_sub_self hq]
    exact ⟨fun h => ⟨Nat.sub_le _ _, h⟩, fun h => h.2⟩
  have hbad : ∀ {p}, Misplaced (p % 1024) ↔ ¬ 1024 ∣ p := by
    intro p
    rw [Misplaced]
    omega
  constructor
  · intro h r hrest hr hleft hindex
    have hle := hleft.1
    obtain ⟨p, hqp, hpD, hp⟩ := h (net.elems.length - r) (by omega) (by omega) hleft.2
      (hbad.mp hindex)
    refine ⟨net.elems.length - p, by omega, by omega, ?_⟩
    rcases hp with hp | hp
    · exact Or.inl ((hcut (by omega)).mp hp)
    · refine Or.inr ?_
      rwa [Nat.sub_sub_self (by omega)]
  · intro h q hlo hhi hq hmul
    obtain ⟨r', hrest, hlt, hstop⟩ := h (net.elems.length - q) (by omega) (by omega)
      ((hcut (by omega)).mp hq) (hbad.mpr (by rwa [Nat.sub_sub_self (by omega)]))
    refine ⟨net.elems.length - r', by omega, by omega, ?_⟩
    exact hstop.imp (fun hleft => hleft.2) id

/-- The data loop, entered on a well-formed data field that ends the stream: it ends with all
the data in step, the window at the end of the data, or in a panic. -/
theorem dataLoop_transfer {host : Host} {file : FileHandle} {s s₁ s' : ServerState}
    {startIndex endIndex : ℕ} {data : List UInt8} {v : DataLoop} (hdata : data.length < 2 ^ 32)
    (hbuf : s.buf.length = 1024)
    (h : Enters host file s startIndex endIndex data.length (data ++ checksumBytes host data)
      v s₁ s') :
    (FollowedUp 1024 (startIndex + 4 + data.length + 4) Misplaced 4 (data.length + 4) s.socket →
      ∃ v' s'', dataLoop v s' = (.ok v', s'') ∧ 1 ≤ v'.startIndex ∧ v'.startIndex ≤ 1024 ∧
        v'.startIndex % 1024 = (startIndex + 4 + data.length) % 1024) ∧
    (¬ FollowedUp 1024 (startIndex + 4 + data.length + 4) Misplaced 4 (data.length + 4)
        s.socket →
      ∃ msg s'', dataLoop v s' = (.error (.panic msg), s'')) := by
  have hlen : (data ++ checksumBytes host data).length = data.length + 4 := by
    rw [List.length_append, checksumBytes_length]
  obtain ⟨hgood, hbad⟩ := h.dataLoop_ends hdata rfl (by omega)
  rw [hlen, Nat.add_sub_cancel_left, hbuf, ← Nat.add_assoc] at hgood hbad
  refine ⟨fun hfollowed => ?_, fun hnot => ?_⟩
  · obtain ⟨v', s'', k, hloop, h1, h1024, hplace⟩ := hgood hfollowed
    exact ⟨v', s'', hloop, h1, h1024, by omega⟩
  · obtain ⟨msg, s'', _, hloop⟩ := hbad hnot
    exact ⟨msg, s'', hloop⟩

/-- **The part after the file is open**, on a well-formed data field that ends the stream:
it succeeds exactly when the cuts are followed up and the checksum fits into the buffer. -/
theorem receiveData_transfer {host : Host} (hfull : host.FullWrites) (file : FileHandle)
    (path : PathBytes) {s : ServerState} {startIndex endIndex : ℕ} {data : List UInt8}
    (hin : InBuffer s startIndex endIndex) (hbuf : s.buf.length = 1024)
    (hdata : data.length < 2 ^ 32) (hun : unread s startIndex endIndex = dataFrame host data)
    (hroom : startIndex + 4 ≤ 1024) :
    (∃ x s', receiveData host file path endIndex startIndex s = (.ok x, s')) ↔
      (1 ≤ (startIndex + 4 + data.length) % 1024 ∧
        (startIndex + 4 + data.length) % 1024 ≤ 1020) ∧
      FollowedUp 1024 (startIndex + 4 + data.length + 4) Misplaced 4 (data.length + 4)
        s.socket := by
  rw [dataFrame, List.append_assoc] at hun
  obtain ⟨v, s₁, s₂, henters⟩ := receiveData_enters hfull file hin hdata hun (by omega)
  obtain ⟨hgood, hbad⟩ := dataLoop_transfer hdata hbuf henters
  have hbuf₂ : s₂.buf.length = 1024 := by rw [henters.buf, henters.reads.bufLen, hbuf]
  have hpost := dataLoop_ensures hdata (by omega) henters.inStep
  -- with the data stored, the checksum decides
  have hcheck : ∀ v' s₃, dataLoop v s₂ = (.ok v', s₃) →
      ((∃ x s', checkData host path v' s₃ = (.ok x, s')) ↔ v'.startIndex + 4 ≤ 1024) := by
    intro v' s₃ hloop
    obtain ⟨hstep, hdone⟩ := hpost.of_run hloop
    rw [checksum_transfer path hstep hdone rfl, hstep.stored.bufLen, ← henters.buf, hbuf₂]
  rw [henters.run path]
  constructor
  · rintro ⟨x, s', hok⟩
    obtain ⟨v', s₃, hloop, hrun⟩ := Exec.bind_eq_ok.mp hok
    by_cases hfollowed : FollowedUp 1024 (startIndex + 4 + data.length + 4) Misplaced 4
        (data.length + 4) s.socket
    · obtain ⟨v'', s₄, hloop', h1, h1024, hmod⟩ := hgood hfollowed
      obtain ⟨hv, rfl⟩ := Prod.mk.inj (hloop.symm.trans hloop')
      obtain rfl := Except.ok.inj hv
      have hfits := (hcheck v' s₃ hloop).mp ⟨x, s', hrun⟩
      exact ⟨by omega, hfollowed⟩
    · obtain ⟨msg, s₄, hpanic⟩ := hbad hfollowed
      cases (Prod.mk.inj (hloop.symm.trans hpanic)).1
  · rintro ⟨hfits, hfollowed⟩
    obtain ⟨v', s₃, hloop, h1, h1024, hmod⟩ := hgood hfollowed
    obtain ⟨x, s', hrun⟩ := (hcheck v' s₃ hloop).mpr (by omega)
    exact ⟨x, s', Exec.bind_eq_ok.mpr ⟨v', s₃, hloop, hrun⟩⟩

/-! ### From end to end -/

/-- The connection whose stream is `net` ends with the file saved, and the file at the
destination holds `data`. -/
def Transferred (host : Host) (net : SegStream UInt8) (disk : FileSystem) (path : PathBytes)
    (data : List UInt8) : Prop :=
  (connectionTask host (accepted net disk)).1 = .ok (.fileSaved (completePath path)) ∧
    (connectionTask host (accepted net disk)).2.disk.fileAt (destination (completePath path))
      = some data

theorem firstRead_roomy (net : SegStream UInt8) (disk : FileSystem) :
    Roomy (firstRead net disk) := by
  refine afterRead_roomy (fun h => nomatch h) ?_
  rw [accepted_bufLen]
  omega

/-- The cuts of the whole stream are those that are ahead once the file is open. -/
theorem followedUp_frame {host : Host} {path data : List UInt8} {net : SegStream UInt8}
    {disk : FileSystem} {s : ServerState} {st : BufferState}
    (hnet : net.elems = opSaveFile :: saveFrame host path data)
    (hstart : st.startIndex = path.length + 7) (hin : InBuffer s st.startIndex st.endIndex)
    (hbuf : s.buf.length = 1024)
    (hun : unread s st.startIndex st.endIndex = dataFrame host data)
    (hfetch : Fetch (data.length + 8) (firstCount net disk) (firstRead net disk) st.endIndex s) :
    (∀ q, path.length + 11 ≤ q → q < path.length + 11 + data.length → net.IsCut q →
      ¬ 1024 ∣ q → ∃ p, q < p ∧ p ≤ path.length + 11 + data.length ∧ (net.IsCut p ∨ 1024 ∣ p)) ↔
      FollowedUp 1024 (st.startIndex + 4 + data.length + 4) Misplaced 4 (data.length + 4)
        s.socket := by
  have htotal : net.elems.length = path.length + 11 + data.length + 4 := by
    rw [hnet, List.length_cons, saveFrame_length]
    omega
  have hfirst : Fetch (data.length + 8) 0 (accepted net disk) (firstCount net disk)
      (firstRead net disk) := by
    have h := Fetch.read (r := data.length + 8) (s := accepted net disk) (Nat.zero_le _) (by
      show data.length + 8 < net.elems.length
      omega)
    rwa [Nat.zero_add] at h
  have hplace := unread_length hin
  have ho := hin.ordered
  rw [hun, dataFrame_length] at hplace
  rw [stepped_iff htotal, show st.startIndex + 4 + data.length + 4 = net.elems.length by omega]
  exact followedUp_fetch ((hfirst.trans hfetch le_rfl).mono (by omega)) hbuf (by omega)

/-- The segmentation fits exactly if the cuts that are ahead are followed up and the checksum
fits into the buffer. -/
theorem readsFit_iff {host : Host} {path data : List UInt8} {net : SegStream UInt8}
    {disk : FileSystem} {s : ServerState} {st : BufferState}
    (hnet : net.elems = opSaveFile :: saveFrame host path data)
    (hstart : st.startIndex = path.length + 7) (hin : InBuffer s st.startIndex st.endIndex)
    (hbuf : s.buf.length = 1024)
    (hun : unread s st.startIndex st.endIndex = dataFrame host data)
    (hfetch : Fetch (data.length + 8) (firstCount net disk) (firstRead net disk) st.endIndex s) :
    ReadsFit net (path.length + 11) data.length ↔
      (1 ≤ (st.startIndex + 4 + data.length) % 1024 ∧
        (st.startIndex + 4 + data.length) % 1024 ≤ 1020) ∧
      FollowedUp 1024 (st.startIndex + 4 + data.length + 4) Misplaced 4 (data.length + 4)
        s.socket := by
  rw [← followedUp_frame hnet hstart hin hbuf hun hfetch,
    show st.startIndex + 4 = path.length + 11 by omega]
  exact ⟨fun h => ⟨h.1, h.2⟩, fun h => ⟨h.1, h.2⟩⟩

/-- A connection that carries one save request transfers its data exactly when the
segmentation of the stream fits. -/
theorem connection_transfer {host : Host} (hfull : host.FullWrites) {path : PathBytes}
    {data : List UInt8} (hutf : isUtf8 path = true) (hfits : path.length + 11 ≤ 1024)
    (hdata : data.length < 2 ^ 32) {net : SegStream UInt8}
    (hnet : net.elems = opSaveFile :: saveFrame host path data) {disk : FileSystem}
    (hdest : Creatable disk path) :
    Transferred host net disk path data ↔ ReadsFit net (path.length + 11) data.length := by
  obtain ⟨_, _, hin, hun⟩ := firstRead_unread net disk hnet
  have hserved : connectionTask host (accepted net disk) = _ :=
    connectionTask_save host net disk hnet
  rw [Transferred, hserved]
  rcases hrun : saveFile host (firstCount net disk) 1 (firstRead net disk) with ⟨o, s'⟩
  cases saveFile_frame hin (firstRead_bufLen net disk) hfits hun (firstRead_roomy net disk) hrun with
  | early _ hnot => exact absurd ⟨hutf, hdest⟩ hnot
  | opened st s₁ _ _ hin₁ hstart hbuf hun₁ _ hfetch hempty hreceive =>
      have hiff := receiveData_transfer hfull ⟨destination (completePath path), 0⟩
        (completePath path) hin₁ hbuf hdata hun₁ (by omega)
      rw [readsFit_iff hnet hstart hin₁ hbuf hun₁ hfetch]
      refine Iff.trans ?_ hiff
      constructor
      · rintro ⟨hsaved, _⟩
        rcases o with (e | msg | _) | x
        · cases hsaved
        · cases hsaved
        · cases hsaved
        · exact ⟨x, _, hreceive⟩
      · rintro ⟨⟨st', p⟩, s'', hok⟩
        obtain ⟨rfl, rfl⟩ := Prod.mk.inj (hreceive.symm.trans hok)
        obtain ⟨rfl, _, data', hdata', hstored, hbytes⟩ :=
          (receiveData_ensures hfull ⟨destination (completePath path), 0⟩ (completePath path)
            hin₁).of_run hreceive
        refine ⟨rfl, ?_⟩
        rw [hun₁, ← List.append_nil (dataFrame host data)] at hbytes
        obtain rfl := dataFrame_inj hdata hdata' hbytes
        exact hstored.content hempty rfl

/-- **End to end.**  For every UTF-8 path whose fields fit into the buffer and which names a
creatable destination, every stable file of fewer than `2 ^ 32` bytes and every segmentation
`net` of the bytes that `send_file` emits: the connection ends with the file saved, and
the destination holds the bytes of the file, exactly when the segmentation fits. -/
theorem transfer_iff {host : Host} (hfull : host.FullWrites) {path : PathBytes}
    (hutf : isUtf8 path = true) (hfits : path.length + 11 ≤ 1024) {job : Client.ClientState}
    (hfresh : job.wire = []) (hstable : job.fileLength = job.file.elems.length)
    (hlen : job.file.elems.length < 2 ^ 32) {net : SegStream UInt8}
    (hnet : net.elems = (Client.sendFile host path job).2.wire) {disk : FileSystem}
    (hdest : Creatable disk path) :
    Transferred host net disk path job.file.elems ↔
      ReadsFit net (path.length + 11) job.file.elems.length := by
  obtain ⟨_, hwire⟩ := Client.sendFile_emits host path hstable hlen hfits
  rw [hwire, hfresh, List.nil_append] at hnet
  exact connection_transfer hfull hutf hfits hlen hnet hdest

/-- A file of three bytes that is read one byte at a time. -/
def slowFile : Client.ClientState where
  file := ⟨[[1], [2], [3]], by decide⟩
  fileLength := 3
  wire := []

/-- Its request, cut at `p`. -/
def cutRequest (p : ℕ) (h : ∀ seg ∈ [(opSaveFile :: saveFrame ieeeHost [97] [1, 2, 3]).take p,
    (opSaveFile :: saveFrame ieeeHost [97] [1, 2, 3]).drop p], seg ≠ []) : SegStream UInt8 where
  segs := [(opSaveFile :: saveFrame ieeeHost [97] [1, 2, 3]).take p,
    (opSaveFile :: saveFrame ieeeHost [97] [1, 2, 3]).drop p]
  nonempty := h

theorem cutInFields : ∀ seg ∈ [(opSaveFile :: saveFrame ieeeHost [97] [1, 2, 3]).take 5,
    (opSaveFile :: saveFrame ieeeHost [97] [1, 2, 3]).drop 5], seg ≠ [] := by decide +kernel

theorem savingDisk_creatable : Creatable savingDisk [97] :=
  ⟨components rootSavingDirectory, ⟨destination (completePath [97]), 0⟩, by decide +kernel,
    by decide +kernel, by decide +kernel⟩

theorem transfer_iff_cutInFields :
    Transferred ieeeHost (cutRequest 5 cutInFields) savingDisk [97] [1, 2, 3] ↔
      ReadsFit (cutRequest 5 cutInFields) 12 3 :=
  @transfer_iff ieeeHost ieeeHost_fullWrites [97] (by decide +kernel) (by decide) slowFile rfl rfl
    (by decide) _ (by decide +kernel) savingDisk savingDisk_creatable

/-- A cut within the data loses the transfer: the connection panics. -/
theorem transfer_fails_cutInData :
    ¬ ∀ (host : Host) (path : PathBytes) (job : Client.ClientState) (net : SegStream UInt8)
        (disk : FileSystem),
      host.FullWrites → isUtf8 path = true → path.length + 11 ≤ 1024 → job.wire = [] →
      job.fileLength = job.file.elems.length → job.file.elems.length < 2 ^ 32 →
      net.elems = (Client.sendFile host path job).2.wire → Creatable disk path →
      Transferred host net disk path job.file.elems := by
  intro h
  have htransferred := h ieeeHost [97] slowFile (cutRequest 13 (by decide +kernel)) savingDisk
    ieeeHost_fullWrites (by decide +kernel) (by decide) rfl rfl (by decide) (by decide +kernel)
    savingDisk_creatable
  have hpanics : (connectionTask ieeeHost (accepted (cutRequest 13 (by decide +kernel))
      savingDisk)).1 = .error (.panic "attempt to subtract with overflow") := by decide +kernel
  cases hpanics.symm.trans htransferred.1

end Pcopy
