import Pcopy.Server.ReadRoom

/-!
# `save_file` on one whole frame

On a stream that carries one frame whose fields fit into the buffer, `save_file` either ends
before its file is open, because the path is no UTF-8 or the file cannot be created, or it
goes on behind the path field with exactly the data field unread (`saveFile_frame`).
-/

namespace Pcopy.Server

open Pcopy.Lib Pcopy.Path

/-- A save request begins with its path field. -/
theorem pathFieldAhead_saveFrame (host : Host) {path : PathBytes} (data : List UInt8)
    (hutf : isUtf8 path = true) (hfits : path.length + 11 ≤ 1024) :
    PathFieldAhead 1024 1 (saveFrame host path data) path (crc32 host path)
      (dataFrame host data) where
  utf8 := hutf
  short := by omega
  bytes := by
    rw [saveFrame, pathFrame, checksumBytes]
    simp only [List.append_assoc]
  fits := by omega

/-- A save request holds no other path than its own. -/
theorem saveFrame_path {host : Host} {path path' data rest : List UInt8} {c : UInt32}
    {bufLen startIndex : ℕ} (hshort : path.length < 65536)
    (h : PathFieldAhead bufLen startIndex (saveFrame host path data) path' c rest) :
    path' = path := by
  have hbytes : saveFrame host path data = BigEndian.toBytes 2 path.length ++
      (path ++ (checksumBytes host path ++ dataFrame host data)) := by
    rw [saveFrame, pathFrame]
    simp only [List.append_assoc]
  obtain ⟨hlen, hrest⟩ := h.length_field (BigEndian.toBytes_length 2 _) hbytes
  rw [BigEndian.ofBytes_toBytes hshort] at hlen
  exact (List.append_inj hrest hlen).1.symm

/-- How `save_file` ends on a frame whose fields fit into the buffer: before the file is open,
with room for every read, or in the part behind it. -/
inductive FrameRun (host : Host) (path data : List UInt8) (s : ServerState) (endIndex : ℕ) :
    Except (Fault IoError) (BufferState × PathBytes) → ServerState → Prop where
  | early (o : Except (Fault IoError) (BufferState × PathBytes)) (s' : ServerState)
      (hroomy : Roomy s') (hnot : ¬ (isUtf8 path = true ∧ Creatable s.disk path)) :
      FrameRun host path data s endIndex o s'
  | opened (o : Except (Fault IoError) (BufferState × PathBytes)) (s' : ServerState)
      (st : BufferState) (s₁ : ServerState) (hutf : isUtf8 path = true)
      (hcreatable : Creatable s.disk path) (hin : InBuffer s₁ st.startIndex st.endIndex)
      (hstart : st.startIndex = path.length + 7) (hbuf : s₁.buf.length = 1024)
      (hun : unread s₁ st.startIndex st.endIndex = dataFrame host data) (hroomy : Roomy s₁)
      (hfetch : Fetch (data.length + 8) endIndex s st.endIndex s₁)
      (hempty : s₁.disk.fileAt (destination (completePath path)) = some [])
      (hrun : receiveData host ⟨destination (completePath path), 0⟩ (completePath path)
        st.endIndex st.startIndex s₁ = (o, s')) :
      FrameRun host path data s endIndex o s'

theorem saveFile_frame {host : Host} {path data : List UInt8} {s s' : ServerState} {endIndex : ℕ}
    {o : Except (Fault IoError) (BufferState × PathBytes)} (hin : InBuffer s 1 endIndex)
    (hbuf : s.buf.length = 1024) (hfits : path.length + 11 ≤ 1024)
    (hun : unread s 1 endIndex = saveFrame host path data) (hroomy : Roomy s)
    (hrun : saveFile host endIndex 1 s = (o, s')) :
    FrameRun host path data s endIndex o s' := by
  rcases hcpf : createParentFolder host endIndex 1 s with ⟨o₁, s₁'⟩
  have hroomy₁ : Roomy s₁' := by
    have hsplit : unread s 1 endIndex = BigEndian.toBytes 2 path.length
        ++ (path ++ (checksumBytes host path ++ dataFrame host data)) := by
      rw [hun, saveFrame, pathFrame]
      simp only [List.append_assoc]
    have h := createParentFolder_roomy host hin (by omega) hsplit (by omega) hroomy
    rwa [hcpf] at h
  rcases createParentFolder_cases host hin hcpf with
    ⟨path', st, s₁, hver, hmake⟩ | ⟨hreads, ⟨e, rfl⟩, hnone⟩
  · -- the path is verified
    have hahead := hver.ahead
    rw [hun, hbuf] at hahead
    obtain rfl := saveFrame_path (by omega) hahead
    rcases makeParentFolder_cases hmake with
      ⟨hdir, rfl, rfl⟩ | ⟨dir, hdir, rfl, ⟨hmk, rfl⟩ | ⟨e, e', hmk, rfl⟩⟩
    · rw [saveFile, Exec.bind_fault (Exec.attempt_panic hcpf)] at hrun
      obtain ⟨rfl, rfl⟩ := Prod.mk.inj hrun
      refine .early _ _ hroomy₁ ?_
      rintro ⟨_, dir, file, hdir', _⟩
      cases hdir.symm.trans hdir'
    · rw [saveFile_after_folder hcpf] at hrun
      have hdisk : (afterDir s₁ dir).disk = (s.disk.createDirAll dir).2 := by
        show (s₁.disk.createDirAll dir).2 = _
        rw [hver.reads.disk]
      cases hcreate : ((afterDir s₁ dir).disk.create (completePath path')).1 with
      | error e =>
          rw [Exec.bind_fault (createFile_fails hcreate)] at hrun
          obtain ⟨rfl, rfl⟩ := Prod.mk.inj hrun
          refine .early _ _ hroomy₁ ?_
          rintro ⟨_, dir', file, hdir', _, hcreate'⟩
          obtain rfl := Option.some.inj (hdir.symm.trans hdir')
          rw [hdisk] at hcreate
          cases hcreate.symm.trans hcreate'
      | ok file =>
          rw [Exec.bind_ok (createFile_run hcreate)] at hrun
          obtain ⟨rfl, _⟩ := create_opens hcreate
          have hunique := hahead.unique (pathFieldAhead_saveFrame host data hahead.utf8 hfits)
          have hlen := saveFrame_length host path' data
          have hfetch := hver.fetch
          rw [hun, hlen, show 2 + path'.length + 4 + 4 + data.length + 4 - (path'.length + 6)
            = data.length + 8 by omega] at hfetch
          have hstart := hver.advanced
          have hcreatable : Creatable s.disk path' := by
            refine ⟨dir, ⟨destination (completePath path'), 0⟩, hdir, ?_, ?_⟩
            · rw [← hver.reads.disk]
              exact hmk
            · rw [← hdisk]
              exact hcreate
          exact .opened _ _ st (afterCreate (afterDir s₁ dir) (completePath path')) hahead.utf8
            hcreatable ⟨hver.inBuffer.ordered, hver.inBuffer.fits⟩ (by omega)
            (hver.reads.bufLen.trans hbuf) hunique.2.2 hroomy₁ (hfetch.congr rfl rfl rfl)
            (create_opens hcreate).2.1 hrun
    · rw [saveFile, Exec.bind_ok (Exec.attempt_err hcpf)] at hrun
      obtain ⟨rfl, rfl⟩ := Prod.mk.inj hrun
      refine .early _ _ hroomy₁ ?_
      rintro ⟨_, dir', file, hdir', hmk', _⟩
      obtain rfl := Option.some.inj (hdir.symm.trans hdir')
      rw [hver.reads.disk] at hmk
      cases hmk.symm.trans hmk'
  · rw [saveFile, Exec.bind_ok (Exec.attempt_err hcpf)] at hrun
    obtain ⟨rfl, rfl⟩ := Prod.mk.inj hrun
    refine .early _ _ hroomy₁ ?_
    rintro ⟨hutf, _⟩
    rw [hun, hbuf] at hnone
    exact absurd (pathFieldAhead_saveFrame host data hutf hfits) (hnone path _)

end Pcopy.Server
