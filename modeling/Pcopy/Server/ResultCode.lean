import Pcopy.Server.Connection
import Pcopy.Server.PathGrammar

/-!
# The result that a client gets back

A connection task is to send two bytes before it ends: 1 if the operation succeeded, -1 if
it did not.  Two of its branches send nothing: the one for an unknown operation, and the one
for a failed `create_parent_folder`, whose `write_all` is not awaited.

* `SaveRun.reply`, `createParentFolder_reply` — the operations themselves send nothing;
* `truthfulResult_iff` — the requests that get their result.
-/

namespace Pcopy.Server

open Pcopy.Lib Pcopy.Path

/-- The result owed to the client: 1 for an operation that returned `Ok`, else -1, as a
big-endian `i16`. -/
def Served.result : Served → List UInt8
  | .folderCreated _ => [0, 1]
  | .fileSaved _ => [0, 1]
  | .noData => [255, 255]
  | .folderFailed _ => [255, 255]
  | .fileFailed _ => [255, 255]
  | .unknownOperation _ => [255, 255]

/-- If the task ends without a panic, it has sent the result it owes and nothing else. -/
def TruthfulResult (host : Host) (socket : SegStream UInt8) (disk : FileSystem) : Prop :=
  ∀ served, (connectionTask host (accepted socket disk)).1 = .ok served →
    (connectionTask host (accepted socket disk)).2.reply = served.result

/-- The stream is empty, or a save request, or a request for a directory with a path field
that is ahead and a directory that can be made. -/
def Answered (host : Host) (socket : SegStream UInt8) (disk : FileSystem) : Prop :=
  ∀ op u, socket.elems = op :: u →
    op = opSaveFile ∨ op = opCreateParentFolder ∧
      ∃ path rest, PathFieldAhead 1024 1 u path (crc32 host path) rest ∧
        ∀ dir, parentFolder (completePath path) = some dir → (disk.createDirAll dir).1 = .ok ()

/-! ### The operations send nothing -/

section

variable {host : Host} {s s' : ServerState} {startIndex endIndex : ℕ}
  {o : Except (Fault IoError) (BufferState × PathBytes)}

theorem createParentFolder_reply (hin : InBuffer s startIndex endIndex)
    (hrun : createParentFolder host endIndex startIndex s = (o, s')) : s'.reply = s.reply := by
  rcases createParentFolder_cases host hin hrun with
    ⟨path, st, s₁, hver, hmake⟩ | ⟨hreads, _, _⟩
  · rcases makeParentFolder_cases hmake with ⟨_, _, rfl⟩ | ⟨dir, _, rfl, _⟩
    · exact hver.reads.reply
    · exact hver.reads.reply
  · exact hreads.reply

theorem SaveRun.reply (h : SaveRun host startIndex endIndex s o s') : s'.reply = s.reply := by
  cases h with
  | notVerified _ _ hreads _ => exact hreads.reply
  | noParent _ _ _ hver _ => exact hver.reads.reply
  | dirFailed _ _ _ _ _ _ hver _ _ => exact hver.reads.reply
  | createFailed _ _ _ _ _ hver _ _ _ => exact hver.reads.reply
  | opened path st s₁ dir file _ _ hver _ _ _ hrun =>
      obtain ⟨data, hstored, _⟩ := receiveData_stores host file (completePath path) st.endIndex
        st.startIndex (afterCreate (afterDir s₁ dir) (completePath path))
      rw [hrun] at hstored
      exact hstored.reply.trans hver.reads.reply

end

/-! ### The requests that get their result -/

section

variable (host : Host) (socket : SegStream UInt8) (disk : FileSystem)

/-- A save request gets its result, whatever becomes of it. -/
theorem truthfulResult_save {u : List UInt8} (h : socket.elems = opSaveFile :: u) :
    TruthfulResult host socket disk := by
  intro served hserved
  obtain ⟨_, _, hin, _⟩ := firstRead_unread socket disk h
  rcases hrun : saveFile host (firstCount socket disk) 1 (firstRead socket disk)
    with ⟨(e | msg | _) | r, s'⟩ <;>
    have hreply : s'.reply = [] := (saveFile_run host hin hrun).reply
  all_goals rw [connectionTask_save host socket disk h, hrun] at hserved ⊢
  · cases hserved
    show s'.reply ++ _ = _
    rw [hreply]
    rfl
  · cases hserved
  · cases hserved
  · cases hserved
    show s'.reply ++ _ = _
    rw [hreply]
    rfl

/-- A request for a directory gets its result exactly if `create_parent_folder` does not
return an error. -/
theorem truthfulResult_folder {u : List UInt8} (h : socket.elems = opCreateParentFolder :: u) :
    TruthfulResult host socket disk ↔
      ∀ e, (createParentFolder host (firstCount socket disk) 1 (firstRead socket disk)).1
        ≠ .error (.err e) := by
  obtain ⟨_, _, hin, _⟩ := firstRead_unread socket disk h
  rw [TruthfulResult, connectionTask_folder host socket disk h]
  rcases hrun : createParentFolder host (firstCount socket disk) 1 (firstRead socket disk)
    with ⟨(e | msg | _) | r, s'⟩ <;>
    have hreply : s'.reply = [] := createParentFolder_reply hin hrun
  · -- nothing is sent for an error
    constructor
    · intro hresult
      have hsent := hresult (.folderFailed e) rfl
      change s'.reply = [255, 255] at hsent
      rw [hreply] at hsent
      cases hsent
    · intro hne
      exact absurd rfl (hne e)
  · exact ⟨fun _ e => nofun, fun _ served hserved => nomatch hserved⟩
  · exact ⟨fun _ e => nofun, fun _ served hserved => nomatch hserved⟩
  · refine ⟨fun _ e => nofun, fun _ served hserved => ?_⟩
    cases hserved
    show s'.reply ++ _ = _
    rw [hreply]
    rfl

/-- When `create_parent_folder` does not return an error: a path field is ahead, and its
directory, if the path has one, can be made. -/
theorem createParentFolder_ne_err {u : List UInt8} (h : socket.elems = opCreateParentFolder :: u) :
    (∀ e, (createParentFolder host (firstCount socket disk) 1 (firstRead socket disk)).1
        ≠ .error (.err e)) ↔
      ∃ path rest, PathFieldAhead 1024 1 u path (crc32 host path) rest ∧
        ∀ dir, parentFolder (completePath path) = some dir →
          (disk.createDirAll dir).1 = .ok () := by
  obtain ⟨_, _, hin, hun⟩ := firstRead_unread socket disk h
  have hbuf := firstRead_bufLen socket disk
  rcases hrun : createParentFolder host (firstCount socket disk) 1 (firstRead socket disk)
    with ⟨o, s'⟩
  rcases createParentFolder_cases host hin hrun with
    ⟨path, st, s₁, hver, hmake⟩ | ⟨_, ⟨e, rfl⟩, hnone⟩
  · have hahead := hver.ahead
    have hdisk : s₁.disk = disk := hver.reads.disk
    rw [hbuf, hun] at hahead
    rcases makeParentFolder_cases hmake with
      ⟨hdir, rfl, _⟩ | ⟨dir, hdir, _, ⟨hmk, rfl⟩ | ⟨e, e', hmk, rfl⟩⟩
    · refine ⟨fun _ => ⟨path, _, hahead, ?_⟩, fun _ e => nofun⟩
      intro dir hdir'
      cases hdir.symm.trans hdir'
    · refine ⟨fun _ => ⟨path, _, hahead, ?_⟩, fun _ e => nofun⟩
      intro dir' hdir'
      obtain rfl := Option.some.inj (hdir.symm.trans hdir')
      rw [← hdisk]
      exact hmk
    · refine ⟨fun hne => absurd rfl (hne e'), ?_⟩
      rintro ⟨path', rest, hahead', hmade⟩
      obtain ⟨rfl, _⟩ := hahead.unique hahead'
      rw [hdisk, hmade dir hdir] at hmk
      cases hmk
  · refine ⟨fun hne => absurd rfl (hne e), ?_⟩
    rintro ⟨path, rest, hahead, _⟩
    rw [hbuf, hun] at hnone
    exact absurd hahead (hnone path rest)

/-- **The requests that get their result.**  On every stream, however it is cut, and every
disk, a task that ends without a panic has sent its one truthful result exactly if the
stream is empty, carries a save request, or a request for a directory that succeeds. -/
theorem truthfulResult_iff : TruthfulResult host socket disk ↔ Answered host socket disk := by
  rcases helems : socket.elems with _ | ⟨op, u⟩
  · -- no data
    refine ⟨fun _ op u h => (nomatch helems.symm.trans h), fun _ served hserved => ?_⟩
    rw [connectionTask_noData host socket disk helems] at hserved ⊢
    cases hserved
    rfl
  · have hanswered : Answered host socket disk ↔ op = opSaveFile ∨ op = opCreateParentFolder ∧
        ∃ path rest, PathFieldAhead 1024 1 u path (crc32 host path) rest ∧
          ∀ dir, parentFolder (completePath path) = some dir →
            (disk.createDirAll dir).1 = .ok () := by
      refine ⟨fun h => h op u helems, fun h op' u' helems' => ?_⟩
      obtain ⟨rfl, rfl⟩ := List.cons.inj (helems.symm.trans helems')
      exact h
    rw [hanswered]
    by_cases hsave : op = opSaveFile
    · subst hsave
      exact ⟨fun _ => Or.inl rfl, fun _ => truthfulResult_save host socket disk helems⟩
    · by_cases hfolder : op = opCreateParentFolder
      · subst hfolder
        rw [truthfulResult_folder host socket disk helems,
          createParentFolder_ne_err host socket disk helems]
        exact ⟨fun h => Or.inr ⟨rfl, h⟩, fun h => (h.resolve_left hsave).2⟩
      · -- an unknown operation
        constructor
        · intro hresult
          have hsent := hresult (.unknownOperation op)
          rw [connectionTask_other host socket disk helems hfolder hsave] at hsent
          cases hsent rfl
        · rintro (h | ⟨h, _⟩)
          · exact absurd h hsave
          · exact absurd h hfolder

end

theorem unknownRequest_ne_nil : ([9] : List UInt8) ≠ [] := List.cons_ne_nil 9 []

/-- One byte that is no operation. -/
def unknownRequest : SegStream UInt8 := SegStream.single [9] unknownRequest_ne_nil

/-- A client with an unknown operation gets no result. -/
theorem unknownRequest_unanswered :
    ¬ ∀ (host : Host) (socket : SegStream UInt8) (disk : FileSystem),
      TruthfulResult host socket disk := by
  intro h
  have hsent := h ieeeHost unknownRequest savingDisk (.unknownOperation 9) (by decide +kernel)
  have hbytes : unknownRequest.elems = 9 :: [] := rfl
  rw [connectionTask_other ieeeHost unknownRequest savingDisk hbytes (by decide) (by decide)]
    at hsent
  cases hsent

end Pcopy.Server
