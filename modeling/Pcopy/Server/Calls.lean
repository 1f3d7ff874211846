import Pcopy.Lib.Script
import Pcopy.Server.ConcurrentSaves
import Pcopy.Server.Connection

/-!
# A connection as a script of calls

What a connection task does between two calls to the file system depends on its own stream
only.  So the task is a script: it makes the directories above its file one by one, creates the
file, and writes to it chunk by chunk; where a call fails it ends.

`connectionScript` reads the script off the stream with the functions of the task itself, on a
disk that they do not look at.

* `connectionScript_exec` — alone on any disk, the script does what the task does.
-/

namespace Pcopy.Server

open Pcopy.Lib Pcopy.Path

/-- A call of a task to the file system that is one step there: `create_dir_all` makes one
directory after the other. -/
inductive Call where
  | mkdir : Location → Call
  | create : PathBytes → Call
  | write : FileHandle → List UInt8 → Call
  deriving DecidableEq

/-- The file system after a call, or the error of the call, which then has done nothing. -/
def Call.perform (fs : FileSystem) : Call → Except IoError FileSystem
  | .mkdir l => fs.mkdir l
  | .create p =>
      match fs.create p with
      | (.ok _, fs') => .ok fs'
      | (.error e, _) => .error e
  | .write file data => .ok (fs.write file data)

/-- How a task has ended, and what it has sent back. -/
abbrev Outcome : Type := Except (Fault IoError) Served × List UInt8

/-- A connection task. -/
abbrev ConnectionScript : Type := Script Call IoError Outcome

/-- Where a walk along components leads, step by step. -/
def places : Location → List Component → List Location
  | _, [] => []
  | loc, c :: cs => FileSystem.follow loc c :: places (FileSystem.follow loc c) cs

/-- The places of a walk are those that its beginnings lead to. -/
theorem mem_places {l : Location} (cs : List Component) :
    ∀ loc, l ∈ places loc cs ↔ ∃ pre ≠ [], pre <+: cs ∧ l = walk loc (moves pre) := by
  induction cs with
  | nil =>
      intro loc
      refine ⟨fun h => absurd h List.not_mem_nil, ?_⟩
      rintro ⟨pre, hne, hpre, -⟩
      exact absurd (List.prefix_nil.mp hpre) hne
  | cons c cs ih =>
      intro loc
      rw [places, List.mem_cons, ih]
      constructor
      · rintro (rfl | ⟨pre, -, hpre, rfl⟩)
        · exact ⟨[c], List.cons_ne_nil _ _, by simp, (FileSystem.walk_moves_cons loc c []).symm⟩
        · exact ⟨c :: pre, List.cons_ne_nil _ _, List.cons_prefix_cons.mpr ⟨rfl, hpre⟩,
            (FileSystem.walk_moves_cons loc c pre).symm⟩
      · rintro ⟨pre, hne, hpre, rfl⟩
        cases pre with
        | nil => exact absurd rfl hne
        | cons c' pre =>
            obtain ⟨rfl, htail⟩ := List.cons_prefix_cons.mp hpre
            rw [FileSystem.walk_moves_cons]
            by_cases hnil : pre = []
            · rw [hnil]
              exact Or.inl rfl
            · exact Or.inr ⟨pre, hnil, htail, rfl⟩

/-- Make the directories at the places of a walk, and then `rest`. -/
def makeDirs (onError : IoError → Outcome) (rest : ConnectionScript) :
    List Location → ConnectionScript
  | [] => rest
  | l :: ls =>
      .call (.mkdir l) (fun e => onError (if ls = [] then e else FileSystem.onTheWay e))
        (makeDirs onError rest ls)

/-- `create_dir_all`, and then `rest`. -/
def makeDirsAll (onError : IoError → Outcome) (rest : ConnectionScript) (dir : List Component) :
    ConnectionScript :=
  if hasNul dir then .done (onError nulByte) else makeDirs onError rest (places [] dir)

/-- The writes of a log; those of this file system do not fail. -/
def storing (o : Outcome) : List Effect → ConnectionScript
  | [] => .done o
  | .write file data :: log =>
      .call (.write file data) (fun e => (.error (.panic e.message), [])) (storing o log)
  | _ :: log => storing o log

/-! ### The parts of a task between its calls -/

/-- A disk with nothing on it, for the parts of a task that do not look at the disk. -/
def noDisk : FileSystem := ⟨fun _ => none, fun _ => none⟩

/-- `create_parent_folder` up to its call of `create_dir_all`: the complete path, the directory
above it, and the indexes behind the field. -/
def beforeFolder (host : Host) (endIndex startIndex : ℕ) :
    Task (PathBytes × List Component × BufferState) := do
  let (relativeFilePath, receivedChecksum, state) ← readPathField host endIndex startIndex
  let expectedChecksum := (Hasher.new.update relativeFilePath).finalize host
  if expectedChecksum = receivedChecksum then
    match parentFolder (completePath relativeFilePath) with
    | none => Exec.unwind noParentMessage
    | some dir => pure (completePath relativeFilePath, dir, state)
  else Exec.fail ⟨.other,
    "Error creating parent folder, checksum mismatched received: " ++
      toString receivedChecksum.toNat ++ ", expected " ++ toString expectedChecksum.toNat⟩

/-- The error that `create_parent_folder` makes of one of `create_dir_all`. -/
def folderError (e : IoError) : IoError := ⟨.other, "Error creating parent folder " ++ e.message⟩

/-- How a connection ends that asked for a directory. -/
def folderOutcome : Except (Fault IoError) PathBytes → Outcome
  | .ok path => (.ok (.folderCreated path), [0, 1])
  | .error (.err e) => (.ok (.folderFailed e), [])
  | .error (.panic msg) => (.error (.panic msg), [])
  | .error .outOfFuel => (.error .outOfFuel, [])

/-- How a connection ends that asked for a file to be saved. -/
def saveOutcome : Except (Fault IoError) PathBytes → Outcome
  | .ok path => (.ok (.fileSaved path), [0, 1])
  | .error (.err e) => (.ok (.fileFailed e), [255, 255])
  | .error (.panic msg) => (.error (.panic msg), [])
  | .error .outOfFuel => (.error .outOfFuel, [])

/-- The script of a CreateParentFolder connection, from the run of `beforeFolder`. -/
def folderScript :
    Except (Fault IoError) (PathBytes × List Component × BufferState) × ServerState →
    ConnectionScript
  | (.ok (path, dir, _), _) =>
      makeDirsAll (fun e => folderOutcome (.error (.err (folderError e))))
        (.done (folderOutcome (.ok path))) dir
  | (.error φ, _) => .done (folderOutcome (.error φ))

/-- The rest of a SaveFile connection once its file is open: the calls and the end of the run of
`receiveData` from there. -/
def receiveScript (host : Host) (path : PathBytes) (state : BufferState) (s : ServerState) :
    ConnectionScript :=
  let r := receiveData host ⟨destination path, 0⟩ path state.endIndex state.startIndex s
  storing (saveOutcome (r.1.map Prod.snd)) (r.2.effects.drop s.effects.length)

/-- The script of a SaveFile connection, from the run of `beforeFolder`. -/
def saveScript (host : Host) :
    Except (Fault IoError) (PathBytes × List Component × BufferState) × ServerState →
    ConnectionScript
  | (.ok (path, dir, state), s) =>
      makeDirsAll (fun e => saveOutcome (.error (.err ⟨.invalidInput, (folderError e).message⟩)))
        (.call (.create path) (fun e => saveOutcome (.error (.err e)))
          (receiveScript host path state (afterCreate (afterDir s dir) path)))
        dir
  | (.error (.err e), _) => .done (saveOutcome (.error (.err ⟨.invalidInput, e.message⟩)))
  | (.error φ, _) => .done (saveOutcome (.error φ))

/-- The closure that `Server::run` spawns, as a script, for a connection on which this arrives. -/
def connectionScript (host : Host) (socket : SegStream UInt8) : ConnectionScript :=
  let n := firstCount socket noDisk
  let s := firstRead socket noDisk
  if n = 0 then .done (.ok .noData, [255, 255])
  else
    let operation := s.buf.headD 0
    if operation = opCreateParentFolder then folderScript (beforeFolder host n 1 s)
    else if operation = opSaveFile then saveScript host (beforeFolder host n 1 s)
    else .done (.ok (.unknownOperation operation), [])

/-! ### The parts and the functions they are parts of -/

section

variable {host : Host}

theorem beforeFolder_alike (host : Host) (endIndex startIndex : ℕ) :
    Exec.Alike SameButDisk (beforeFolder host endIndex startIndex) := by
  refine (readPathField_alike host endIndex startIndex).bind ?_
  rintro ⟨relativeFilePath, receivedChecksum, state⟩
  dsimp only
  split
  · split
    · exact Exec.Alike.unwind _
    · exact Exec.Alike.pure _
  · exact Exec.Alike.fail _

theorem beforeFolder_reads (host : Host) (endIndex startIndex : ℕ) :
    Exec.Moves Reads (beforeFolder host endIndex startIndex) := by
  refine Reads.bind (readPathField_reads host endIndex startIndex) ?_
  rintro ⟨relativeFilePath, receivedChecksum, state⟩
  dsimp only
  split
  · split
    · exact Reads.refl
    · exact Reads.refl
  · exact Reads.refl

/-- `create_parent_folder` from its call on. -/
def folderCall (r : PathBytes × List Component × BufferState) :
    Task (BufferState × PathBytes) := do
  match ← Exec.attempt (createDirAll r.2.1) with
  | .ok () => pure (r.2.2, r.1)
  | .error e => Exec.fail (folderError e)

theorem createParentFolder_eq (host : Host) (endIndex startIndex : ℕ) :
    createParentFolder host endIndex startIndex
      = beforeFolder host endIndex startIndex >>= folderCall := by
  rw [createParentFolder, beforeFolder, Exec.bind_assoc]
  congr 1
  funext ⟨relativeFilePath, receivedChecksum, state⟩
  dsimp only
  split
  · rw [makeParentFolder]
    cases hdir : parentFolder (completePath relativeFilePath) with
    | none => rfl
    | some dir => rfl
  · rfl

/-- Nothing is left of a walk's places where nothing is left of its components. -/
theorem places_eq_nil (loc : Location) (cs : List Component) : places loc cs = [] ↔ cs = [] := by
  cases cs <;> simp [places]

/-- Making directories alone. -/
theorem exec_makeDirs (onError : IoError → Outcome) (rest : ConnectionScript)
    (dir : List Component) :
    ∀ (fs : FileSystem) (loc : Location),
      (makeDirs onError rest (places loc dir)).exec Call.perform fs
        = match fs.mkdirs loc dir with
          | (.ok (), fs') => rest.exec Call.perform fs'
          | (.error e, fs') => (onError e, fs') := by
  induction dir with
  | nil => intro fs loc; rfl
  | cons c cs ih =>
      intro fs loc
      simp only [places, makeDirs, Script.exec, Call.perform, FileSystem.mkdirs, places_eq_nil]
      cases hmk : fs.mkdir (FileSystem.follow loc c) with
      | error e => rfl
      | ok fs' => exact ih fs' _

theorem exec_makeDirsAll (onError : IoError → Outcome) (rest : ConnectionScript)
    (dir : List Component) (fs : FileSystem) :
    (makeDirsAll onError rest dir).exec Call.perform fs
      = match fs.createDirAll dir with
        | (.ok (), fs') => rest.exec Call.perform fs'
        | (.error e, fs') => (onError e, fs') := by
  rw [makeDirsAll, FileSystem.createDirAll]
  split
  · rfl
  · exact exec_makeDirs onError rest dir fs []

/-- Writing chunks alone. -/
theorem exec_storing (o : Outcome) (chunks : List (List UInt8)) :
    ∀ (fs : FileSystem) (file : FileHandle),
      (storing o (writes file chunks)).exec Call.perform fs
        = (o, replay fs (writes file chunks)) := by
  induction chunks with
  | nil => intro fs file; rfl
  | cons c chunks ih =>
      intro fs file
      simp only [writes, storing, Script.exec, Call.perform, replay_cons]
      exact ih _ _

/-- What is seen of a task that has ended. -/
def seen (r : Except (Fault IoError) Served × ServerState) : Outcome × FileSystem :=
  ((r.1, r.2.reply), r.2.disk)

/-- What a run of a part that only reads gives on another disk. -/
theorem beforeFolder_any_disk {s t s₁ : ServerState} {n : ℕ}
    {o : Except (Fault IoError) (PathBytes × List Component × BufferState)} (h : SameButDisk s t)
    (hrun : beforeFolder host n 1 s = (o, s₁)) :
    ∃ t₁, beforeFolder host n 1 t = (o, t₁) ∧ SameButDisk s₁ t₁ ∧ Reads t t₁ := by
  obtain ⟨t₁, hrunT, h₁⟩ := (beforeFolder_alike host n 1).run h hrun
  have hreads := beforeFolder_reads host n 1 t
  rw [hrunT] at hreads
  exact ⟨t₁, hrunT, h₁, hreads⟩

theorem folderCall_run (path : PathBytes) (dir : List Component) (state : BufferState)
    (s : ServerState) :
    folderCall (path, dir, state) s
      = match s.disk.createDirAll dir with
        | (.ok (), _) => (.ok (state, path), afterDir s dir)
        | (.error e, _) => (.error (.err (folderError e)), afterDir s dir) := by
  rcases hmk : s.disk.createDirAll dir with ⟨e | _, disk⟩
  · have hfails : createDirAll dir s = (.error (.err e), afterDir s dir) :=
      createDirAll_fails (by rw [hmk])
    rw [folderCall, Exec.bind_ok (Exec.attempt_err hfails)]
    rfl
  · have hok : createDirAll dir s = (.ok (), afterDir s dir) := createDirAll_run (by rw [hmk])
    rw [folderCall, Exec.bind_ok (Exec.attempt_ok hok)]
    rfl

theorem seen_folderServed {r : Except (Fault IoError) (BufferState × PathBytes) × ServerState}
    (hreply : r.2.reply = []) :
    seen (folderServed r) = (folderOutcome (r.1.map Prod.snd), r.2.disk) := by
  obtain ⟨(e | msg | _) | r, s⟩ := r <;>
    simp_all [seen, folderServed, folderOutcome, Except.map, replied]

theorem seen_saveServed {r : Except (Fault IoError) (BufferState × PathBytes) × ServerState}
    (hreply : r.2.reply = []) :
    seen (saveServed r) = (saveOutcome (r.1.map Prod.snd), r.2.disk) := by
  obtain ⟨(e | msg | _) | r, s⟩ := r <;>
    simp_all [seen, saveServed, saveOutcome, Except.map, replied]

theorem folderScript_exec {s t : ServerState} {n : ℕ} (h : SameButDisk s t)
    (hreply : t.reply = []) :
    (folderScript (beforeFolder host n 1 s)).exec Call.perform t.disk
      = seen (folderServed (createParentFolder host n 1 t)) := by
  rcases hrun : beforeFolder host n 1 s with ⟨φ | ⟨path, dir, state⟩, s₁⟩
  · obtain ⟨t₁, hrunT, -, hreads⟩ := beforeFolder_any_disk h hrun
    rw [createParentFolder_eq, Exec.bind_fault hrunT,
      seen_folderServed (hreads.reply.trans hreply), hreads.disk]
    rfl
  · obtain ⟨t₁, hrunT, -, hreads⟩ := beforeFolder_any_disk h hrun
    have hreply₁ : (afterDir t₁ dir).reply = [] := hreads.reply.trans hreply
    have hdisk : (afterDir t₁ dir).disk = (t₁.disk.createDirAll dir).2 := rfl
    rw [createParentFolder_eq, Exec.bind_ok hrunT, folderCall_run, folderScript,
      exec_makeDirsAll, ← hreads.disk]
    rcases hmk : t₁.disk.createDirAll dir with ⟨e | _, disk⟩
    · rw [hmk] at hdisk
      rw [seen_folderServed hreply₁, hdisk]
      rfl
    · rw [hmk] at hdisk
      rw [seen_folderServed hreply₁, hdisk]
      rfl

/-- The calls of `receiveData` on the disk that it finds. -/
theorem receiveScript_exec {path : PathBytes} {state : BufferState} {s t : ServerState}
    (h : SameButDisk s t) (hreply : t.reply = []) :
    (receiveScript host path state s).exec Call.perform t.disk
      = seen (saveServed (receiveData host ⟨destination path, 0⟩ path state.endIndex
          state.startIndex t)) := by
  rcases hrun : receiveData host ⟨destination path, 0⟩ path state.endIndex state.startIndex s
    with ⟨o, s'⟩
  obtain ⟨t', hrunT, h'⟩ := (receiveData_alike host _ path _ _).run h hrun
  obtain ⟨data, hstored, _⟩ := receiveData_stores host ⟨destination path, 0⟩ path state.endIndex
    state.startIndex t
  rw [hrunT] at hstored
  obtain ⟨chunks, _, hlog, hdisk⟩ := hstored.log
  have hcalls : s'.effects.drop s.effects.length = writes ⟨destination path, 0⟩ chunks := by
    rw [← h'.effects, ← h.effects, hlog, List.drop_left]
  rw [receiveScript, hrun, hrunT, seen_saveServed (hstored.reply.trans hreply), hdisk]
  dsimp only
  rw [hcalls, exec_storing]

/-- `save_file` from the opening of the file on. -/
theorem openScript_exec {path : PathBytes} {dir : List Component} {state : BufferState}
    {s t : ServerState} (h : SameButDisk s t) (hreply : t.reply = []) :
    (Script.call (.create path) (fun e => saveOutcome (.error (.err e)))
        (receiveScript host path state (afterCreate (afterDir s dir) path))).exec Call.perform
        (afterDir t dir).disk
      = seen (saveServed ((createFile path >>= fun file =>
          receiveData host file path state.endIndex state.startIndex) (afterDir t dir))) := by
  have hdirs : SameButDisk (afterDir s dir) (afterDir t dir) :=
    ⟨h.socket, h.reply, h.buf, by simp only [afterDir, h.effects], h.rooms⟩
  have hreply₁ : (afterDir t dir).reply = [] := hreply
  rw [Script.exec, Call.perform]
  cases hcreate : ((afterDir t dir).disk.create path).1 with
  | error e =>
      rw [Exec.bind_fault (createFile_fails hcreate), seen_saveServed hreply₁]
      rcases hc : (afterDir t dir).disk.create path with ⟨o, disk⟩
      rw [hc] at hcreate
      obtain rfl : o = .error e := hcreate
      rfl
  | ok file =>
      obtain ⟨rfl, -, -⟩ := create_opens hcreate
      have hcreated : SameButDisk (afterCreate (afterDir s dir) path)
          (afterCreate (afterDir t dir) path) :=
        ⟨hdirs.socket, hdirs.reply, hdirs.buf, by simp only [afterCreate, hdirs.effects],
          hdirs.rooms⟩
      have hreceive := @receiveScript_exec host path state _ _ hcreated hreply₁
      rw [Exec.bind_ok (createFile_run hcreate), ← hreceive]
      rcases hc : (afterDir t dir).disk.create path with ⟨o, disk⟩
      rw [hc] at hcreate
      obtain rfl : o = .ok ⟨destination path, 0⟩ := hcreate
      simp only [afterCreate, hc]

theorem saveScript_exec {s t : ServerState} {n : ℕ} (h : SameButDisk s t)
    (hreply : t.reply = []) :
    (saveScript host (beforeFolder host n 1 s)).exec Call.perform t.disk
      = seen (saveServed (saveFile host n 1 t)) := by
  rcases hrun : beforeFolder host n 1 s with ⟨φ | ⟨path, dir, state⟩, s₁⟩
  · obtain ⟨t₁, hrunT, -, hreads⟩ := beforeFolder_any_disk h hrun
    have hfolder : createParentFolder host n 1 t = (.error φ, t₁) := by
      rw [createParentFolder_eq, Exec.bind_fault hrunT]
    have hreply₁ := hreads.reply.trans hreply
    cases φ with
    | err e =>
        rw [saveFile, Exec.bind_ok (Exec.attempt_err hfolder), seen_saveServed hreply₁]
        show _ = (_, t₁.disk)
        rw [hreads.disk]
        rfl
    | panic msg =>
        rw [saveFile, Exec.bind_fault (Exec.attempt_panic hfolder), seen_saveServed hreply₁,
          hreads.disk]
        rfl
    | outOfFuel =>
        rw [saveFile, Exec.bind_fault (Exec.attempt_outOfFuel hfolder), seen_saveServed hreply₁,
          hreads.disk]
        rfl
  · obtain ⟨t₁, hrunT, h₁, hreads⟩ := beforeFolder_any_disk h hrun
    have hreply₁ : t₁.reply = [] := hreads.reply.trans hreply
    have hdisk : (afterDir t₁ dir).disk = (t₁.disk.createDirAll dir).2 := rfl
    have hfolder : createParentFolder host n 1 t = folderCall (path, dir, state) t₁ := by
      rw [createParentFolder_eq, Exec.bind_ok hrunT]
    rw [folderCall_run] at hfolder
    rw [saveScript, exec_makeDirsAll, ← hreads.disk]
    rcases hmk : t₁.disk.createDirAll dir with ⟨e | _, disk⟩
    · rw [hmk] at hdisk hfolder
      rw [saveFile, Exec.bind_ok (Exec.attempt_err hfolder), seen_saveServed hreply₁]
      show _ = (_, (afterDir t₁ dir).disk)
      rw [hdisk]
      rfl
    · rw [hmk] at hdisk hfolder
      rw [saveFile_after_folder hfolder, ← openScript_exec h₁ hreply₁, hdisk]

theorem firstRead_sameButDisk (socket : SegStream UInt8) (disk : FileSystem) :
    SameButDisk (firstRead socket noDisk) (firstRead socket disk) := ⟨rfl, rfl, rfl, rfl, rfl⟩

/-- **Alone, the script is the task.**  On every disk, for every stream and every way it is cut:
the calls of the script, made one after the other until one fails, leave the disk that the
connection task leaves, and the task ends and answers as the script says. -/
theorem connectionScript_exec (host : Host) (socket : SegStream UInt8) (disk : FileSystem) :
    (connectionScript host socket).exec Call.perform disk
      = seen (connectionTask host (accepted socket disk)) := by
  have hsame := firstRead_sameButDisk socket disk
  have hdisk : (firstRead socket disk).disk = disk := rfl
  rcases helems : socket.elems with _ | ⟨op, u⟩
  · rw [connectionTask_noData host socket disk helems]
    simp only [connectionScript, if_pos ((firstCount_eq_zero_iff socket noDisk).mpr helems)]
    rfl
  · obtain ⟨hne, hop, _⟩ := firstRead_unread socket noDisk helems
    simp only [connectionScript, if_neg hne, hop]
    by_cases hfolder : op = opCreateParentFolder
    · subst hfolder
      rw [if_pos rfl, connectionTask_folder host socket disk helems]
      exact folderScript_exec hsame rfl
    · rw [if_neg hfolder]
      by_cases hsave : op = opSaveFile
      · subst hsave
        rw [if_pos rfl, connectionTask_save host socket disk helems]
        exact saveScript_exec hsame rfl
      · rw [if_neg hsave, connectionTask_other host socket disk helems hfolder hsave]
        rfl

end

end Pcopy.Server
