import Pcopy.Lib.SharedFile
import Pcopy.Server.SaveSoundness

/-!
# Connections that save to one file at the same time

The tasks of a server share nothing but the file system.  What a task does depends on it
only through the success of its first two calls (`saveFile_any_disk`), so the calls of
tasks that run at the same time are an interleaving of the calls that each makes when it
runs alone, and what they leave is the replay of that interleaving.

`OkSave` is a run of `save_file` that returned `Ok`.  `concurrent_saves` describes the
file that any number of such runs with one destination leave, whatever the interleaving.
-/

namespace Pcopy.Server

open Pcopy.Lib Pcopy.Path

/-! ### A run does not look at the disk -/

/-- The same task on another disk. -/
structure SameButDisk (s t : ServerState) : Prop where
  socket : t.socket = s.socket
  reply : t.reply = s.reply
  buf : t.buf = s.buf
  effects : t.effects = s.effects
  rooms : t.rooms = s.rooms

theorem readData_alike (endIndex : ℕ) : Exec.Alike SameButDisk (readData endIndex) := by
  intro s t h
  by_cases hle : endIndex ≤ s.buf.length
  · have hle' : endIndex ≤ t.buf.length := by rw [h.buf]; exact hle
    rw [readData_run hle, readData_run hle', readCount, readCount, h.buf, h.socket]
    refine ⟨rfl, ?_, h.reply, ?_, h.effects, ?_⟩
    · simp only [afterRead, h.buf, h.socket]
    · simp only [afterRead, h.buf, h.socket]
    · simp only [afterRead, h.buf, h.rooms]
  · have hle' : ¬ endIndex ≤ t.buf.length := by rw [h.buf]; exact hle
    rw [readData, readData, if_neg hle, if_neg hle']
    exact ⟨rfl, h⟩

theorem slice_alike (a b : ℕ) : Exec.Alike SameButDisk (slice a b) := by
  intro s t h
  simp only [slice, h.buf]
  split <;> exact ⟨rfl, h⟩

theorem checkedSub_alike (a b : ℕ) : Exec.Alike SameButDisk (checkedSub a b) := by
  unfold checkedSub
  split
  · exact Exec.Alike.pure _
  · exact Exec.Alike.unwind _

theorem readUntilFuel_alike (need : ℕ) (eof : ℕ → IoError) (fuel : ℕ) :
    ∀ endIndex startIndex,
      Exec.Alike SameButDisk (readUntilFuel need eof fuel endIndex startIndex) := by
  induction fuel with
  | zero => intro endIndex startIndex s t h; exact ⟨rfl, h⟩
  | succ fuel ih =>
      intro endIndex startIndex
      refine (checkedSub_alike _ _).bind ?_
      intro available
      split
      · refine (readData_alike _).bind ?_
        intro n
        split
        · exact Exec.Alike.fail _
        · exact ih _ _
      · exact Exec.Alike.pure _

theorem readUntil_alike (need : ℕ) (eof : ℕ → IoError) (endIndex startIndex : ℕ) :
    Exec.Alike SameButDisk (readUntil need eof endIndex startIndex) := by
  intro s t h
  simp only [readUntil, h.socket]
  exact readUntilFuel_alike need eof _ endIndex startIndex s t h

theorem readChecksum_alike (host : Host) (endIndex startIndex : ℕ) :
    Exec.Alike SameButDisk (readChecksum host endIndex startIndex) :=
  (readUntil_alike _ _ _ _).bind fun _ => (slice_alike _ _).bind fun _ => Exec.Alike.pure _

theorem readPathField_alike (host : Host) (endIndex startIndex : ℕ) :
    Exec.Alike SameButDisk (readPathField host endIndex startIndex) := by
  refine (readUntil_alike _ _ _ _).bind fun endIndex => (slice_alike _ _).bind fun field =>
    (readUntil_alike _ _ _ _).bind fun endIndex => (slice_alike _ _).bind fun path => ?_
  split
  · exact (readChecksum_alike _ _ _).bind fun _ => Exec.Alike.pure _
  · exact Exec.Alike.fail _

theorem writeAll_alike (file : FileHandle) (data : List UInt8) :
    Exec.Alike SameButDisk (writeAll file data) := by
  intro s t h
  refine ⟨rfl, h.socket, h.reply, h.buf, ?_, h.rooms⟩
  show t.effects ++ _ = s.effects ++ _
  rw [h.effects]

theorem firstChunk_alike (host : Host) (file : FileHandle) (endIndex startIndex len : ℕ) :
    Exec.Alike SameButDisk (firstChunk host file endIndex startIndex len) :=
  (slice_alike _ _).bind fun _ =>
    ((writeAll_alike _ _).bind fun _ => Exec.Alike.pure _).bind fun _ =>
      (checkedSub_alike _ _).bind fun _ => Exec.Alike.pure _

theorem lastChunk_alike (v : DataLoop) : Exec.Alike SameButDisk (lastChunk v) := by
  refine (slice_alike _ _).bind fun _ => (writeAll_alike _ _).bind fun _ =>
    (checkedSub_alike _ _).bind fun _ => ?_
  split
  · exact Exec.Alike.pure _
  · exact Exec.Alike.unwind _

theorem middleChunk_alike (n : ℕ) (v : DataLoop) :
    Exec.Alike SameButDisk (middleChunk n v) :=
  (slice_alike _ _).bind fun _ => (writeAll_alike _ _).bind fun _ =>
    (checkedSub_alike _ _).bind fun _ => Exec.Alike.pure _

theorem dataTurn_alike (v : DataLoop) : Exec.Alike SameButDisk (dataTurn v) := by
  intro s t h
  rw [dataTurn, Exec.get_bind, Exec.get_bind, h.buf]
  refine Exec.Alike.bind (readData_alike _) ?_ s t h
  intro n
  split
  · exact (checkedSub_alike _ _).bind fun _ => Exec.Alike.fail _
  · dsimp only
    split
    · exact lastChunk_alike _
    · exact middleChunk_alike _ _

theorem dataLoopFuel_alike (fuel : ℕ) :
    ∀ v, Exec.Alike SameButDisk (dataLoopFuel fuel v) := by
  induction fuel with
  | zero => intro v s t h; exact ⟨rfl, h⟩
  | succ fuel ih =>
      intro v
      refine (checkedSub_alike _ _).bind ?_
      intro available
      split
      · exact (dataTurn_alike v).bind ih
      · exact Exec.Alike.pure _

theorem dataLoop_alike (v : DataLoop) : Exec.Alike SameButDisk (dataLoop v) := by
  intro s t h
  simp only [dataLoop, h.socket]
  exact dataLoopFuel_alike _ v s t h

theorem checkData_alike (host : Host) (path : PathBytes) (v : DataLoop) :
    Exec.Alike SameButDisk (checkData host path v) := by
  refine (readChecksum_alike _ _ _).bind fun r => ?_
  dsimp only
  split
  · exact Exec.Alike.pure _
  · exact Exec.Alike.fail _

theorem receiveData_alike (host : Host) (file : FileHandle) (path : PathBytes)
    (endIndex startIndex : ℕ) :
    Exec.Alike SameButDisk (receiveData host file path endIndex startIndex) :=
  (readUntil_alike _ _ _ _).bind fun _ => (slice_alike _ _).bind fun _ =>
    (firstChunk_alike _ _ _ _ _).bind fun v => (dataLoop_alike v).bind fun v' =>
      checkData_alike host path v'

/-! ### Calls on a shared disk -/

/-- The call succeeds on the disk it finds. -/
def Effect.Succeeds (fs : FileSystem) : Effect → Prop
  | .createDirAll dir => (fs.createDirAll dir).1 = .ok ()
  | .create p => (fs.create p).1.isOk = true
  | .write _ _ => True

/-- Each call of a log succeeds on the disk it finds. -/
def CallsSucceed : FileSystem → List Effect → Prop
  | _, [] => True
  | fs, e :: log => e.Succeeds fs ∧ CallsSucceed (e.apply fs) log

instance (fs : FileSystem) : (e : Effect) → Decidable (e.Succeeds fs)
  | .createDirAll dir => inferInstanceAs (Decidable ((fs.createDirAll dir).1 = .ok ()))
  | .create p => inferInstanceAs (Decidable ((fs.create p).1.isOk = true))
  | .write _ _ => inferInstanceAs (Decidable True)

instance decidableCallsSucceed : (fs : FileSystem) → (log : List Effect) →
    Decidable (CallsSucceed fs log)
  | _, [] => inferInstanceAs (Decidable True)
  | fs, e :: log =>
    @instDecidableAnd (e.Succeeds fs) (CallsSucceed (e.apply fs) log) inferInstance
      (decidableCallsSucceed (e.apply fs) log)

theorem exists_of_isOk {ε α : Type} {x : Except ε α} (h : x.isOk = true) : ∃ a, x = .ok a := by
  cases x with
  | error e => cases h
  | ok a => exact ⟨a, rfl⟩

/-- What a call does to the file at a location. -/
def Effect.opAt (loc : Location) : Effect → Option (FileOp UInt8)
  | .createDirAll _ => none
  | .create p => if destination p = loc then some .truncate else none
  | .write file data => if file.loc = loc then some (.write file.offset data) else none

/-- What a successful call does to the file at a location is its step there. -/
theorem fileAt_apply {fs : FileSystem} {e : Effect} (h : e.Succeeds fs) (loc : Location) :
    (e.apply fs).fileAt loc
      = match e.opAt loc with
        | none => fs.fileAt loc
        | some op => op.apply 0 (fs.fileAt loc) := by
  cases e with
  | createDirAll dir => exact FileSystem.fileAt_createDirAll fs dir loc
  | create p =>
      obtain ⟨file, hfile⟩ := exists_of_isOk h
      rcases hc : fs.create p with ⟨o, fs'⟩
      rw [hc] at hfile
      obtain rfl : o = .ok file := hfile
      obtain ⟨_, _, hset⟩ := FileSystem.create_ok hc
      have happly : Effect.apply fs (.create p) = fs.set (destination p) (.file []) := by
        rw [Effect.apply, hc, hset]
        rfl
      rw [happly, Effect.opAt]
      by_cases hloc : destination p = loc
      · rw [if_pos hloc, ← hloc, FileSystem.fileAt_set_file]
        rfl
      · rw [if_neg hloc, FileSystem.fileAt_set_ne _ _ (Ne.symm hloc)]
  | write file data =>
      rw [Effect.opAt]
      by_cases hloc : file.loc = loc
      · subst hloc
        rw [if_pos rfl]
        cases hfile : fs.fileAt file.loc with
        | some content => exact FileSystem.fileAt_write_self hfile data
        | none =>
            show (fs.write file data).fileAt file.loc = none
            unfold FileSystem.write
            split
            · rename_i content hnode
              rw [FileSystem.fileAt, hnode] at hfile
              cases hfile
            · exact hfile
      · rw [if_neg hloc]
        exact FileSystem.fileAt_congr (FileSystem.node_write_ne fs file data (Ne.symm hloc))

/-- **Replaying a log, seen from one file.** -/
theorem fileAt_replay (log : List Effect) (loc : Location) :
    ∀ fs : FileSystem, CallsSucceed fs log →
      (replay fs log).fileAt loc = runOps 0 (fs.fileAt loc) (log.filterMap (Effect.opAt loc)) := by
  induction log with
  | nil => intro fs _; rfl
  | cons e log ih =>
      intro fs h
      have happly := fileAt_apply h.1 loc
      rw [replay_cons, ih _ h.2, happly]
      cases hop : e.opAt loc with
      | none => rw [List.filterMap_cons_none hop]
      | some op => rw [List.filterMap_cons_some hop]; rfl

/-- A successful call that does nothing to the file at a location leaves what stands there, or
makes a directory of its way there. -/
theorem node_apply (fs : FileSystem) {e : Effect} {l : Location} (hop : e.opAt l = none) :
    (e.apply fs).node l = fs.node l ∨ fs.node l = none ∧ (e.apply fs).node l = some .dir ∧
      ∃ dir, e = .createDirAll dir ∧ ∃ pre, pre <+: dir ∧ l = resolve pre := by
  cases e with
  | createDirAll dir =>
      refine (FileSystem.node_createDirAll_cases fs dir l).imp_right ?_
      rintro ⟨hnone, hdir, hpre⟩
      exact ⟨hnone, hdir, dir, rfl, hpre⟩
  | create p =>
      left
      have hl : l ≠ destination p := by
        intro heq
        rw [Effect.opAt, if_pos heq.symm] at hop
        cases hop
      rcases hc : fs.create p with ⟨e | file, fs'⟩
      · rw [Effect.apply, hc, FileSystem.create_error hc]
      · rw [Effect.apply, hc, (FileSystem.create_ok hc).2.2]
        exact FileSystem.node_set_ne fs _ hl
  | write file data =>
      left
      refine FileSystem.node_write_ne fs file data ?_
      intro heq
      rw [Effect.opAt, if_pos heq.symm] at hop
      cases hop

/-- Replaying a log, seen from a place at which it does nothing to a file. -/
theorem node_replay {l : Location} (log : List Effect) :
    ∀ fs : FileSystem, (∀ e ∈ log, e.opAt l = none) →
      (replay fs log).node l = fs.node l ∨ fs.node l = none ∧ (replay fs log).node l = some .dir ∧
        ∃ dir, .createDirAll dir ∈ log ∧ ∃ pre, pre <+: dir ∧ l = resolve pre := by
  induction log with
  | nil => intro fs _; exact Or.inl rfl
  | cons e log ih =>
      intro fs hops
      have htail := ih (e.apply fs) fun e' he' => hops e' (List.mem_cons_of_mem e he')
      rw [replay_cons]
      rcases node_apply fs (hops e List.mem_cons_self) with
        hsame | ⟨hnone, hdir, dir, rfl, hpre⟩
      · rw [hsame] at htail
        refine htail.imp_right ?_
        rintro ⟨hnone, hdir, dir, hmem, hpre⟩
        exact ⟨hnone, hdir, dir, List.mem_cons_of_mem e hmem, hpre⟩
      · right
        rcases htail with hsame | ⟨hnone', _⟩
        · exact ⟨hnone, hsame.trans hdir, dir, List.mem_cons_self, hpre⟩
        · exact nomatch hnone'.symm.trans hdir

theorem opAt_writes (chunks : List (List UInt8)) :
    ∀ file : FileHandle,
      (writes file chunks).filterMap (Effect.opAt file.loc) = appends file.offset chunks := by
  induction chunks with
  | nil => intro file; rfl
  | cons c chunks ih =>
      intro file
      have hop : Effect.opAt file.loc (.write file c) = some (.write file.offset c) := by
        rw [Effect.opAt, if_pos rfl]
      rw [writes, List.filterMap_cons_some hop, appends, ← offset_advance]
      congr 1
      exact ih (file.advance c.length)

/-- **A run that returned `Ok` does the same on any disk** on which its calls succeed. -/
theorem saveFile_any_disk {host : Host} {s t s' : ServerState} {startIndex endIndex : ℕ}
    {r : BufferState × PathBytes} (h : SameButDisk s t)
    (hrun : saveFile host endIndex startIndex s = (.ok r, s'))
    (hcalls : CallsSucceed t.disk (s'.effects.drop s.effects.length)) :
    ∃ t', saveFile host endIndex startIndex t = (.ok r, t') ∧ SameButDisk s' t' := by
  cases hcpf : (createParentFolder host endIndex startIndex s).1 with
  | error φ =>
      -- a save whose folder failed did not return `Ok`
      have hcpf' := Exec.run_eq hcpf
      rcases φ with e | msg | _
      · rw [saveFile, Exec.bind_ok (Exec.attempt_err hcpf')] at hrun
        cases hrun
      · rw [saveFile, Exec.bind_fault (Exec.attempt_panic hcpf')] at hrun
        cases hrun
      · rw [saveFile, Exec.bind_fault (Exec.attempt_outOfFuel hcpf')] at hrun
        cases hrun
  | ok x =>
      have hcpf' := Exec.run_eq hcpf
      obtain ⟨path, st, s₁, dir, hread, hdir, hmk, rfl, hs₁⟩ := createParentFolder_eq_ok.mp hcpf'
      rw [saveFile_after_folder hcpf', hs₁] at hrun
      obtain ⟨t₁, hreadT, h₁⟩ := (readPathField_alike host endIndex startIndex).run h hread
      have hdisk : t₁.disk = t.disk := by
        have hreads := readPathField_reads host endIndex startIndex t
        rw [hreadT] at hreads
        exact hreads.disk
      have heffects : s₁.effects = s.effects := by
        have hreads := readPathField_reads host endIndex startIndex s
        rw [hread] at hreads
        exact hreads.effects
      obtain ⟨file, s₂, hcreate, hreceive⟩ := Exec.bind_eq_ok.mp hrun
      obtain ⟨hfile, rfl⟩ := createFile_eq_ok.mp hcreate
      obtain ⟨rfl, _, _⟩ := create_opens hfile
      -- the calls of the run, and their success on the disk of `t`
      obtain ⟨data, hstored, _⟩ := receiveData_stores host _ (completePath path) st.endIndex
        st.startIndex (afterCreate (afterDir s₁ dir) (completePath path))
      rw [hreceive] at hstored
      obtain ⟨chunks, _, hlog, _⟩ := hstored.log
      have hdrop : s'.effects.drop s.effects.length
          = .createDirAll dir :: .create (completePath path) ::
            writes ⟨destination (completePath path), 0⟩ chunks := by
        rw [hlog]
        show (s₁.effects ++ _ ++ _ ++ _).drop _ = _
        rw [heffects]
        simp
      rw [hdrop, ← hdisk] at hcalls
      obtain ⟨hmkT, hisOk, _⟩ := hcalls
      obtain ⟨fileT, hcreateT⟩ := exists_of_isOk hisOk
      have hcreateT' : ((afterDir t₁ dir).disk.create (completePath path)).1 = .ok fileT := hcreateT
      obtain ⟨rfl, _, _⟩ := create_opens hcreateT'
      have hdirs : SameButDisk (afterDir s₁ dir) (afterDir t₁ dir) :=
        ⟨h₁.socket, h₁.reply, h₁.buf, by simp only [afterDir, h₁.effects], h₁.rooms⟩
      have hcreated : SameButDisk (afterCreate (afterDir s₁ dir) (completePath path))
          (afterCreate (afterDir t₁ dir) (completePath path)) :=
        ⟨hdirs.socket, hdirs.reply, hdirs.buf, by simp only [afterCreate, hdirs.effects],
          hdirs.rooms⟩
      obtain ⟨t', hreceiveT, h'⟩ := (receiveData_alike _ _ _ _ _).run hcreated hreceive
      refine ⟨t', ?_, h'⟩
      rw [saveFile_after_folder (createParentFolder_eq_ok.mpr
        ⟨path, st, t₁, dir, hreadT, hdir, hmkT, rfl, rfl⟩)]
      exact Exec.bind_eq_ok.mpr ⟨_, _, createFile_run hcreateT', hreceiveT⟩

theorem mem_writes {e : Effect} (chunks : List (List UInt8)) :
    ∀ file : FileHandle, e ∈ writes file chunks →
      ∃ off data, e = .write ⟨file.loc, off⟩ data := by
  induction chunks with
  | nil => intro file he; exact absurd he List.not_mem_nil
  | cons c chunks ih =>
      intro file he
      rcases List.mem_cons.mp he with rfl | he
      · exact ⟨file.offset, c, rfl⟩
      · exact ih (file.advance c.length) he

/-! ### Runs that returned `Ok` -/

/-- A run of `save_file` that returned `Ok`. -/
structure OkSave (host : Host) where
  startIndex : ℕ
  endIndex : ℕ
  before : ServerState
  after : ServerState
  state : BufferState
  path : PathBytes
  inBuffer : InBuffer before startIndex endIndex
  run : saveFile host endIndex startIndex before = (.ok (state, path), after)

namespace OkSave

variable {host : Host} (r : OkSave host)

/-- The calls of the run. -/
def log : List Effect := r.after.effects.drop r.before.effects.length

/-- What the run, alone, leaves in its file. -/
def stored : List UInt8 := (r.after.disk.fileAt (destination r.path)).getD []

/-- The run received `data` in its request. -/
def Received (data : List UInt8) : Prop :=
  ∃ rel, r.path = completePath rel ∧ unread r.before r.startIndex r.endIndex
    = saveFrame host rel data ++ unread r.after r.state.startIndex r.state.endIndex

/-- The calls of the run: its directory, its file, and the data in consecutive writes. -/
theorem log_eq : ∃ dir chunks, parentFolder r.path = some dir ∧ chunks.flatten = r.stored ∧
    r.log = .createDirAll dir :: .create r.path :: writes ⟨destination r.path, 0⟩ chunks := by
  obtain ⟨startIndex, endIndex, before, after, state, path, hin, hrun⟩ := r
  cases saveFile_run host hin hrun with
  | opened rel st s₁ dir file o s' hver hdir hmk hcreate hreceive =>
      obtain ⟨rfl, hempty, _⟩ := create_opens hcreate
      obtain ⟨data, hstored, hpath⟩ := receiveData_stores host
        ⟨destination (completePath rel), 0⟩ (completePath rel) st.endIndex st.startIndex
        (afterCreate (afterDir s₁ dir) (completePath rel))
      rw [hreceive] at hstored hpath
      obtain rfl : path = completePath rel := hpath _ rfl
      obtain ⟨chunks, hflat, hlog, _⟩ := hstored.log
      refine ⟨dir, chunks, hdir, ?_, ?_⟩
      · rw [hflat, stored, hstored.content hempty rfl, Option.getD_some]
      · show after.effects.drop before.effects.length = _
        rw [hlog]
        show (s₁.effects ++ _ ++ _ ++ _).drop _ = _
        rw [hver.reads.effects]
        simp

/-- The calls of the run, one by one. -/
theorem mem_log {e : Effect} (he : e ∈ r.log) :
    (∃ dir, e = .createDirAll dir ∧ parentFolder r.path = some dir) ∨ e = .create r.path ∨
      ∃ off data, e = .write ⟨destination r.path, off⟩ data := by
  obtain ⟨dir, chunks, hdir, _, hlog⟩ := r.log_eq
  rw [hlog, List.mem_cons, List.mem_cons] at he
  rcases he with rfl | rfl | he
  · exact Or.inl ⟨dir, rfl, hdir⟩
  · exact Or.inr (Or.inl rfl)
  · exact Or.inr (Or.inr (mem_writes chunks _ he))

/-- What the run does to its own file, seen alone. -/
theorem opAt_log : ∃ chunks, chunks.flatten = r.stored ∧
    r.log.filterMap (Effect.opAt (destination r.path)) = .truncate :: appends 0 chunks := by
  obtain ⟨dir, chunks, _, hflat, hlog⟩ := r.log_eq
  have hdir : Effect.opAt (destination r.path) (.createDirAll dir) = none := rfl
  have hcreate : Effect.opAt (destination r.path) (.create r.path) = some .truncate := by
    rw [Effect.opAt, if_pos rfl]
  refine ⟨chunks, hflat, ?_⟩
  rw [hlog, List.filterMap_cons_none hdir, List.filterMap_cons_some hcreate]
  congr 1
  exact opAt_writes chunks ⟨destination r.path, 0⟩

/-- The run does nothing to the files elsewhere. -/
theorem opAt_elsewhere {loc : Location} (hloc : destination r.path ≠ loc) :
    ∀ e ∈ r.log, e.opAt loc = none := by
  intro e he
  rcases r.mem_log he with ⟨dir, rfl, _⟩ | rfl | ⟨off, data, rfl⟩
  · rfl
  · exact if_neg hloc
  · exact if_neg hloc

/-- When writes are not short, the run has saved what it stored. -/
theorem saved (hfull : host.FullWrites) :
    ∃ rel, Saved host r.startIndex r.endIndex r.before rel r.stored r.state r.path r.after := by
  obtain ⟨rel, data, hsaved⟩ := saveFile_sound hfull r.inBuffer r.run
  have hstored : r.stored = data := by rw [stored, hsaved.content, Option.getD_some]
  rw [hstored]
  exact ⟨rel, hsaved⟩

/-- When writes are not short, what a run stores is the data of its request. -/
theorem received_stored (hfull : host.FullWrites) : r.Received r.stored := by
  obtain ⟨rel, hsaved⟩ := r.saved hfull
  exact ⟨rel, hsaved.named, hsaved.unread_eq⟩

end OkSave

/-! ### One destination -/

section Concurrent

variable {ι : Type} [DecidableEq ι] {host : Host}

/-- A trace of the calls of several runs, seen from one file. -/
def opsAt (loc : Location) (trace : List (ι × Effect)) : List (ι × FileOp UInt8) :=
  trace.filterMap fun e => (e.2.opAt loc).map fun op => (e.1, op)

omit [DecidableEq ι] in
theorem map_snd_opsAt (loc : Location) (trace : List (ι × Effect)) :
    (opsAt loc trace).map Prod.snd = (trace.map Prod.snd).filterMap (Effect.opAt loc) := by
  rw [opsAt, List.map_filterMap, List.filterMap_map]
  congr 1
  funext e
  cases h : e.2.opAt loc <;> simp [h]

theorem project_opsAt (loc : Location) (trace : List (ι × Effect)) (i : ι) :
    project (opsAt loc trace) i = (project trace i).filterMap (Effect.opAt loc) := by
  rw [project, opsAt, project, List.filterMap_filterMap, List.filterMap_filterMap]
  congr 1
  funext e
  by_cases hi : e.1 = i <;> cases h : e.2.opAt loc <;> simp [hi, h]

/-- **Concurrent saves to one destination.**  For any number of connections whose
`save_file` returned `Ok` for one destination, and any interleaving of their calls: let
`w` be the one whose `File::create` comes last.  Each byte of the file is the byte of one of
the connections at that offset, or a zero behind the end of what `w` stored, all of whose
bytes are there or replaced; and the file is exactly what `w` stored if no other connection
writes after that `File::create`.  When writes are not short, what a connection stores is
the data it received. -/
theorem concurrent_saves [Nonempty ι] (runs : ι → OkSave host) {dest : Location}
    (hdest : ∀ i, destination (runs i).path = dest) {trace : List (ι × Effect)}
    (hproj : ∀ i, project trace i = (runs i).log) {disk : FileSystem}
    (hok : CallsSucceed disk (trace.map Prod.snd)) :
    ∃ w before after content,
      opsAt dest trace = before ++ (w, .truncate) :: after ∧
      (∀ e ∈ after, e.2 ≠ .truncate) ∧
      (replay disk (trace.map Prod.snd)).fileAt dest = some content ∧
      Mixed 0 (fun i => (runs i).stored) (runs w).stored.length content ∧
      ((∀ e ∈ after, e.1 = w) → content = (runs w).stored) ∧
      (host.FullWrites → ∀ i, (runs i).Received (runs i).stored) := by
  have hops : ∀ i, ∃ chunks, chunks.flatten = (runs i).stored ∧
      project (opsAt dest trace) i = .truncate :: appends 0 chunks := by
    intro i
    rw [project_opsAt, hproj i, ← hdest i]
    exact (runs i).opAt_log
  obtain ⟨w, before, after, content, htrace, hafter, hrun, hmixed, hlast⟩ :=
    shared_content (0 : UInt8) (fun i => (runs i).stored) hops (disk.fileAt dest)
  refine ⟨w, before, after, content, htrace, hafter, ?_, hmixed, hlast,
    fun hfull i => (runs i).received_stored hfull⟩
  rw [fileAt_replay _ dest disk hok, ← map_snd_opsAt]
  exact hrun

end Concurrent

/-- A save of the data `1 1` to the file `a` whose second byte arrives alone. -/
def splitSave : OkSave ieeeHost where
  startIndex := 0
  endIndex := 0
  before := accepted ⟨[(saveFrame ieeeHost [97] [1, 1]).take 12, [1],
    (saveFrame ieeeHost [97] [1, 1]).drop 13], by decide +kernel⟩ savingDisk
  after := (saveFile ieeeHost 0 0 (accepted ⟨[(saveFrame ieeeHost [97] [1, 1]).take 12, [1],
    (saveFrame ieeeHost [97] [1, 1]).drop 13], by decide +kernel⟩ savingDisk)).2
  state := ⟨17, 17⟩
  path := completePath [97]
  inBuffer := ⟨le_rfl, Nat.zero_le _⟩
  run := Exec.run_eq (by decide +kernel)

/-- A save of the data `2` to the same file, in one piece. -/
def wholeSave : OkSave ieeeHost where
  startIndex := 0
  endIndex := 0
  before := accepted ⟨[saveFrame ieeeHost [97] [2]], by decide +kernel⟩ savingDisk
  after := (saveFile ieeeHost 0 0
    (accepted ⟨[saveFrame ieeeHost [97] [2]], by decide +kernel⟩ savingDisk)).2
  state := ⟨16, 16⟩
  path := completePath [97]
  inBuffer := ⟨le_rfl, Nat.zero_le _⟩
  run := Exec.run_eq (by decide +kernel)

/-- The second save runs between the two writes of the first. -/
def mixedTrace : List (Bool × Effect) :=
  (splitSave.log.take 3).map (Prod.mk true) ++ wholeSave.log.map (Prod.mk false) ++
    (splitSave.log.drop 3).map (Prod.mk true)

theorem concurrent_saves_mixedTrace :
    ∃ w before after content,
      opsAt (destination (completePath [97])) mixedTrace = before ++ (w, .truncate) :: after ∧
      (∀ e ∈ after, e.2 ≠ .truncate) ∧
      (replay savingDisk (mixedTrace.map Prod.snd)).fileAt (destination (completePath [97]))
        = some content ∧
      Mixed 0 (fun i => (cond i splitSave wholeSave).stored)
        (cond w splitSave wholeSave).stored.length content ∧
      ((∀ e ∈ after, e.1 = w) → content = (cond w splitSave wholeSave).stored) ∧
      (ieeeHost.FullWrites →
        ∀ i, (cond i splitSave wholeSave).Received (cond i splitSave wholeSave).stored) :=
  concurrent_saves (fun i => cond i splitSave wholeSave) (by decide +kernel)
    (by decide +kernel) (by decide +kernel)

/-- Two saves that both returned `Ok` can leave a file that is the data of neither. -/
theorem concurrent_saves_mix :
    ¬ ∀ (host : Host) (a b : OkSave host) (trace : List (Bool × Effect)) (disk : FileSystem),
      host.FullWrites → destination a.path = destination b.path →
      project trace true = a.log → project trace false = b.log →
      CallsSucceed disk (trace.map Prod.snd) →
      (replay disk (trace.map Prod.snd)).fileAt (destination a.path) = some a.stored ∨
        (replay disk (trace.map Prod.snd)).fileAt (destination a.path) = some b.stored := by
  intro h
  have hneither := h ieeeHost splitSave wholeSave mixedTrace savingDisk ieeeHost_fullWrites
    (by decide +kernel) (by decide +kernel) (by decide +kernel) (by decide +kernel)
  revert hneither
  decide +kernel

end Pcopy.Server
