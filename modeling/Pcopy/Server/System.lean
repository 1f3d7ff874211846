import Pcopy.Server.Calls

/-!
# The server as a system of connection tasks

`Server::run` accepts connections for ever and spawns a task for each; the tasks share the file
system.  A step of the system accepts a connection, with all that will arrive on it, or is the
next call of a task.  A run may stop anywhere: when `accept` fails the server returns, and the
tasks with it.

* `Shape`, `connectionScript_shape` — the scripts of connections;
* `connectionScript_calls` — the calls of a connection are what its client asks for;
* `disk_between` — what a run has done to a place of the disk.
-/

namespace Pcopy.Server

open Pcopy.Lib Pcopy.Path

/-- A task, by the number of its connection. -/
abbrev TaskId : Type := ℕ

/-- The file system, the streams of the connections accepted so far, where their tasks are, and
the calls that were made. -/
abbrev State : Type := Pool FileSystem Call IoError Outcome (SegStream UInt8)

/-- A connection is accepted, or a task makes its next call. -/
abbrev Action : Type := PoolAction (SegStream UInt8)

/-- The state after an action, where it can happen. -/
def step (host : Host) : State → Action → Option State :=
  Pool.step (connectionScript host) Call.perform

/-- A server that listens. -/
def State.listening (disk : FileSystem) : State := Pool.init disk

/-! ### The scripts of connections -/

/-- The stream carries a request whose path field is whole and passes its checksum, and whose
path has a directory above it; `rest` is what follows the path field. -/
structure Asks (host : Host) (socket : SegStream UInt8) (op : UInt8) (path : PathBytes)
    (dir : List Component) (rest : List UInt8) : Prop where
  ahead : ∃ u, socket.elems = op :: u ∧ PathFieldAhead 1024 1 u path (crc32 host path) rest
  dir : parentFolder (completePath path) = some dir

/-- The data that a save writes, by how it ends. -/
def Written (host : Host) (path : PathBytes) (rest : List UInt8) (chunks : List (List UInt8)) :
    Except (Fault IoError) PathBytes → Prop
  | .ok _ => chunks.flatten.length < 2 ^ 32 ∧ ∃ left, rest = dataFrame host chunks.flatten ++ left
  | .error (.err _) => chunks.flatten = arrivedData 1024 (1 + (path.length + 6)) rest
  | .error (.panic _) => True
  | .error .outOfFuel => True

/-- The task has reported a success. -/
def Outcome.Succeeded (o : Outcome) : Prop :=
  ∃ path, o.1 = .ok (.fileSaved path) ∨ o.1 = .ok (.folderCreated path)

/-- The scripts of a connection: one without calls, one for a directory, one for a file. -/
inductive Shape (host : Host) (socket : SegStream UInt8) : ConnectionScript → Prop where
  | quiet (o : Outcome) (ho : ¬ o.Succeeded) :
      Shape host socket (.done o)
  | folder {path : PathBytes} {dir : List Component} {rest : List UInt8}
      (hasks : Asks host socket opCreateParentFolder path dir rest) :
      Shape host socket (makeDirs (fun e => folderOutcome (.error (.err (folderError e))))
        (.done (folderOutcome (.ok (completePath path)))) (places [] dir))
  | save {path : PathBytes} {dir : List Component} {rest : List UInt8}
      {o : Except (Fault IoError) PathBytes} {chunks : List (List UInt8)}
      (hasks : Asks host socket opSaveFile path dir rest)
      (hpath : ∀ p, o = .ok p → p = completePath path)
      (hdata : host.FullWrites → Written host path rest chunks o) :
      Shape host socket (makeDirs
        (fun e => saveOutcome (.error (.err ⟨.invalidInput, (folderError e).message⟩)))
        (.call (.create (completePath path)) (fun e => saveOutcome (.error (.err e)))
          (storing (saveOutcome o) (writes ⟨destination (completePath path), 0⟩ chunks)))
        (places [] dir))

section

variable {host : Host} {socket : SegStream UInt8}

theorem writes_inj (chunks : List (List UInt8)) :
    ∀ (chunks' : List (List UInt8)) (file : FileHandle),
      writes file chunks = writes file chunks' → chunks = chunks' := by
  induction chunks with
  | nil =>
      intro chunks' file h
      cases chunks' with
      | nil => rfl
      | cons c chunks' => cases h
  | cons c chunks ih =>
      intro chunks' file h
      cases chunks' with
      | nil => cases h
      | cons c' chunks' =>
          rw [writes, writes, List.cons.injEq, Effect.write.injEq] at h
          obtain ⟨⟨-, rfl⟩, htail⟩ := h
          rw [ih chunks' _ htail]

/-- How the reading part of `create_parent_folder` ends. -/
theorem beforeFolder_cases {s s₁ : ServerState} {endIndex : ℕ}
    {o : Except (Fault IoError) (PathBytes × List Component × BufferState)}
    (hin : InBuffer s 1 endIndex) (hrun : beforeFolder host endIndex 1 s = (o, s₁)) :
    (∃ φ, o = .error φ) ∨ ∃ path dir st, o = .ok (completePath path, dir, st) ∧
      parentFolder (completePath path) = some dir ∧
      Verified host 1 endIndex (unread s 1 endIndex) s path st s₁ := by
  rcases Exec.bind_cases hrun with ⟨⟨path, c, st⟩, s', hread, htail⟩ | ⟨φ, -, rfl⟩
  · obtain ⟨hreads, hfetch, hin₁, hstart, hahead⟩ := (readPathField_ensures host hin).of_run hread
    have hcrc : (Hasher.new.update path).finalize host = crc32 host path := rfl
    simp only [hcrc] at htail
    by_cases hc : crc32 host path = c
    · rw [if_pos hc] at htail
      cases hdir : parentFolder (completePath path) with
      | none =>
          rw [hdir] at htail
          cases htail
          exact Or.inl ⟨_, rfl⟩
      | some dir =>
          rw [hdir] at htail
          cases htail
          exact Or.inr ⟨path, dir, st, rfl, hdir, hreads, hfetch, hin₁, hstart, hc ▸ hahead⟩
    · rw [if_neg hc] at htail
      cases htail
      exact Or.inl ⟨_, rfl⟩
  · exact Or.inl ⟨φ, rfl⟩

theorem saveOutcome_not_succeeded (φ : Fault IoError) :
    ¬ (saveOutcome (.error φ)).Succeeded := by
  rintro ⟨path, h | h⟩
  · cases φ <;> cases h
  · cases φ <;> cases h

theorem folderOutcome_not_succeeded (φ : Fault IoError) :
    ¬ (folderOutcome (.error φ)).Succeeded := by
  rintro ⟨path, h | h⟩
  · cases φ <;> cases h
  · cases φ <;> cases h

/-- The request that was read, of the whole stream. -/
theorem Verified.asks {disk : FileSystem} {op : UInt8} {u : List UInt8} {path : PathBytes}
    {st : BufferState} {s₁ : ServerState} {dir : List Component} (helems : socket.elems = op :: u)
    (hver : Verified host 1 (firstCount socket disk)
      (unread (firstRead socket disk) 1 (firstCount socket disk)) (firstRead socket disk)
      path st s₁)
    (hdir : parentFolder (completePath path) = some dir) :
    Asks host socket op path dir (unread s₁ st.startIndex st.endIndex) := by
  obtain ⟨_, _, _, hun⟩ := firstRead_unread socket disk helems
  have hahead := hver.ahead
  rw [firstRead_bufLen, hun] at hahead
  exact ⟨⟨u, helems, hahead⟩, hdir⟩

/-- The writes of a save and how it ends, when its file is open. -/
theorem receiveScript_shape (host : Host) {path : PathBytes} {st : BufferState} {s : ServerState}
    (hlen : s.buf.length = 1024) (hin : InBuffer s st.startIndex st.endIndex) :
    ∃ o chunks, receiveScript host (completePath path) st s
        = storing (saveOutcome o) (writes ⟨destination (completePath path), 0⟩ chunks) ∧
      (∀ p, o = .ok p → p = completePath path) ∧
      (st.startIndex = 1 + (path.length + 6) → host.FullWrites →
        Written host path (unread s st.startIndex st.endIndex) chunks o) := by
  obtain ⟨data, hstored, hpost⟩ := receiveData_stores host ⟨destination (completePath path), 0⟩
    (completePath path) st.endIndex st.startIndex s
  obtain ⟨chunks, -, hlog, -⟩ := hstored.log
  have hensures : host.FullWrites → _ := fun hfull => receiveData_ensures hfull
    ⟨destination (completePath path), 0⟩ (completePath path) hin
  rcases hrun : receiveData host ⟨destination (completePath path), 0⟩ (completePath path)
    st.endIndex st.startIndex s with ⟨o, s'⟩
  rw [hrun] at hlog hpost
  have hchunks : ∀ {data'}, Stored ⟨destination (completePath path), 0⟩ data' s s' →
      chunks.flatten = data' := by
    intro data' hstored'
    obtain ⟨chunks', hflat', hlog', -⟩ := hstored'.log
    rw [← hflat', writes_inj chunks chunks' _ (List.append_cancel_left (hlog.symm.trans hlog'))]
  refine ⟨o.map Prod.snd, chunks, ?_, ?_, ?_⟩
  · rw [receiveScript, hrun]
    dsimp only at hlog ⊢
    rw [hlog, List.drop_left]
  · intro p hp
    cases o with
    | error φ => cases hp
    | ok r =>
        cases hp
        exact hpost r rfl
  · intro hstart hfull
    have hend := (hensures hfull).of_run hrun
    rcases o with (e | msg | _) | ⟨st', p⟩
    · show chunks.flatten = arrivedData 1024 (1 + (path.length + 6)) _
      rw [hchunks hend, hlen, ← hstart]
    · trivial
    · trivial
    · obtain ⟨-, -, data', hdata, hstored', hun⟩ := hend
      obtain rfl := hchunks hstored'
      exact ⟨hdata, _, hun⟩

/-- A directory that is refused for a NUL byte ends the task with an error. -/
theorem shape_makeDirsAll {onError : IoError → Outcome} {rest : ConnectionScript}
    {dir : List Component} (herror : ¬ (onError nulByte).Succeeded)
    (hdirs : Shape host socket (makeDirs onError rest (places [] dir))) :
    Shape host socket (makeDirsAll onError rest dir) := by
  rw [makeDirsAll]
  split
  · exact .quiet _ herror
  · exact hdirs

/-- **The scripts of connections.** -/
theorem connectionScript_shape (host : Host) (socket : SegStream UInt8) :
    Shape host socket (connectionScript host socket) := by
  rcases helems : socket.elems with _ | ⟨op, u⟩
  · simp only [connectionScript, if_pos ((firstCount_eq_zero_iff socket noDisk).mpr helems)]
    refine .quiet _ ?_
    rintro ⟨path, h | h⟩ <;> cases h
  · obtain ⟨hne, hop, hin, hun⟩ := firstRead_unread socket noDisk helems
    simp only [connectionScript, if_neg hne, hop]
    rcases hrun : beforeFolder host (firstCount socket noDisk) 1 (firstRead socket noDisk)
      with ⟨o, s₁⟩
    have hbefore := beforeFolder_cases hin hrun
    by_cases hfolder : op = opCreateParentFolder
    · subst hfolder
      rw [if_pos rfl]
      rcases hbefore with ⟨φ, rfl⟩ | ⟨path, dir, st, rfl, hdir, hver⟩
      · exact .quiet _ (folderOutcome_not_succeeded φ)
      · exact shape_makeDirsAll (folderOutcome_not_succeeded _) (.folder (hver.asks helems hdir))
    · rw [if_neg hfolder]
      by_cases hsave : op = opSaveFile
      · subst hsave
        rw [if_pos rfl]
        rcases hbefore with ⟨φ, rfl⟩ | ⟨path, dir, st, rfl, hdir, hver⟩
        · cases φ with
          | err e => exact .quiet _ (saveOutcome_not_succeeded _)
          | panic msg => exact .quiet _ (saveOutcome_not_succeeded _)
          | outOfFuel => exact .quiet _ (saveOutcome_not_succeeded _)
        · have hlen : s₁.buf.length = 1024 := hver.reads.bufLen.trans (firstRead_bufLen socket _)
          obtain ⟨o, chunks, hscript, hpath, hdata⟩ := @receiveScript_shape host path st
            (afterCreate (afterDir s₁ dir) (completePath path)) hlen
            ⟨hver.inBuffer.ordered, hver.inBuffer.fits⟩
          rw [saveScript, hscript]
          exact shape_makeDirsAll (saveOutcome_not_succeeded _)
            (.save (hver.asks helems hdir) hpath (hdata hver.advanced))
      · rw [if_neg hsave]
        refine .quiet _ ?_
        rintro ⟨path, h | h⟩ <;> cases h

/-! ### The calls of a script -/

/-- The call creates or writes the file at `l`. -/
def Call.Touches (l : Location) : Call → Prop
  | .mkdir _ => False
  | .create p => destination p = l
  | .write file _ => file.loc = l

instance (l : Location) : (c : Call) → Decidable (c.Touches l)
  | .mkdir _ => inferInstanceAs (Decidable False)
  | .create p => inferInstanceAs (Decidable (destination p = l))
  | .write file _ => inferInstanceAs (Decidable (file.loc = l))

/-- The writes of one chunk after the other. -/
def writeCalls (file : FileHandle) : List (List UInt8) → List Call
  | [] => []
  | c :: cs => .write file c :: writeCalls (file.advance c.length) cs

theorem calls_storing (o : Outcome) (chunks : List (List UInt8)) :
    ∀ file, (storing o (writes file chunks)).calls = writeCalls file chunks := by
  induction chunks with
  | nil => intro file; rfl
  | cons c chunks ih =>
      intro file
      rw [writes, storing, Script.calls, ih, writeCalls]

theorem calls_makeDirs (onError : IoError → Outcome) (rest : ConnectionScript)
    (ls : List Location) :
    (makeDirs onError rest ls).calls = ls.map Call.mkdir ++ rest.calls := by
  induction ls with
  | nil => rfl
  | cons l ls ih => rw [makeDirs, Script.calls, ih, List.map_cons, List.cons_append]

theorem mem_writeCalls {c : Call} (chunks : List (List UInt8)) :
    ∀ file, c ∈ writeCalls file chunks → ∃ off data, c = .write ⟨file.loc, off⟩ data := by
  induction chunks with
  | nil => intro file hc; exact absurd hc List.not_mem_nil
  | cons x chunks ih =>
      intro file hc
      rcases List.mem_cons.mp hc with rfl | hc
      · exact ⟨file.offset, x, rfl⟩
      · exact ih (file.advance x.length) hc

/-- The calls of a connection: none, the directories of a request, or those and its file. -/
theorem connectionScript_calls (host : Host) (socket : SegStream UInt8) :
    (connectionScript host socket).calls = [] ∨
      (∃ path dir rest, Asks host socket opCreateParentFolder path dir rest ∧
        (connectionScript host socket).calls = (places [] dir).map Call.mkdir) ∨
      ∃ path dir rest chunks, Asks host socket opSaveFile path dir rest ∧
        (connectionScript host socket).calls = (places [] dir).map Call.mkdir ++
          .create (completePath path) ::
            writeCalls ⟨destination (completePath path), 0⟩ chunks := by
  have hshape := connectionScript_shape host socket
  generalize connectionScript host socket = script at hshape
  cases hshape with
  | quiet o ho => exact Or.inl rfl
  | folder hasks =>
      refine Or.inr (Or.inl ⟨_, _, _, hasks, ?_⟩)
      rw [calls_makeDirs, Script.calls, List.append_nil]
  | @save path dir rest o chunks hasks hpath hdata =>
      refine Or.inr (Or.inr ⟨path, dir, rest, chunks, hasks, ?_⟩)
      rw [calls_makeDirs, Script.calls, calls_storing]

/-- The connection asks for a directory at this place, to have a folder or to save a file. -/
def OnWay (host : Host) (socket : SegStream UInt8) (l : Location) : Prop :=
  ∃ op path dir rest, (op = opCreateParentFolder ∨ op = opSaveFile) ∧
    Asks host socket op path dir rest ∧ l ∈ places [] dir

/-- The connection asks for its data to be saved at this place. -/
def Destined (host : Host) (socket : SegStream UInt8) (l : Location) : Prop :=
  ∃ path dir rest, Asks host socket opSaveFile path dir rest ∧ l = destination (completePath path)

/-- A connection makes no other directories than it asks for. -/
theorem onWay_of_mkdir {l : Location} (h : .mkdir l ∈ (connectionScript host socket).calls) :
    OnWay host socket l := by
  rcases connectionScript_calls host socket with
    hnil | ⟨path, dir, rest, hasks, hcalls⟩ | ⟨path, dir, rest, chunks, hasks, hcalls⟩
  · rw [hnil] at h
    cases h
  · rw [hcalls] at h
    obtain ⟨l', hl', heq⟩ := List.mem_map.mp h
    cases heq
    exact ⟨_, path, dir, rest, Or.inl rfl, hasks, hl'⟩
  · rw [hcalls] at h
    rcases List.mem_append.mp h with h | h
    · obtain ⟨l', hl', heq⟩ := List.mem_map.mp h
      cases heq
      exact ⟨_, path, dir, rest, Or.inr rfl, hasks, hl'⟩
    · rcases List.mem_cons.mp h with heq | h
      · cases heq
      · obtain ⟨off, data, heq⟩ := mem_writeCalls chunks _ h
        cases heq

/-- A connection touches no other file than it asks for. -/
theorem destined_of_touches {c : Call} {l : Location}
    (h : c ∈ (connectionScript host socket).calls) (htouches : c.Touches l) :
    Destined host socket l := by
  have hmkdir : ∀ {dir : List Component}, c ∈ (places [] dir).map Call.mkdir → False := by
    intro dir hc
    obtain ⟨l', _, rfl⟩ := List.mem_map.mp hc
    exact htouches
  rcases connectionScript_calls host socket with
    hnil | ⟨path, dir, rest, hasks, hcalls⟩ | ⟨path, dir, rest, chunks, hasks, hcalls⟩
  · rw [hnil] at h
    cases h
  · rw [hcalls] at h
    exact (hmkdir h).elim
  · rw [hcalls] at h
    rcases List.mem_append.mp h with h | h
    · exact (hmkdir h).elim
    · rcases List.mem_cons.mp h with rfl | h
      · exact ⟨path, dir, rest, hasks, htouches.symm⟩
      · obtain ⟨off, data, rfl⟩ := mem_writeCalls chunks _ h
        exact ⟨path, dir, rest, hasks, htouches.symm⟩

end

/-! ### What calls do to the disk -/

section

variable {fs fs' : FileSystem}

/-- A call that succeeded, seen from a place. -/
theorem node_perform {c : Call} (h : c.perform fs = .ok fs') (l : Location) :
    fs'.node l = fs.node l ∨
      (c = .mkdir l ∧ fs.node l = none ∧ fs'.node l = some .dir) ∨
      (c.Touches l ∧ fs.node l ≠ some .dir ∧ ∃ content, fs'.node l = some (.file content)) := by
  cases c with
  | mkdir l' =>
      by_cases hl : l = l'
      · subst hl
        rcases FileSystem.mkdir_eq_ok.mp h with ⟨-, rfl⟩ | ⟨hnone, -, -⟩
        · exact Or.inl rfl
        · exact Or.inr (Or.inl ⟨rfl, hnone, FileSystem.node_mkdir_self h⟩)
      · exact Or.inl (FileSystem.node_mkdir_ne h hl)
  | create p =>
      simp only [Call.perform] at h
      split at h
      · rename_i file fs₁ hc
        cases h
        obtain ⟨_, _, rfl⟩ := FileSystem.create_ok hc
        by_cases hl : l = destination p
        · subst hl
          exact Or.inr (Or.inr ⟨rfl, FileSystem.create_ok_node hc, [],
            FileSystem.node_set_self fs _ _⟩)
        · exact Or.inl (FileSystem.node_set_ne fs _ hl)
      · cases h
  | write file data =>
      cases h
      by_cases hl : l = file.loc
      · subst hl
        unfold FileSystem.write
        split
        · rename_i content hnode
          exact Or.inr (Or.inr ⟨rfl, by rw [hnode]; simp, _, FileSystem.node_set_self fs _ _⟩)
        · exact Or.inl rfl
      · exact Or.inl (FileSystem.node_write_ne fs file data hl)

/-- Calls that succeeded, seen from a place. -/
theorem node_calls (cs : List Call) :
    ∀ {fs fs' : FileSystem}, cs.foldlM Call.perform fs = .ok fs' → ∀ l : Location,
      fs'.node l = fs.node l ∨
        (fs.node l = none ∧ fs'.node l = some .dir ∧ .mkdir l ∈ cs) ∨
        (fs.node l ≠ some .dir ∧ (∃ content, fs'.node l = some (.file content)) ∧
          ∃ c ∈ cs, c.Touches l) := by
  induction cs with
  | nil =>
      intro fs fs' h l
      cases h
      exact Or.inl rfl
  | cons c cs ih =>
      intro fs fs' h l
      obtain ⟨fs₁, hc, hcs⟩ := foldlM_cons_eq_ok h
      have hlater := ih hcs l
      rcases node_perform hc l with hsame | ⟨rfl, hnone, hdir⟩ | ⟨htouches, hnode, content, hfile⟩
      · rw [hsame] at hlater
        refine hlater.imp_right (Or.imp ?_ ?_)
        · exact fun ⟨h1, h2, h3⟩ => ⟨h1, h2, List.mem_cons_of_mem c h3⟩
        · exact fun ⟨h1, h2, c', h3, h4⟩ => ⟨h1, h2, c', List.mem_cons_of_mem c h3, h4⟩
      · right; left
        rcases hlater with hsame | ⟨hnone', _⟩ | ⟨hne, _⟩
        · exact ⟨hnone, hsame.trans hdir, List.mem_cons_self⟩
        · exact absurd (hnone'.symm.trans hdir) (by simp)
        · exact absurd hdir hne
      · right; right
        refine ⟨hnode, ?_, c, List.mem_cons_self, htouches⟩
        rcases hlater with hsame | ⟨hnone', _⟩ | ⟨_, hfile', _⟩
        · exact ⟨content, hsame.trans hfile⟩
        · exact absurd (hnone'.symm.trans hfile) (by simp)
        · exact hfile'

end

/-! ### Runs -/

section

variable {host : Host} {disk : FileSystem} {as : List Action} {s : State}

/-- **What a run has done to a place of the disk**, between any two of its states: nothing; or
a directory was made where nothing stood, at a place on the way to one that a client asked for;
or a file was created or written, where no directory stood, that a client asked to save. -/
theorem disk_between {bs : List Action} {s' : State}
    (hrun : runFrom (step host) (State.listening disk) as = some s)
    (hrun' : runFrom (step host) s bs = some s') (l : Location) :
    s'.store.node l = s.store.node l ∨
      (s.store.node l = none ∧ s'.store.node l = some .dir ∧
        ∃ socket ∈ s'.started, OnWay host socket l) ∨
      (s.store.node l ≠ some .dir ∧ (∃ content, s'.store.node l = some (.file content)) ∧
        ∃ socket ∈ s'.started, Destined host socket l) := by
  have hfaithful : Pool.Faithful (connectionScript host) Call.perform disk s' := by
    have hwhole : runFrom (step host) (State.listening disk) (as ++ bs) = some s' := by
      rw [runFrom_append]
      exact Option.bind_eq_some_iff.mpr ⟨s, hrun, hrun'⟩
    exact Pool.faithful_run hwhole
  obtain ⟨later, hlog, hcalls⟩ := Pool.log_run bs hrun'
  -- a call of the log is one of the script of an accepted connection
  have hmem : ∀ {c}, c ∈ later.map Prod.snd →
      ∃ socket ∈ s'.started, c ∈ (connectionScript host socket).calls := by
    intro c hc
    obtain ⟨⟨t, c⟩, he, rfl⟩ := List.mem_map.mp hc
    have he' : (t, c) ∈ s'.log := by
      rw [hlog]
      exact List.mem_append_right _ he
    obtain ⟨socket, hsocket, hscript⟩ := hfaithful.mem_calls he'
    exact ⟨socket, List.mem_of_getElem? hsocket, hscript⟩
  rcases node_calls _ hcalls l with
    hsame | ⟨hnone, hdir, hmade⟩ | ⟨hnode, hfile, c, hc, htouches⟩
  · exact Or.inl hsame
  · obtain ⟨socket, hsocket, hscript⟩ := hmem hmade
    exact Or.inr (Or.inl ⟨hnone, hdir, socket, hsocket, onWay_of_mkdir hscript⟩)
  · obtain ⟨socket, hsocket, hscript⟩ := hmem hc
    exact Or.inr (Or.inr ⟨hnode, hfile, socket, hsocket, destined_of_touches hscript htouches⟩)

end

/-- A save request that arrives in one piece. -/
def saveRequest (path data : List UInt8) : SegStream UInt8 :=
  .single (opSaveFile :: saveFrame ieeeHost path data) (List.cons_ne_nil _ _)

/-- Two clients save the files `a` and `b`; their tasks take turns. -/
def twoSaves : List Action :=
  [.start (saveRequest [97] [1, 1]), .start (saveRequest [98] [2])] ++
    (List.replicate 7 [.turn 0, .turn 1]).flatten

theorem disk_between_twoSaves :
    ∃ s s' : State, runFrom (step ieeeHost) (State.listening savingDisk) (twoSaves.take 5) = some s ∧
      runFrom (step ieeeHost) s (twoSaves.drop 5) = some s' ∧
      ∀ l, s'.store.node l = s.store.node l ∨
        (s.store.node l = none ∧ s'.store.node l = some .dir ∧
          ∃ socket ∈ s'.started, OnWay ieeeHost socket l) ∨
        (s.store.node l ≠ some .dir ∧ (∃ content, s'.store.node l = some (.file content)) ∧
          ∃ socket ∈ s'.started, Destined ieeeHost socket l) := by
  have hend : ((runFrom (step ieeeHost) (State.listening savingDisk) twoSaves).map fun _ => ())
      = some () := by decide +kernel
  obtain ⟨s', hwhole, -⟩ := Option.map_eq_some_iff.mp hend
  rw [← List.take_append_drop 5 twoSaves, runFrom_append] at hwhole
  obtain ⟨s, hrun, hrun'⟩ := Option.bind_eq_some_iff.mp hwhole
  exact ⟨s, s', hrun, hrun', disk_between hrun hrun'⟩

end Pcopy.Server
