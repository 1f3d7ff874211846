import Pcopy.Server.System

/-!
# What a success is worth while other connections run

A task that has reported success has created its file and written all of its data there, on a host
where `File::write` takes whole slices.  From then on the file is what the last task that touched
it has made of it: as long as no other task creates or writes it, it holds exactly the data of the
request.

* `saved_untouched` — in every state of every run, whatever the other clients send.
-/

namespace Pcopy.Server

open Pcopy.Lib Pcopy.Path

section

variable {host : Host} {fs fs' : FileSystem} {l : Location}

/-! ### One file in a log of calls -/

/-- A call that does not touch a file leaves it as it is. -/
theorem fileAt_perform_ne {c : Call} (h : c.perform fs = .ok fs') (hl : ¬ c.Touches l) :
    fs'.fileAt l = fs.fileAt l := by
  rcases node_perform h l with hsame | ⟨_, hnone, hdir⟩ | ⟨htouches, _⟩
  · exact FileSystem.fileAt_congr hsame
  · simp only [FileSystem.fileAt, hnone, hdir]
  · exact absurd htouches hl

/-- **A file that one task appends to**, while the others leave it alone. -/
theorem fileAt_calls {t : TaskId} (after : List (TaskId × Call)) :
    ∀ {fs fs' : FileSystem} {content : List UInt8} (file : FileHandle)
      (chunks : List (List UInt8)),
      fs.fileAt file.loc = some content → file.offset = content.length →
      project after t = writeCalls file chunks →
      (∀ e ∈ after, e.1 ≠ t → ¬ e.2.Touches file.loc) →
      (after.map Prod.snd).foldlM Call.perform fs = .ok fs' →
      fs'.fileAt file.loc = some (content ++ chunks.flatten) := by
  induction after with
  | nil =>
      intro fs fs' content file chunks hfile _ hproj _ hfold
      cases hfold
      cases chunks with
      | nil => simpa using hfile
      | cons c chunks => cases hproj
  | cons e after ih =>
      intro fs fs' content file chunks hfile hoff hproj hothers hfold
      obtain ⟨t', c⟩ := e
      obtain ⟨fs₁, hcall, hfold⟩ := foldlM_cons_eq_ok hfold
      have hothers' : ∀ e ∈ after, e.1 ≠ t → ¬ e.2.Touches file.loc :=
        fun e he => hothers e (List.mem_cons_of_mem _ he)
      by_cases ht : t' = t
      · subst ht
        rw [project_cons_self] at hproj
        cases chunks with
        | nil => cases hproj
        | cons x chunks =>
            rw [writeCalls, List.cons.injEq] at hproj
            obtain ⟨rfl, hproj⟩ := hproj
            cases hcall
            have hwrite := FileSystem.fileAt_write_self hfile x
            rw [hoff, writeAt_end] at hwrite
            have hrec := ih (file.advance x.length) chunks hwrite
              (by rw [offset_advance, hoff, List.length_append]) hproj hothers' hfold
            rwa [List.append_assoc] at hrec
      · rw [project_cons_ne _ _ ht] at hproj
        have hsame := fileAt_perform_ne hcall (hothers _ List.mem_cons_self ht)
        exact ih file chunks (hsame.trans hfile) hoff hproj hothers' hfold

/-! ### Tasks that have ended -/

/-- A task that has ended and was to make directories first. -/
theorem reaches_makeDirs {onError : IoError → Outcome} {rest : ConnectionScript} {o : Outcome}
    (ls : List Location) :
    ∀ {made : List Call}, (makeDirs onError rest ls).Reaches made (.done o) →
      (∃ e, o = onError e) ∨
        ∃ made', made = ls.map Call.mkdir ++ made' ∧ rest.Reaches made' (.done o) := by
  induction ls with
  | nil => exact fun {made} h => Or.inr ⟨made, rfl, h⟩
  | cons l ls ih =>
      intro made h
      cases h with
      | made h =>
          rcases ih h with herror | ⟨made', rfl, hrest⟩
          · exact Or.inl herror
          · exact Or.inr ⟨made', rfl, hrest⟩
      | failed e => exact Or.inl ⟨_, rfl⟩

/-- A task that has ended and was to write its file. -/
theorem reaches_storing {o' o : Outcome} (chunks : List (List UInt8)) :
    ∀ {made : List Call} (file : FileHandle),
      (storing o' (writes file chunks)).Reaches made (.done o) →
      (∃ msg, o = (.error (.panic msg), [])) ∨ made = writeCalls file chunks ∧ o = o' := by
  induction chunks with
  | nil =>
      intro made file h
      cases h
      exact Or.inr ⟨rfl, rfl⟩
  | cons c chunks ih =>
      intro made file h
      cases h with
      | made h =>
          rcases ih _ h with hpanic | ⟨rfl, rfl⟩
          · exact Or.inl hpanic
          · exact Or.inr ⟨rfl, rfl⟩
      | failed e => exact Or.inl ⟨_, rfl⟩

/-- **A task that has reported success.**  It has made all its calls, and what it wrote is the
data of the request on its stream, where no write is short. -/
theorem saved_calls {socket : SegStream UInt8} {made : List Call} {path : PathBytes}
    {reply : List UInt8} (hfull : host.FullWrites)
    (h : (connectionScript host socket).Reaches made (.done (.ok (.fileSaved path), reply))) :
    reply = [0, 1] ∧ ∃ (rel : PathBytes) (dir : List Component) (chunks : List (List UInt8))
      (left : List UInt8), path = completePath rel ∧ rel.length < 2 ^ 16 ∧
      parentFolder path = some dir ∧ chunks.flatten.length < 2 ^ 32 ∧
      socket.elems = opSaveFile :: (saveFrame host rel chunks.flatten ++ left) ∧
      made = (places [] dir).map Call.mkdir ++
        .create path :: writeCalls ⟨destination path, 0⟩ chunks := by
  have hshape := connectionScript_shape host socket
  generalize connectionScript host socket = script at hshape h
  cases hshape with
  | quiet o ho =>
      cases h
      exact absurd ⟨path, Or.inl rfl⟩ ho
  | folder hasks =>
      rcases reaches_makeDirs _ h with ⟨e, herror⟩ | ⟨made', rfl, hrest⟩
      · cases herror
      · cases hrest
  | @save rel dir rest o chunks hasks hpath hdata =>
      rcases reaches_makeDirs _ h with ⟨e, herror⟩ | ⟨made', rfl, hrest⟩
      · cases herror
      · cases hrest with
        | made hrest =>
            rcases reaches_storing _ _ hrest with ⟨msg, hpanic⟩ | ⟨rfl, hend⟩
            · cases hpanic
            · rcases o with (e | msg | _) | p
              · cases hend
              · cases hend
              · cases hend
              · obtain rfl := hpath p rfl
                cases hend
                obtain ⟨hlen, left, hleft⟩ := hdata hfull
                obtain ⟨u, helems, hahead⟩ := hasks.ahead
                refine ⟨rfl, rel, dir, chunks, left, rfl, hahead.short, hasks.dir, hlen, ?_, rfl⟩
                rw [helems, hahead.bytes, hleft, saveFrame, pathFrame, checksumBytes]
                simp only [List.append_assoc]

/-- A task that has reported success, in a log of calls that succeeded: its file was created, and
unless another task has touched it since, it holds the data of the request. -/
theorem saved_content (hfull : host.FullWrites) {log : List (TaskId × Call)} {t : TaskId}
    {socket : SegStream UInt8} {path : PathBytes} {reply : List UInt8}
    (hreplayed : (log.map Prod.snd).foldlM Call.perform fs = .ok fs')
    (hreach : (connectionScript host socket).Reaches (project log t)
      (.done (.ok (.fileSaved path), reply))) :
    reply = [0, 1] ∧ ∃ rel data left before after, path = completePath rel ∧
      rel.length < 2 ^ 16 ∧ data.length < 2 ^ 32 ∧
      socket.elems = opSaveFile :: (saveFrame host rel data ++ left) ∧
      log = before ++ (t, .create path) :: after ∧
      ((∀ e ∈ after, e.1 ≠ t → ¬ e.2.Touches (destination path)) →
        fs'.fileAt (destination path) = some data) := by
  obtain ⟨hreply, rel, dir, chunks, left, hpath, hshort, -, hlen, helems, hmade⟩ :=
    saved_calls hfull hreach
  have hmem : (t, Call.create path) ∈ log := by
    refine mem_project.mp ?_
    rw [hmade]
    exact List.mem_append_right _ List.mem_cons_self
  obtain ⟨before, after, hlog⟩ := List.append_of_mem hmem
  refine ⟨hreply, rel, chunks.flatten, left, before, after, hpath, hshort, hlen, helems, hlog, ?_⟩
  intro hothers
  -- the file is created once, so what the task does after that are its writes
  have hproj : project after t = writeCalls ⟨destination path, 0⟩ chunks := by
    rw [hlog, project_append, project_cons_self] at hmade
    refine ((List.append_cons_inj_of_notMem ?_ ?_).mp hmade.symm).2.2.symm
    · intro h
      obtain ⟨_, _, heq⟩ := List.mem_map.mp h
      cases heq
    · intro h
      obtain ⟨_, _, heq⟩ := mem_writeCalls chunks _ h
      cases heq
  rw [hlog, List.map_append, List.map_cons] at hreplayed
  obtain ⟨fs₁, -, hrest⟩ := foldlM_append_eq_ok hreplayed
  obtain ⟨fs₂, hcreate, hafter⟩ := foldlM_cons_eq_ok hrest
  have hempty : fs₂.fileAt (destination path) = some [] := by
    simp only [Call.perform] at hcreate
    split at hcreate
    · rename_i file fs' hc
      cases hcreate
      obtain ⟨_, _, rfl⟩ := FileSystem.create_ok hc
      exact FileSystem.fileAt_set_file fs₁ _ _
    · cases hcreate
  exact fileAt_calls after ⟨destination path, 0⟩ chunks hempty rfl hproj hothers hafter

end

/-- **What a success is worth while other connections run.**  On a host where `File::write` takes
whole slices, in every state of every run: when the task of a connection has reported that its file
is saved, its stream carried one whole save request, its file was created at some point of the run,
and unless another task has created or written the file since, it holds exactly the data of the
request.  Where the first write is a short one the task may report a file that lacks bytes. -/
theorem saved_untouched {host : Host} (hfull : host.FullWrites) {disk : FileSystem}
    {as : List Action} {s : State}
    (hrun : runFrom (step host) (State.listening disk) as = some s) {t : TaskId}
    {socket : SegStream UInt8} (hsocket : s.started[t]? = some socket) {path : PathBytes}
    {reply : List UInt8}
    (hended : s.tasks[t]? = some (.done (.ok (.fileSaved path), reply))) :
    reply = [0, 1] ∧ ∃ rel data left before after, path = completePath rel ∧
      data.length < 2 ^ 32 ∧ socket.elems = opSaveFile :: (saveFrame host rel data ++ left) ∧
      s.log = before ++ (t, .create path) :: after ∧
      ((∀ e ∈ after, e.1 ≠ t → ¬ e.2.Touches (destination path)) →
        s.store.fileAt (destination path) = some data) := by
  have hfaithful := Pool.faithful_run hrun
  obtain ⟨now, hnow, hreach⟩ := hfaithful.reached t socket hsocket
  obtain rfl := Option.some.inj (hnow.symm.trans hended)
  obtain ⟨hreply, rel, data, left, before, after, hpath, -, hrest⟩ :=
    saved_content hfull hfaithful.replayed hreach
  exact ⟨hreply, rel, data, left, before, after, hpath, hrest⟩

theorem saved_untouched_twoSaves :
    ∃ s : State, runFrom (step ieeeHost) (State.listening savingDisk) twoSaves = some s ∧
      ∃ rel data left before after, completePath [97] = completePath rel ∧
        data.length < 2 ^ 32 ∧
        (saveRequest [97] [1, 1]).elems = opSaveFile :: (saveFrame ieeeHost rel data ++ left) ∧
        s.log = before ++ (0, .create (completePath [97])) :: after ∧
        ((∀ e ∈ after, e.1 ≠ 0 → ¬ e.2.Touches (destination (completePath [97]))) →
          s.store.fileAt (destination (completePath [97])) = some data) := by
  have hend : ((runFrom (step ieeeHost) (State.listening savingDisk) twoSaves).map fun s =>
      decide (s.started[0]? = some (saveRequest [97] [1, 1])) &&
        decide (s.tasks[0]?.bind Script.ended
          = some (.ok (.fileSaved (completePath [97])), [0, 1]))) = some true := by
    decide +kernel
  obtain ⟨s, hrun, hend⟩ := Option.map_eq_some_iff.mp hend
  rw [Bool.and_eq_true, decide_eq_true_eq, decide_eq_true_eq] at hend
  obtain ⟨task, htask, hended⟩ := Option.bind_eq_some_iff.mp hend.2
  rw [Script.ended_eq_some hended] at htask
  exact ⟨s, hrun, (saved_untouched ieeeHost_fullWrites hrun hend.1 htask).2⟩

end Pcopy.Server
