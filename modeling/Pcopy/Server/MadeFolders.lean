import Pcopy.Server.Isolation

/-!
# What a directory that was reported is worth

A task that answers a CreateParentFolder request with success has made the directories above the
path, one after the other, and nothing else.  No call takes a directory away, so they stand from
then on, whatever the other connections do.

* `folder_stands` — in every state of every run.
-/

namespace Pcopy.Server

open Pcopy.Lib Pcopy.Path

section

variable {host : Host} {socket : SegStream UInt8}

/-- **A task that has reported a directory.**  It has made all directories of a request. -/
theorem folder_calls {made : List Call} {path : PathBytes} {reply : List UInt8}
    (h : (connectionScript host socket).Reaches made
      (.done (.ok (.folderCreated path), reply))) :
    reply = [0, 1] ∧ ∃ rel dir rest, path = completePath rel ∧
      Asks host socket opCreateParentFolder rel dir rest ∧
      made = (places [] dir).map Call.mkdir := by
  have hshape := connectionScript_shape host socket
  generalize connectionScript host socket = script at hshape h
  cases hshape with
  | quiet o ho =>
      cases h
      exact absurd ⟨path, Or.inr rfl⟩ ho
  | @folder rel dir rest hasks =>
      rcases reaches_makeDirs _ h with ⟨e, herror⟩ | ⟨made', rfl, hrest⟩
      · cases herror
      · cases hrest
        exact ⟨rfl, rel, dir, rest, rfl, hasks, List.append_nil _⟩
  | @save rel dir rest o chunks hasks hpath hdata =>
      rcases reaches_makeDirs _ h with ⟨e, herror⟩ | ⟨made', rfl, hrest⟩
      · cases herror
      · cases hrest with
        | made hrest =>
            rcases reaches_storing _ _ hrest with ⟨msg, hpanic⟩ | ⟨-, hend⟩
            · cases hpanic
            · rcases o with (e | msg | _) | p <;> cases hend

end

/-- **What a reported directory is worth.**  In every state of every run: when the task of a
connection has reported the directory above a path, its stream carried a whole path field that
passes its checksum, its calls were to make the directories on the way there, and all of them
stand. -/
theorem folder_stands {host : Host} {disk : FileSystem} {as : List Action} {s : State}
    (hrun : runFrom (step host) (State.listening disk) as = some s) {t : TaskId}
    {socket : SegStream UInt8} (hsocket : s.started[t]? = some socket) {path : PathBytes}
    {reply : List UInt8}
    (hended : s.tasks[t]? = some (.done (.ok (.folderCreated path), reply))) :
    reply = [0, 1] ∧ ∃ rel dir rest, path = completePath rel ∧
      Asks host socket opCreateParentFolder rel dir rest ∧
      project s.log t = (places [] dir).map Call.mkdir ∧
      ∀ pre ≠ [], pre <+: dir → s.store.node (walk [] (moves pre)) = some .dir := by
  have hfaithful := Pool.faithful_run hrun
  obtain ⟨now, hnow, hreach⟩ := hfaithful.reached t socket hsocket
  obtain rfl := Option.some.inj (hnow.symm.trans hended)
  obtain ⟨hreply, rel, dir, rest, hpath, hasks, hmade⟩ := folder_calls hreach
  refine ⟨hreply, rel, dir, rest, hpath, hasks, hmade, ?_⟩
  intro pre hne hpre
  have hplace : walk [] (moves pre) ∈ places [] dir :=
    (mem_places dir []).mpr ⟨pre, hne, hpre, rfl⟩
  have hmkdir : (t, Call.mkdir (walk [] (moves pre))) ∈ s.log := by
    refine mem_project.mp ?_
    rw [hmade]
    exact List.mem_map_of_mem hplace
  exact dir_calls _ hfaithful.replayed (Or.inr (List.mem_map_of_mem hmkdir))

/-- A request for the directory above a path. -/
def makeFolderRequest (path : List UInt8) : SegStream UInt8 :=
  .single (opCreateParentFolder :: pathFrame ieeeHost path) (List.cons_ne_nil _ _)

/-- One client asks for the directory `d`, and another one saves the file `d/a` there. -/
def folderThenSave : List Action :=
  [.start (makeFolderRequest [100, 47, 97]), .start (saveRequest [100, 47, 97] [1])] ++
    (List.replicate 6 [.turn 0, .turn 1]).flatten

theorem folder_stands_folderThenSave :
    ∃ s : State, runFrom (step ieeeHost) (State.listening savingDisk) folderThenSave = some s ∧
      ∃ rel dir rest, completePath [100, 47, 97] = completePath rel ∧
        Asks ieeeHost (makeFolderRequest [100, 47, 97]) opCreateParentFolder rel dir rest ∧
        project s.log 0 = (places [] dir).map Call.mkdir ∧
        ∀ pre ≠ [], pre <+: dir → s.store.node (walk [] (moves pre)) = some .dir := by
  have hend : ((runFrom (step ieeeHost) (State.listening savingDisk) folderThenSave).map
      fun s => decide (s.started[0]? = some (makeFolderRequest [100, 47, 97])) &&
        decide (s.tasks[0]?.bind Script.ended
          = some (.ok (.folderCreated (completePath [100, 47, 97])), [0, 1]))) = some true := by
    decide +kernel
  obtain ⟨s, hrun, hend⟩ := Option.map_eq_some_iff.mp hend
  rw [Bool.and_eq_true, decide_eq_true_eq, decide_eq_true_eq] at hend
  obtain ⟨task, htask, hended⟩ := Option.bind_eq_some_iff.mp hend.2
  rw [Script.ended_eq_some hended] at htask
  exact ⟨s, hrun, (folder_stands hrun hend.1 htask).2⟩

end Pcopy.Server
