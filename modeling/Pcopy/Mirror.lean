import Pcopy.Client.FolderTree
import Pcopy.Server.ConcurrentSaves

/-!
# A folder and its copy

`send_folder` opens a connection for every file of the tree, and the server handles each in a
task of its own.  The tasks share the file system; their calls come in any order.

Every file has a destination of its own, below the place where the path of the folder leads.
On its way there a path with `..` goes through places that it leaves again, and these have to be
directories too: a file of the tree that stands at one of them cannot be saved.

* `Mirrors` — the copy is as it should be, whatever the interleaving;
* `mirrors_iff` — it is exactly where no file stands in the way of the folder path.
-/

namespace Pcopy

open Pcopy.Lib Pcopy.Path Pcopy.Server Pcopy.Client

/-- A file at the path needs a directory at the place: the directory that is made for it leads
through it. -/
def Needs (path : PathBytes) (l : Location) : Prop :=
  ∃ dir, parentFolder (completePath path) = some dir ∧ ∃ pre, pre <+: dir ∧ l = resolve pre

/-- The places that the path of a folder leads through and that are below its end, as they are
named from there. -/
def detours (folder : PathBytes) : List (List Name) :=
  ((components (completePath folder)).inits.map resolve).filterMap fun l =>
    if destination (completePath folder) <+: l
      then some (l.drop (destination (completePath folder)).length) else none

/-! ### The tasks of a folder -/

/-- The run serves a connection that delivers these bytes, cut in some way: it begins after the
first read of the connection task. -/
def Serves {host : Host} (r : OkSave host) (wire : List UInt8) : Prop :=
  ∃ (socket : SegStream UInt8) (disk : FileSystem), socket.elems = wire ∧
    r.before = firstRead socket disk ∧ r.startIndex = 1 ∧ r.endIndex = firstCount socket disk

/-- The tasks of some connections, which all returned `Ok`, and an interleaving of their calls
on a disk. -/
structure Session (host : Host) (conns : List Connection) where
  runs : Fin conns.length → OkSave host
  serves : ∀ i, Serves (runs i) (conns.get i).wire
  disk : FileSystem
  trace : List (Fin conns.length × Effect)
  interleaved : ∀ i, project trace i = (runs i).log
  succeed : CallsSucceed disk (trace.map Prod.snd)

/-- What the tasks leave. -/
def Session.final {host : Host} {conns : List Connection} (s : Session host conns) : FileSystem :=
  replay s.disk (s.trace.map Prod.snd)

/-- The connection carries the frame of the data for its path. -/
def Carries (host : Host) (c : Connection) (data : List UInt8) : Prop :=
  data.length < 2 ^ 32 ∧ ∃ rest, c.wire = opSaveFile :: (saveFrame host c.path data ++ rest)

/-- The connections that `send_folder` opens for a tree. -/
def connections (host : Host) (folder : PathBytes) (tree : Tree) : List Connection :=
  (sendFolder host (tree.walk folder) []).2

/-- Where the file of an entry goes. -/
def target (folder : PathBytes) (e : TreeEntry) : Location :=
  destination (completePath (entryPath folder e.rel))

/-- **A mirror of the folder.** -/
structure Mirrors (host : Host) (folder : PathBytes) (tree : Tree) : Prop where
  /-- Different files have different destinations. -/
  distinct : ∀ e ∈ tree.files, ∀ f ∈ tree.files, e.rel ≠ f.rel → target folder e ≠ target folder f
  /-- No file goes to where another needs a directory. -/
  apart : ∀ e ∈ tree.files, ∀ f ∈ tree.files, e.rel ≠ f.rel →
    ¬ Needs (entryPath folder f.rel) (target folder e)
  /-- When all tasks have returned `Ok`, each destination holds the data that was sent there,
  which is the content of the file if that could be read. -/
  stored : ∀ (s : Session host (connections host folder tree)) (i), ∃ data,
    Carries host ((connections host folder tree).get i) data ∧
      s.final.fileAt (destination (completePath ((connections host folder tree).get i).path))
        = some data ∧
      ∀ e ∈ tree.files, entryPath folder e.rel = ((connections host folder tree).get i).path →
        ∀ content, (e.dirEntry folder).Sends content → data = content
  /-- Everything else is as it was, or a directory that was missing and that a file needs. -/
  others : ∀ (s : Session host (connections host folder tree)) (l : Location),
    (∀ i, l ≠ destination (completePath ((connections host folder tree).get i).path)) →
      s.final.node l = s.disk.node l ∨ s.disk.node l = none ∧ s.final.node l = some .dir ∧
        ∃ i, Needs ((connections host folder tree).get i).path l

/-! ### What stands in the way -/

theorem mem_detours {folder : PathBytes} {rel : List Name} :
    rel ∈ detours folder ↔ ∃ pre, pre <+: components (completePath folder) ∧
      resolve pre = destination (completePath folder) ++ rel := by
  simp only [detours, List.mem_filterMap, List.mem_map, List.mem_inits]
  constructor
  · rintro ⟨l, ⟨pre, hpre, rfl⟩, hsome⟩
    split at hsome
    · rename_i hbelow
      obtain ⟨rest, hrest⟩ := hbelow
      rw [← hrest, List.drop_left, Option.some.injEq] at hsome
      exact ⟨pre, hpre, by rw [← hsome, hrest]⟩
    · cases hsome
  · rintro ⟨pre, hpre, hresolve⟩
    refine ⟨resolve pre, ⟨pre, hpre, rfl⟩, ?_⟩
    rw [hresolve, if_pos (List.prefix_append _ _), List.drop_left]

theorem moves_descending {comps : List Component} (h : .parentDir ∉ comps) :
    ∃ names : List Name, moves comps = names.map Move.down := by
  induction comps with
  | nil => exact ⟨[], rfl⟩
  | cons c comps ih =>
      rw [List.mem_cons, not_or] at h
      obtain ⟨names, hnames⟩ := ih h.2
      cases c with
      | rootDir => exact ⟨names, hnames⟩
      | curDir => exact ⟨names, hnames⟩
      | parentDir => exact absurd rfl h.1
      | normal n => exact ⟨n :: names, congrArg (Move.down n :: ·) hnames⟩

/-- A path without `..` goes through nothing below its end. -/
theorem detours_descending {folder : PathBytes}
    (h : .parentDir ∉ components (completePath folder)) : ∀ rel ∈ detours folder, rel = [] := by
  intro rel hrel
  obtain ⟨pre, ⟨post, hsplit⟩, hresolve⟩ := mem_detours.mp hrel
  have hpost : .parentDir ∉ post := fun hmem => h (hsplit ▸ List.mem_append_right pre hmem)
  obtain ⟨names, hnames⟩ := moves_descending hpost
  have hend : destination (completePath folder) = resolve pre ++ names := by
    rw [destination, ← hsplit, resolve, moves_append, walk_append, hnames, walk_downs]
    rfl
  rw [hresolve] at hend
  have hlen := congrArg List.length hend
  simp only [List.length_append] at hlen
  exact List.length_eq_zero_iff.mp (by omega)

/-- What comes before the end of two lists in a row: a part of the first, or the first and a
part of the second. -/
theorem prefix_append_cases {α : Type} {pre xs ys : List α} (h : pre <+: xs ++ ys) :
    pre <+: xs ∨ ∃ ys', ys' <+: ys ∧ pre = xs ++ ys' := by
  rcases List.prefix_or_prefix_of_prefix h (List.prefix_append xs ys) with hpre | ⟨ys', rfl⟩
  · exact Or.inl hpre
  · exact Or.inr ⟨ys', (List.prefix_append_right_inj xs).mp h, rfl⟩

section

variable {host : Host} {folder : PathBytes} {tree : Tree} {e f : TreeEntry}

theorem target_eq (he : e ∈ tree.files) :
    target folder e = destination (completePath folder) ++ e.rel :=
  destination_entryPath folder (tree.proper e (Tree.mem_files.mp he).1)

theorem target_injective (he : e ∈ tree.files) (hf : f ∈ tree.files)
    (h : target folder e = target folder f) : e.rel = f.rel := by
  rw [target_eq he, target_eq hf] at h
  exact List.append_cancel_left h

/-- What a file below the folder needs. -/
theorem needs_iff (hf : f ∈ tree.files) (hne : f.rel ≠ []) {l : Location} :
    Needs (entryPath folder f.rel) l ↔
      (∃ pre, pre <+: components (completePath folder) ∧ l = resolve pre) ∨
        ∃ names, names <+: f.rel.dropLast ∧ l = destination (completePath folder) ++ names := by
  have hcomps : components (completePath (entryPath folder f.rel))
      = (components (completePath folder) ++ f.rel.dropLast.map .normal)
        ++ [.normal (f.rel.getLast hne)] := by
    rw [components_entryPath folder (tree.proper f (Tree.mem_files.mp hf).1), List.append_assoc]
    conv_lhs => rw [← List.dropLast_append_getLast hne, List.map_append]
    rfl
  have hdir := parentFolder_of_last hcomps (fun h => nomatch h)
  rw [Needs]
  constructor
  · rintro ⟨dir, hdir', pre, hpre, rfl⟩
    obtain rfl := Option.some.inj (hdir.symm.trans hdir')
    rcases prefix_append_cases hpre with hpre | ⟨names, hnames, rfl⟩
    · exact Or.inl ⟨pre, hpre, rfl⟩
    · obtain ⟨names, hprefix, rfl⟩ := List.prefix_map_iff.mp hnames
      exact Or.inr ⟨names, hprefix, resolve_append_names _ _⟩
  · rintro (⟨pre, hpre, rfl⟩ | ⟨names, hnames, rfl⟩)
    · exact ⟨_, hdir, pre, hpre.trans (List.prefix_append _ _), rfl⟩
    · refine ⟨_, hdir, components (completePath folder) ++ names.map .normal, ?_, ?_⟩
      · exact (List.prefix_append_right_inj _).mpr (hnames.map _)
      · exact (resolve_append_names _ _).symm

/-- **Which files are in the way of others.** -/
theorem needs_target_iff (he : e ∈ tree.files) (hf : f ∈ tree.files) (hne : e.rel ≠ f.rel) :
    Needs (entryPath folder f.rel) (target folder e) ↔ e.rel ∈ detours folder := by
  have hbelow : f.rel ≠ [] := by
    intro hnil
    exact Tree.not_below hf he hne.symm (by rw [hnil]; exact List.nil_prefix)
  rw [needs_iff hf hbelow, target_eq he, mem_detours]
  constructor
  · rintro (⟨pre, hpre, heq⟩ | ⟨names, hnames, heq⟩)
    · exact ⟨pre, hpre, heq.symm⟩
    · rw [← List.append_cancel_left heq] at hnames
      exact absurd (hnames.trans (List.dropLast_prefix _)) (Tree.not_below he hf hne)
  · rintro ⟨pre, hpre, heq⟩
    exact Or.inl ⟨pre, hpre, heq.symm⟩

/-! ### What the tasks leave -/

/-- A run that serves the connection of a file has saved the data of its frame for its path. -/
theorem Serves.carries (hfull : host.FullWrites) {r : OkSave host} {d : DirEntry}
    (h : Serves r (connection host d).wire) :
    r.path = completePath d.path ∧ Carries host (connection host d) r.stored := by
  obtain ⟨socket, disk, helems, hbefore, hstart, hend⟩ := h
  obtain ⟨rel, hsaved⟩ := r.saved hfull
  have hin := r.inBuffer
  rw [hbefore, hstart, hend] at hin
  rcases connection_wire host d with hnil | ⟨hshort, ⟨rest, hwire⟩⟩
  · -- a task that gets nothing does not come to `save_file`
    have hzero := (firstCount_eq_zero_iff socket disk).mpr (helems.trans hnil)
    have hordered := hin.ordered
    omega
  · rw [List.cons_append] at hwire
    obtain ⟨_, _, _, hun⟩ := firstRead_unread socket disk (helems.trans hwire.symm)
    have hframe := hsaved.unread_eq
    rw [hbefore, hstart, hend, hun, saveFrame, List.append_assoc] at hframe
    obtain ⟨rfl, hrest⟩ := pathFrame_inj hshort hsaved.pathLength hframe
    refine ⟨hsaved.named, hsaved.dataLength, unread r.after r.state.startIndex r.state.endIndex, ?_⟩
    show (connection host d).wire = opSaveFile :: (saveFrame host d.path _ ++ _)
    rw [← hwire, hrest, saveFrame, List.append_assoc]

/-- What a connection carries for a file that could be read is its content. -/
theorem Carries.unique {d : DirEntry} {data content : List UInt8}
    (h : Carries host (connection host d) data) (hsends : d.Sends content) : data = content := by
  obtain ⟨hlen, rest, hwire⟩ := h
  rw [connection_sends host hsends] at hwire
  obtain ⟨_, _, _, hshort, _⟩ := hsends
  have hframe := (List.cons.inj hwire).2
  rw [saveFrame, saveFrame, List.append_assoc, List.append_cancel_left_eq] at hframe
  rw [← List.append_nil (dataFrame host content)] at hframe
  exact (dataFrame_inj (by omega) hlen hframe).symm

/-! ### The connections of a folder -/

/-- Every connection is that of a file of the tree. -/
theorem connections_get (i : Fin (connections host folder tree).length) :
    ∃ e ∈ tree.files, (connections host folder tree).get i = connection host (e.dirEntry folder) := by
  obtain ⟨sent, hsent, hconns⟩ := sendFolder_connections host (tree.walk folder)
  have hmem : (connections host folder tree).get i ∈ sent.map (connection host) :=
    hconns ▸ List.get_mem _ i
  obtain ⟨d, hd, hconn⟩ := List.mem_map.mp hmem
  have hentry := hsent.subset hd
  rw [Tree.entries_walk] at hentry
  obtain ⟨e, he, rfl⟩ := List.mem_map.mp hentry
  exact ⟨e, he, hconn.symm⟩

/-- A path has one connection. -/
theorem connections_path_injective {i j : Fin (connections host folder tree).length}
    (h : ((connections host folder tree).get i).path = ((connections host folder tree).get j).path) :
    i = j := by
  obtain ⟨sent, hsent, hconns⟩ := sendFolder_connections host (tree.walk folder)
  have hnodup : ((connections host folder tree).map Connection.path).Nodup := by
    rw [connections, hconns, List.map_map]
    exact (tree.walk folder).entries_nodup.sublist (hsent.sublist.map _)
  have hget := List.inj_on_of_nodup_map hnodup (List.get_mem _ i) (List.get_mem _ j) h
  exact List.nodup_iff_injective_get.mp hnodup.of_map hget

/-- Every connection has a destination of its own. -/
theorem connections_destination_injective {i j : Fin (connections host folder tree).length}
    (h : destination (completePath ((connections host folder tree).get i).path)
      = destination (completePath ((connections host folder tree).get j).path)) : i = j := by
  obtain ⟨e, he, hi⟩ := connections_get i
  obtain ⟨f, hf, hj⟩ := connections_get j
  refine connections_path_injective ?_
  rw [hi, hj] at h ⊢
  show entryPath folder e.rel = entryPath folder f.rel
  rw [target_injective he hf h]

variable (s : Session host (connections host folder tree))

theorem Session.path (hfull : host.FullWrites) (i) :
    (s.runs i).path = completePath ((connections host folder tree).get i).path ∧
      Carries host ((connections host folder tree).get i) (s.runs i).stored := by
  obtain ⟨e, _, hconn⟩ := connections_get i
  have hserves := s.serves i
  rw [hconn] at hserves ⊢
  exact hserves.carries hfull

/-- Only its own task does something to the file of a connection. -/
theorem Session.fileAt_final (hfull : host.FullWrites) (i) :
    s.final.fileAt (destination (completePath ((connections host folder tree).get i).path))
      = some (s.runs i).stored := by
  rw [← (s.path hfull i).1, Session.final, fileAt_replay _ _ _ s.succeed, ← map_snd_opsAt]
  obtain ⟨chunks, hflat, hops⟩ := (s.runs i).opAt_log
  have hown : ∀ e ∈ opsAt (destination (s.runs i).path) s.trace, e.1 = i := by
    intro e he
    rw [opsAt, List.mem_filterMap] at he
    obtain ⟨⟨j, call⟩, hmem, hsome⟩ := he
    obtain ⟨op, hop, rfl⟩ := Option.map_eq_some_iff.mp hsome
    rw [← mem_project, s.interleaved] at hmem
    by_contra hne
    have hloc : destination (s.runs j).path ≠ destination (s.runs i).path := by
      rw [(s.path hfull i).1, (s.path hfull j).1]
      exact fun heq => hne (connections_destination_injective heq)
    rw [(s.runs j).opAt_elsewhere hloc call hmem] at hop
    cases hop
  rw [map_snd_eq_project hown, project_opsAt, s.interleaved, hops]
  have happends := runOps_appends (0 : UInt8) chunks []
  rw [List.length_nil, List.nil_append, hflat] at happends
  exact happends

/-- What the tasks leave elsewhere. -/
theorem Session.node_final (hfull : host.FullWrites) {l : Location}
    (hl : ∀ i, l ≠ destination (completePath ((connections host folder tree).get i).path)) :
    s.final.node l = s.disk.node l ∨ s.disk.node l = none ∧ s.final.node l = some .dir ∧
      ∃ i, Needs ((connections host folder tree).get i).path l := by
  have hlog : ∀ {call}, call ∈ s.trace.map Prod.snd → ∃ i, call ∈ (s.runs i).log := by
    intro call hmem
    obtain ⟨⟨i, call⟩, htrace, rfl⟩ := List.mem_map.mp hmem
    rw [← mem_project, s.interleaved] at htrace
    exact ⟨i, htrace⟩
  refine (node_replay (s.trace.map Prod.snd) s.disk ?_).imp_right ?_
  · intro call hmem
    obtain ⟨i, hcall⟩ := hlog hmem
    refine (s.runs i).opAt_elsewhere ?_ call hcall
    rw [(s.path hfull i).1]
    exact (hl i).symm
  · rintro ⟨hnone, hdir, dir, hmem, pre, hpre, rfl⟩
    obtain ⟨i, hcall⟩ := hlog hmem
    refine ⟨hnone, hdir, i, dir, ?_, pre, hpre, rfl⟩
    rw [← (s.path hfull i).1]
    rcases (s.runs i).mem_log hcall with ⟨dir', heq, hparent⟩ | heq | ⟨_, _, heq⟩
    · rw [Effect.createDirAll.inj heq]
      exact hparent
    · cases heq
    · cases heq

end

/-- **When a folder is mirrored.**  For every path of a folder and every tree, under any
interleaving: exactly when no file stands, below the folder, at a place that the path of the
folder leads through and that another file then needs as a directory. -/
theorem mirrors_iff {host : Host} (hfull : host.FullWrites) (folder : PathBytes) (tree : Tree) :
    Mirrors host folder tree ↔
      ∀ e ∈ tree.files, ∀ f ∈ tree.files, e.rel ≠ f.rel → e.rel ∉ detours folder := by
  constructor
  · intro h e he f hf hne hdetour
    exact h.apart e he f hf hne ((needs_target_iff he hf hne).mpr hdetour)
  · intro h
    refine {
      distinct := ?_
      apart := fun e he f hf hne hneeds => h e he f hf hne ((needs_target_iff he hf hne).mp hneeds)
      stored := ?_
      others := fun s l hl => s.node_final hfull hl }
    · exact fun e he f hf hne heq => hne (target_injective he hf heq)
    · intro s i
      obtain ⟨_, hcarries⟩ := s.path hfull i
      refine ⟨(s.runs i).stored, hcarries, s.fileAt_final hfull i, ?_⟩
      intro e he hpath content hsends
      obtain ⟨f, hf, hconn⟩ := connections_get i
      rw [hconn] at hpath hcarries
      have hrel : e.rel = f.rel := entryPath_injective (tree.proper e (Tree.mem_files.mp he).1)
        (tree.proper f (Tree.mem_files.mp hf).1) hpath
      have hef : e = f := List.inj_on_of_nodup_map tree.nodup (Tree.mem_files.mp he).1
        (Tree.mem_files.mp hf).1 hrel
      rw [← hef] at hcarries
      exact hcarries.unique hsends

/-- A folder with a file `Backup` and an empty file `a`. -/
def backupTree : Tree where
  entries := [
    ⟨[], true, .broken 0 SegStream.done ⟨.isADirectory, "Is a directory"⟩⟩,
    ⟨["Backup".toUTF8.data.toList], false, .file 0 SegStream.done⟩,
    ⟨[[97]], false, .file 0 SegStream.done⟩]
  proper := by decide +kernel
  nodup := by decide +kernel
  parents := by decide +kernel

/-- Walked as `d`, the folder is mirrored. -/
theorem mirrors_backupTree : Mirrors ieeeHost [100] backupTree :=
  (mirrors_iff ieeeHost_fullWrites [100] backupTree).mpr (by decide +kernel)

/-- Walked as `..`, it is not: the file `Backup` goes to the saving directory itself, through
which the path of `a` leads. -/
theorem backupTree_not_mirrored :
    ¬ ∀ (host : Host) (folder : PathBytes) (tree : Tree), host.FullWrites →
      Mirrors host folder tree := by
  intro h
  have hmirrors := h ieeeHost [dot, dot] backupTree ieeeHost_fullWrites
  have hbackup : ⟨["Backup".toUTF8.data.toList], false, .file 0 SegStream.done⟩ ∈ backupTree.files :=
    Tree.mem_files.mpr ⟨by simp [backupTree], rfl⟩
  have ha : ⟨[[97]], false, .file 0 SegStream.done⟩ ∈ backupTree.files :=
    Tree.mem_files.mpr ⟨by simp [backupTree], rfl⟩
  have hne : ["Backup".toUTF8.data.toList] ≠ [[97]] := by decide +kernel
  exact hmirrors.apart _ hbackup _ ha hne
    ((needs_target_iff hbackup ha hne).mpr (by decide +kernel))

end Pcopy
