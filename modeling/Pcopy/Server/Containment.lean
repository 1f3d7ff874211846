import Pcopy.Server.Connection
import Pcopy.Server.Crc32

/-!
# Which requests stay inside the saving directory

A request names a path; the server joins it, less one leading `/`, to the saving
directory.  A path that starts with `//` is still absolute after that and replaces the
saving directory in the join, and a `..` component is kept, so a request can leave it.

`containedPath` reads off the path alone whether it does: a counter follows the names of
the path and survives exactly while they stay on the saving directory.  `refusedPath` tells the
paths that the standard library refuses before it does anything, for a NUL byte.
`contained_iff` says that this decides what the connection does to the file system.
-/

namespace Pcopy.Server

open Pcopy.Lib Pcopy.Path

/-- Where the saving directory stands. -/
def rootLocation : Location := resolve (components rootSavingDirectory)

/-- At or below the saving directory. -/
def Inside (l : Location) : Prop := rootLocation <+: l

/-- A call stays inside the saving directory.  `create_dir_all` may make the directories
above the saving directory if they are missing; the directory it was asked for is inside. -/
def Effect.Contained (fs : FileSystem) : Effect → Prop
  | .createDirAll dir =>
      (∀ l, (fs.createDirAll dir).2.node l ≠ fs.node l → Track.OnBase rootLocation l) ∧
        ((fs.createDirAll dir).1 = .ok () → Inside (resolve dir))
  | .create p => Inside (resolve (components p))
  | .write file _ => Inside file.loc

/-- Each call of a log stays inside, on the disk it finds. -/
def Contained : FileSystem → List Effect → Prop
  | _, [] => True
  | fs, e :: log => e.Contained fs ∧ Contained (e.apply fs) log

/-! ### The condition on the path -/

/-- The names of a path: its segments between separators less the empty ones and `.`. -/
def pathNames (path : PathBytes) : List Component := (path.splitOn sep).filterMap ofSegment

/-- The path is still absolute without one leading separator. -/
def startsAtRoot (path : PathBytes) : Bool := hasRoot path && hasRoot (stripSlash path)

/-- The names above the last one, followed from the root if the path starts with `//` and
from the saving directory otherwise, stay on the saving directory and end at or below it.
A path without names asks for the directory above the saving directory, unless it starts
with `//`. -/
def containedPath (path : PathBytes) : Bool :=
  match pathNames path with
  | [] => startsAtRoot path
  | c :: cs =>
    match Track.track rootLocation
        (.above (if startsAtRoot path then rootLocation.length else 0))
        (moves (c :: cs).dropLast) with
    | some t => t.isInside
    | none => false

/-- A name above the last one has a NUL byte, so that no directory is made for the path. -/
def refusedPath (path : PathBytes) : Bool := hasNul (pathNames path).dropLast

/-! ### The path arithmetic -/

theorem components_rootSavingDirectory :
    components rootSavingDirectory = .rootDir :: rootLocation.map .normal := by
  decide +kernel

theorem moves_normals (names : List Name) :
    moves (names.map .normal) = names.map Move.down := by
  induction names with
  | nil => rfl
  | cons n names ih =>
      rw [List.map_cons, List.map_cons, ← ih]
      rfl

theorem components_slash : components [sep] = [.rootDir] := by decide +kernel

theorem pathNames_cons_sep (p : PathBytes) : pathNames (sep :: p) = pathNames p := by
  have h := splitOn_append_sep [] p
  rw [List.nil_append] at h
  rw [pathNames, h, List.filterMap_append]
  rfl

/-- The components of a complete path. -/
theorem components_completePath (path : PathBytes) :
    components (completePath path)
      = (if startsAtRoot path then [.rootDir] else components rootSavingDirectory)
        ++ pathNames path := by
  have hstrip : pathNames (stripSlash path) = pathNames path := by
    cases path with
    | nil => rfl
    | cons b p =>
        rw [stripSlash]
        split
        · rename_i hb
          rw [hb, pathNames_cons_sep]
        · rfl
  have hstart : startsAtRoot path = hasRoot (stripSlash path) := by
    cases path with
    | nil => rfl
    | cons b p =>
        simp only [startsAtRoot, stripSlash, hasRoot]
        split
        · rename_i hb
          simp [hb]
        · simp
  rw [hstart, completePath, ← hstrip]
  by_cases habs : hasRoot (stripSlash path) = true
  · rw [join, if_pos habs, if_pos habs, components, start, if_pos habs]
    rfl
  · have hrel : hasRoot (stripSlash path) = false := by simpa using habs
    rw [components_join _ _ (by decide +kernel) (by decide +kernel) hrel, hrel]
    rfl

theorem pathNames_ne_rootDir {path : PathBytes} {c : Component} (h : c ∈ pathNames path) :
    c ≠ .rootDir := by
  obtain ⟨seg, _, hseg⟩ := List.mem_filterMap.mp h
  rintro rfl
  unfold ofSegment at hseg
  split at hseg
  · cases hseg
  · split at hseg
    · cases hseg
    · split at hseg <;> cases hseg

/-- Components whose last one is not the root have the others as parent. -/
theorem parentFolder_of_last {p : PathBytes} {comps : List Component} {c : Component}
    (h : components p = comps ++ [c]) (hc : c ≠ .rootDir) : parentFolder p = some comps := by
  have hends : endsWith (components p) (components [sep]) = false := by
    rw [h, components_slash, endsWith, Bool.eq_false_iff]
    intro hsuf
    obtain ⟨pre, hpre⟩ := List.isSuffixOf_iff_suffix.mp hsuf
    exact hc (List.append_inj_right' hpre rfl |> List.singleton_inj.mp).symm
  rw [parentFolder, hends, if_neg (by simp), h, parent, List.getLast?_concat]
  cases c with
  | rootDir => exact absurd rfl hc
  | curDir => simp
  | parentDir => simp
  | normal n => simp

/-- A path with names has the directory of all of them but the last. -/
theorem parentFolder_of_names {path : PathBytes} {c : Component} {cs : List Component}
    (h : pathNames path = c :: cs) :
    parentFolder (completePath path) = some
      ((if startsAtRoot path then [.rootDir] else components rootSavingDirectory)
        ++ (c :: cs).dropLast) := by
  have hne : c :: cs ≠ [] := List.cons_ne_nil c cs
  refine parentFolder_of_last (c := (c :: cs).getLast hne) ?_ ?_
  · rw [components_completePath, h, List.append_assoc, List.dropLast_append_getLast]
  · have hmem : (c :: cs).getLast hne ∈ pathNames path := by
      rw [h]
      exact List.getLast_mem hne
    exact pathNames_ne_rootDir hmem

/-- A path without names that starts with `//` has none, and one that does not has the
directory above the saving directory. -/
theorem parentFolder_of_no_names {path : PathBytes} (h : pathNames path = []) :
    parentFolder (completePath path) = if startsAtRoot path then none
      else some (components rootSavingDirectory).dropLast := by
  have hcomps := components_completePath path
  rw [h, List.append_nil] at hcomps
  rw [parentFolder, hcomps]
  split
  · decide +kernel
  · decide +kernel

/-- **The condition on the path is the condition on the directory it asks for.** -/
theorem containedPath_iff {path : PathBytes} {dir : List Component}
    (hdir : parentFolder (completePath path) = some dir) :
    containedPath path = true ↔
      (∀ ms, ms <+: moves dir → Track.OnBase rootLocation (walk [] ms)) ∧
        Inside (resolve dir) := by
  have hwalk : ∀ ms : List (Move Name), (match Track.track rootLocation
      (.above rootLocation.length) ms with | some t => t.isInside | none => false) = true ↔
      ∃ t, Track.track rootLocation (.above rootLocation.length) ms = some t ∧
        t.isInside = true := by
    intro ms
    cases Track.track rootLocation (.above rootLocation.length) ms <;> simp
  have hin := Track.inside_iff rootLocation (moves dir)
  rw [show Inside (resolve dir) = (rootLocation <+: walk [] (moves dir)) from rfl, hin, ← hwalk,
    containedPath]
  cases hnames : pathNames path with
  | nil =>
      rw [parentFolder_of_no_names hnames] at hdir
      split at hdir
      · cases hdir
      · rename_i hroot
        cases hdir
        simp only [hroot]
        decide +kernel
  | cons c cs =>
      rw [parentFolder_of_names hnames] at hdir
      cases hdir
      by_cases hroot : startsAtRoot path = true
      · simp only [hroot, if_true, moves_append]
        rfl
      · simp only [hroot, Bool.false_eq_true, if_false, moves_append]
        have hbase : moves (components rootSavingDirectory) = rootLocation.map Move.down := by
          rw [components_rootSavingDirectory, ← moves_normals]
          rfl
        rw [hbase, Track.track_append, Track.track_base, Option.bind_some]

/-- A path whose directory cannot be computed asks for nothing. -/
theorem containedPath_of_no_parent {path : PathBytes}
    (h : parentFolder (completePath path) = none) : containedPath path = true := by
  rw [containedPath]
  cases hnames : pathNames path with
  | nil =>
      rw [parentFolder_of_no_names hnames] at h
      split at h
      · assumption
      · cases h
  | cons c cs =>
      rw [parentFolder_of_names hnames] at h
      cases h

/-- The directory of a path has a NUL byte in it where the path has one above its last name. -/
theorem hasNul_parentFolder {path : PathBytes} {dir : List Component}
    (hdir : parentFolder (completePath path) = some dir) : hasNul dir = refusedPath path := by
  have hbase : hasNul (components rootSavingDirectory) = false := by decide +kernel
  cases hnames : pathNames path with
  | nil =>
      rw [parentFolder_of_no_names hnames] at hdir
      split at hdir
      · cases hdir
      · cases hdir
        rw [refusedPath, hnames]
        decide +kernel
  | cons c cs =>
      rw [parentFolder_of_names hnames] at hdir
      cases hdir
      rw [refusedPath, hnames, hasNul, List.any_append]
      split
      · rfl
      · rw [← hasNul, hbase]
        rfl

/-- No file is made for it either. -/
theorem create_refused {path : PathBytes} (h : refusedPath path = true) (fs : FileSystem) :
    fs.create (completePath path) = (.error nulByte, fs) := by
  obtain ⟨c, hc, hnul⟩ := List.any_eq_true.mp h
  have hmem : c ∈ components (completePath path) := by
    rw [components_completePath]
    exact List.mem_append_right _ (List.dropLast_subset _ hc)
  rw [FileSystem.create, if_pos (contains_of_isNul hmem hnul)]

/-! ### The calls of a connection -/

/-- A file that could be created lies in the directory that was asked for. -/
theorem resolve_created {fs : FileSystem} {path : PathBytes} {dir : List Component}
    {file : FileHandle} (hdir : parentFolder (completePath path) = some dir)
    (hcreate : (fs.create (completePath path)).1 = .ok file) :
    file.loc = resolve (components (completePath path)) ∧
      ∃ name, resolve (components (completePath path)) = resolve dir ++ [name] := by
  rcases hc : fs.create (completePath path) with ⟨o, fs'⟩
  rw [hc] at hcreate
  obtain rfl : o = .ok file := hcreate
  obtain ⟨hfile, rfl, _⟩ := FileSystem.create_ok hc
  obtain ⟨comps, name, hcomps⟩ := components_of_not_namesDirectory hfile
  rw [parentFolder_of_last hcomps (fun h => nomatch h)] at hdir
  cases hdir
  exact ⟨rfl, name, by rw [hcomps, resolve_append_normal]⟩

theorem contained_writes (chunks : List (List UInt8)) :
    ∀ (fs : FileSystem) (file : FileHandle), Inside file.loc →
      Contained fs (writes file chunks) := by
  induction chunks with
  | nil => intro fs file _; trivial
  | cons c cs ih =>
      intro fs file h
      exact ⟨h, ih _ (file.advance c.length) h⟩

/-- A directory whose walk stays on the saving directory and ends inside it, with the file
in it. -/
theorem contained_of_dir (fs : FileSystem) {path : PathBytes} {dir : List Component}
    (hdir : parentFolder (completePath path) = some dir)
    (h : containedPath path = true) :
    Effect.Contained fs (.createDirAll dir) ∧
      ∀ fs' file chunks, (fs'.create (completePath path)).1 = .ok file →
        Contained fs' (.create (completePath path) :: writes file chunks) := by
  obtain ⟨hplaces, hin⟩ := (containedPath_iff hdir).mp h
  refine ⟨⟨?_, fun _ => hin⟩, ?_⟩
  · intro l hl
    obtain ⟨-, -, pre, hpre, rfl⟩ := (FileSystem.node_createDirAll_cases fs dir l).resolve_left hl
    exact hplaces _ (hpre.filterMap _)
  · intro fs' file chunks hcreate
    obtain ⟨hloc, name, hname⟩ := resolve_created hdir hcreate
    have hdest : Inside (resolve (components (completePath path))) := by
      rw [hname]
      exact List.IsPrefix.trans hin (List.prefix_append _ _)
    exact ⟨hdest, contained_writes chunks _ file (hloc ▸ hdest)⟩

/-- A disk with nothing on it. -/
def blankDisk : FileSystem where
  node := fun l => if l = [] then some .dir else none
  refuses := fun _ => none

theorem blankDisk_permissive : blankDisk.Permissive where
  noFile := by
    intro l content
    simp only [blankDisk]
    split <;> exact fun h => nomatch h
  noRefusal := fun _ => rfl

/-- On a blank disk a directory that was made inside, all its way along the saving
directory, is one that a contained path asks for. -/
theorem containedPath_of_blankDisk {path : PathBytes} {dir : List Component}
    (hdir : parentFolder (completePath path) = some dir) (hnul : hasNul dir = false)
    (h : Effect.Contained blankDisk (.createDirAll dir)) : containedPath path = true := by
  have hdirs : blankDisk.createDirAll dir = blankDisk.mkdirs [] dir := by
    rw [FileSystem.createDirAll, hnul]
    rfl
  rw [Effect.Contained, hdirs] at h
  obtain ⟨hok, _, hmade⟩ := blankDisk_permissive.mkdirs dir [] rfl
  refine (containedPath_iff hdir).mpr ⟨?_, h.2 hok⟩
  intro ms hms
  obtain ⟨pre, hpre, rfl⟩ := List.prefix_filterMap_iff.mp hms
  by_cases hnil : walk [] (moves pre) = []
  · rw [moves] at hnil
    rw [hnil]
    exact Or.inl List.nil_prefix
  · have hbefore : blankDisk.node (walk [] (moves pre)) = none := if_neg hnil
    refine h.1 _ ?_
    intro hsame
    exact Option.some_ne_none _ ((hmade pre hpre).symm.trans (hsame.trans hbefore))

/-- A call for a directory with a NUL byte in it does nothing. -/
theorem contained_of_nul (fs : FileSystem) {dir : List Component} (hnul : hasNul dir = true) :
    Effect.Contained fs (.createDirAll dir) := by
  have hrefused : fs.createDirAll dir = (.error nulByte, fs) := if_pos hnul
  rw [Effect.Contained, hrefused]
  exact ⟨fun l hl => absurd rfl hl, fun hok => by cases hok⟩

/-- **Path containment.**  Whatever else the stream holds and however it is cut, on every
disk each directory that the connection has `create_dir_all` make and each file that it
has `File::create` create or truncate lies inside the saving directory, exactly when the
path of the request, if the stream carries one, is a contained path, or one that is refused
for a NUL byte.  A directory that `create_dir_all` is asked for and finds counts like one that it
makes. -/
theorem contained_iff (host : Host) (socket : SegStream UInt8) :
    (∀ disk, Contained disk (connectionTask host (accepted socket disk)).2.effects) ↔
      ∀ path, Requested host socket path →
        containedPath path = true ∨ refusedPath path = true := by
  constructor
  · intro h path hreq
    cases hdir : parentFolder (completePath path) with
    | none => exact Or.inl (containedPath_of_no_parent hdir)
    | some dir =>
        have hblank := h blankDisk
        rcases connectionTask_log host socket blankDisk with
          ⟨_, hnone⟩ | ⟨path', dir', hreq', hdir', hlog⟩
        · rw [hnone path hreq] at hdir
          cases hdir
        · obtain rfl := hreq.unique host socket hreq'
          obtain rfl := Option.some.inj (hdir.symm.trans hdir')
          have hasked : Effect.Contained blankDisk (.createDirAll dir) := by
            rcases hlog with hlog | ⟨file, chunks, _, hlog⟩
            · rw [hlog] at hblank
              exact hblank.1
            · rw [hlog] at hblank
              exact hblank.1
          rw [← hasNul_parentFolder hdir]
          cases hnul : hasNul dir with
          | true => exact Or.inr rfl
          | false => exact Or.inl (containedPath_of_blankDisk hdir hnul hasked)
  · intro h disk
    rcases connectionTask_log host socket disk with
      ⟨hlog, _⟩ | ⟨path, dir, hreq, hdir, hlog | ⟨file, chunks, hcreate, hlog⟩⟩
    · rw [hlog]
      trivial
    · rw [hlog]
      rcases h path hreq with hcontained | hrefused
      · exact ⟨(contained_of_dir disk hdir hcontained).1, trivial⟩
      · exact ⟨contained_of_nul disk ((hasNul_parentFolder hdir).trans hrefused), trivial⟩
    · rcases h path hreq with hcontained | hrefused
      · rw [hlog]
        obtain ⟨hmade, hcreated⟩ := contained_of_dir disk hdir hcontained
        exact ⟨hmade, hcreated _ _ chunks hcreate⟩
      · rw [create_refused hrefused] at hcreate
        cases hcreate

/-- A request for `//x`. -/
def absoluteRequest : SegStream UInt8 where
  segs := [opSaveFile :: pathFrame ieeeHost [47, 47, 120]]
  nonempty := by decide +kernel

/-- The request makes the root of the disk its directory and a file there. -/
theorem absoluteRequest_escapes :
    ¬ ∀ (host : Host) (socket : SegStream UInt8) (disk : FileSystem),
      Contained disk (connectionTask host (accepted socket disk)).2.effects := by
  intro h
  have hlog : (connectionTask ieeeHost (accepted absoluteRequest savingDisk)).2.effects
      = [.createDirAll [.rootDir], .create [47, 120]] := by decide +kernel
  have hany : ∀ host socket disk log,
      (connectionTask host (accepted socket disk)).2.effects = log → Contained disk log := by
    rintro host socket disk _ rfl
    exact h host socket disk
  obtain ⟨_, hfile, _⟩ := hany ieeeHost absoluteRequest savingDisk _ hlog
  have houtside : ¬ rootLocation <+: resolve (components [47, 120]) := by decide +kernel
  exact houtside hfile

end Pcopy.Server
