import Pcopy.IoError
import Pcopy.Path
import Pcopy.Lib.Buffer

/-!
# The file system of the receiving host

A tree without symbolic links: each location is absent, a directory, or a file with its
content.  What the host may refuse for reasons of its own (permissions, a full disk, a
name that is too long) is a parameter of the state, so that a statement for all file
systems covers every refusal.

`createDirAll` and `create` are `fs::create_dir_all` and `File::create`; `write` puts bytes
at the offset of a handle, which is what one `write` system call does.  The standard library
refuses a path with a NUL byte before it asks the host for anything.

`create_dir_all` tries the whole path first and then shorter ones.  Here it walks down the path
instead, which makes the same directories.  The errors are the same but for one: of a file on the
way behind a directory that was made (which takes a `..` between them) the standard library says
`AlreadyExists`, and `mkdirs` says `NotADirectory` as of every other file on the way.
-/

namespace Pcopy

open Pcopy.Lib Pcopy.Path

/-- The names from the root to an entry. -/
abbrev Location := List Name

/-- What stands at a location. -/
inductive Node where
  | dir : Node
  | file : List UInt8 → Node
  deriving DecidableEq, Repr

/-- The tree, and the locations at which the host refuses to create anything. -/
@[ext]
structure FileSystem where
  node : Location → Option Node
  refuses : Location → Option IoError

/-- An open file with the offset of its next write. -/
structure FileHandle where
  loc : Location
  offset : ℕ
  deriving DecidableEq, Repr

/-- The handle after a write of `n` bytes. -/
def FileHandle.advance (h : FileHandle) (n : ℕ) : FileHandle := { h with offset := h.offset + n }

/-! ### The errors of the calls -/

/-- What the standard library says of a path with a NUL byte. -/
def nulByte : IoError := ⟨.invalidInput, "file name contained an unexpected NUL byte"⟩

/-- `EEXIST`. -/
def fileExists : IoError := ⟨.alreadyExists, "File exists (os error 17)"⟩

/-- `ENOTDIR`. -/
def notADirectory : IoError := ⟨.notADirectory, "Not a directory (os error 20)"⟩

/-- `EISDIR`. -/
def isADirectory : IoError := ⟨.isADirectory, "Is a directory (os error 21)"⟩

/-- `ENOENT`. -/
def noSuchFile : IoError := ⟨.notFound, "No such file or directory (os error 2)"⟩

namespace FileSystem

/-- Put a node at a location. -/
def set (fs : FileSystem) (loc : Location) (n : Node) : FileSystem :=
  { fs with node := fun l => if l = loc then some n else fs.node l }

/-- The content of the file at a location, if a file stands there. -/
def fileAt (fs : FileSystem) (loc : Location) : Option (List UInt8) :=
  match fs.node loc with
  | some (.file content) => some content
  | _ => none

/-- Where a component leads. -/
def follow (loc : Location) (c : Component) : Location :=
  match c.move with
  | none => loc
  | some m => m.apply loc

/-- `mkdir`, where a directory that stands already is as good as one that is made. -/
def mkdir (fs : FileSystem) (loc : Location) : Except IoError FileSystem :=
  match fs.node loc with
  | some .dir => .ok fs
  | some (.file _) => .error fileExists
  | none =>
    match fs.refuses loc with
    | some e => .error e
    | none => .ok (fs.set loc .dir)

/-- The error of a whole path for one of `mkdir` at a place on its way: a file there is no
directory to go on from. -/
def onTheWay (e : IoError) : IoError := if e.kind = .alreadyExists then notADirectory else e

/-- Walk along components and make each directory that is missing. -/
def mkdirs : FileSystem → Location → List Component → Except IoError Unit × FileSystem
  | fs, _, [] => (.ok (), fs)
  | fs, loc, c :: cs =>
    match fs.mkdir (follow loc c) with
    | .ok fs' => mkdirs fs' (follow loc c) cs
    | .error e => (.error (if cs = [] then e else onTheWay e), fs)

/-- `fs::create_dir_all` of an absolute path. -/
def createDirAll (fs : FileSystem) (dir : List Component) : Except IoError Unit × FileSystem :=
  if hasNul dir then (.error nulByte, fs) else mkdirs fs [] dir

/-- Every place a walk passes through is a directory. -/
def dirsExist (fs : FileSystem) : Location → List Component → Bool
  | _, [] => true
  | loc, c :: cs => fs.node (follow loc c) == some .dir && dirsExist fs (follow loc c) cs

/-- The error of a walk, from what stands at the first place that is not a directory. -/
def walkError (fs : FileSystem) : Location → List Component → IoError
  | _, [] => noSuchFile
  | loc, c :: cs =>
    match fs.node (follow loc c) with
    | some .dir => walkError fs (follow loc c) cs
    | some (.file _) => notADirectory
    | none => noSuchFile

/-- The error of opening for writing a path that can only name a directory.  One that ends in `.`
leads through its last name, which has to be there; of one that ends in a separator or in `..` the
host says so without looking. -/
def directoryError (fs : FileSystem) (p : PathBytes) : IoError :=
  if endsInDot p then
    match fs.node (resolve (components p)) with
    | some .dir => isADirectory
    | some (.file _) => notADirectory
    | none => noSuchFile
  else isADirectory

/-- `File::create` of an absolute path: open for writing, create or truncate. -/
def create (fs : FileSystem) (p : PathBytes) : Except IoError FileHandle × FileSystem :=
  if p.contains 0 then (.error nulByte, fs)
  else if dirsExist fs [] (components p).dropLast then
    if namesDirectory p then (.error (directoryError fs p), fs)
    else
      match fs.refuses (resolve (components p)) with
      | some e => (.error e, fs)
      | none =>
        match fs.node (resolve (components p)) with
        | some .dir => (.error isADirectory, fs)
        | _ => (.ok ⟨resolve (components p), 0⟩, fs.set (resolve (components p)) (.file []))
  else (.error (walkError fs [] (components p).dropLast), fs)

/-- One write at the offset of a handle. -/
def write (fs : FileSystem) (h : FileHandle) (data : List UInt8) : FileSystem :=
  match fs.node h.loc with
  | some (.file content) => fs.set h.loc (.file (writeAt 0 content h.offset data))
  | _ => fs

/-! ### Nodes and files after each operation -/

/-- Following components is walking along their moves. -/
theorem walk_moves_cons (loc : Location) (c : Component) (cs : List Component) :
    walk loc (moves (c :: cs)) = walk (follow loc c) (moves cs) := by
  cases h : c.move <;> simp [moves, follow, h]

@[simp] theorem node_set_self (fs : FileSystem) (loc : Location) (n : Node) :
    (fs.set loc n).node loc = some n := by simp [set]

theorem node_set_ne (fs : FileSystem) {loc l : Location} (n : Node) (h : l ≠ loc) :
    (fs.set loc n).node l = fs.node l := by simp [set, h]

@[simp] theorem refuses_set (fs : FileSystem) (loc : Location) (n : Node) :
    (fs.set loc n).refuses = fs.refuses := rfl

@[simp] theorem fileAt_set_file (fs : FileSystem) (loc : Location) (content : List UInt8) :
    (fs.set loc (.file content)).fileAt loc = some content := by simp [fileAt]

theorem fileAt_set_ne (fs : FileSystem) {loc l : Location} (n : Node) (h : l ≠ loc) :
    (fs.set loc n).fileAt l = fs.fileAt l := by simp only [fileAt, node_set_ne fs n h]

/-- Making a directory where nothing stood changes no file. -/
theorem fileAt_set_dir (fs : FileSystem) {loc : Location} (l : Location)
    (h : fs.node loc = none) : (fs.set loc .dir).fileAt l = fs.fileAt l := by
  by_cases hl : l = loc
  · subst hl
    simp [fileAt, h]
  · exact fileAt_set_ne fs .dir hl

/-- A directory that was made, or stood already. -/
theorem mkdir_eq_ok {fs fs' : FileSystem} {loc : Location} :
    fs.mkdir loc = .ok fs' ↔ fs.node loc = some .dir ∧ fs' = fs ∨
      fs.node loc = none ∧ fs.refuses loc = none ∧ fs' = fs.set loc .dir := by
  rw [mkdir]
  cases hnode : fs.node loc with
  | none =>
      cases hrefuses : fs.refuses loc with
      | none => simp [eq_comm]
      | some e => simp
  | some n =>
      cases n with
      | dir => simp [eq_comm]
      | file content => simp

/-- One `mkdir` keeps every node there is. -/
theorem node_mkdir {fs fs' : FileSystem} {loc l : Location} {n : Node}
    (h : fs.mkdir loc = .ok fs') (hl : fs.node l = some n) : fs'.node l = some n := by
  rcases mkdir_eq_ok.mp h with ⟨-, rfl⟩ | ⟨hnone, -, rfl⟩
  · exact hl
  · rw [node_set_ne fs .dir (by rintro rfl; rw [hnone] at hl; cases hl)]
    exact hl

/-- After it the directory stands. -/
theorem node_mkdir_self {fs fs' : FileSystem} {loc : Location} (h : fs.mkdir loc = .ok fs') :
    fs'.node loc = some .dir := by
  rcases mkdir_eq_ok.mp h with ⟨hdir, rfl⟩ | ⟨-, -, rfl⟩
  · exact hdir
  · exact node_set_self fs loc .dir

/-- It changes its own place only. -/
theorem node_mkdir_ne {fs fs' : FileSystem} {loc l : Location} (h : fs.mkdir loc = .ok fs')
    (hl : l ≠ loc) : fs'.node l = fs.node l := by
  rcases mkdir_eq_ok.mp h with ⟨-, rfl⟩ | ⟨-, -, rfl⟩
  · rfl
  · exact node_set_ne fs .dir hl

/-- **Making directories changes no file**, whether it succeeds or not. -/
theorem fileAt_mkdirs (cs : List Component) :
    ∀ (fs : FileSystem) (loc l : Location), (mkdirs fs loc cs).2.fileAt l = fs.fileAt l := by
  induction cs with
  | nil => intro fs loc l; rfl
  | cons c cs ih =>
      intro fs loc l
      rw [mkdirs]
      cases hmk : fs.mkdir (follow loc c) with
      | error e => rfl
      | ok fs' =>
          show (mkdirs fs' (follow loc c) cs).2.fileAt l = _
          rw [ih]
          rcases mkdir_eq_ok.mp hmk with ⟨-, rfl⟩ | ⟨hnone, -, rfl⟩
          · rfl
          · exact fileAt_set_dir fs l hnone

theorem fileAt_createDirAll (fs : FileSystem) (dir : List Component) (l : Location) :
    (fs.createDirAll dir).2.fileAt l = fs.fileAt l := by
  rw [createDirAll]
  split
  · rfl
  · exact fileAt_mkdirs dir fs [] l

/-- Making directories keeps every node there is. -/
theorem node_mkdirs (cs : List Component) :
    ∀ (fs : FileSystem) (loc l : Location) (n : Node), fs.node l = some n →
      (mkdirs fs loc cs).2.node l = some n := by
  induction cs with
  | nil => intro fs loc l n h; exact h
  | cons c cs ih =>
      intro fs loc l n h
      rw [mkdirs]
      cases hmk : fs.mkdir (follow loc c) with
      | error e => exact h
      | ok fs' => exact ih fs' _ _ _ (node_mkdir hmk h)

/-- Making directories leaves a place as it is, or makes a directory where nothing stood, at a
place the walk passes through. -/
theorem node_mkdirs_cases (cs : List Component) :
    ∀ (fs : FileSystem) (loc l : Location), (mkdirs fs loc cs).2.node l = fs.node l ∨
      fs.node l = none ∧ (mkdirs fs loc cs).2.node l = some .dir ∧
        ∃ pre, pre <+: cs ∧ l = walk loc (moves pre) := by
  induction cs with
  | nil => intro fs loc l; exact Or.inl rfl
  | cons c cs ih =>
      intro fs loc l
      -- a place further along is a place along the whole walk
      have hlater : (∃ pre, pre <+: cs ∧ l = walk (follow loc c) (moves pre)) →
          ∃ pre, pre <+: c :: cs ∧ l = walk loc (moves pre) := by
        rintro ⟨pre, hpre, rfl⟩
        exact ⟨c :: pre, List.cons_prefix_cons.mpr ⟨rfl, hpre⟩, (walk_moves_cons loc c pre).symm⟩
      rw [mkdirs]
      cases hmk : fs.mkdir (follow loc c) with
      | error e => exact Or.inl rfl
      | ok fs' =>
          by_cases hl : l = follow loc c
          · subst hl
            -- the place of the directory that this step makes, if it makes one
            have hdir := node_mkdirs cs fs' (follow loc c) _ _ (node_mkdir_self hmk)
            rcases mkdir_eq_ok.mp hmk with ⟨hold, -⟩ | ⟨hnone, -, -⟩
            · exact Or.inl (hdir.trans hold.symm)
            · refine Or.inr ⟨hnone, hdir, [c], by simp, ?_⟩
              rw [walk_moves_cons]
              rfl
          · rw [← node_mkdir_ne hmk hl]
            exact (ih fs' _ _).imp_right fun ⟨hnone, hdir, hpre⟩ => ⟨hnone, hdir, hlater hpre⟩

theorem node_createDirAll_cases (fs : FileSystem) (dir : List Component) (l : Location) :
    (fs.createDirAll dir).2.node l = fs.node l ∨
      fs.node l = none ∧ (fs.createDirAll dir).2.node l = some .dir ∧
        ∃ pre, pre <+: dir ∧ l = resolve pre := by
  rw [createDirAll]
  split
  · exact Or.inl rfl
  · exact node_mkdirs_cases dir fs [] l

/-- Nothing stands in the way of a directory. -/
structure Permissive (fs : FileSystem) : Prop where
  noFile : ∀ l content, fs.node l ≠ some (.file content)
  noRefusal : ∀ l, fs.refuses l = none

theorem Permissive.set_dir {fs : FileSystem} (h : fs.Permissive) (loc : Location) :
    (fs.set loc .dir).Permissive where
  noFile := by
    intro l content
    by_cases hl : l = loc
    · subst hl
      rw [node_set_self]
      exact fun h' => nomatch h'
    · rw [node_set_ne fs .dir hl]
      exact h.noFile l content
  noRefusal := h.noRefusal

theorem Permissive.mkdir {fs : FileSystem} (h : fs.Permissive) (loc : Location) :
    ∃ fs', fs.mkdir loc = .ok fs' ∧ fs'.Permissive := by
  cases hnode : fs.node loc with
  | none => exact ⟨_, mkdir_eq_ok.mpr (Or.inr ⟨hnode, h.noRefusal loc, rfl⟩), h.set_dir loc⟩
  | some n =>
      cases n with
      | dir => exact ⟨fs, mkdir_eq_ok.mpr (Or.inl ⟨hnode, rfl⟩), h⟩
      | file content => exact absurd hnode (h.noFile loc content)

/-- Where nothing stands in the way, every directory of the walk is made. -/
theorem Permissive.mkdirs (cs : List Component) :
    ∀ {fs : FileSystem} (loc : Location), fs.Permissive → fs.node loc = some .dir →
      (fs.mkdirs loc cs).1 = .ok () ∧ (fs.mkdirs loc cs).2.Permissive ∧
        ∀ pre, pre <+: cs → (fs.mkdirs loc cs).2.node (walk loc (moves pre)) = some .dir := by
  induction cs with
  | nil =>
      intro fs loc h hloc
      refine ⟨rfl, h, ?_⟩
      intro pre hpre
      rw [List.prefix_nil.mp hpre]
      exact hloc
  | cons c cs ih =>
      intro fs loc h hloc
      obtain ⟨fs₁, hmk, h₁⟩ := h.mkdir (follow loc c)
      have hstep : fs.mkdirs loc (c :: cs) = fs₁.mkdirs (follow loc c) cs := by
        rw [FileSystem.mkdirs, hmk]
      obtain ⟨hok, hperm, hall⟩ := ih (follow loc c) h₁ (node_mkdir_self hmk)
      rw [hstep]
      refine ⟨hok, hperm, ?_⟩
      intro pre hpre
      cases pre with
      | nil => exact node_mkdirs cs fs₁ _ _ _ (node_mkdir hmk hloc)
      | cons c' pre =>
          obtain ⟨rfl, htail⟩ := List.cons_prefix_cons.mp hpre
          rw [walk_moves_cons]
          exact hall pre htail

/-- How `create` ends: it refuses and leaves the file system as it was, or there is an empty file
at the location that the path names. -/
theorem create_cases (fs : FileSystem) (p : PathBytes) :
    (∃ e, fs.create p = (.error e, fs)) ∨
      namesDirectory p = false ∧ fs.node (resolve (components p)) ≠ some .dir ∧
        fs.create p = (.ok ⟨resolve (components p), 0⟩,
          fs.set (resolve (components p)) (.file [])) := by
  rw [create]
  split
  · exact Or.inl ⟨_, rfl⟩
  · split
    · split
      · exact Or.inl ⟨_, rfl⟩
      · rename_i hnames
        split
        · exact Or.inl ⟨_, rfl⟩
        · split
          · exact Or.inl ⟨_, rfl⟩
          · rename_i hnode
            exact Or.inr ⟨Bool.eq_false_iff.mpr hnames, hnode, rfl⟩
    · exact Or.inl ⟨_, rfl⟩

/-- A failed `create` leaves the file system as it was. -/
theorem create_error {fs fs' : FileSystem} {p : PathBytes} {e : IoError}
    (h : fs.create p = (.error e, fs')) : fs' = fs := by
  rcases create_cases fs p with ⟨e', hfails⟩ | ⟨-, -, hok⟩
  · exact (Prod.mk.inj (h.symm.trans hfails)).2
  · cases h.symm.trans hok

/-- A successful `create` leaves an empty file at the location the path names. -/
theorem create_ok {fs fs' : FileSystem} {p : PathBytes} {file : FileHandle}
    (h : fs.create p = (.ok file, fs')) :
    namesDirectory p = false ∧ file = ⟨resolve (components p), 0⟩ ∧
      fs' = fs.set (resolve (components p)) (.file []) := by
  rcases create_cases fs p with ⟨e, hfails⟩ | ⟨hnames, -, hok⟩
  · cases h.symm.trans hfails
  · obtain ⟨hfile, hdisk⟩ := Prod.mk.inj (h.symm.trans hok)
    exact ⟨hnames, Except.ok.inj hfile, hdisk⟩

/-- A successful `create` found no directory at the location. -/
theorem create_ok_node {fs fs' : FileSystem} {p : PathBytes} {file : FileHandle}
    (h : fs.create p = (.ok file, fs')) : fs.node (resolve (components p)) ≠ some .dir := by
  rcases create_cases fs p with ⟨e, hfails⟩ | ⟨-, hnode, -⟩
  · cases h.symm.trans hfails
  · exact hnode

/-- A write on an open file, at its location. -/
theorem fileAt_write_self {fs : FileSystem} {h : FileHandle} {content : List UInt8}
    (hfile : fs.fileAt h.loc = some content) (data : List UInt8) :
    (fs.write h data).fileAt h.loc = some (writeAt 0 content h.offset data) := by
  unfold fileAt at hfile
  split at hfile
  · rename_i c hc
    cases hfile
    simp only [write, hc, fileAt_set_file]
  · cases hfile

/-- A write changes nothing elsewhere. -/
theorem node_write_ne (fs : FileSystem) (h : FileHandle) (data : List UInt8) {l : Location}
    (hl : l ≠ h.loc) : (fs.write h data).node l = fs.node l := by
  unfold write
  split
  · exact node_set_ne fs _ hl
  · rfl

theorem fileAt_congr {fs fs' : FileSystem} {l : Location} (h : fs'.node l = fs.node l) :
    fs'.fileAt l = fs.fileAt l := by simp only [fileAt, h]

end FileSystem

end Pcopy
