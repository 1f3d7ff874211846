import Pcopy.Client.SendFolder
import Pcopy.Server.Containment

/-!
# A directory tree on its way to the server

The entries of a tree are named by the names below the folder that is walked.  `WalkDir` joins
these to the path of the folder, one after the other, and yields every entry once.

* `components_entryPath` — the components of a transmitted path, joined to the saving directory,
  are those of the folder and the names of the entry;
* `connection_wire` — what a connection carries begins with the header of its file;
* `sendFolder_connections` — the connections are those of the first entries of the walk.
-/

namespace Pcopy.Client

open Pcopy.Lib Pcopy.Path Pcopy.Server

/-- A name that a directory entry can have. -/
structure ProperName (n : Name) : Prop where
  nonempty : n ≠ []
  noSep : sep ∉ n
  notDot : n ≠ [dot]
  notDotDot : n ≠ [dot, dot]

instance (n : Name) : Decidable (ProperName n) :=
  decidable_of_iff (n ≠ [] ∧ sep ∉ n ∧ n ≠ [dot] ∧ n ≠ [dot, dot])
    ⟨fun ⟨h1, h2, h3, h4⟩ => ⟨h1, h2, h3, h4⟩, fun ⟨h1, h2, h3, h4⟩ => ⟨h1, h2, h3, h4⟩⟩

/-- An entry of a tree: the names from the folder down to it, whether it is a directory, and
what opening it gives. -/
structure TreeEntry where
  rel : List Name
  isDir : Bool
  opened : Opened

/-- The entries of a directory tree, in the order of a walk: each once, and only directories
have entries below them. -/
structure Tree where
  entries : List TreeEntry
  proper : ∀ e ∈ entries, ∀ n ∈ e.rel, ProperName n
  nodup : (entries.map TreeEntry.rel).Nodup
  parents : ∀ e ∈ entries, ∀ f ∈ entries, e.rel <+: f.rel → e.rel ≠ f.rel → e.isDir = true

/-- The path of an entry of a walk: the names are joined to the path of the folder. -/
def entryPath (folder : PathBytes) (rel : List Name) : PathBytes := rel.foldl join folder

/-- What `WalkDir` yields for an entry. -/
def TreeEntry.dirEntry (folder : PathBytes) (e : TreeEntry) : DirEntry :=
  ⟨entryPath folder e.rel, e.isDir, e.opened⟩

/-- The entries that are not directories. -/
def Tree.files (tree : Tree) : List TreeEntry := tree.entries.filter fun e => !e.isDir

theorem Tree.mem_files {tree : Tree} {e : TreeEntry} :
    e ∈ tree.files ↔ e ∈ tree.entries ∧ e.isDir = false := by simp [Tree.files]

/-- Nothing is below a file. -/
theorem Tree.not_below {tree : Tree} {e f : TreeEntry} (he : e ∈ tree.files) (hf : f ∈ tree.files)
    (hne : e.rel ≠ f.rel) : ¬ e.rel <+: f.rel := by
  rw [Tree.mem_files] at he hf
  intro hpre
  rw [tree.parents e he.1 f hf.1 hpre hne] at he
  cases he.2

/-! ### Joining names -/

theorem splitOn_of_noSep {n : Name} (h : sep ∉ n) : n.splitOn sep = [n] := by
  induction n with
  | nil => rfl
  | cons b n ih =>
      rw [List.mem_cons, not_or] at h
      have hb : (b == sep) = false := by simpa using Ne.symm h.1
      have hrest : List.splitOnP (· == sep) n = [n] := ih h.2
      rw [List.splitOn, List.splitOnP_cons_eq_if_modifyHead, hb, hrest]
      rfl

theorem ProperName.pathNames {n : Name} (h : ProperName n) : pathNames n = [.normal n] := by
  have hseg : ofSegment n = some (.normal n) := by
    rw [ofSegment, if_neg h.nonempty, if_neg h.notDot, if_neg h.notDotDot]
  rw [Server.pathNames, splitOn_of_noSep h.noSep, List.filterMap_cons_some hseg, List.filterMap_nil]

theorem ProperName.hasRoot {n : Name} (h : ProperName n) : hasRoot n = false := by
  cases n with
  | nil => exact absurd rfl h.nonempty
  | cons b n =>
      have hb : b ≠ sep := fun heq => h.noSep (heq ▸ List.mem_cons_self)
      simp [Path.hasRoot, hb]

/-- Joining a name puts it behind a separator, where there is none yet. -/
theorem join_name (p : PathBytes) {n : Name} (h : ProperName n) :
    p = [] ∧ join p n = n ∨ (∃ q, p = q ++ [sep] ∧ join p n = q ++ sep :: n) ∨
      p ≠ [] ∧ p.getLast? ≠ some sep ∧ join p n = p ++ sep :: n := by
  rw [join, if_neg (by simp [h.hasRoot])]
  rcases List.eq_nil_or_concat p with rfl | ⟨q, b, rfl⟩
  · exact Or.inl ⟨rfl, rfl⟩
  · right
    rw [List.concat_eq_append, List.getLast?_concat]
    by_cases hb : b = sep
    · subst hb
      rw [if_pos (Or.inr rfl), List.append_assoc]
      exact Or.inl ⟨q, rfl, rfl⟩
    · rw [if_neg (by simpa using hb)]
      exact Or.inr ⟨by simp, by simpa using hb, rfl⟩

theorem pathNames_append_sep (p q : PathBytes) :
    pathNames (p ++ sep :: q) = pathNames p ++ pathNames q := by
  rw [pathNames, splitOn_append_sep, List.filterMap_append]
  rfl

theorem pathNames_join (p : PathBytes) {n : Name} (h : ProperName n) :
    pathNames (join p n) = pathNames p ++ [.normal n] := by
  rcases join_name p h with ⟨rfl, hjoin⟩ | ⟨q, rfl, hjoin⟩ | ⟨_, _, hjoin⟩
  · rw [hjoin, h.pathNames]
    rfl
  · rw [hjoin, pathNames_append_sep, pathNames_append_sep, h.pathNames, List.append_assoc]
    rfl
  · rw [hjoin, pathNames_append_sep, h.pathNames]

/-- A name does not change how a path starts. -/
theorem startsAtRoot_join (p : PathBytes) {n : Name} (h : ProperName n) :
    startsAtRoot (join p n) = startsAtRoot p := by
  have htwo : ∀ (b c : UInt8) (rest rest' : PathBytes),
      startsAtRoot (b :: c :: rest) = startsAtRoot (b :: c :: rest') := by
    intro b c rest rest'
    simp only [startsAtRoot, Path.hasRoot, stripSlash, List.head?_cons]
    split <;> rfl
  have hone : ∀ b : UInt8, b ≠ sep → ∀ rest, startsAtRoot (b :: rest) = false := by
    intro b hb rest
    simp [startsAtRoot, Path.hasRoot, hb]
  have hslash : ∀ q : PathBytes, startsAtRoot (sep :: q) = Path.hasRoot q := fun q => by
    simp [startsAtRoot, Path.hasRoot, stripSlash]
  rcases join_name p h with ⟨rfl, hjoin⟩ | ⟨q, rfl, hjoin⟩ | ⟨hne, hlast, hjoin⟩
  · rw [hjoin, startsAtRoot, h.hasRoot]
    rfl
  · rw [hjoin]
    cases q with
    | nil => rw [List.nil_append, List.nil_append, hslash, hslash, h.hasRoot]; rfl
    | cons b q =>
        cases q with
        | nil => exact htwo b sep n []
        | cons c q => exact htwo b c _ _
  · rw [hjoin]
    obtain ⟨b, q, rfl⟩ := List.exists_cons_of_ne_nil hne
    cases q with
    | nil =>
        have hb : b ≠ sep := by simpa using hlast
        rw [List.singleton_append, hone b hb, hone b hb]
    | cons c q => exact htwo b c _ _

/-! ### The path of an entry -/

theorem pathNames_entryPath (folder : PathBytes) {rel : List Name}
    (h : ∀ n ∈ rel, ProperName n) :
    pathNames (entryPath folder rel) = pathNames folder ++ rel.map .normal ∧
      startsAtRoot (entryPath folder rel) = startsAtRoot folder := by
  induction rel generalizing folder with
  | nil => exact ⟨(List.append_nil _).symm, rfl⟩
  | cons n rel ih =>
      have hn := h n List.mem_cons_self
      obtain ⟨hnames, hstarts⟩ := ih (join folder n) fun m hm => h m (List.mem_cons_of_mem n hm)
      rw [entryPath, List.foldl_cons]
      refine ⟨hnames.trans ?_, hstarts.trans (startsAtRoot_join folder hn)⟩
      rw [pathNames_join folder hn, List.append_assoc]
      rfl

/-- **The components of a transmitted path**, joined to the saving directory. -/
theorem components_entryPath (folder : PathBytes) {rel : List Name}
    (h : ∀ n ∈ rel, ProperName n) :
    components (completePath (entryPath folder rel))
      = components (completePath folder) ++ rel.map .normal := by
  obtain ⟨hnames, hstarts⟩ := pathNames_entryPath folder h
  rw [components_completePath, components_completePath, hnames, hstarts, List.append_assoc]

/-- Names lead down from where the other components lead. -/
theorem resolve_append_names (comps : List Component) (names : List Name) :
    resolve (comps ++ names.map .normal) = resolve comps ++ names := by
  rw [resolve, moves_append, walk_append, moves_normals, walk_downs]
  rfl

/-- Where an entry goes. -/
theorem destination_entryPath (folder : PathBytes) {rel : List Name}
    (h : ∀ n ∈ rel, ProperName n) :
    destination (completePath (entryPath folder rel)) = destination (completePath folder) ++ rel := by
  rw [destination, components_entryPath folder h, resolve_append_names]
  rfl

/-- Different entries have different paths. -/
theorem entryPath_injective {folder : PathBytes} {rel rel' : List Name}
    (h : ∀ n ∈ rel, ProperName n) (h' : ∀ n ∈ rel', ProperName n)
    (heq : entryPath folder rel = entryPath folder rel') : rel = rel' := by
  have hdest := congrArg (fun p => destination (completePath p)) heq
  rw [destination_entryPath folder h, destination_entryPath folder h'] at hdest
  exact List.append_cancel_left hdest

theorem filterMap_results (folder : PathBytes) (entries : List TreeEntry) :
    (entries.map fun e => (.ok (e.dirEntry folder) : Except IoError DirEntry)).filterMap
      Except.toOption = entries.map (TreeEntry.dirEntry folder) := by
  rw [List.filterMap_map]
  exact congrFun (List.filterMap_eq_map (f := TreeEntry.dirEntry folder)) entries

/-- The walk of a tree from the path of a folder. -/
def Tree.walk (folder : PathBytes) (tree : Tree) : Walk where
  results := tree.entries.map fun e => .ok (e.dirEntry folder)
  nodup := by
    rw [filterMap_results, List.map_map]
    have hrels := tree.nodup
    rw [List.nodup_map_iff_inj_on tree.nodup.of_map] at hrels ⊢
    intro e he f hf heq
    exact hrels e he f hf (entryPath_injective (tree.proper e he) (tree.proper f hf) heq)

/-- The entries that `send_folder` keeps are the files of the tree. -/
theorem Tree.entries_walk (folder : PathBytes) (tree : Tree) :
    (tree.walk folder).entries = tree.files.map (TreeEntry.dirEntry folder) := by
  rw [Walk.entries, Tree.walk, filterMap_results, List.filter_map]
  rfl

/-! ### What a connection carries -/

/-- Reading does not write to the connection, and returns no more than there is room for. -/
def FileRead.Quiet (read : FileRead) : Prop :=
  ∀ room s, (read room s).2.wire = s.wire ∧
    ∀ bytes s', read room s = (.ok bytes, s') → bytes.length ≤ room

theorem readFile_quiet : FileRead.Quiet readFile := by
  intro room s
  refine ⟨rfl, fun bytes s' hread => ?_⟩
  cases hread
  exact s.file.read_length_le room

theorem readBroken_quiet (err : IoError) : FileRead.Quiet (readBroken err) := by
  intro room s
  rw [readBroken]
  split
  · exact ⟨rfl, fun bytes s' hread => by cases hread⟩
  · exact readFile_quiet room s

/-- What was written to the connection stays there. -/
def Wrote (s s' : ClientState) : Prop := s.wire <+: s'.wire

theorem Wrote.trans (s₁ s₂ s₃ : ClientState) (h : Wrote s₁ s₂) (h' : Wrote s₂ s₃) : Wrote s₁ s₃ :=
  List.IsPrefix.trans h h'

theorem writeStream_wrote (bytes : List UInt8) : Exec.Moves Wrote (writeStream bytes) :=
  fun _ => List.prefix_append _ _

theorem FileRead.Quiet.wrote {read : FileRead} (hread : read.Quiet) (room : ℕ) :
    Exec.Moves Wrote (read room) := fun s => by
  rw [Wrote, (hread room s).1]

theorem sendLoopFuel_wrote {read : FileRead} (hread : read.Quiet) (fuel : ℕ) :
    ∀ buf hasher, Exec.Moves Wrote (sendLoopFuel read fuel buf hasher) := by
  induction fuel with
  | zero => intro buf hasher s; exact List.prefix_rfl
  | succ fuel ih =>
      intro buf hasher
      refine Exec.Moves.bind Wrote.trans (hread.wrote _) fun bytes => ?_
      split
      · exact fun _ => List.prefix_rfl
      · exact Exec.Moves.bind Wrote.trans (writeStream_wrote _) fun _ => ih _ _

/-- What is sent begins with the fields. -/
theorem sendData_wire {read : FileRead} (hread : read.Quiet) (host : Host) (fields : List UInt8)
    (s : ClientState) :
    (sendData read host fields s).2.wire = s.wire ∨
      s.wire ++ fields <+: (sendData read host fields s).2.wire := by
  rw [sendData]
  dsimp only
  rw [resize_length]
  split
  · rename_i hfits
    obtain ⟨hwire, hlen⟩ := hread (1024 - fields.length) s
    rcases hrun : read (1024 - fields.length) s with ⟨φ | bytes, s₁⟩
    · rw [hrun] at hwire
      rw [Exec.bind_fault hrun]
      exact Or.inl hwire
    · rw [hrun] at hwire
      have hroom := hlen bytes s₁ hrun
      have hresize : resize fields 1024 = fields ++ List.replicate (1024 - fields.length) 0 := by
        rw [resize, List.take_of_length_le hfits]
      have hfields : window (resize fields 1024) 0 fields.length = fields := by
        rw [hresize, window, List.drop_zero, List.take_left]
      have hall : window (overwrite (resize fields 1024) fields.length bytes) 0
          (fields.length + bytes.length) = fields ++ bytes := by
        rw [window_overwrite _ _ (Nat.zero_le _) (by rw [resize_length]; exact hfits), hfields]
      right
      rw [Exec.bind_ok hrun, writeStream, Exec.modify_bind, hall]
      have hrest : ∀ buf hasher, Exec.Moves Wrote
          (sendLoop read buf hasher >>= fun hasher =>
            writeStream (BigEndian.toBytes 4 (hasher.finalize host).toNat)) := by
        intro buf hasher
        refine Exec.Moves.bind Wrote.trans ?_ fun _ => writeStream_wrote _
        exact fun s => sendLoopFuel_wrote hread _ buf hasher s
      refine List.IsPrefix.trans ?_ (hrest _ _ _)
      show s.wire ++ fields <+: s₁.wire ++ (fields ++ bytes)
      rw [show s₁.wire = s.wire from hwire, ← List.append_assoc]
      exact List.prefix_append _ _
  · exact Or.inl rfl

/-- A call of `send_file` writes nothing, or its header first; the path is then not longer than
its length field can tell. -/
theorem sendOpened_wire {read : FileRead} (hread : read.Quiet) (host : Host) (path : PathBytes)
    (s : ClientState) :
    (sendOpened read host path s).2.wire = s.wire ∨ path.length < 2 ^ 16 ∧
      s.wire ++ header host path s.fileLength <+: (sendOpened read host path s).2.wire := by
  by_cases hshort : path.length < 2 ^ 16
  · rw [sendOpened_short read host hshort]
    split
    · exact (sendData_wire hread host _ s).imp_right fun h => ⟨hshort, h⟩
    · exact Or.inl rfl
  · obtain ⟨msg, hrun⟩ := sendOpened_longPath read host (Nat.not_lt.mp hshort) s
    rw [hrun]
    exact Or.inl rfl

/-- **What a connection carries** is nothing, or begins with the operation byte and the path
field of its file. -/
theorem connection_wire (host : Host) (e : DirEntry) :
    (connection host e).wire = [] ∨ e.path.length < 2 ^ 16 ∧
      opSaveFile :: pathFrame host e.path <+: (connection host e).wire := by
  have hheader : ∀ length, opSaveFile :: pathFrame host e.path <+: header host e.path length := by
    intro length
    rw [header, pathFrame]
    simp only [List.append_assoc, List.singleton_append, opSaveFile]
    exact ⟨BigEndian.toBytes 4 length, by simp⟩
  rw [connection, sendPath]
  cases e.opened with
  | failed err => exact Or.inl rfl
  | file length content =>
      refine (sendOpened_wire readFile_quiet host e.path _).imp_right fun h => ?_
      exact ⟨h.1, (hheader length).trans h.2⟩
  | broken length content err =>
      refine (sendOpened_wire (readBroken_quiet err) host e.path _).imp_right fun h => ?_
      exact ⟨h.1, (hheader length).trans h.2⟩

/-- The connections are those of the first entries of the walk, up to one that is not harmless,
if there is one. -/
theorem sendFolder_connections (host : Host) (walk : Walk) :
    ∃ sent, sent <+: walk.entries ∧ (sendFolder host walk []).2 = sent.map (connection host) := by
  rw [sendFolder]
  rcases sendEach_cases host walk.entries [] with
    ⟨_, hrun⟩ | ⟨before, e, after, _, hsplit, _, _, hrun⟩
  · exact ⟨walk.entries, List.prefix_rfl, by rw [hrun]; rfl⟩
  · refine ⟨before ++ [e], ⟨after, by rw [hsplit, List.append_assoc]; rfl⟩, by rw [hrun]; rfl⟩

end Pcopy.Client
