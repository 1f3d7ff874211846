import Pcopy.Server.Containment
import Pcopy.Server.PathGrammar

/-!
# The directory that is created

`create_parent_folder` computes the directory above the complete path and makes it.  When
the complete path ends with the root, which it does only where it is the root, the code asks
for the parent of its parent, and there is none.

* `parentFolder_eq_none_iff`, `parentFolder_last` — what `parent().unwrap()` comes to;
* `namesParent_iff` — the paths for which the lexical parent is made.
-/

namespace Pcopy.Server

open Pcopy.Lib Pcopy.Path

/-- `create_parent_folder`, started at `s` on a request for `path`, names the right directory:
it does not panic, it calls `create_dir_all` once, with the complete path less its last
component, which is not the root, and it returns the complete path. -/
structure NamesParent (host : Host) (startIndex endIndex : ℕ) (s : ServerState)
    (path : PathBytes) : Prop where
  noPanic : ∀ msg, (createParentFolder host endIndex startIndex s).1 ≠ .error (.panic msg)
  creates : ∃ dir c, components (completePath path) = dir ++ [c] ∧ c ≠ .rootDir ∧
    (createParentFolder host endIndex startIndex s).2.effects
      = s.effects ++ [.createDirAll dir]
  returns : ∀ st p s', createParentFolder host endIndex startIndex s = (.ok (st, p), s') →
    p = completePath path

/-- The complete path is the root: the path is absolute without one leading separator, and has
no segment but empty ones and `.`. -/
def IsRoot (path : PathBytes) : Prop := startsAtRoot path = true ∧ pathNames path = []

/-- There is no directory above the root, and above it only. -/
theorem parentFolder_eq_none_iff (path : PathBytes) :
    parentFolder (completePath path) = none ↔ IsRoot path := by
  cases hnames : pathNames path with
  | nil =>
      rw [parentFolder_of_no_names hnames, IsRoot, hnames]
      split
      · rename_i hroot
        exact ⟨fun _ => ⟨hroot, rfl⟩, fun _ => rfl⟩
      · rename_i hroot
        exact ⟨nofun, fun h => absurd h.1 hroot⟩
  | cons c cs =>
      rw [parentFolder_of_names hnames, IsRoot, hnames]
      exact ⟨nofun, fun h => nomatch h.2⟩

/-- The directory that is created is the complete path less its last component. -/
theorem parentFolder_last {path : PathBytes} {dir : List Component}
    (hdir : parentFolder (completePath path) = some dir) :
    ∃ c, components (completePath path) = dir ++ [c] ∧ c ≠ .rootDir := by
  have hcomps := components_completePath path
  cases hnames : pathNames path with
  | nil =>
      rw [parentFolder_of_no_names hnames] at hdir
      rw [hnames, List.append_nil] at hcomps
      split at hdir
      · cases hdir
      · -- no name: the last component is that of the saving directory
        rename_i hroot
        obtain rfl := Option.some.inj hdir
        rw [hcomps, if_neg hroot]
        exact ⟨(components rootSavingDirectory).getLast (by decide +kernel),
          (List.dropLast_append_getLast _).symm, by decide +kernel⟩
  | cons c cs =>
      rw [parentFolder_of_names hnames] at hdir
      obtain rfl := Option.some.inj hdir
      have hne : c :: cs ≠ [] := List.cons_ne_nil c cs
      refine ⟨(c :: cs).getLast hne, ?_, ?_⟩
      · rw [hcomps, hnames, List.append_assoc, List.dropLast_append_getLast]
      · have hmem : (c :: cs).getLast hne ∈ pathNames path := by
          rw [hnames]
          exact List.getLast_mem hne
        exact pathNames_ne_rootDir hmem

section

variable {host : Host} {s : ServerState} {startIndex endIndex : ℕ} {path : PathBytes}
  {rest : List UInt8}

/-- Past the path field, the run is that of the directory part. -/
theorem createParentFolder_of_ahead (hin : InBuffer s startIndex endIndex)
    (hahead : PathAhead host s startIndex endIndex path rest) :
    ∃ st s₁, s₁.effects = s.effects ∧
      createParentFolder host endIndex startIndex s = makeParentFolder path st s₁ := by
  rcases hrun : createParentFolder host endIndex startIndex s with ⟨o, s'⟩
  rcases createParentFolder_cases host hin hrun with
    ⟨path', st, s₁, hver, hmake⟩ | ⟨_, _, hnone⟩
  · obtain ⟨rfl, _⟩ := hahead.unique hver.ahead
    exact ⟨st, s₁, hver.reads.effects, hmake.symm⟩
  · exact absurd hahead (hnone path rest)

/-- The root makes the task panic. -/
theorem not_namesParent (hin : InBuffer s startIndex endIndex)
    (hahead : PathAhead host s startIndex endIndex path rest) (hroot : IsRoot path) :
    ¬ NamesParent host startIndex endIndex s path := by
  intro h
  obtain ⟨st, s₁, _, hrun⟩ := createParentFolder_of_ahead hin hahead
  rcases hmake : makeParentFolder path st s₁ with ⟨o, s'⟩
  rcases makeParentFolder_cases hmake with ⟨_, rfl, _⟩ | ⟨dir, hdir, _⟩
  · exact h.noPanic noParentMessage (by rw [hrun, hmake])
  · cases ((parentFolder_eq_none_iff path).mpr hroot).symm.trans hdir

/-- **Which paths have the right directory made**: all but those whose complete path is the
root, for which the task panics. -/
theorem namesParent_iff (hin : InBuffer s startIndex endIndex)
    (hahead : PathAhead host s startIndex endIndex path rest) :
    NamesParent host startIndex endIndex s path ↔ ¬ IsRoot path := by
  constructor
  · exact fun h hroot => not_namesParent hin hahead hroot h
  · intro hroot
    obtain ⟨st, s₁, heffects, hrun⟩ := createParentFolder_of_ahead hin hahead
    rcases hmake : makeParentFolder path st s₁ with ⟨o, s'⟩
    rw [hmake] at hrun
    rcases makeParentFolder_cases hmake with ⟨hnone, _⟩ | ⟨dir, hdir, rfl, hend⟩
    · exact absurd ((parentFolder_eq_none_iff path).mp hnone) hroot
    · obtain ⟨c, hcomps, hc⟩ := parentFolder_last hdir
      refine ⟨?_, ⟨dir, c, hcomps, hc, ?_⟩, ?_⟩
      · intro msg
        rw [hrun]
        rcases hend with ⟨_, rfl⟩ | ⟨_, _, _, rfl⟩ <;> nofun
      · rw [hrun, ← heffects]
        rfl
      · intro st' p s' hok
        rw [hrun] at hok
        obtain ⟨rfl, _⟩ := Prod.mk.inj hok
        rcases hend with ⟨_, ho⟩ | ⟨_, _, _, ho⟩
        · exact (Prod.mk.inj (Except.ok.inj ho)).2
        · cases ho

end

/-- The path of the documentation. -/
example : parentFolder (completePath "This/is/a/test/foo/bar".toUTF8.data.toList)
    = some (components (completePath "This/is/a/test/foo".toUTF8.data.toList)) := by
  decide +kernel

theorem namesParent_iff_folderRequest :
    NamesParent ieeeHost 0 0 (accepted folderRequest savingDisk) [97] ↔ ¬ IsRoot [97] :=
  namesParent_iff ⟨le_rfl, Nat.zero_le _⟩ folderRequest_ahead

/-- A request for `//`. -/
def rootRequest : SegStream UInt8 where
  segs := [pathFrame ieeeHost [47, 47]]
  nonempty := by decide +kernel

theorem rootRequest_ahead :
    PathAhead ieeeHost (accepted rootRequest savingDisk) 0 0 [47, 47] [] where
  utf8 := by decide +kernel
  short := by decide
  bytes := by decide +kernel
  fits := by decide +kernel

/-- The parent of the root is unwrapped. -/
theorem rootRequest_panics :
    ¬ ∀ (host : Host) (s : ServerState) (startIndex endIndex : ℕ) (path : PathBytes)
      (rest : List UInt8), InBuffer s startIndex endIndex →
      PathAhead host s startIndex endIndex path rest →
      NamesParent host startIndex endIndex s path := by
  intro h
  have hin : InBuffer (accepted rootRequest savingDisk) 0 0 := ⟨le_rfl, Nat.zero_le _⟩
  exact not_namesParent hin rootRequest_ahead ⟨by decide, by decide⟩
    (h _ _ _ _ _ _ hin rootRequest_ahead)

end Pcopy.Server
