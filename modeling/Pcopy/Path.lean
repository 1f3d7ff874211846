import Mathlib.Data.List.Basic
import Pcopy.Lib.LexicalWalk

/-!
# Unix paths as the standard library sees them

A path is the bytes of a UTF-8 string.  `components` follows `std::path::Path::components`
on Unix: a leading separator is the root, empty segments and `.` segments are dropped
(except a `.` that opens a relative path), `..` is kept.  `join`, `parent` and `endsWith`
are the operations of the same name; an absolute argument of `join` replaces its base.

`resolve` is the lexical meaning of a path from the root: `..` goes one level up.
-/

namespace Pcopy.Path

open Pcopy.Lib

/-- The name of a directory entry. -/
abbrev Name := List UInt8

/-- The bytes of a path. -/
abbrev PathBytes := List UInt8

/-- The separator `/`. -/
def sep : UInt8 := 47

/-- The byte `.`. -/
def dot : UInt8 := 46

/-- `std::path::Component` on Unix. -/
inductive Component where
  | rootDir : Component
  | curDir : Component
  | parentDir : Component
  | normal : Name → Component
  deriving DecidableEq, Repr

/-- `Path::has_root`, which on Unix is `Path::is_absolute`. -/
def hasRoot (p : PathBytes) : Bool := p.head? == some sep

/-- The component of a segment between separators; empty ones and `.` have none. -/
def ofSegment (seg : Name) : Option Component :=
  if seg = [] then none
  else if seg = [dot] then none
  else if seg = [dot, dot] then some .parentDir
  else some (.normal seg)

/-- The component that stands for how a path starts. -/
def start (p : PathBytes) : List Component :=
  if hasRoot p then [.rootDir]
  else if (p.splitOn sep).head? = some [dot] then [.curDir]
  else []

/-- `Path::components`. -/
def components (p : PathBytes) : List Component :=
  start p ++ (p.splitOn sep).filterMap ofSegment

/-- `Path::join`: an absolute argument replaces the base. -/
def join (base p : PathBytes) : PathBytes :=
  if hasRoot p then p
  else if base.getLast? = none ∨ base.getLast? = some sep then base ++ p
  else base ++ sep :: p

/-- `Path::parent`, on components: none for the root and for the empty path. -/
def parent (comps : List Component) : Option (List Component) :=
  match comps.getLast? with
  | none => none
  | some .rootDir => none
  | some _ => some comps.dropLast

/-- `Path::ends_with`, which compares whole components. -/
def endsWith (comps child : List Component) : Bool := child.isSuffixOf comps

/-- `str::strip_prefix("/")`, or the string itself. -/
def stripSlash (p : PathBytes) : PathBytes :=
  match p with
  | [] => []
  | b :: rest => if b = sep then rest else b :: rest

/-- The move a component makes in a walk from the root. -/
def Component.move : Component → Option (Move Name)
  | .rootDir => none
  | .curDir => none
  | .parentDir => some .up
  | .normal n => some (.down n)

/-- The moves of a list of components. -/
def moves (comps : List Component) : List (Move Name) := comps.filterMap Component.move

/-- The location of an absolute path, `.` and `..` resolved lexically. -/
def resolve (comps : List Component) : List Name := walk [] (moves comps)

/-! ### Components of a concatenation -/

theorem splitOn_append_sep (p q : PathBytes) :
    (p ++ sep :: q).splitOn sep = p.splitOn sep ++ q.splitOn sep := by
  induction p with
  | nil => simp [List.splitOn, List.splitOnP_cons_eq_if_modifyHead]
  | cons b p ih =>
      simp only [List.splitOn] at ih
      simp only [List.cons_append, List.splitOn, List.splitOnP_cons_eq_if_modifyHead, ih]
      split
      · rfl
      · cases hp : List.splitOnP (· == sep) p with
        | nil => exact absurd hp (List.splitOnP_ne_nil _ _)
        | cons seg segs => rfl

/-- Below a nonempty base that does not end in a separator, a relative path adds its
components, `.` at its start included in what is dropped. -/
theorem components_join (base p : PathBytes) (hne : base ≠ [])
    (hlast : base.getLast? ≠ some sep) (hrel : hasRoot p = false) :
    components (join base p) = components base ++ (p.splitOn sep).filterMap ofSegment := by
  have hjoin : join base p = base ++ sep :: p := by
    rw [join, if_neg (by simp [hrel]), if_neg]
    rintro (h | h)
    · exact hne (List.getLast?_eq_none_iff.mp h)
    · exact hlast h
  obtain ⟨b, rest, rfl⟩ := List.exists_cons_of_ne_nil hne
  have hstart : start (b :: rest ++ sep :: p) = start (b :: rest) := by
    have hsplit := splitOn_append_sep (b :: rest) p
    have hhead : ((b :: rest ++ sep :: p).splitOn sep).head?
        = ((b :: rest).splitOn sep).head? := by
      rw [hsplit, List.head?_append_of_ne_nil]
      exact List.splitOnP_ne_nil _ _
    simp only [start, hhead]
    rfl
  rw [hjoin, components, components, hstart, splitOn_append_sep, List.filterMap_append,
    List.append_assoc]

/-! ### The last component -/

/-- The bytes after the last separator. -/
def lastSegment (p : PathBytes) : Name := ((p.splitOn sep).getLast?).getD []

/-- A path whose last segment is empty, `.` or `..` can only name a directory. -/
def namesDirectory (p : PathBytes) : Bool :=
  lastSegment p = [] ∨ lastSegment p = [dot] ∨ lastSegment p = [dot, dot]

/-- The last of the segments that are not empty is `.`. -/
def endsInDot (p : PathBytes) : Bool :=
  ((p.splitOn sep).filter fun seg => seg ≠ []).getLast? == some [dot]

/-- A name with a NUL byte in it, which no file has. -/
def Component.isNul : Component → Bool
  | .normal n => n.contains 0
  | _ => false

/-- There is a NUL byte in a path with these components. -/
def hasNul (comps : List Component) : Bool := comps.any Component.isNul

/-- A path that may name a file ends in the name of that file. -/
theorem components_of_not_namesDirectory {p : PathBytes} (h : namesDirectory p = false) :
    ∃ comps name, components p = comps ++ [.normal name] := by
  obtain ⟨h1, h2, h3⟩ : lastSegment p ≠ [] ∧ lastSegment p ≠ [dot] ∧
      lastSegment p ≠ [dot, dot] := by
    simpa [namesDirectory] using h
  have hne : p.splitOn sep ≠ [] := List.splitOnP_ne_nil _ _
  have hlast : (p.splitOn sep).getLast hne = lastSegment p := by
    rw [lastSegment, List.getLast?_eq_some_getLast hne, Option.getD_some]
  refine ⟨start p ++ ((p.splitOn sep).dropLast).filterMap ofSegment, lastSegment p, ?_⟩
  have hsplit : p.splitOn sep = (p.splitOn sep).dropLast ++ [lastSegment p] := by
    rw [← hlast, List.dropLast_append_getLast]
  have hseg : ofSegment (lastSegment p) = some (.normal (lastSegment p)) := by
    rw [ofSegment, if_neg h1, if_neg h2, if_neg h3]
  rw [components]
  conv_lhs => rw [hsplit]
  rw [List.filterMap_append, ← List.append_assoc]
  simp [hseg]

/-- The bytes of a segment are bytes of the path. -/
theorem mem_of_mem_segment {p : PathBytes} {seg : Name} {b : UInt8} (hseg : seg ∈ p.splitOn sep)
    (hb : b ∈ seg) : b ∈ p := by
  have hmem : b ∈ [sep].intercalate (p.splitOn sep) := by
    obtain ⟨i, hi⟩ := List.getElem?_of_mem hseg
    have hin : seg ∈ (p.splitOn sep).intersperse [sep] :=
      List.mem_of_getElem? (List.getElem?_intersperse_two_mul.trans hi)
    exact List.mem_flatten.mpr ⟨seg, hin, hb⟩
  rwa [List.intercalate_splitOn] at hmem

/-- A NUL byte in a component is one in the path. -/
theorem contains_of_isNul {p : PathBytes} {c : Component} (hc : c ∈ components p)
    (hnul : c.isNul = true) : p.contains 0 = true := by
  have hc : c ∈ (p.splitOn sep).filterMap ofSegment := by
    refine (List.mem_append.mp hc).resolve_left fun hstart => ?_
    unfold start at hstart
    split at hstart
    · rw [List.mem_singleton.mp hstart] at hnul
      cases hnul
    · split at hstart
      · rw [List.mem_singleton.mp hstart] at hnul
        cases hnul
      · cases hstart
  obtain ⟨seg, hseg, hsome⟩ := List.mem_filterMap.mp hc
  cases c with
  | normal n =>
      have hn : n = seg := by
        unfold ofSegment at hsome
        split at hsome
        · cases hsome
        · split at hsome
          · cases hsome
          · split at hsome
            · cases hsome
            · cases hsome
              rfl
      subst hn
      exact List.contains_iff_mem.mpr (mem_of_mem_segment hseg (List.contains_iff_mem.mp hnul))
  | _ => cases hnul

theorem moves_append (xs ys : List Component) : moves (xs ++ ys) = moves xs ++ moves ys :=
  List.filterMap_append

/-- Every prefix of the moves comes from a prefix of the components. -/
theorem resolve_append_normal (comps : List Component) (name : Name) :
    resolve (comps ++ [.normal name]) = resolve comps ++ [name] := by
  rw [resolve, moves_append, walk_append]
  rfl

end Pcopy.Path
