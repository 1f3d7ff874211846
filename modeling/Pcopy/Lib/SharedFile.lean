import Pcopy.Lib.Buffer

/-!
# One file, several writers

Writers that share a file and know nothing of each other: each truncates it once and then
writes its data from the start, chunk after chunk, at an offset of its own.  A trace is
any order of their steps that keeps each writer's own.

The writer that truncates last wins in this sense: all its data is written over an empty
file, and what the others still write after that truncation may replace bytes of it or
extend it, each byte with their own byte at that offset; a gap before an extension holds
the fill value.  `shared_content` says so for any number of writers and any trace.
-/

namespace Pcopy.Lib

variable {ι α β : Type*}

/-- The steps of one tag in a tagged trace. -/
def project [DecidableEq ι] (trace : List (ι × β)) (i : ι) : List β :=
  trace.filterMap fun e => if e.1 = i then some e.2 else none

theorem project_append [DecidableEq ι] (trace trace' : List (ι × β)) (i : ι) :
    project (trace ++ trace') i = project trace i ++ project trace' i := List.filterMap_append

theorem project_cons_self [DecidableEq ι] (i : ι) (x : β) (trace : List (ι × β)) :
    project ((i, x) :: trace) i = x :: project trace i := by simp [project]

theorem project_cons_ne [DecidableEq ι] {i j : ι} (x : β) (trace : List (ι × β)) (h : j ≠ i) :
    project ((j, x) :: trace) i = project trace i := by simp [project, h]

theorem mem_project [DecidableEq ι] {trace : List (ι × β)} {i : ι} {x : β} :
    x ∈ project trace i ↔ (i, x) ∈ trace := by
  simp only [project, List.mem_filterMap]
  constructor
  · rintro ⟨⟨j, y⟩, hmem, hy⟩
    split at hy
    · rename_i hj
      cases hy
      exact hj ▸ hmem
    · cases hy
  · intro h
    exact ⟨(i, x), h, by simp⟩

/-- A trace of one tag only is its projection. -/
theorem map_snd_eq_project [DecidableEq ι] {trace : List (ι × β)} {i : ι}
    (h : ∀ e ∈ trace, e.1 = i) : trace.map Prod.snd = project trace i := by
  induction trace with
  | nil => rfl
  | cons e trace ih =>
      obtain ⟨j, x⟩ := e
      obtain rfl : j = i := h _ List.mem_cons_self
      rw [project_cons_self, List.map_cons, ih fun e he => h e (List.mem_cons_of_mem _ he)]

/-- Splitting a list at the last element with a property. -/
theorem exists_last {p : β → Prop} {l : List β} (h : ∃ x ∈ l, p x) :
    ∃ before x after, l = before ++ x :: after ∧ p x ∧ ∀ y ∈ after, ¬ p y := by
  induction l with
  | nil => simp at h
  | cons a l ih =>
      by_cases hl : ∃ x ∈ l, p x
      · obtain ⟨before, x, after, rfl, hx, hafter⟩ := ih hl
        exact ⟨a :: before, x, after, rfl, hx, hafter⟩
      · obtain ⟨x, hx, hpx⟩ := h
        rcases List.mem_cons.mp hx with rfl | hx
        · exact ⟨[], x, l, rfl, hpx, fun y hy hpy => hl ⟨y, hy, hpy⟩⟩
        · exact absurd ⟨x, hx, hpx⟩ hl

/-! ### Steps on a file -/

/-- A step on a file. -/
inductive FileOp (α : Type*) where
  | truncate : FileOp α
  | write : ℕ → List α → FileOp α

/-- The content after a step; a file that is absent is made by a truncation only. -/
def FileOp.apply (fill : α) : Option (List α) → FileOp α → Option (List α)
  | _, .truncate => some []
  | c, .write off xs => c.map fun content => writeAt fill content off xs

/-- The content after a list of steps. -/
def runOps (fill : α) (c : Option (List α)) (ops : List (FileOp α)) : Option (List α) :=
  ops.foldl (FileOp.apply fill) c

/-- The writes of one chunk after the other from an offset on. -/
def appends : ℕ → List (List α) → List (FileOp α)
  | _, [] => []
  | off, xs :: chunks => .write off xs :: appends (off + xs.length) chunks

theorem runOps_append (fill : α) (c : Option (List α)) (ops ops' : List (FileOp α)) :
    runOps fill c (ops ++ ops') = runOps fill (runOps fill c ops) ops' := List.foldl_append ..

/-- Chunks written from the end of a file on are appended. -/
theorem runOps_appends (fill : α) (chunks : List (List α)) :
    ∀ content : List α, runOps fill (some content) (appends content.length chunks)
      = some (content ++ chunks.flatten) := by
  induction chunks with
  | nil => intro content; simp [appends, runOps]
  | cons xs chunks ih =>
      intro content
      have hrec := ih (content ++ xs)
      rw [List.length_append] at hrec
      rw [appends, List.flatten_cons, ← List.append_assoc, ← hrec]
      show runOps fill ((some content).map fun c => writeAt fill c content.length xs) _ = _
      rw [Option.map_some, writeAt_end]

/-- What a step writes is the part of `data` at its offset. -/
def FileOp.PartOf (data : List α) : FileOp α → Prop
  | .truncate => False
  | .write off xs => ∀ k x, xs[k]? = some x → data[off + k]? = some x

theorem truncate_not_mem_appends (chunks : List (List α)) :
    ∀ off, FileOp.truncate ∉ appends off chunks := by
  induction chunks with
  | nil => intro off; simp [appends]
  | cons xs chunks ih => intro off; simp [appends, ih]

theorem partOf_of_mem_appends (chunks : List (List α)) :
    ∀ (done : List α), ∀ op ∈ appends done.length chunks,
      op.PartOf (done ++ chunks.flatten) := by
  induction chunks with
  | nil => intro done op hop; simp [appends] at hop
  | cons xs chunks ih =>
      intro done op hop
      rcases List.mem_cons.mp hop with rfl | hop
      · intro k x hx
        have hk : k < xs.length := (List.getElem?_eq_some_iff.mp hx).1
        rw [List.getElem?_append_right (by omega), Nat.add_sub_cancel_left, List.flatten_cons,
          List.getElem?_append_left hk]
        exact hx
      · rw [← List.length_append] at hop
        have hrec := ih (done ++ xs) op hop
        rwa [List.append_assoc] at hrec

/-! ### The content of a shared file -/

section Shared

variable (fill : α) (data : ι → List α)

/-- Every byte of the content is a writer's byte at its place, or the fill behind the first
`m` bytes, which are all there; and the content is no longer than some writer's data. -/
structure Mixed (m : ℕ) (content : List α) : Prop where
  bytes : ∀ k b, content[k]? = some b → (∃ i, (data i)[k]? = some b) ∨ (b = fill ∧ m ≤ k)
  covered : m ≤ content.length
  bounded : ∃ i, content.length ≤ (data i).length

/-- A write of some writer's part keeps the content mixed; if it begins where the covered
part ends, that part grows by what it wrote. -/
theorem Mixed.write {m : ℕ} {content : List α} (h : Mixed fill data m content) {i : ι}
    {off : ℕ} {xs : List α} (hpart : (FileOp.write off xs).PartOf (data i)) {m' : ℕ}
    (hm : m' = m ∨ (off = m ∧ m' = m + xs.length)) :
    Mixed fill data m' (writeAt fill content off xs) := by
  have hcov := h.covered
  by_cases hxs : xs = []
  · subst hxs
    obtain rfl : m' = m := by
      rcases hm with h0 | ⟨_, h0⟩
      · exact h0
      · simpa using h0
    exact h
  · have hlen := writeAt_length fill content off hxs
    refine ⟨?_, ?_, ?_⟩
    · intro k b hb
      rw [getElem?_writeAt fill content off hxs] at hb
      split at hb
      · rename_i hin
        refine Or.inl ⟨i, ?_⟩
        have hk := hpart _ _ hb
        rwa [show off + (k - off) = k by omega] at hk
      · rename_i hout
        split at hb
        · rename_i hgap
          refine Or.inr ⟨(Option.some.inj hb).symm, ?_⟩
          rcases hm with rfl | ⟨rfl, rfl⟩
          · omega
          · omega
        · rcases h.bytes k b hb with hbyte | ⟨rfl, hk⟩
          · exact Or.inl hbyte
          · refine Or.inr ⟨rfl, ?_⟩
            rcases hm with rfl | ⟨rfl, rfl⟩
            · exact hk
            · omega
    · rw [hlen]
      rcases hm with rfl | ⟨rfl, rfl⟩
      · omega
      · omega
    · obtain ⟨j, hj⟩ := h.bounded
      obtain ⟨x, hx⟩ : ∃ x, xs[xs.length - 1]? = some x := by
        have hpos := List.length_pos_iff.mpr hxs
        exact ⟨xs[xs.length - 1], List.getElem?_eq_getElem (by omega)⟩
      have hend := (List.getElem?_eq_some_iff.mp (hpart _ _ hx)).1
      rw [hlen]
      rcases Nat.le_total content.length (off + xs.length) with hle | hle
      · refine ⟨i, ?_⟩
        have hpos := List.length_pos_iff.mpr hxs
        omega
      · exact ⟨j, by omega⟩

/-- Over a trace of writes, in which writer `w` writes on from the covered part. -/
theorem Mixed.run [DecidableEq ι] (w : ι) (trace : List (ι × FileOp α)) :
    ∀ (m : ℕ) (content : List α) (chunks : List (List α)), Mixed fill data m content →
      (∀ e ∈ trace, e.2.PartOf (data e.1)) → project trace w = appends m chunks →
      ∃ content', runOps fill (some content) (trace.map Prod.snd) = some content' ∧
        Mixed fill data (m + chunks.flatten.length) content' := by
  induction trace with
  | nil =>
      intro m content chunks h _ hproj
      cases chunks with
      | nil => exact ⟨content, rfl, h⟩
      | cons xs chunks => cases hproj
  | cons e trace ih =>
      intro m content chunks h hpart hproj
      obtain ⟨i, op⟩ := e
      have hop := hpart (i, op) List.mem_cons_self
      have htail : ∀ e ∈ trace, e.2.PartOf (data e.1) :=
        fun e he => hpart e (List.mem_cons_of_mem _ he)
      cases op with
      | truncate => exact hop.elim
      | write off xs =>
          by_cases hi : i = w
          · subst hi
            rw [project_cons_self] at hproj
            cases chunks with
            | nil => cases hproj
            | cons ys chunks =>
                rw [appends, List.cons.injEq, FileOp.write.injEq] at hproj
                obtain ⟨⟨rfl, rfl⟩, hproj⟩ := hproj
                have hnext : Mixed fill data (off + xs.length) (writeAt fill content off xs) :=
                  h.write fill data hop (Or.inr ⟨rfl, rfl⟩)
                obtain ⟨content', hrun, hmixed⟩ := ih _ _ chunks hnext htail hproj
                refine ⟨content', hrun, ?_⟩
                rwa [List.flatten_cons, List.length_append, ← Nat.add_assoc]
          · rw [project_cons_ne _ _ hi] at hproj
            exact ih m _ chunks (h.write fill data hop (Or.inl rfl)) htail hproj

/-- **The content of a file that several writers truncated and wrote.**  The writer whose
truncation comes last has all its bytes there, except where another writer's later write
put its own; and if no other writer writes later, the file holds exactly its data. -/
theorem shared_content [DecidableEq ι] {trace : List (ι × FileOp α)}
    (hproj : ∀ i, ∃ chunks, chunks.flatten = data i ∧
      project trace i = .truncate :: appends 0 chunks) [Nonempty ι] (c : Option (List α)) :
    ∃ w before after content, trace = before ++ (w, .truncate) :: after ∧
      (∀ e ∈ after, e.2 ≠ .truncate) ∧
      runOps fill c (trace.map Prod.snd) = some content ∧
      Mixed fill data (data w).length content ∧
      ((∀ e ∈ after, e.1 = w) → content = data w) := by
  have hsome : ∃ e ∈ trace, e.2 = FileOp.truncate := by
    obtain ⟨i⟩ := ‹Nonempty ι›
    obtain ⟨chunks, _, hi⟩ := hproj i
    exact ⟨(i, .truncate), mem_project.mp (hi ▸ List.mem_cons_self), rfl⟩
  obtain ⟨before, ⟨w, op⟩, after, rfl, hop, hafter⟩ := exists_last hsome
  obtain rfl : op = .truncate := hop
  obtain ⟨chunks, hflat, hw⟩ := hproj w
  -- the truncation of `w` is its first step, so all its writes come after it
  have hpost : project after w = appends 0 chunks := by
    rw [project_append, project_cons_self] at hw
    cases hbefore : project before w with
    | nil =>
        rw [hbefore, List.nil_append] at hw
        exact (List.cons.inj hw).2
    | cons x xs =>
        rw [hbefore, List.cons_append, List.cons.injEq] at hw
        refine absurd ?_ (truncate_not_mem_appends chunks 0)
        rw [← hw.2]
        simp
  have hpart : ∀ e ∈ after, e.2.PartOf (data e.1) := by
    intro e he
    obtain ⟨chunks', hflat', hi⟩ := hproj e.1
    have hmem : e.2 ∈ project (before ++ (w, .truncate) :: after) e.1 :=
      mem_project.mpr (List.mem_append_right _ (List.mem_cons_of_mem _ he))
    rw [hi] at hmem
    rcases List.mem_cons.mp hmem with htrunc | hmem
    · exact absurd htrunc (hafter e he)
    · have hpartOf := partOf_of_mem_appends chunks' [] e.2 hmem
      rwa [List.nil_append, hflat'] at hpartOf
  have hstart : runOps fill c ((before ++ (w, .truncate) :: after).map Prod.snd)
      = runOps fill (some []) (after.map Prod.snd) := by
    rw [List.map_append, runOps_append]
    rfl
  obtain ⟨content, hrun, hmixed⟩ := Mixed.run fill data w after 0 [] chunks
    ⟨by simp, le_rfl, w, Nat.zero_le _⟩ hpart hpost
  rw [Nat.zero_add, hflat] at hmixed
  refine ⟨w, before, after, content, rfl, hafter, by rw [hstart, hrun], hmixed, ?_⟩
  intro hall
  have hexact := runOps_appends fill chunks []
  rw [List.length_nil, List.nil_append, ← hpost, ← map_snd_eq_project hall, hrun, hflat] at hexact
  exact Option.some.inj hexact

end Shared

end Pcopy.Lib
