import Pcopy.Server.Containment
import Pcopy.Server.SavedFiles

/-!
# Connections that keep out of each other's way

Two connections are apart if neither creates or writes a file at a place at which the other makes
a directory or has its file; they may make the same directories.  A task that is apart from
all the others does not notice them: it ends as it would alone, whatever the order of the calls.

* `InView` — what a task can tell of the disk it shares and the one it would find alone;
* `serializable` — what connections that are apart leave and answer, in any interleaving, is
  what they do when they are served one after the other.
-/

namespace Pcopy.Server

open Pcopy.Lib Pcopy.Path

/-- The place of a call. -/
def Call.place : Call → Location
  | .mkdir l => l
  | .create p => destination p
  | .write file _ => file.loc

/-- Neither connection touches a file at a place of the other. -/
def Apart (host : Host) (a b : SegStream UInt8) : Prop :=
  ∀ c ∈ (connectionScript host a).calls, ∀ c' ∈ (connectionScript host b).calls,
    ¬ c.Touches c'.place ∧ ¬ c'.Touches c.place

instance (host : Host) (a b : SegStream UInt8) : Decidable (Apart host a b) :=
  inferInstanceAs (Decidable (∀ c ∈ (connectionScript host a).calls,
    ∀ c' ∈ (connectionScript host b).calls, ¬ c.Touches c'.place ∧ ¬ c'.Touches c.place))

theorem Apart.symm {host : Host} {a b : SegStream UInt8} (h : Apart host a b) :
    Apart host b a := fun c hc c' hc' => (h c' hc' c hc).symm

/-- What task `now` of a connection can tell of the disk `σ` that it shares and the disk `τ`
that it would find alone.  On its way a directory may stand that it would make itself; at its
file both are the same; and before it creates that, it has made its directories. -/
structure InView (host : Host) (socket : SegStream UInt8) (now : ConnectionScript)
    (σ τ : FileSystem) : Prop where
  left : now.calls <:+ (connectionScript host socket).calls
  refuses : σ.refuses = τ.refuses
  way : ∀ l, .mkdir l ∈ (connectionScript host socket).calls → σ.node l = τ.node l ∨
    (τ.node l = none ∧ τ.refuses l = none ∧ σ.node l = some .dir)
  file : ∀ c ∈ (connectionScript host socket).calls, ∀ l, c.Touches l → σ.node l = τ.node l
  made : ∀ p, .create p ∈ now.calls → ∀ l, .mkdir l ∈ (connectionScript host socket).calls →
    .mkdir l ∈ now.calls ∨ τ.node l = some .dir

section

variable {host : Host} {socket : SegStream UInt8} {fs fs' σ σ' τ : FileSystem} {l : Location}

/-! ### Single calls -/

theorem Call.Touches.place_eq {c : Call} (h : c.Touches l) : c.place = l := by
  cases c with
  | mkdir l' => exact h.elim
  | create p => exact h
  | write file data => exact h

theorem perform_refuses {c : Call} (h : c.perform fs = .ok fs') : fs'.refuses = fs.refuses := by
  cases c with
  | mkdir l =>
      rcases FileSystem.mkdir_eq_ok.mp h with ⟨-, rfl⟩ | ⟨-, -, rfl⟩
      · rfl
      · rfl
  | create p =>
      simp only [Call.perform] at h
      split at h
      · rename_i hc
        cases h
        rw [(FileSystem.create_ok hc).2.2]
        rfl
      · cases h
  | write file data =>
      cases h
      unfold FileSystem.write
      split
      · rfl
      · rfl

/-- A directory stays one. -/
theorem dir_perform {c : Call} (h : c.perform fs = .ok fs') (hdir : fs.node l = some .dir) :
    fs'.node l = some .dir := by
  rcases node_perform h l with hsame | ⟨_, hnone, _⟩ | ⟨_, hnode, _⟩
  · rw [hsame, hdir]
  · exact nomatch hnone.symm.trans hdir
  · exact absurd hdir hnode

/-- Where a directory can be made. -/
theorem mkdir_of (h : fs.node l = some .dir ∨ fs.node l = none ∧ fs.refuses l = none) :
    ∃ fs', (Call.mkdir l).perform fs = .ok fs' := by
  rcases h with hdir | ⟨hnone, hrefuses⟩
  · exact ⟨fs, FileSystem.mkdir_eq_ok.mpr (Or.inl ⟨hdir, rfl⟩)⟩
  · exact ⟨fs.set l .dir, FileSystem.mkdir_eq_ok.mpr (Or.inr ⟨hnone, hrefuses, rfl⟩)⟩

/-- The same error on a disk that is the same there. -/
theorem mkdir_error {e : IoError} (hnode : σ.node l = τ.node l) (hrefuses : σ.refuses = τ.refuses)
    (h : (Call.mkdir l).perform σ = .error e) : (Call.mkdir l).perform τ = .error e := by
  simp only [Call.perform, FileSystem.mkdir, hnode, hrefuses] at h ⊢
  cases hn : τ.node l with
  | none =>
      rw [hn] at h
      cases hr : τ.refuses l with
      | none =>
          rw [hr] at h
          cases h
      | some e' =>
          rw [hr] at h
          exact h
  | some n =>
      rw [hn] at h
      cases n with
      | dir => cases h
      | file content => exact h

/-- `File::create` on disks that are the same at the file, with the directories above it. -/
theorem create_alike {p : PathBytes} (hrefuses : σ.refuses = τ.refuses)
    (hnode : σ.node (destination p) = τ.node (destination p))
    (hσ : σ.dirsExist [] (components p).dropLast = true)
    (hτ : τ.dirsExist [] (components p).dropLast = true) :
    (∃ e, (Call.create p).perform σ = .error e ∧ (Call.create p).perform τ = .error e) ∨
      (Call.create p).perform σ = .ok (σ.set (destination p) (.file [])) ∧
        (Call.create p).perform τ = .ok (τ.set (destination p) (.file [])) := by
  rw [destination] at hnode
  simp only [Call.perform, FileSystem.create, FileSystem.directoryError, if_pos hσ, if_pos hτ,
    hrefuses, hnode, destination]
  by_cases hnul : 0 ∈ p
  · simp [hnul]
  · by_cases hnames : namesDirectory p = true
    · simp [hnul, hnames]
    · cases hrefused : τ.refuses (resolve (components p)) with
      | some e => simp [hnul, hnames]
      | none =>
          cases hn : τ.node (resolve (components p)) with
          | none => simp [hnul, hnames]
          | some n => cases n <;> simp [hnul, hnames]

theorem dirsExist_iff (cs : List Component) :
    ∀ loc, fs.dirsExist loc cs = true ↔ ∀ l ∈ places loc cs, fs.node l = some .dir := by
  induction cs with
  | nil => intro loc; simp [FileSystem.dirsExist, places]
  | cons c cs ih =>
      intro loc
      simp only [FileSystem.dirsExist, places, Bool.and_eq_true, beq_iff_eq, ih,
        List.forall_mem_cons]

/-- The directory above a path is made of its components but the last. -/
theorem parentFolder_eq_dropLast {p : PathBytes} {dir : List Component}
    (h : parentFolder p = some dir) : dir = (components p).dropLast := by
  have hparent : ∀ {comps dir : List Component}, parent comps = some dir →
      dir = comps.dropLast := by
    intro comps dir hdir
    unfold parent at hdir
    split at hdir
    · cases hdir
    · cases hdir
    · exact (Option.some.inj hdir).symm
  unfold parentFolder at h
  split at h
  · rename_i hends
    -- a path that ends in the root is the root, which has no parent
    exfalso
    obtain ⟨pre, hpre⟩ := List.isSuffixOf_iff_suffix.mp hends
    have hlast : (components p).getLast? = some .rootDir := by
      rw [← hpre, components_slash, List.getLast?_concat]
    rw [parent, hlast] at h
    cases h
  · exact hparent h

/-- What is left of a script whose file is created next. -/
theorem calls_from_create {p : PathBytes} {rest : List Call}
    (h : .create p :: rest <:+ (connectionScript host socket).calls) :
    (∀ c ∈ rest, ∃ file data, c = .write file data) ∧
      ∀ l ∈ places [] (components p).dropLast,
        .mkdir l ∈ (connectionScript host socket).calls := by
  rcases connectionScript_calls host socket with
    hnil | ⟨path, dir, left, hasks, hcalls⟩ | ⟨path, dir, left, chunks, hasks, hcalls⟩
  · rw [hnil] at h
    exact absurd (List.suffix_nil.mp h) (List.cons_ne_nil _ _)
  · rw [hcalls] at h
    obtain ⟨_, _, heq⟩ := List.mem_map.mp (h.subset List.mem_cons_self)
    cases heq
  · rw [hcalls] at h
    obtain ⟨pre, hpre⟩ := h
    have hnotin : Call.create (completePath path) ∉ (places [] dir).map Call.mkdir := by
      intro hmem
      obtain ⟨_, _, heq⟩ := List.mem_map.mp hmem
      cases heq
    have hnotin' : Call.create (completePath path)
        ∉ writeCalls ⟨destination (completePath path), 0⟩ chunks := by
      intro hmem
      obtain ⟨_, _, heq⟩ := mem_writeCalls chunks _ hmem
      cases heq
    have hp : p = completePath path := by
      have hmem : Call.create p ∈ (places [] dir).map Call.mkdir ++
          .create (completePath path) ::
            writeCalls ⟨destination (completePath path), 0⟩ chunks := by
        rw [← hpre]
        exact List.mem_append_right _ List.mem_cons_self
      rcases List.mem_append.mp hmem with hmem | hmem
      · obtain ⟨_, _, heq⟩ := List.mem_map.mp hmem
        cases heq
      · rcases List.mem_cons.mp hmem with heq | hmem
        · cases heq
          rfl
        · obtain ⟨_, _, heq⟩ := mem_writeCalls chunks _ hmem
          cases heq
    subst hp
    obtain ⟨-, -, hrest⟩ := (List.append_cons_inj_of_notMem hnotin hnotin').mp hpre.symm
    refine ⟨?_, ?_⟩
    · intro c hc
      rw [← hrest] at hc
      obtain ⟨off, data, heq⟩ := mem_writeCalls chunks _ hc
      exact ⟨_, _, heq⟩
    · intro l hl
      rw [hcalls, ← parentFolder_eq_dropLast hasks.dir] at *
      exact List.mem_append_left _ (List.mem_map_of_mem hl)

/-! ### What a task can tell -/

theorem InView.start (socket : SegStream UInt8) (fs : FileSystem) :
    InView host socket (connectionScript host socket) fs fs where
  left := List.suffix_refl _
  refuses := rfl
  way _ _ := Or.inl rfl
  file _ _ _ _ := rfl
  made _ _ _ hl := Or.inl hl

/-- A task that has ended can still tell what it could. -/
theorem InView.over {now : ConnectionScript} (h : InView host socket now σ τ) (o : Outcome) :
    InView host socket (.done o) σ τ where
  left := List.nil_suffix
  refuses := h.refuses
  way := h.way
  file := h.file
  made _ hp := absurd hp List.not_mem_nil

/-- The directories above the file stand when it is created next. -/
theorem InView.dirs {p : PathBytes} {onError : IoError → Outcome} {rest : ConnectionScript}
    (h : InView host socket (.call (.create p) onError rest) σ τ) :
    σ.dirsExist [] (components p).dropLast = true ∧
      τ.dirsExist [] (components p).dropLast = true := by
  obtain ⟨hwrites, hplaces⟩ := calls_from_create h.left
  have hmade : ∀ l ∈ places [] (components p).dropLast, τ.node l = some .dir := by
    intro l hl
    rcases h.made p List.mem_cons_self l (hplaces l hl) with hmem | hdir
    · rcases List.mem_cons.mp hmem with heq | hmem
      · cases heq
      · obtain ⟨_, _, heq⟩ := hwrites _ hmem
        cases heq
    · exact hdir
  refine ⟨(dirsExist_iff _ _).mpr fun l hl => ?_, (dirsExist_iff _ _).mpr hmade⟩
  rcases h.way l (hplaces l hl) with hsame | ⟨hnone, _⟩
  · exact hsame.trans (hmade l hl)
  · cases hnone.symm.trans (hmade l hl)

/-- The rest of a script, when its next call has changed both disks in the same way at `l`
and nowhere else. -/
theorem InView.called {c : Call} {onError : IoError → Outcome} {rest : ConnectionScript}
    {τ' : FileSystem} (h : InView host socket (.call c onError rest) σ τ)
    (hσ : c.perform σ = .ok σ') (hτ : c.perform τ = .ok τ') (hself : σ'.node l = τ'.node l)
    (hother : ∀ l' ≠ l, σ'.node l' = σ.node l' ∧ τ'.node l' = τ.node l')
    (hmade : ∀ l', c = .mkdir l' → τ'.node l' = some .dir) :
    InView host socket rest σ' τ' where
  left := (List.suffix_cons c rest.calls).trans h.left
  refuses := by rw [perform_refuses hσ, perform_refuses hτ, h.refuses]
  way l' hl' := by
    by_cases hl : l' = l
    · rw [hl]
      exact Or.inl hself
    · obtain ⟨h1, h2⟩ := hother l' hl
      rw [h1, h2, perform_refuses hτ]
      exact h.way l' hl'
  file c' hc' l' htouches := by
    by_cases hl : l' = l
    · rw [hl]
      exact hself
    · obtain ⟨h1, h2⟩ := hother l' hl
      rw [h1, h2]
      exact h.file c' hc' l' htouches
  made p hp l' hl' := by
    rcases h.made p (List.mem_cons_of_mem c hp) l' hl' with hmem | hdir
    · rcases List.mem_cons.mp hmem with heq | hmem
      · exact Or.inr (hmade l' heq.symm)
      · exact Or.inl hmem
    · exact Or.inr (dir_perform hτ hdir)

/-- **A task does what it would do alone.** -/
theorem simulates_alone (host : Host) (disk : FileSystem) :
    Pool.Simulates (connectionScript host) Call.perform disk (InView host) where
  start socket := InView.start socket disk
  called := by
    intro socket c onError rest σ τ σ' h hσ
    have hc : c ∈ (connectionScript host socket).calls := h.left.subset List.mem_cons_self
    cases c with
    | mkdir l =>
        obtain ⟨τ', hτ⟩ : ∃ τ', (Call.mkdir l).perform τ = .ok τ' := by
          refine mkdir_of ?_
          rcases h.way l hc with hsame | ⟨hnone, hrefuses, -⟩
          · rw [← hsame, ← h.refuses]
            exact (FileSystem.mkdir_eq_ok.mp hσ).imp And.left fun ⟨h1, h2, _⟩ => ⟨h1, h2⟩
          · exact Or.inr ⟨hnone, hrefuses⟩
        have hdir : σ'.node l = some .dir := FileSystem.node_mkdir_self hσ
        have hdir' : τ'.node l = some .dir := FileSystem.node_mkdir_self hτ
        refine ⟨τ', hτ, h.called hσ hτ (hdir.trans hdir'.symm) ?_ ?_⟩
        · exact fun l' hl => ⟨FileSystem.node_mkdir_ne hσ hl, FileSystem.node_mkdir_ne hτ hl⟩
        · intro l' heq
          cases heq
          exact hdir'
    | create p =>
        obtain ⟨hdirs, hdirs'⟩ := h.dirs
        rcases create_alike h.refuses (h.file _ hc _ rfl) hdirs hdirs' with
          ⟨e, herror, -⟩ | ⟨hok, hτ⟩
        · cases herror.symm.trans hσ
        · obtain rfl := Except.ok.inj (hok.symm.trans hσ)
          refine ⟨_, hτ, h.called hσ hτ (l := destination p) ?_ ?_ ?_⟩
          · rw [FileSystem.node_set_self, FileSystem.node_set_self]
          · exact fun l' hl => ⟨FileSystem.node_set_ne σ _ hl, FileSystem.node_set_ne τ _ hl⟩
          · intro l' heq
            cases heq
    | write file data =>
        cases hσ
        refine ⟨τ.write file data, rfl, h.called rfl rfl (l := file.loc) ?_ ?_ ?_⟩
        · have hnode : σ.node file.loc = τ.node file.loc := h.file _ hc _ rfl
          unfold FileSystem.write
          rw [hnode]
          split
          · rw [FileSystem.node_set_self, FileSystem.node_set_self]
          · exact hnode
        · exact fun l' hl => ⟨FileSystem.node_write_ne σ file data hl,
            FileSystem.node_write_ne τ file data hl⟩
        · intro l' heq
          cases heq
  failed := by
    intro socket c onError rest σ τ e h hσ
    have hc : c ∈ (connectionScript host socket).calls := h.left.subset List.mem_cons_self
    refine ⟨?_, h.over _⟩
    cases c with
    | mkdir l =>
        rcases h.way l hc with hsame | ⟨-, -, hdir⟩
        · exact mkdir_error hsame h.refuses hσ
        · obtain ⟨σ', hok⟩ := mkdir_of (Or.inl hdir)
          cases hok.symm.trans hσ
    | create p =>
        obtain ⟨hdirs, hdirs'⟩ := h.dirs
        rcases create_alike h.refuses (h.file _ hc _ rfl) hdirs hdirs' with
          ⟨e', herror, hτ⟩ | ⟨hok, -⟩
        · obtain rfl := Except.error.inj (herror.symm.trans hσ)
          exact hτ
        · cases hok.symm.trans hσ
    | write file data => cases hσ

/-- **A task does not notice a connection that is apart from its own.** -/
theorem harmless_of_apart {other : SegStream UInt8} (h : Apart host socket other) {c : Call}
    (hc : c ∈ (connectionScript host other).calls) :
    Pool.Harmless Call.perform (InView host) socket c := by
  intro now σ σ' τ hview hperform
  refine ⟨hview.left, (perform_refuses hperform).trans hview.refuses, ?_, ?_, hview.made⟩
  · intro l hl
    rcases node_perform hperform l with hsame | ⟨rfl, hnone, hdir⟩ | ⟨htouches, -⟩
    · rw [hsame]
      exact hview.way l hl
    · rcases hview.way l hl with hsame | ⟨-, -, hdir'⟩
      · rcases FileSystem.mkdir_eq_ok.mp hperform with ⟨hdir', -⟩ | ⟨-, hrefuses, -⟩
        · cases hnone.symm.trans hdir'
        · exact Or.inr ⟨hsame.symm.trans hnone, hview.refuses ▸ hrefuses, hdir⟩
      · cases hnone.symm.trans hdir'
    · exact absurd htouches (h _ hl c hc).2
  · intro c' hc' l hl
    rcases node_perform hperform l with hsame | ⟨rfl, -, -⟩ | ⟨htouches, -⟩
    · rw [hsame]
      exact hview.file c' hc' l hl
    · exact absurd hl (h c' hc' _ hc).1
    · have hnot := (h c' hc' c hc).2
      rw [hl.place_eq] at hnot
      exact absurd htouches hnot

end

/-! ### Runs over connections that are apart -/

/-- The connections served one after the other, each to its end. -/
def serveAll (host : Host) : FileSystem → List (SegStream UInt8) → List Outcome × FileSystem
  | disk, [] => ([], disk)
  | disk, socket :: sockets =>
      let r := seen (connectionTask host (accepted socket disk))
      let later := serveAll host r.2 sockets
      (r.1 :: later.1, later.2)

section

variable {host : Host} {disk : FileSystem} {as : List Action} {s : State}

theorem undisturbed {sockets : List (SegStream UInt8)} (h : sockets.Pairwise (Apart host)) :
    Pool.Undisturbed (connectionScript host) Call.perform (InView host) sockets := by
  intro i j x y hx hy hne c hc
  obtain ⟨hi, rfl⟩ := List.getElem?_eq_some_iff.mp hx
  obtain ⟨hj, rfl⟩ := List.getElem?_eq_some_iff.mp hy
  refine harmless_of_apart ?_ hc
  rcases Nat.lt_or_gt_of_ne hne with hlt | hgt
  · exact List.pairwise_iff_getElem.mp h i j hi hj hlt
  · exact (List.pairwise_iff_getElem.mp h j i hj hi hgt).symm

theorem calls_refuses (cs : List Call) :
    ∀ {fs fs' : FileSystem}, cs.foldlM Call.perform fs = .ok fs' → fs'.refuses = fs.refuses := by
  induction cs with
  | nil =>
      intro fs fs' h
      cases h
      rfl
  | cons c cs ih =>
      intro fs fs' h
      obtain ⟨fs₁, hc, hcs⟩ := foldlM_cons_eq_ok h
      rw [ih hcs, perform_refuses hc]

/-- A directory that was made stands at the end. -/
theorem dir_calls (cs : List Call) :
    ∀ {fs fs' : FileSystem} {l : Location}, cs.foldlM Call.perform fs = .ok fs' →
      fs.node l = some .dir ∨ .mkdir l ∈ cs → fs'.node l = some .dir := by
  induction cs with
  | nil =>
      intro fs fs' l h hl
      cases h
      exact hl.resolve_right List.not_mem_nil
  | cons c cs ih =>
      intro fs fs' l h hl
      obtain ⟨fs₁, hc, hcs⟩ := foldlM_cons_eq_ok h
      refine ih hcs ?_
      rcases hl with hdir | hmem
      · exact Or.inl (dir_perform hc hdir)
      · rcases List.mem_cons.mp hmem with rfl | hmem
        · exact Or.inl (FileSystem.node_mkdir_self hc)
        · exact Or.inr hmem

/-- What a connection that was accepted has come to, in a run over connections that are apart:
where it is, and the disk that its calls would have made alone. -/
theorem alone (hrun : runFrom (step host) (State.listening disk) as = some s)
    (hapart : s.started.Pairwise (Apart host)) {i : ℕ} {socket : SegStream UInt8}
    (hi : s.started[i]? = some socket) :
    Pool.Simulated (connectionScript host) Call.perform disk (InView host) s i socket :=
  Pool.simulated_run (simulates_alone host disk) as s hrun (undisturbed hapart) i socket hi

/-- The disk that a connection leaves that is served alone. -/
def aloneDisk (host : Host) (disk : FileSystem) (socket : SegStream UInt8) : FileSystem :=
  ((connectionScript host socket).exec Call.perform disk).2

/-- A task that has ended: what it can tell of the disk, and what its calls would have made of
the disk alone. -/
theorem alone_ended (hrun : runFrom (step host) (State.listening disk) as = some s)
    (hapart : s.started.Pairwise (Apart host)) (hended : ∀ now ∈ s.tasks, ∃ o, now = .done o)
    {i : ℕ} {socket : SegStream UInt8} (hi : s.started[i]? = some socket) :
    ∃ o, s.tasks[i]? = some (.done o) ∧
      o = ((connectionScript host socket).exec Call.perform disk).1 ∧
      InView host socket (.done o) s.store (aloneDisk host disk socket) ∧
      (project s.log i).foldlM Call.perform disk = .ok (aloneDisk host disk socket) ∧
      ∀ c ∈ project s.log i, c ∈ (connectionScript host socket).calls := by
  obtain ⟨now, τ, hnow, hview, hown, hexec⟩ := alone hrun hapart hi
  obtain ⟨o, rfl⟩ := hended now (List.mem_of_getElem? hnow)
  obtain ⟨_, -, hreach⟩ := (Pool.faithful_run hrun).reached i socket hi
  rw [aloneDisk, hexec]
  exact ⟨o, hnow, rfl, hview, hown, fun c hc => hreach.prefix.subset hc⟩

/-- Where a connection would have changed the disk alone, the disk is as that one would have
left it. -/
theorem node_changed (hrun : runFrom (step host) (State.listening disk) as = some s)
    (hapart : s.started.Pairwise (Apart host)) (hended : ∀ now ∈ s.tasks, ∃ o, now = .done o)
    {i : ℕ} {socket : SegStream UInt8} (hi : s.started[i]? = some socket) {l : Location}
    (hne : (aloneDisk host disk socket).node l ≠ disk.node l) :
    s.store.node l = (aloneDisk host disk socket).node l := by
  obtain ⟨o, -, -, hview, hown, hcalls⟩ := alone_ended hrun hapart hended hi
  rcases node_calls _ hown l with hsame | ⟨-, hdir, hmade⟩ | ⟨-, -, c, hc, htouches⟩
  · exact absurd hsame hne
  · rcases hview.way l (hcalls _ hmade) with hsame | ⟨hnone, -⟩
    · exact hsame
    · cases hnone.symm.trans hdir
  · exact hview.file c (hcalls c hc) l htouches

/-- Where no connection would have changed the disk alone, it is as it was. -/
theorem node_unchanged (hrun : runFrom (step host) (State.listening disk) as = some s)
    (hapart : s.started.Pairwise (Apart host)) (hended : ∀ now ∈ s.tasks, ∃ o, now = .done o)
    {l : Location} (hsame : ∀ (i : ℕ) (socket : SegStream UInt8), s.started[i]? = some socket →
      (aloneDisk host disk socket).node l = disk.node l) :
    s.store.node l = disk.node l := by
  have hfaithful := Pool.faithful_run hrun
  -- a call that changed the place is one of a connection that would have changed it alone
  have hown : ∀ {c}, c ∈ s.log.map Prod.snd →
      ∃ (i : ℕ) (socket : SegStream UInt8), s.started[i]? = some socket ∧
        c ∈ project s.log i := by
    intro c hc
    obtain ⟨⟨i, c⟩, he, rfl⟩ := List.mem_map.mp hc
    obtain ⟨socket, hi, -⟩ := hfaithful.mem_calls he
    exact ⟨i, socket, hi, mem_project.mpr he⟩
  rcases node_calls _ hfaithful.replayed l with
    hstill | ⟨hnone, -, hmade⟩ | ⟨-, -, c, hc, htouches⟩
  · exact hstill
  · obtain ⟨i, socket, hi, hmem⟩ := hown hmade
    obtain ⟨o, -, -, -, hfold, -⟩ := alone_ended hrun hapart hended hi
    have hdir := dir_calls _ hfold (Or.inr hmem)
    rw [hsame i socket hi, hnone] at hdir
    cases hdir
  · obtain ⟨i, socket, hi, hmem⟩ := hown hc
    obtain ⟨o, -, -, hview, -, hcalls⟩ := alone_ended hrun hapart hended hi
    exact (hview.file c (hcalls c hmem) l htouches).trans (hsame i socket hi)

theorem ended_of_map {tasks : List ConnectionScript} {outcomes : List Outcome}
    (h : tasks = outcomes.map .done) : ∀ now ∈ tasks, ∃ o, now = .done o := by
  intro now hnow
  rw [h] at hnow
  obtain ⟨o, -, rfl⟩ := List.mem_map.mp hnow
  exact ⟨o, rfl⟩

/-- Each task has ended as it would alone. -/
theorem outcomes_alone (hrun : runFrom (step host) (State.listening disk) as = some s)
    (hapart : s.started.Pairwise (Apart host)) {outcomes : List Outcome}
    (htasks : s.tasks = outcomes.map .done) :
    outcomes = s.started.map fun socket =>
      ((connectionScript host socket).exec Call.perform disk).1 := by
  have hsizes := (Pool.faithful_run hrun).sizes
  rw [htasks, List.length_map] at hsizes
  refine List.ext_getElem (by rw [List.length_map, hsizes]) fun i hi hi' => ?_
  rw [List.length_map] at hi'
  obtain ⟨o, ho, heq, -⟩ := alone_ended hrun hapart (ended_of_map htasks)
    (List.getElem?_eq_getElem hi')
  rw [htasks, List.getElem?_map, List.getElem?_eq_getElem hi] at ho
  cases ho
  rw [List.getElem_map, heq]

/-- Two runs over the same connections, which are apart, end in the same way. -/
theorem ends_alike {as' : List Action} {s' : State}
    (hrun : runFrom (step host) (State.listening disk) as = some s)
    (hrun' : runFrom (step host) (State.listening disk) as' = some s')
    (hstarted : s'.started = s.started) (hapart : s.started.Pairwise (Apart host))
    {outcomes outcomes' : List Outcome} (htasks : s.tasks = outcomes.map .done)
    (htasks' : s'.tasks = outcomes'.map .done) :
    outcomes = outcomes' ∧ s.store = s'.store := by
  have hapart' : s'.started.Pairwise (Apart host) := hstarted ▸ hapart
  refine ⟨by rw [outcomes_alone hrun hapart htasks, outcomes_alone hrun' hapart' htasks',
    hstarted], ?_⟩
  have hrefuses : s.store.refuses = s'.store.refuses := by
    rw [calls_refuses _ (Pool.faithful_run hrun).replayed,
      calls_refuses _ (Pool.faithful_run hrun').replayed]
  have hnode : s.store.node = s'.store.node := by
    funext l
    by_cases hchanged : ∃ (i : ℕ) (socket : SegStream UInt8), s.started[i]? = some socket ∧
        (aloneDisk host disk socket).node l ≠ disk.node l
    · obtain ⟨i, socket, hi, hne⟩ := hchanged
      rw [node_changed hrun hapart (ended_of_map htasks) hi hne,
        node_changed hrun' hapart' (ended_of_map htasks') (hstarted ▸ hi) hne]
    · have hsame : ∀ (i : ℕ) (socket : SegStream UInt8), s.started[i]? = some socket →
          (aloneDisk host disk socket).node l = disk.node l := by
        intro i socket hi
        by_contra hne
        exact hchanged ⟨i, socket, hi, hne⟩
      rw [node_unchanged hrun hapart (ended_of_map htasks) hsame,
        node_unchanged hrun' hapart' (ended_of_map htasks') (hstarted ▸ hsame)]
  exact FileSystem.ext hnode hrefuses

/-- Serving connections one after the other is a run. -/
theorem serveAll_run (sockets : List (SegStream UInt8)) :
    ∀ s : State, ∃ as s', runFrom (step host) s as = some s' ∧
      s'.started = s.started ++ sockets ∧
      s'.tasks = s.tasks ++ (serveAll host s.store sockets).1.map .done ∧
      s'.store = (serveAll host s.store sockets).2 := by
  induction sockets with
  | nil =>
      intro s
      exact ⟨[], s, rfl, (List.append_nil _).symm, (List.append_nil _).symm, rfl⟩
  | cons socket sockets ih =>
      intro s
      -- it is accepted, and its task makes all its calls
      have htask : (s.tasks ++ [connectionScript host socket])[s.tasks.length]?
          = some (connectionScript host socket) := List.getElem?_concat_length
      obtain ⟨n, s₁, hturns, hstarted₁, hstore₁, htasks₁⟩ := @Pool.turns_exec _ _ _ _ _
        (connectionScript host) Call.perform (connectionScript host socket)
        { s with
          started := s.started ++ [socket]
          tasks := s.tasks ++ [connectionScript host socket] } s.tasks.length htask
      rw [connectionScript_exec] at hstore₁ htasks₁
      rw [List.set_append_right _ _ le_rfl, Nat.sub_self] at htasks₁
      obtain ⟨as, s', hlater, hstarted, htasks, hstore⟩ := ih s₁
      refine ⟨.start socket :: (List.replicate n (.turn s.tasks.length) ++ as), s', ?_, ?_, ?_, ?_⟩
      · show runFrom (step host) _ (List.replicate n _ ++ as) = some s'
        rw [runFrom_append]
        exact Option.bind_eq_some_iff.mpr ⟨s₁, hturns, hlater⟩
      · rw [hstarted, hstarted₁, List.append_assoc]
        rfl
      · rw [htasks, htasks₁, hstore₁, serveAll, List.append_assoc]
        rfl
      · rw [hstore, hstore₁, serveAll]

end

/-- **Connections that are apart are served as if one after the other.**  In every run in which
all tasks have ended, whatever the order of their calls: each has answered, and the disk is
left, as when the connections are served one by one, each to its end. -/
theorem serializable {host : Host} {disk : FileSystem} {as : List Action} {s : State}
    (hrun : runFrom (step host) (State.listening disk) as = some s)
    (hapart : s.started.Pairwise (Apart host)) {outcomes : List Outcome}
    (htasks : s.tasks = outcomes.map .done) :
    (outcomes, s.store) = serveAll host disk s.started := by
  obtain ⟨bs, s', hrun', hstarted, htasks', hstore⟩ :=
    @serveAll_run host s.started (State.listening disk)
  obtain ⟨houtcomes, hstore'⟩ := ends_alike hrun hrun' hstarted hapart htasks htasks'
  rw [houtcomes, hstore', hstore]
  rfl

theorem serializable_twoSaves :
    ∃ s : State, runFrom (step ieeeHost) (State.listening savingDisk) twoSaves = some s ∧
      ([(.ok (.fileSaved (completePath [97])), [0, 1]),
        (.ok (.fileSaved (completePath [98])), [0, 1])], s.store)
        = serveAll ieeeHost savingDisk [saveRequest [97] [1, 1], saveRequest [98] [2]] := by
  have hend : ((runFrom (step ieeeHost) (State.listening savingDisk) twoSaves).map fun s =>
      decide (s.started = [saveRequest [97] [1, 1], saveRequest [98] [2]]) &&
        decide (s.tasks.map Script.ended
          = [(.ok (.fileSaved (completePath [97])), [0, 1]),
            (.ok (.fileSaved (completePath [98])), [0, 1])].map some)) = some true := by
    decide +kernel
  have hapart : [saveRequest [97] [1, 1], saveRequest [98] [2]].Pairwise (Apart ieeeHost) := by
    decide +kernel
  obtain ⟨s, hrun, hend⟩ := Option.map_eq_some_iff.mp hend
  rw [Bool.and_eq_true, decide_eq_true_eq, decide_eq_true_eq] at hend
  obtain ⟨hstarted, htasks⟩ := hend
  refine ⟨s, hrun, ?_⟩
  rw [← hstarted] at hapart ⊢
  exact serializable hrun hapart (Script.eq_map_done htasks)

end Pcopy.Server
