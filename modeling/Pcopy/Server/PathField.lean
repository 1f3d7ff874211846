import Pcopy.Server.Reading

/-!
# The path field is read alike in every segmentation

`readPathField` accepts exactly the unread bytes that begin with a path field: the length
of a UTF-8 path in two bytes, the path, four bytes of checksum, all within the buffer.
Whether it accepts, and what it returns, is a function of the unread bytes
(`readPathField_ensures`).  From this, `create_parent_folder` either has received such a
field with a matching checksum, and only then calls the file system, or fails having done
nothing (`createParentFolder_ensures`).
-/

namespace Pcopy.Server

open Pcopy.Lib Pcopy.Path

/-- The path field of a request as the client writes it. -/
def pathFrame (host : Host) (path : PathBytes) : List UInt8 :=
  BigEndian.toBytes 2 path.length ++ path ++ checksumBytes host path

theorem pathFrame_inj {host : Host} {path path' rest rest' : List UInt8}
    (hshort : path.length < 2 ^ 16) (hshort' : path'.length < 2 ^ 16)
    (h : pathFrame host path ++ rest = pathFrame host path' ++ rest') :
    path = path' ∧ rest = rest' := by
  simp only [pathFrame, List.append_assoc] at h
  obtain ⟨hfield, htail⟩ := List.append_inj h (by simp)
  have hlength := congrArg BigEndian.ofBytes hfield
  rw [BigEndian.ofBytes_toBytes hshort, BigEndian.ofBytes_toBytes hshort'] at hlength
  obtain ⟨hpath, htail⟩ := List.append_inj htail hlength
  exact ⟨hpath, (List.append_inj htail (by simp)).2⟩

/-- The bytes `u` begin with a path field of checksum `c` that ends at or before the end of
a buffer of `bufLen` bytes in which it starts at `startIndex`. -/
structure PathFieldAhead (bufLen startIndex : ℕ) (u : List UInt8) (path : PathBytes)
    (c : UInt32) (rest : List UInt8) : Prop where
  utf8 : isUtf8 path = true
  short : path.length < 65536
  bytes : u = BigEndian.toBytes 2 path.length ++ (path ++ (BigEndian.toBytes 4 c.toNat ++ rest))
  fits : startIndex + (path.length + 6) ≤ bufLen

/-! ### The checksum field -/

/-- How `read_checksum` ends. -/
def ChecksumPost (startIndex endIndex : ℕ) (u : List UInt8) (s₀ : ServerState) :
    Except (Fault IoError) (UInt32 × BufferState) → ServerState → Prop
  | .ok (c, st), s' => Reads s₀ s' ∧ Fetch (u.length - 4) endIndex s₀ st.endIndex s' ∧
      InBuffer s' st.startIndex st.endIndex ∧ st.startIndex = startIndex + 4 ∧
      u = BigEndian.toBytes 4 c.toNat ++ unread s' st.startIndex st.endIndex
  | .error φ, s' => Reads s₀ s' ∧ (∃ e, φ = .err e) ∧
      (u.length < 4 ∨ s₀.buf.length < startIndex + 4)

/-- A checksum that was read is the one on the wire. -/
theorem toBytes_checksum (host : Host) {field : List UInt8} (h : field.length = 4) :
    BigEndian.toBytes 4
        ((Hasher.newWithInitial (UInt32.ofNat (BigEndian.ofBytes field))).finalize host).toNat
      = field := by
  have hlt : BigEndian.ofBytes field < 2 ^ 32 := BigEndian.ofBytes_lt_of_length h
  rw [Hasher.finalize, Hasher.newWithInitial, host.crc_nil, UInt32.toNat_ofNat',
    Nat.mod_eq_of_lt hlt, BigEndian.toBytes_ofBytes_of_length h]

theorem readChecksum_ensures (host : Host) {s : ServerState} {startIndex endIndex : ℕ}
    (hin : InBuffer s startIndex endIndex) :
    (readChecksum host endIndex startIndex).Ensures s
      (ChecksumPost startIndex endIndex (unread s startIndex endIndex) s) := by
  refine readField_ensures hin ?_ ?_
  · intro e s' hreads hstuck
    exact ⟨hreads, ⟨e, rfl⟩, hstuck⟩
  · intro e s₁ field hreads hfetch hin₁ hfield hun
    refine Exec.Ensures.pure ⟨hreads, hfetch, hin₁, rfl, ?_⟩
    rw [toBytes_checksum host hfield, hun]

/-! ### The path field -/

/-- How the reading part of `create_parent_folder` ends. -/
def PathFieldPost (startIndex endIndex : ℕ) (u : List UInt8) (s₀ : ServerState) :
    Except (Fault IoError) (PathBytes × UInt32 × BufferState) → ServerState → Prop
  | .ok (path, c, st), s' => Reads s₀ s' ∧
      Fetch (u.length - (path.length + 6)) endIndex s₀ st.endIndex s' ∧
      InBuffer s' st.startIndex st.endIndex ∧ st.startIndex = startIndex + (path.length + 6) ∧
      PathFieldAhead s₀.buf.length startIndex u path c (unread s' st.startIndex st.endIndex)
  | .error φ, s' => Reads s₀ s' ∧ (∃ e, φ = .err e) ∧
      ∀ path c rest, ¬ PathFieldAhead s₀.buf.length startIndex u path c rest

/-- Bytes that begin with a path field begin with its length. -/
theorem PathFieldAhead.length_field {bufLen startIndex : ℕ} {u path rest field u' : List UInt8}
    {c : UInt32} (h : PathFieldAhead bufLen startIndex u path c rest)
    (hfield : field.length = 2) (hu : u = field ++ u') :
    BigEndian.ofBytes field = path.length ∧
      u' = path ++ (BigEndian.toBytes 4 c.toNat ++ rest) := by
  have hsplit := h.bytes
  rw [hu] at hsplit
  obtain ⟨h1, h2⟩ := List.append_inj hsplit (by rw [hfield, BigEndian.toBytes_length])
  exact ⟨by rw [h1, BigEndian.ofBytes_toBytes h.short], h2⟩

theorem readPathField_ensures (host : Host) {s : ServerState} {startIndex endIndex : ℕ}
    (hin : InBuffer s startIndex endIndex) :
    (readPathField host endIndex startIndex).Ensures s
      (PathFieldPost startIndex endIndex (unread s startIndex endIndex) s) := by
  refine readField_ensures hin ?_ ?_
  · -- stuck in the length
    intro e s' hreads hstuck
    refine ⟨hreads, ⟨e, rfl⟩, ?_⟩
    intro path c rest hahead
    have hfits := hahead.fits
    rcases hstuck with hlen | hbuf
    · rw [hahead.bytes, List.length_append, BigEndian.toBytes_length] at hlen
      omega
    · omega
  · intro e₁ s₁ field hreads₁ hfetch₁ hin₁ hfield hun₁
    refine readField_ensures hin₁ ?_ ?_
    · -- stuck in the path
      intro e s' hreads hstuck
      refine ⟨hreads₁.trans hreads, ⟨e, rfl⟩, ?_⟩
      intro path c rest hahead
      obtain ⟨hlen, hrest⟩ := hahead.length_field hfield hun₁
      have hfits := hahead.fits
      rcases hstuck with hshort | hbuf
      · rw [hrest, hlen, List.length_append] at hshort
        omega
      · rw [hreads₁.bufLen] at hbuf
        omega
    · intro e₂ s₂ path hreads₂ hfetch₂ hin₂ hpath hun₂
      have hreads := hreads₁.trans hreads₂
      have hlen₁ := congrArg List.length hun₁
      have hlen₂ := congrArg List.length hun₂
      rw [List.length_append] at hlen₁ hlen₂
      have hfetch := hfetch₁.trans hfetch₂ (by omega)
      -- the path that any reading of the grammar would find is the one read here
      have hsame : ∀ path' c rest,
          PathFieldAhead s.buf.length startIndex (unread s startIndex endIndex) path' c rest →
          path' = path ∧ unread s₂ (startIndex + 2 + BigEndian.ofBytes field) e₂
            = BigEndian.toBytes 4 c.toNat ++ rest := by
        intro path' c rest hahead
        obtain ⟨hlen, hrest⟩ := hahead.length_field hfield hun₁
        obtain ⟨h1, h2⟩ := List.append_inj (hun₂.symm.trans hrest) (by rw [hpath, hlen])
        exact ⟨h1.symm, h2⟩
      by_cases hutf : isUtf8 path = true
      · rw [if_pos hutf]
        refine Exec.Ensures.bind ((readChecksum_ensures host hin₂).mono ?_)
        intro o s₃ hpost₃
        cases o with
        | error φ =>
            refine ⟨hreads.trans hpost₃.1, hpost₃.2.1, ?_⟩
            intro path' c rest hahead
            obtain ⟨rfl, hrest⟩ := hsame path' c rest hahead
            have hfits := hahead.fits
            rcases hpost₃.2.2 with hshort | hbuf
            · rw [hrest, List.length_append, BigEndian.toBytes_length] at hshort
              omega
            · rw [hreads.bufLen] at hbuf
              omega
        | ok r =>
            obtain ⟨c, st⟩ := r
            obtain ⟨hreads₃, hfetch₃, hin₃, hstart, hun₃⟩ := hpost₃
            have hbuf := (hreads.trans hreads₃).bufLen
            have hst := hin₃.ordered
            have hfit := hin₃.fits
            have hall := hfetch.trans hfetch₃ (by omega)
            have hneed : (unread s₂ (startIndex + 2 + BigEndian.ofBytes field) e₂).length - 4
                = (unread s startIndex endIndex).length - (path.length + 6) := by omega
            rw [hneed] at hall
            refine Exec.Ensures.pure ⟨hreads.trans hreads₃, hall, hin₃, by omega, hutf, ?_, ?_, ?_⟩
            · rw [hpath]
              exact BigEndian.ofBytes_lt_of_length hfield
            · rw [hun₁, hun₂, hun₃, hpath, BigEndian.toBytes_ofBytes_of_length hfield]
            · omega
      · rw [if_neg hutf]
        refine Exec.Ensures.fail ⟨hreads, ⟨_, rfl⟩, ?_⟩
        intro path' c rest hahead
        obtain ⟨rfl, -⟩ := hsame path' c rest hahead
        exact hutf hahead.utf8

/-- There is only one way to read a path field off the front. -/
theorem PathFieldAhead.unique {bufLen startIndex : ℕ} {u path path' rest rest' : List UInt8}
    {c c' : UInt32} (h : PathFieldAhead bufLen startIndex u path c rest)
    (h' : PathFieldAhead bufLen startIndex u path' c' rest') :
    path = path' ∧ c = c' ∧ rest = rest' := by
  obtain ⟨hlen, htail⟩ := h'.length_field (BigEndian.toBytes_length 2 _) h.bytes
  rw [BigEndian.ofBytes_toBytes h.short] at hlen
  obtain ⟨hpath, hafter⟩ := List.append_inj htail hlen
  obtain ⟨hc, hrest⟩ := List.append_inj hafter (by simp)
  refine ⟨hpath, ?_, hrest⟩
  have hval := congrArg BigEndian.ofBytes hc
  rw [BigEndian.ofBytes_toBytes c.toNat_lt, BigEndian.ofBytes_toBytes c'.toNat_lt] at hval
  exact UInt32.toNat_inj.mp hval

/-! ### `create_parent_folder` -/

/-- A path whose checksum matched has been taken off the front of the unread bytes `u`, and
nothing else has happened. -/
structure Verified (host : Host) (startIndex endIndex : ℕ) (u : List UInt8) (s₀ : ServerState)
    (path : PathBytes) (st : BufferState) (s₁ : ServerState) : Prop where
  reads : Reads s₀ s₁
  fetch : Fetch (u.length - (path.length + 6)) endIndex s₀ st.endIndex s₁
  inBuffer : InBuffer s₁ st.startIndex st.endIndex
  advanced : st.startIndex = startIndex + (path.length + 6)
  ahead : PathFieldAhead s₀.buf.length startIndex u path (crc32 host path)
    (unread s₁ st.startIndex st.endIndex)

/-- What was unread is the path field and what is unread now. -/
theorem Verified.unread_eq {host : Host} {startIndex endIndex : ℕ} {u : List UInt8}
    {s₀ s₁ : ServerState} {path : PathBytes} {st : BufferState}
    (h : Verified host startIndex endIndex u s₀ path st s₁) :
    u = pathFrame host path ++ unread s₁ st.startIndex st.endIndex := by
  rw [h.ahead.bytes, pathFrame, checksumBytes]
  simp only [List.append_assoc]

/-- **`create_parent_folder` in one statement.**  Either the unread bytes begin with a path
field whose checksum matches, and the rest of the run is that of `makeParentFolder` on it;
or they do not, and the function has returned an error having only read. -/
theorem createParentFolder_cases (host : Host) {s s' : ServerState} {startIndex endIndex : ℕ}
    (hin : InBuffer s startIndex endIndex)
    {o : Except (Fault IoError) (BufferState × PathBytes)}
    (hrun : createParentFolder host endIndex startIndex s = (o, s')) :
    (∃ path st s₁, Verified host startIndex endIndex (unread s startIndex endIndex) s path st s₁ ∧
        makeParentFolder path st s₁ = (o, s')) ∨
      (Reads s s' ∧ (∃ e, o = .error (.err e)) ∧
        ∀ path rest, ¬ PathFieldAhead s.buf.length startIndex (unread s startIndex endIndex)
          path (crc32 host path) rest) := by
  have hfield := readPathField_ensures host hin
  rcases Exec.bind_cases hrun with ⟨⟨path, c, st⟩, s₁, hread, htail⟩ | ⟨φ, hread, rfl⟩
  · obtain ⟨hreads, hfetch, hin₁, hstart, hahead⟩ := hfield.of_run hread
    have hcrc : (Hasher.new.update path).finalize host = crc32 host path := rfl
    simp only [hcrc] at htail
    by_cases hc : crc32 host path = c
    · rw [if_pos hc] at htail
      exact Or.inl ⟨path, st, s₁, ⟨hreads, hfetch, hin₁, hstart, hc ▸ hahead⟩, htail⟩
    · rw [if_neg hc] at htail
      obtain ⟨rfl, rfl⟩ := Prod.mk.inj htail
      refine Or.inr ⟨hreads, ⟨_, rfl⟩, ?_⟩
      intro path' rest hahead'
      obtain ⟨rfl, hcc, -⟩ := hahead.unique hahead'
      exact hc hcc.symm
  · obtain ⟨hreads, ⟨e, rfl⟩, hnone⟩ := hfield.of_run hread
    exact Or.inr ⟨hreads, ⟨e, rfl⟩, fun path rest => hnone path _ rest⟩

/-- The state after the directory was asked for. -/
def afterDir (s : ServerState) (dir : List Component) : ServerState :=
  { s with
    disk := (s.disk.createDirAll dir).2
    effects := s.effects ++ [Effect.createDirAll dir] }

theorem createDirAll_run {s : ServerState} {dir : List Component}
    (h : (s.disk.createDirAll dir).1 = .ok ()) :
    createDirAll dir s = (.ok (), afterDir s dir) := by
  rcases hmk : s.disk.createDirAll dir with ⟨o, disk⟩
  rw [hmk] at h
  obtain rfl : o = .ok () := h
  simp only [createDirAll, afterDir, hmk]

theorem createDirAll_fails {s : ServerState} {dir : List Component} {e : IoError}
    (h : (s.disk.createDirAll dir).1 = .error e) :
    createDirAll dir s = (.error (.err e), afterDir s dir) := by
  rcases hmk : s.disk.createDirAll dir with ⟨o, disk⟩
  rw [hmk] at h
  obtain rfl : o = .error e := h
  simp only [createDirAll, afterDir, hmk]

/-- The directory part where the directory can be made. -/
theorem makeParentFolder_run {path : PathBytes} {st : BufferState} {s : ServerState}
    {dir : List Component} (hdir : parentFolder (completePath path) = some dir)
    (hmk : (s.disk.createDirAll dir).1 = .ok ()) :
    makeParentFolder path st s = (.ok (st, completePath path), afterDir s dir) := by
  rw [makeParentFolder, hdir]
  show (Exec.attempt (createDirAll dir) >>= _) s = _
  rw [Exec.bind_ok (Exec.attempt_ok (createDirAll_run hmk))]
  rfl

/-- What `parent().unwrap()` panics with. -/
def noParentMessage : String := "called `Option::unwrap()` on a `None` value"

/-- The directory part: a panic before anything happened, or one call of
`create_dir_all` whose outcome is passed on. -/
theorem makeParentFolder_cases {path : PathBytes} {st : BufferState} {s s' : ServerState}
    {o : Except (Fault IoError) (BufferState × PathBytes)}
    (hrun : makeParentFolder path st s = (o, s')) :
    (parentFolder (completePath path) = none ∧ o = .error (.panic noParentMessage) ∧ s' = s) ∨
      ∃ dir, parentFolder (completePath path) = some dir ∧ s' = afterDir s dir ∧
        (((s.disk.createDirAll dir).1 = .ok () ∧ o = .ok (st, completePath path)) ∨
          ∃ e e', (s.disk.createDirAll dir).1 = .error e ∧ o = .error (.err e')) := by
  cases hdir : parentFolder (completePath path) with
  | none =>
      unfold makeParentFolder at hrun
      simp only [hdir] at hrun
      obtain ⟨rfl, rfl⟩ := Prod.mk.inj hrun
      exact Or.inl ⟨rfl, rfl, rfl⟩
  | some dir =>
      refine Or.inr ⟨dir, rfl, ?_⟩
      cases hmk : (s.disk.createDirAll dir).1 with
      | error e =>
          unfold makeParentFolder at hrun
          simp only [hdir] at hrun
          rw [Exec.bind_ok (Exec.attempt_err (createDirAll_fails hmk))] at hrun
          obtain ⟨rfl, rfl⟩ := Prod.mk.inj hrun
          exact ⟨rfl, Or.inr ⟨e, _, rfl, rfl⟩⟩
      | ok _ =>
          rw [makeParentFolder_run hdir hmk] at hrun
          obtain ⟨rfl, rfl⟩ := Prod.mk.inj hrun
          exact ⟨rfl, Or.inl ⟨rfl, rfl⟩⟩

/-- **When `create_parent_folder` returns `Ok`.** -/
theorem createParentFolder_eq_ok {host : Host} {s s' : ServerState} {startIndex endIndex : ℕ}
    {r : BufferState × PathBytes} :
    createParentFolder host endIndex startIndex s = (.ok r, s') ↔
      ∃ path st s₁ dir,
        readPathField host endIndex startIndex s = (.ok (path, crc32 host path, st), s₁) ∧
        parentFolder (completePath path) = some dir ∧ (s₁.disk.createDirAll dir).1 = .ok () ∧
        r = (st, completePath path) ∧ s' = afterDir s₁ dir := by
  constructor
  · intro hrun
    obtain ⟨⟨path, c, st⟩, s₁, hread, htail⟩ := Exec.bind_eq_ok.mp hrun
    have hcrc : (Hasher.new.update path).finalize host = crc32 host path := rfl
    simp only [hcrc] at htail
    by_cases hc : crc32 host path = c
    · subst hc
      rw [if_pos rfl] at htail
      rcases makeParentFolder_cases htail with
        ⟨_, ho, _⟩ | ⟨dir, hdir, hs', ⟨hmk, ho⟩ | ⟨_, _, _, ho⟩⟩
      · cases ho
      · exact ⟨path, st, s₁, dir, hread, hdir, hmk, Except.ok.inj ho, hs'⟩
      · cases ho
    · rw [if_neg hc] at htail
      cases htail
  · rintro ⟨path, st, s₁, dir, hread, hdir, hmk, rfl, rfl⟩
    refine Exec.bind_eq_ok.mpr ⟨_, s₁, hread, ?_⟩
    have hcrc : (Hasher.new.update path).finalize host = crc32 host path := rfl
    dsimp only
    rw [if_pos hcrc, makeParentFolder_run hdir hmk]

end Pcopy.Server
