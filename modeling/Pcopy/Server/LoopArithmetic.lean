import Pcopy.Server.Overrun
import Pcopy.Server.PathGrammar
import Pcopy.Server.SaveSoundness

/-!
# The arithmetic of the receive loop

At every head of the data loop the indexes delimit a window of the buffer, and
`file_data_length` is what was announced less what is in the file.  None of the subtractions
goes wrong but the one behind the last chunk.

* `AtHead.inStep` — the records are in step at every loop head;
* `soundArithmetic_iff` — the streams on which no subtraction goes wrong.
-/

namespace Pcopy.Server

open Pcopy.Lib Pcopy.Path

/-! ### Loop heads -/

/-- From one head of the data loop the loop comes to another. -/
inductive Reaches : DataLoop → ServerState → DataLoop → ServerState → Prop where
  | here (v : DataLoop) (s : ServerState) : Reaches v s v s
  | turn {v v₁ v' : DataLoop} {s s₁ s' : ServerState}
      (hmore : v.endIndex - v.startIndex < v.fileDataLength)
      (hturn : dataTurn v s = (.ok v₁, s₁)) (hrest : Reaches v₁ s₁ v' s') : Reaches v s v' s'

/-- `save_file`, started at `s`, comes to the head of the data loop with the variables `v` and
the state `s'`, `declared` bytes having been announced for the file it has opened. -/
structure AtHead (host : Host) (startIndex endIndex : ℕ) (s : ServerState) (declared : ℕ)
    (file : FileHandle) (v : DataLoop) (s' : ServerState) : Prop where
  run : ∃ st path s₁ s₂ e s₃ field v₀ s₄,
    createParentFolder host endIndex startIndex s = (.ok (st, path), s₁) ∧
    createFile path s₁ = (.ok file, s₂) ∧
    readUntil 4
      (fun _ => ⟨.invalidData, "No data to read from stream. Cannot read file data length"⟩)
      st.endIndex st.startIndex s₂ = (.ok e, s₃) ∧
    slice st.startIndex (st.startIndex + 4) s₃ = (.ok field, s₃) ∧
    declared = BigEndian.ofBytes field ∧
    firstChunk host file e (st.startIndex + 4) declared s₃ = (.ok v₀, s₄) ∧
    Reaches v₀ s₄ v s'

/-- `save_file`, started at `s`, comes to its first write with the state `s'`: `declared` bytes
have been announced for the file it has opened, and the bytes in the window from `start` to
`e` are the first that stand behind the length field. -/
def AtFirstWrite (host : Host) (startIndex endIndex : ℕ) (s : ServerState) (declared : ℕ)
    (file : FileHandle) (start e : ℕ) (s' : ServerState) : Prop :=
  ∃ st path s₁ s₂ field,
    createParentFolder host endIndex startIndex s = (.ok (st, path), s₁) ∧
    createFile path s₁ = (.ok file, s₂) ∧
    readUntil 4
      (fun _ => ⟨.invalidData, "No data to read from stream. Cannot read file data length"⟩)
      st.endIndex st.startIndex s₂ = (.ok e, s') ∧
    slice st.startIndex (st.startIndex + 4) s' = (.ok field, s') ∧
    declared = BigEndian.ofBytes field ∧ start = st.startIndex + 4

/-- The arithmetic of `save_file`, started at `s`, is sound: at every loop head the indexes
are in order and `file_data_length` is what is announced and not in the file yet, and the
task does not panic in a subtraction or in the assertion behind the last chunk. -/
structure SoundArithmetic (host : Host) (startIndex endIndex : ℕ) (s : ServerState) : Prop where
  heads : ∀ declared file v s', AtHead host startIndex endIndex s declared file v s' →
    v.startIndex ≤ v.endIndex ∧ v.endIndex ≤ s'.buf.length ∧
      ∃ content, s'.disk.fileAt file.loc = some content ∧
        v.fileDataLength = declared - content.length ∧ content.length ≤ declared
  noPanic : ∀ msg, (saveFile host endIndex startIndex s).1 = .error (.panic msg) → ¬ Overran msg

/-- If the stream carries a request whose file can be created, with `len` bytes announced and
more than these behind the length field, then every cut within the data at a misplaced index
is followed by another place, before or at the end of the data, where a read may stop. -/
def NoOverrun (host : Host) (startIndex endIndex : ℕ) (s : ServerState) : Prop :=
  ∀ path len data,
    PathAhead host s startIndex endIndex path (BigEndian.toBytes 4 len ++ data) →
    Creatable s.disk path → len < 2 ^ 32 → startIndex + (path.length + 10) ≤ s.buf.length →
    len < data.length →
    FollowedUp s.buf.length (startIndex + (path.length + 10) + data.length) Misplaced
      (data.length - len) data.length s.socket

section

variable {host : Host} {s : ServerState} {startIndex endIndex : ℕ}

/-- The loop keeps the records in step. -/
theorem InStep.of_reaches {file : FileHandle} {s₀ s' : ServerState} {len : ℕ} {u : List UInt8}
    {v v' : DataLoop} (hlen : len < 2 ^ 32) (hreach : Reaches v s v' s') (hbuf : 0 < s.buf.length)
    (h : InStep file s₀ len u v s) : InStep file s₀ len u v' s' := by
  induction hreach with
  | here v s => exact h
  | turn hmore hturn _ ih =>
      obtain ⟨hstep, _, hlen'⟩ := (dataTurn_ensures hlen hbuf h (by omega)).of_run hturn
      exact ih (by omega) hstep

/-- A loop head is reached from the first write. -/
theorem AtHead.iff_firstWrite {declared : ℕ} {file : FileHandle} {v : DataLoop}
    {s' : ServerState} :
    AtHead host startIndex endIndex s declared file v s' ↔
      ∃ start e s₁ v₀ s₂, AtFirstWrite host startIndex endIndex s declared file start e s₁ ∧
        firstChunk host file e start declared s₁ = (.ok v₀, s₂) ∧ Reaches v₀ s₂ v s' := by
  constructor
  · rintro ⟨st, path, s₁, s₂, e, s₃, field, v₀, s₄, hcpf, hcreate, hread, hslice, hdeclared,
      hfirst, hreach⟩
    exact ⟨st.startIndex + 4, e, s₃, v₀, s₄, ⟨st, path, s₁, s₂, field, hcpf, hcreate, hread,
      hslice, hdeclared, rfl⟩, hfirst, hreach⟩
  · rintro ⟨start, e, s₃, v₀, s₄, ⟨st, path, s₁, s₂, field, hcpf, hcreate, hread, hslice,
      hdeclared, rfl⟩, hfirst, hreach⟩
    exact ⟨st, path, s₁, s₂, e, s₃, field, v₀, s₄, hcpf, hcreate, hread, hslice, hdeclared,
      hfirst, hreach⟩

/-- **What `save_file` has done at its first write**: the path field and the length are off
the stream, and the file is open and empty. -/
theorem AtFirstWrite.opened (hin : InBuffer s startIndex endIndex) {declared : ℕ}
    {file : FileHandle} {start e : ℕ} {s' : ServerState}
    (h : AtFirstWrite host startIndex endIndex s declared file start e s') :
    InBuffer s' start e ∧ declared < 2 ^ 32 ∧ 0 < s'.buf.length ∧
      s'.disk.fileAt file.loc = some [] ∧ file.offset = 0 ∧
      ∃ path, PathAhead host s startIndex endIndex path
        (BigEndian.toBytes 4 declared ++ unread s' start e) := by
  obtain ⟨st, path, s₁, s₂, field, hcpf, hcreate, hread, hslice, rfl, rfl⟩ := h
  obtain ⟨hmade, rfl⟩ := createFile_eq_ok.mp hcreate
  obtain ⟨rfl, hempty, _⟩ := create_opens hmade
  obtain ⟨rel, st', s₀, dir, hpath, _, _, hr, rfl⟩ := createParentFolder_eq_ok.mp hcpf
  obtain ⟨rfl, rfl⟩ := Prod.mk.inj hr
  obtain ⟨_, _, hin₀, _, hahead⟩ := (readPathField_ensures host hin).of_run hpath
  have hin₁ : InBuffer (afterCreate (afterDir s₀ dir) (completePath rel)) st.startIndex
      st.endIndex := ⟨hin₀.ordered, hin₀.fits⟩
  -- the length is read
  obtain ⟨hreads, _, hin₂, hun, hle⟩ := (readUntil_ensures 4 _ hin₁).of_run hread
  rw [slice_run (Nat.le_add_right _ _) (hle.trans hin₂.fits)] at hslice
  have hfield := window_front_length hin₂ hle
  obtain rfl := Except.ok.inj (Prod.mk.inj hslice).1
  have hrest : unread s₀ st.startIndex st.endIndex
      = BigEndian.toBytes 4 (BigEndian.ofBytes (window s'.buf st.startIndex (st.startIndex + 4)))
        ++ unread s' (st.startIndex + 4) e := by
    rw [BigEndian.toBytes_ofBytes_of_length hfield, ← slice_front s' hle, hun]
    rfl
  have hfit := hin₂.fits
  refine ⟨⟨hle, hfit⟩, BigEndian.ofBytes_lt_of_length hfield, by omega, ?_, rfl, rel, ?_⟩
  · rw [hreads.disk]
    exact hempty
  · rw [← hrest]
    exact hahead

/-- **The records are in step at every loop head.** -/
theorem AtHead.inStep (hfull : host.FullWrites) (hin : InBuffer s startIndex endIndex)
    {declared : ℕ} {file : FileHandle} {v : DataLoop} {s' : ServerState}
    (h : AtHead host startIndex endIndex s declared file v s') :
    ∃ s₀ path u, InStep file s₀ declared u v s' ∧ s₀.disk.fileAt file.loc = some [] ∧
      file.offset = 0 ∧
      PathAhead host s startIndex endIndex path (BigEndian.toBytes 4 declared ++ u) := by
  obtain ⟨start, e, s₀, v₀, s₁, hwrite, hfirst, hreach⟩ := AtHead.iff_firstWrite.mp h
  obtain ⟨hin₀, hlt, hpos, hempty, hoffset, path, hahead⟩ := hwrite.opened hin
  obtain ⟨v₁, s₂, hfirst', hstep, _, _, _, hbuf⟩ := firstChunk_run hfull hin₀ hlt file
  obtain ⟨hv, rfl⟩ := Prod.mk.inj (hfirst.symm.trans hfirst')
  obtain rfl := Except.ok.inj hv
  exact ⟨s₀, path, _, hstep.of_reaches hlt hreach (by rw [hbuf]; exact hpos), hempty, hoffset,
    hahead⟩

/-- The checksum at the end never panics. -/
theorem checkData_no_panic {v : DataLoop} (hin : InBuffer s v.startIndex v.endIndex)
    (path : PathBytes) (msg : String) : (checkData host path v s).1 ≠ .error (.panic msg) := by
  intro hpanic
  exact (checkData_ensures host path hin).of_run (Exec.run_eq hpanic)

/-- A run of `receiveData` panics exactly where the data loop does. -/
theorem Enters.panics_iff {file : FileHandle} {s₁ s' : ServerState} {len : ℕ}
    {data : List UInt8} {v : DataLoop} (h : Enters host file s startIndex endIndex len data v s₁ s')
    (hlen : len < 2 ^ 32) (path : PathBytes) (msg : String) :
    (receiveData host file path endIndex startIndex s).1 = .error (.panic msg) ↔
      (dataLoop v s').1 = .error (.panic msg) := by
  have hread := h.fieldRead
  have hfit := h.inStep.inBuffer.fits
  have hpost := dataLoop_ensures hlen (by omega) h.inStep
  rw [h.run path]
  rcases hrun : dataLoop v s' with ⟨φ | v', s''⟩
  · rw [Exec.bind_fault hrun]
    constructor <;> intro heq <;> cases heq <;> rfl
  · rw [Exec.bind_ok hrun]
    obtain ⟨hstep, _⟩ := hpost.of_run hrun
    exact ⟨fun heq => absurd heq (checkData_no_panic hstep.inBuffer path msg), nofun⟩

/-- The part of `save_file` behind the open file panics exactly on a stream that goes on behind
the data with a cut that is not followed up. -/
theorem receiveData_overran_iff (hfull : host.FullWrites) (file : FileHandle) (path : PathBytes)
    (hin : InBuffer s startIndex endIndex) :
    (∃ msg, (receiveData host file path endIndex startIndex s).1 = .error (.panic msg) ∧
        Overran msg) ↔
      ∃ len data, unread s startIndex endIndex = BigEndian.toBytes 4 len ++ data ∧
        len < 2 ^ 32 ∧ startIndex + 4 ≤ s.buf.length ∧ len < data.length ∧
        ¬ FollowedUp s.buf.length (startIndex + 4 + data.length) Misplaced (data.length - len)
          data.length s.socket := by
  constructor
  · rintro ⟨msg, hpanic, _⟩
    rcases hrun : readUntil 4
      (fun _ => ⟨.invalidData, "No data to read from stream. Cannot read file data length"⟩)
      endIndex startIndex s with ⟨φ | e, s₁⟩
    · obtain ⟨_, e, rfl, _⟩ := (readUntil_ensures 4 _ hin).of_run hrun
      rw [receiveData, Exec.bind_fault hrun] at hpanic
      cases hpanic
    · -- the length field is there
      obtain ⟨hreads, _, hin₁, hun, hle⟩ := (readUntil_ensures 4 _ hin).of_run hrun
      have hroom := hle.trans hin₁.fits
      rw [hreads.bufLen] at hroom
      have hfield := window_front_length hin₁ hle
      rw [slice_front s₁ hle] at hun
      have hlen := BigEndian.ofBytes_lt_of_length hfield
      generalize unread s₁ (startIndex + 4) e = data at hun
      generalize window s₁.buf startIndex (startIndex + 4) = field at hun hfield hlen
      have hsplit : unread s startIndex endIndex
          = BigEndian.toBytes 4 (BigEndian.ofBytes field) ++ data := by
        rw [← hun, BigEndian.toBytes_ofBytes_of_length hfield]
      obtain ⟨v, s₂, s', henters⟩ := receiveData_enters hfull file hin hlen hsplit hroom
      have hloop := (henters.panics_iff hlen path msg).mp hpanic
      have hpos : 0 < s'.buf.length := by
        rw [henters.buf, henters.reads.bufLen]
        omega
      obtain ⟨_, hmore⟩ := dataLoopFuel_panics hlen _ v s' hpos henters.inStep msg _
        (Exec.run_eq hloop)
      refine ⟨_, data, hsplit, hlen, hroom, hmore, ?_⟩
      intro hfollowed
      obtain ⟨v', s'', k, hok, _⟩ := (henters.dataLoop_ends hlen rfl hmore.le).1 hfollowed
      rw [hok] at hloop
      cases hloop
  · rintro ⟨len, data, hsplit, hlen, hroom, hmore, hnot⟩
    obtain ⟨v, s₂, s', henters⟩ := receiveData_enters hfull file hin hlen hsplit hroom
    obtain ⟨msg, s'', hmsg, hloop⟩ := (henters.dataLoop_ends hlen rfl hmore.le).2 hnot
    exact ⟨msg, (henters.panics_iff hlen path msg).mpr (by rw [hloop]), hmsg⟩

end

/-! ### The streams on which the arithmetic is sound -/

section

variable {host : Host} {s : ServerState} {startIndex endIndex : ℕ}

/-- Past the open file, the cuts that count are those of the stream as it was before the path
field was read. -/
theorem receiveData_overran_iff_cuts (hfull : host.FullWrites) {path : PathBytes}
    {st : BufferState} {s₁ : ServerState} (file : FileHandle) (dir : List Component)
    (hver : Verified host startIndex endIndex (unread s startIndex endIndex) s path st s₁) :
    (∃ msg, (receiveData host file (completePath path) st.endIndex st.startIndex
        (afterCreate (afterDir s₁ dir) (completePath path))).1 = .error (.panic msg) ∧
        Overran msg) ↔
      ∃ len data, unread s₁ st.startIndex st.endIndex = BigEndian.toBytes 4 len ++ data ∧
        len < 2 ^ 32 ∧ startIndex + (path.length + 10) ≤ s.buf.length ∧ len < data.length ∧
        ¬ FollowedUp s.buf.length (startIndex + (path.length + 10) + data.length) Misplaced
          (data.length - len) data.length s.socket := by
  have hin₂ : InBuffer (afterCreate (afterDir s₁ dir) (completePath path)) st.startIndex
      st.endIndex := ⟨hver.inBuffer.ordered, hver.inBuffer.fits⟩
  have hlen := unread_length hver.inBuffer
  have hbuf := hver.reads.bufLen
  have ho := hver.inBuffer.ordered
  have hplace : st.startIndex + 4 = startIndex + (path.length + 10) := by
    have hstart := hver.advanced
    omega
  -- the cuts that count, of the stream as it was and as it is now
  have hcuts : ∀ (len : ℕ) (data : List UInt8),
      unread s₁ st.startIndex st.endIndex = BigEndian.toBytes 4 len ++ data →
      (FollowedUp s.buf.length (startIndex + (path.length + 10) + data.length) Misplaced
          (data.length - len) data.length s.socket ↔
        FollowedUp s.buf.length (startIndex + (path.length + 10) + data.length) Misplaced
          (data.length - len) data.length s₁.socket) := by
    intro len data hrest
    have hahead := congrArg List.length hver.ahead.bytes
    rw [hrest, List.length_append, BigEndian.toBytes_length] at hlen
    simp only [hrest, List.length_append, BigEndian.toBytes_length] at hahead
    exact followedUp_fetch (hver.fetch.mono (by omega)) hbuf (by omega)
  rw [receiveData_overran_iff hfull file (completePath path) hin₂]
  show (∃ len data, unread s₁ st.startIndex st.endIndex = _ ∧ _ ∧
    st.startIndex + 4 ≤ s₁.buf.length ∧ _ ∧
      ¬ FollowedUp s₁.buf.length (st.startIndex + 4 + _) _ _ _ s₁.socket) ↔ _
  rw [hbuf, hplace]
  constructor
  · rintro ⟨len, data, hrest, hlt, hroom, hmore, hnot⟩
    exact ⟨len, data, hrest, hlt, hroom, hmore, fun h => hnot ((hcuts len data hrest).mp h)⟩
  · rintro ⟨len, data, hrest, hlt, hroom, hmore, hnot⟩
    exact ⟨len, data, hrest, hlt, hroom, hmore, fun h => hnot ((hcuts len data hrest).mpr h)⟩

/-- **Where the arithmetic of `save_file` goes wrong.**  On every stream and segmentation, in
a buffer of any size and from any window: the task panics in it exactly where the stream
carries a request whose file is created, with something behind the announced data, and a cut
within the data that is not followed up. -/
theorem saveFile_overran_iff (hfull : host.FullWrites) (hin : InBuffer s startIndex endIndex) :
    (∃ msg, (saveFile host endIndex startIndex s).1 = .error (.panic msg) ∧ Overran msg) ↔
      ¬ NoOverrun host startIndex endIndex s := by
  have hnotAhead : (∀ path rest, ¬ PathAhead host s startIndex endIndex path rest) →
      NoOverrun host startIndex endIndex s :=
    fun h path len data hahead => absurd hahead (h path _)
  rcases hrun : saveFile host endIndex startIndex s with ⟨o, s'⟩
  cases saveFile_run host hin hrun with
  | notVerified e _ _ hnone =>
      refine ⟨?_, fun hnot => absurd (hnotAhead hnone) hnot⟩
      rintro ⟨msg, h, _⟩
      cases h
  | noParent path st _ hver hdir =>
      refine ⟨?_, fun hnot => absurd ?_ hnot⟩
      · rintro ⟨msg, h, hmsg⟩
        cases h
        revert hmsg
        simp [Overran, noParentMessage]
      · rintro path' len data hahead ⟨dir', file, hdir', _⟩
        obtain ⟨rfl, _⟩ := hver.ahead.unique hahead
        cases hdir.symm.trans hdir'
  | dirFailed path st s₁ dir e e' hver hdir hmk =>
      refine ⟨?_, fun hnot => absurd ?_ hnot⟩
      · rintro ⟨msg, h, _⟩
        cases h
      · rintro path' len data hahead ⟨dir', file, hdir', hmk', _⟩
        obtain ⟨rfl, _⟩ := hver.ahead.unique hahead
        obtain rfl := Option.some.inj (hdir.symm.trans hdir')
        rw [hver.reads.disk] at hmk
        cases hmk.symm.trans hmk'
  | createFailed path st s₁ dir e hver hdir hmk hcreate =>
      refine ⟨?_, fun hnot => absurd ?_ hnot⟩
      · rintro ⟨msg, h, _⟩
        cases h
      · rintro path' len data hahead ⟨dir', file, hdir', _, hcreate'⟩
        obtain ⟨rfl, _⟩ := hver.ahead.unique hahead
        obtain rfl := Option.some.inj (hdir.symm.trans hdir')
        have hdisk : (afterDir s₁ dir).disk = (s.disk.createDirAll dir).2 := by
          show (s₁.disk.createDirAll dir).2 = _
          rw [hver.reads.disk]
        rw [hdisk] at hcreate
        cases hcreate.symm.trans hcreate'
  | opened path st s₁ dir file _ _ hver hdir hmk hcreate hreceive =>
      have hoverran := receiveData_overran_iff_cuts hfull file dir hver
      have hcreatable : Creatable s.disk path := by
        refine ⟨dir, file, hdir, ?_, ?_⟩
        · rw [← hver.reads.disk]
          exact hmk
        · rw [← hver.reads.disk]
          exact hcreate
      rw [hreceive] at hoverran
      rw [hoverran]
      constructor
      · rintro ⟨len, data, hrest, hlt, hroom, hmore, hnot⟩ hno
        have hahead : PathAhead host s startIndex endIndex path
            (BigEndian.toBytes 4 len ++ data) := hrest ▸ hver.ahead
        exact hnot (hno path len data hahead hcreatable hlt hroom hmore)
      · intro hnot
        simp only [NoOverrun, not_forall] at hnot
        obtain ⟨path', len, data, hahead, _, hlt, hroom, hmore, hcut⟩ := hnot
        obtain ⟨rfl, _, hrest⟩ := hver.ahead.unique hahead
        exact ⟨len, data, hrest, hlt, hroom, hmore, hcut⟩

/-- **When the arithmetic of the receive loop is sound**: exactly on the streams without such a
cut. -/
theorem soundArithmetic_iff (hfull : host.FullWrites) (hin : InBuffer s startIndex endIndex) :
    SoundArithmetic host startIndex endIndex s ↔ NoOverrun host startIndex endIndex s := by
  have hoverran := saveFile_overran_iff hfull hin
  constructor
  · intro h
    by_contra hnot
    obtain ⟨msg, hpanic, hmsg⟩ := hoverran.mpr hnot
    exact h.noPanic msg hpanic hmsg
  · intro h
    refine ⟨?_, fun msg hpanic hmsg => hoverran.mp ⟨msg, hpanic, hmsg⟩ h⟩
    intro declared file v s' hhead
    obtain ⟨s₀, path, u, hstep, hempty, hoffset, _⟩ := hhead.inStep hfull hin
    have hlength := hstep.length
    exact ⟨hstep.inBuffer.ordered, hstep.inBuffer.fits, v.hasher.fed,
      hstep.stored.content hempty hoffset, by omega, by omega⟩

end

/-- A request for the file `a` with three bytes of data, the rest of it after the first. -/
def cutInData : SegStream UInt8 where
  segs := [(saveFrame ieeeHost [97] [1, 2, 3]).take 12, (saveFrame ieeeHost [97] [1, 2, 3]).drop 12]
  nonempty := by decide +kernel

theorem soundArithmetic_iff_cutInData :
    SoundArithmetic ieeeHost 0 0 (accepted cutInData savingDisk) ↔
      NoOverrun ieeeHost 0 0 (accepted cutInData savingDisk) :=
  soundArithmetic_iff ieeeHost_fullWrites ⟨le_rfl, Nat.zero_le _⟩

/-- A read that goes past the end of the data from the middle of the buffer makes the
subtraction behind the last chunk overflow. -/
theorem cutInData_overflows :
    ¬ ∀ (host : Host) (s : ServerState) (startIndex endIndex : ℕ), host.FullWrites →
      InBuffer s startIndex endIndex → SoundArithmetic host startIndex endIndex s := by
  intro h
  have hsound := h ieeeHost (accepted cutInData savingDisk) 0 0 ieeeHost_fullWrites
    ⟨le_rfl, Nat.zero_le _⟩
  exact hsound.noPanic "attempt to subtract with overflow" (by decide +kernel) (Or.inl rfl)

end Pcopy.Server
