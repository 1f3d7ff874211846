import Pcopy.Server.LoopArithmetic

/-!
# A short first write

The data that came with the fields goes to the file by `File::write`, which may take less
than the slice it is given, and the data of the loop by `write_all`, which may not.  The
code counts what `write` took off `file_data_length`, but feeds the hasher the whole slice
and moves `start_index` behind it.

* `saveFile_full` — with a first write that is not short, `save_file` runs as on a host
  whose writes never are;
* `recordsInStep_iff` — the records are in step exactly when the first write is not short.
-/

namespace Pcopy.Server

open Pcopy.Lib Pcopy.Path

/-- The records of progress stay in step in `save_file` started at `s`: at every head of the
data loop the bytes fed to the hasher are those in the file, with the bytes still to come
they make up what was announced, and behind them stands `start_index`; and an `Ok` means that
the file holds the whole data of a request. -/
structure RecordsInStep (host : Host) (startIndex endIndex : ℕ) (s : ServerState) : Prop where
  heads : ∀ declared file v s', AtHead host startIndex endIndex s declared file v s' →
    ∃ path content, s'.disk.fileAt file.loc = some content ∧ v.hasher.fed = content ∧
      content.length + v.fileDataLength = declared ∧
      PathAhead host s startIndex endIndex path
        (BigEndian.toBytes 4 declared ++ (content ++ unread s' v.startIndex v.endIndex))
  saved : ∀ st path s', saveFile host endIndex startIndex s = (.ok (st, path), s') →
    ∃ rel data, Saved host startIndex endIndex s rel data st path s'

/-- If `save_file`, started at `s`, comes to its first write, then `File::write` takes the whole
slice. -/
def FirstWriteWhole (host : Host) (startIndex endIndex : ℕ) (s : ServerState) : Prop :=
  ∀ declared file start e s', AtFirstWrite host startIndex endIndex s declared file start e s' →
    host.accept (min (start + declared) e - start) = min (start + declared) e - start

/-- The host with writes that are never short. -/
def Host.full (host : Host) : Host where
  crc := host.crc
  crc_nil := host.crc_nil
  accept := id
  accept_le := Nat.le_refl

theorem Host.full_fullWrites (host : Host) : host.full.FullWrites := fun _ => rfl

section

variable {host : Host} {s : ServerState} {startIndex endIndex : ℕ}

/-! ### What the first write does -/

/-- **The first chunk, whatever `File::write` takes of it.** -/
theorem firstChunk_takes (host : Host) (hin : InBuffer s startIndex endIndex) {len : ℕ}
    (hlt : len < 2 ^ 32) (file : FileHandle) {k : ℕ} (hk : k = min (startIndex + len) endIndex - startIndex) :
    firstChunk host file endIndex startIndex len s =
      (.ok {
        startIndex := startIndex + k
        endIndex := endIndex
        fileDataLength := len - host.accept k
        totalFileDataBytesRead := host.accept k
        hasher := Hasher.new.update (window s.buf startIndex (startIndex + k))
        file := file.advance (host.accept k) },
      afterWrite s file ((window s.buf startIndex (startIndex + k)).take (host.accept k))) := by
  have ho := hin.ordered
  have hle := host.accept_le k
  have hend : min (startIndex + len) endIndex = startIndex + k := by omega
  have hslice : slice startIndex (startIndex + k) s
      = (.ok (window s.buf startIndex (startIndex + k)), s) :=
    slice_run (Nat.le_add_right _ _) (by have hfit := hin.fits; omega)
  have hchunk : (window s.buf startIndex (startIndex + k)).length = k :=
    window_front_length hin (by omega)
  have htaken : ((window s.buf startIndex (startIndex + k)).take (host.accept k)).length
      = host.accept k := by
    rw [List.length_take, hchunk, Nat.min_eq_left hle]
  have hwrite : writeSome host file (window s.buf startIndex (startIndex + k)) s
      = (.ok (host.accept k, file.advance (host.accept k)),
        afterWrite s file ((window s.buf startIndex (startIndex + k)).take (host.accept k))) := by
    rw [writeSome, hchunk, Exec.bind_ok (writeAll_run _ _ _), htaken]
    rfl
  have hu : asU32 (host.accept k) = host.accept k := asU32_of_lt (by omega)
  rw [firstChunk]
  dsimp only
  rw [hend, Exec.bind_ok hslice, Exec.bind_ok hwrite]
  dsimp only
  rw [hu, Exec.bind_ok (checkedSub_run (by omega) _)]
  rfl

/-- A first write of the whole slice is that of a host whose writes are never short. -/
theorem firstChunk_full (hin : InBuffer s startIndex endIndex) {len : ℕ} (hlt : len < 2 ^ 32)
    (file : FileHandle) (hwhole : host.accept (min (startIndex + len) endIndex - startIndex)
      = min (startIndex + len) endIndex - startIndex) :
    firstChunk host file endIndex startIndex len s
      = firstChunk host.full file endIndex startIndex len s := by
  rw [firstChunk_takes host hin hlt file rfl, firstChunk_takes host.full hin hlt file rfl, hwhole]
  rfl

/-! ### A first write that is not short -/

theorem slice_state {a b : ℕ} {field : List UInt8} {s' : ServerState}
    (h : slice a b s = (.ok field, s')) : s' = s := by
  rw [slice] at h
  split at h <;> cases h
  rfl

theorem AtFirstWrite.full {declared : ℕ} {file : FileHandle} {start e : ℕ} {s' : ServerState} :
    AtFirstWrite host.full startIndex endIndex s declared file start e s' ↔
      AtFirstWrite host startIndex endIndex s declared file start e s' := Iff.rfl

/-- With a first write that is not short, the loop heads are those of a host whose writes
never are. -/
theorem AtHead.full (hin : InBuffer s startIndex endIndex)
    (hwhole : FirstWriteWhole host startIndex endIndex s) {declared : ℕ} {file : FileHandle}
    {v : DataLoop} {s' : ServerState} (h : AtHead host startIndex endIndex s declared file v s') :
    AtHead host.full startIndex endIndex s declared file v s' := by
  obtain ⟨start, e, s₁, v₀, s₂, hwrite, hfirst, hreach⟩ := AtHead.iff_firstWrite.mp h
  obtain ⟨hin₁, hlt, _⟩ := hwrite.opened hin
  rw [firstChunk_full hin₁ hlt file (hwhole _ _ _ _ _ hwrite)] at hfirst
  exact AtHead.iff_firstWrite.mpr
    ⟨start, e, s₁, v₀, s₂, AtFirstWrite.full.mpr hwrite, hfirst, hreach⟩

/-- **With a first write that is not short, `save_file` runs as on a host whose writes never
are.** -/
theorem saveFile_full (hin : InBuffer s startIndex endIndex)
    (hwhole : FirstWriteWhole host startIndex endIndex s) :
    saveFile host endIndex startIndex s = saveFile host.full endIndex startIndex s := by
  refine Exec.bind_congr (g := ?_) fun o s₁ hattempt => ?_
  match o with
  | .error _ => rfl
  | .ok (st, path) =>
      have hcpf := Exec.attempt_eq_ok hattempt
      refine Exec.bind_congr fun file s₂ hcreate => ?_
      refine Exec.bind_congr fun e s₃ hread => ?_
      refine Exec.bind_congr fun field s₄ hslice => ?_
      obtain rfl : s₄ = s₃ := slice_state hslice
      have hwrite : AtFirstWrite host startIndex endIndex s (BigEndian.ofBytes field) file
          (st.startIndex + 4) e s₄ :=
        ⟨st, path, s₁, s₂, field, hcpf, hcreate, hread, hslice, rfl, rfl⟩
      obtain ⟨hin₁, hlt, _⟩ := hwrite.opened hin
      have hfirst := firstChunk_takes host hin₁ hlt file rfl
      rw [Exec.bind_ok hfirst, Exec.bind_ok
        ((firstChunk_full hin₁ hlt file (hwhole _ _ _ _ _ hwrite)).symm.trans hfirst)]
      rfl

/-- What came off the stream does not depend on the writes. -/
theorem Saved.of_full {s' : ServerState} {rel data : List UInt8} {st : BufferState}
    {path : PathBytes} (h : Saved host.full startIndex endIndex s rel data st path s') :
    Saved host startIndex endIndex s rel data st path s' :=
  ⟨h.utf8, h.pathLength, h.dataLength, h.named, h.content, h.others, h.inBuffer, h.received,
    h.processed⟩

/-! ### When the records stay in step -/

/-- A short first write leaves the file behind the hasher. -/
theorem AtFirstWrite.whole (hin : InBuffer s startIndex endIndex)
    (hstep : RecordsInStep host startIndex endIndex s) {declared : ℕ} {file : FileHandle}
    {start e : ℕ} {s' : ServerState}
    (h : AtFirstWrite host startIndex endIndex s declared file start e s') :
    host.accept (min (start + declared) e - start) = min (start + declared) e - start := by
  obtain ⟨hin', hlt, _, hempty, hoffset, _⟩ := h.opened hin
  have ho := hin'.ordered
  generalize hk : min (start + declared) e - start = k
  have hfirst := firstChunk_takes host hin' hlt file hk.symm
  -- the head behind the first chunk
  obtain ⟨_, content, hfile, hfed, _⟩ := hstep.heads _ _ _ _
    (AtHead.iff_firstWrite.mpr ⟨start, e, s', _, _, h, hfirst, Reaches.here _ _⟩)
  have hstored := (stored_afterWrite s' file
    ((window s'.buf start (start + k)).take (host.accept k))).content hempty hoffset
  have hchunk : (window s'.buf start (start + k)).length = k :=
    window_front_length hin' (by omega)
  have htake : (window s'.buf start (start + k)).take (host.accept k)
      = window s'.buf start (start + k) :=
    (Option.some.inj (hstored.symm.trans hfile)).trans hfed.symm
  have hlen := congrArg List.length htake
  rw [List.length_take, hchunk] at hlen
  have hle := host.accept_le k
  omega

/-- **When the records of progress stay in step**: exactly when the first write of the data is
not short, whatever was announced, whatever came with the fields and however the stream is
cut. -/
theorem recordsInStep_iff (hin : InBuffer s startIndex endIndex) :
    RecordsInStep host startIndex endIndex s ↔ FirstWriteWhole host startIndex endIndex s := by
  constructor
  · intro hstep declared file start e s' hwrite
    exact hwrite.whole hin hstep
  · intro hwhole
    constructor
    · intro declared file v s' hhead
      obtain ⟨s₀, path, u, hstep, hempty, hoffset, hahead⟩ :=
        (hhead.full hin hwhole).inStep host.full_fullWrites hin
      refine ⟨path, v.hasher.fed, hstep.stored.content hempty hoffset, rfl, hstep.length, ?_⟩
      rw [← hstep.bytes]
      exact hahead
    · intro st path s' hrun
      rw [saveFile_full hin hwhole] at hrun
      obtain ⟨rel, data, hsaved⟩ := saveFile_sound host.full_fullWrites hin hrun
      exact ⟨rel, data, hsaved.of_full⟩

end

/-- A host whose `File::write` leaves the last byte of every slice out. -/
def shortHost : Host where
  crc := ieee
  crc_nil := ieee_nil
  accept := fun n => n - 1
  accept_le := fun n => Nat.sub_le n 1

/-- A request for the file `a` with three bytes of data, in one piece. -/
def wholeRequest : SegStream UInt8 where
  segs := [saveFrame ieeeHost [97] [1, 2, 3]]
  nonempty := by decide +kernel

theorem recordsInStep_iff_wholeRequest :
    RecordsInStep shortHost 0 0 (accepted wholeRequest savingDisk) ↔
      FirstWriteWhole shortHost 0 0 (accepted wholeRequest savingDisk) :=
  recordsInStep_iff ⟨le_rfl, Nat.zero_le _⟩

/-- When `File::write` takes two of the three bytes, `save_file` answers `Ok` with a file of
two. -/
theorem wholeRequest_stored_short :
    ¬ ∀ (host : Host) (s : ServerState) (startIndex endIndex : ℕ),
      InBuffer s startIndex endIndex → RecordsInStep host startIndex endIndex s := by
  intro h
  have hrun : ((saveFile shortHost 0 0 (accepted wholeRequest savingDisk)).1,
      (saveFile shortHost 0 0 (accepted wholeRequest savingDisk)).2.disk.fileAt
        (destination (completePath [97])))
      = (.ok (⟨18, 18⟩, completePath [97]), some [1, 2]) := by decide +kernel
  obtain ⟨hok, hfile⟩ := Prod.mk.inj hrun
  obtain ⟨rel, data, hsaved⟩ := (h shortHost (accepted wholeRequest savingDisk) 0 0
    ⟨le_rfl, Nat.zero_le _⟩).saved _ _ _ (Exec.run_eq hok)
  -- the data of the request are three bytes, the file has two
  have hbytes : saveFrame shortHost [97] [1, 2, 3] ++ []
      = saveFrame shortHost rel data ++ _ := hsaved.unread_eq
  simp only [saveFrame, List.append_assoc] at hbytes
  obtain ⟨_, hdata⟩ := pathFrame_inj (by decide) hsaved.pathLength hbytes
  have hsame : [1, 2, 3] = data := dataFrame_inj (by decide) hsaved.dataLength hdata
  have hfound := hfile.symm.trans hsaved.content
  rw [← hsame] at hfound
  cases Option.some.inj hfound

end Pcopy.Server
