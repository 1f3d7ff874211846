import Pcopy.Server.Footprint

/-!
# The data loop keeps its records in step

The loop has three records of its progress: the bytes fed to the hasher, the bytes in the
file, and `file_data_length`, the count still to come.  `InStep` says that they agree with
each other and with what has been taken off the stream, and that the loop has caught up:
data is missing only when the window is empty.

* `dataTurn_starved`, `dataTurn_middle`, `dataTurn_last`, `dataTurn_overrun` — the four
  things a turn can do, told apart by the count its read returns;
* `InStep.store`, `dataTurn_ensures` — storing a chunk keeps the records in step, and so does
  a turn;
* `dataLoop_ensures` — the loop ends with all the data, or starved, or in the panic of a
  last chunk.
-/

namespace Pcopy.Server

open Pcopy.Lib Pcopy.Path

/-! ### What one turn does -/

/-- The variables after a chunk of `k` bytes was stored, the window ending at `endIndex`. -/
def DataLoop.store (v : DataLoop) (endIndex k : ℕ) (chunk : List UInt8) : DataLoop where
  startIndex := v.startIndex + k
  endIndex := endIndex
  fileDataLength := v.fileDataLength - k
  totalFileDataBytesRead := v.totalFileDataBytesRead + k
  hasher := v.hasher.update chunk
  file := v.file.advance chunk.length

theorem asU32_of_lt {n : ℕ} (h : n < 2 ^ 32) : asU32 n = n := Nat.mod_eq_of_lt h

theorem rewind_fits {s : ServerState} {v : DataLoop}
    (hin : InBuffer s v.startIndex v.endIndex) :
    InBuffer s (rewind s.buf.length v).startIndex (rewind s.buf.length v).endIndex := by
  unfold rewind
  split
  · exact ⟨le_rfl, Nat.zero_le _⟩
  · exact hin

theorem rewind_caughtUp (bufLen : ℕ) {v : DataLoop} (h : v.startIndex = v.endIndex) :
    (rewind bufLen v).startIndex = (rewind bufLen v).endIndex := by
  unfold rewind
  split
  · rfl
  · exact h

@[simp] theorem rewind_fileDataLength (bufLen : ℕ) (v : DataLoop) :
    (rewind bufLen v).fileDataLength = v.fileDataLength := by
  unfold rewind
  split <;> rfl

@[simp] theorem rewind_hasher (bufLen : ℕ) (v : DataLoop) :
    (rewind bufLen v).hasher = v.hasher := by
  unfold rewind
  split <;> rfl

/-- After the rewind there is room, so that an empty read means the end of the stream. -/
theorem rewind_lt {s : ServerState} {v : DataLoop} (hin : InBuffer s v.startIndex v.endIndex)
    (hcaught : v.startIndex = v.endIndex) (hbuf : 0 < s.buf.length) :
    (rewind s.buf.length v).endIndex < s.buf.length := by
  have hfit := hin.fits
  unfold rewind
  split
  · exact hbuf
  · omega

section Turn

variable {s : ServerState} {v w : DataLoop}

/-- The chunk of `k` bytes that a turn takes after its read. -/
def turnChunk (s : ServerState) (w : DataLoop) (k : ℕ) : List UInt8 :=
  window (afterRead s w.endIndex).buf w.startIndex (w.startIndex + k)

/-- The variables after a turn that stored `k` bytes. -/
def turnStore (s : ServerState) (w : DataLoop) (k : ℕ) : DataLoop :=
  w.store (w.endIndex + readCount s w.endIndex) k (turnChunk s w k)

/-- The state after a turn that stored `k` bytes. -/
def turnState (s : ServerState) (w : DataLoop) (k : ℕ) : ServerState :=
  afterWrite (afterRead s w.endIndex) w.file (turnChunk s w k)

/-- A turn whose read returns nothing. -/
theorem dataTurn_starved (hw : rewind s.buf.length v = w)
    (hin : InBuffer s w.startIndex w.endIndex) (hn : readCount s w.endIndex = 0) :
    ∃ e, dataTurn v s = (.error (.err e), afterRead s w.endIndex) := by
  rw [dataTurn, Exec.get_bind, hw, Exec.bind_ok (readData_run hin.fits), if_pos hn,
    Exec.bind_ok (checkedSub_run hin.ordered _)]
  exact ⟨_, rfl⟩

/-- The slice a turn takes lies within the buffer. -/
theorem turnSlice_run (hin : InBuffer s w.startIndex w.endIndex) {k : ℕ}
    (hk : w.startIndex + k ≤ w.endIndex + readCount s w.endIndex) :
    slice w.startIndex (w.startIndex + k) (afterRead s w.endIndex)
      = (.ok (turnChunk s w k), afterRead s w.endIndex) :=
  slice_run (Nat.le_add_right _ _) (hk.trans (inBuffer_afterRead hin).fits)

/-- A turn whose read returns data only. -/
theorem dataTurn_middle (hw : rewind s.buf.length v = w)
    (hin : InBuffer s w.startIndex w.endIndex) (hcaught : w.startIndex = w.endIndex)
    (hlt : w.fileDataLength < 2 ^ 32) (hn : readCount s w.endIndex ≠ 0)
    (hle : readCount s w.endIndex ≤ w.fileDataLength) :
    dataTurn v s = (.ok (turnStore s w (readCount s w.endIndex)),
      turnState s w (readCount s w.endIndex)) := by
  have hslice := turnSlice_run hin (k := readCount s w.endIndex) (by omega)
  have hend : w.endIndex + readCount s w.endIndex = w.startIndex + readCount s w.endIndex := by
    rw [hcaught]
  have hu : asU32 (readCount s w.endIndex) = readCount s w.endIndex := asU32_of_lt (by omega)
  rw [dataTurn, Exec.get_bind, hw, Exec.bind_ok (readData_run hin.fits), if_neg hn]
  rw [if_neg (by omega), middleChunk]
  dsimp only
  rw [hend, Exec.bind_ok hslice, Exec.bind_ok (writeAll_run _ _ _), hu,
    Exec.bind_ok (checkedSub_run hle _), Exec.pure_run, turnStore, hend]
  rfl

/-- A turn whose read goes past the end of the data, from where the subtraction that
follows comes out as `0`. -/
theorem dataTurn_last (hw : rewind s.buf.length v = w)
    (hin : InBuffer s w.startIndex w.endIndex) (hcaught : w.startIndex = w.endIndex)
    (hlt : w.fileDataLength < readCount s w.endIndex)
    (hzero : asU32 (w.startIndex + w.fileDataLength) = w.fileDataLength) :
    dataTurn v s = (.ok (turnStore s w w.fileDataLength),
      turnState s w w.fileDataLength) := by
  have hslice := turnSlice_run hin (k := w.fileDataLength) (by omega)
  rw [dataTurn, Exec.get_bind, hw, Exec.bind_ok (readData_run hin.fits), if_neg (by omega),
    if_pos (by omega), lastChunk]
  dsimp only
  rw [Exec.bind_ok hslice, Exec.bind_ok (writeAll_run _ _ _), hzero,
    Exec.bind_ok (checkedSub_run le_rfl _), if_pos (Nat.sub_self _), Exec.pure_run]
  rfl

/-- What the task panics with when the subtraction behind the last chunk goes wrong. -/
def Overran (msg : String) : Prop :=
  msg = "attempt to subtract with overflow" ∨ msg = "assertion failed: file_data_length == 0"

/-- A turn whose read goes past the end of the data, from anywhere else: the subtraction
overflows, or leaves what the assertion after it refuses. -/
theorem dataTurn_overrun (hw : rewind s.buf.length v = w)
    (hin : InBuffer s w.startIndex w.endIndex) (hcaught : w.startIndex = w.endIndex)
    (hlt : w.fileDataLength < readCount s w.endIndex)
    (hzero : asU32 (w.startIndex + w.fileDataLength) ≠ w.fileDataLength) :
    ∃ msg, Overran msg ∧
      dataTurn v s = (.error (.panic msg), turnState s w w.fileDataLength) := by
  have hslice := turnSlice_run hin (k := w.fileDataLength) (by omega)
  rw [dataTurn, Exec.get_bind, hw, Exec.bind_ok (readData_run hin.fits), if_neg (by omega),
    if_pos (by omega), lastChunk]
  dsimp only
  rw [Exec.bind_ok hslice, Exec.bind_ok (writeAll_run _ _ _)]
  by_cases hle : asU32 (w.startIndex + w.fileDataLength) ≤ w.fileDataLength
  · rw [Exec.bind_ok (checkedSub_run hle _), if_neg (by omega)]
    exact ⟨_, Or.inr rfl, rfl⟩
  · rw [checkedSub, if_neg hle]
    exact ⟨_, Or.inl rfl, rfl⟩

end Turn

/-! ### The records -/

/-- The records of the loop agree: of the `len` bytes of data at the front of `u`, those
fed to the hasher are in the file and off the stream, and the rest is still to come. -/
structure InStep (file : FileHandle) (s₀ : ServerState) (len : ℕ) (u : List UInt8)
    (v : DataLoop) (s : ServerState) : Prop where
  inBuffer : InBuffer s v.startIndex v.endIndex
  stored : Stored file v.hasher.fed s₀ s
  handle : v.file = file.advance v.hasher.fed.length
  initial : v.hasher.initial = 0
  length : v.hasher.fed.length + v.fileDataLength = len
  bytes : u = v.hasher.fed ++ unread s v.startIndex v.endIndex
  caughtUp : v.fileDataLength = 0 ∨ v.startIndex = v.endIndex

section Records

variable {file : FileHandle} {s₀ s : ServerState} {len : ℕ} {u : List UInt8} {v w : DataLoop}

theorem InStep.caught (h : InStep file s₀ len u v s) (hmore : 0 < v.fileDataLength) :
    v.startIndex = v.endIndex := by
  rcases h.caughtUp with h0 | h0
  · omega
  · exact h0

/-- The rewind keeps the records in step. -/
theorem InStep.rewind (h : InStep file s₀ len u v s) (hmore : 0 < v.fileDataLength) :
    InStep file s₀ len u (rewind s.buf.length v) s := by
  have hcaught := h.caught hmore
  have hcaught' := rewind_caughtUp s.buf.length hcaught
  refine ⟨rewind_fits h.inBuffer, ?_, ?_, ?_, ?_, ?_, Or.inr hcaught'⟩
  · simpa using h.stored
  · simpa using h.handle
  · simpa using h.initial
  · simpa using h.length
  · have hbytes := h.bytes
    rw [hcaught, unread_caughtUp] at hbytes
    rw [hcaught', unread_caughtUp, rewind_hasher]
    exact hbytes

/-- Reading the end of the stream keeps the records in step. -/
theorem InStep.starve (h : InStep file s₀ len u w s) (hcaught : w.startIndex = w.endIndex)
    (hn : readCount s w.endIndex = 0) : InStep file s₀ len u w (afterRead s w.endIndex) := by
  have hin := inBuffer_afterRead h.inBuffer
  have hun := unread_afterRead h.inBuffer
  rw [hn, Nat.add_zero] at hin hun
  have hreads := (reads_afterRead h.inBuffer.fits).stored (file.advance w.hasher.fed.length)
  refine ⟨hin, ?_, h.handle, h.initial, h.length, ?_, Or.inr hcaught⟩
  · simpa using h.stored.trans hreads
  · rw [hun, ← h.bytes]

/-- **Storing a chunk keeps the records in step**: the whole of what was read, or all the
data that was missing. -/
theorem InStep.store (h : InStep file s₀ len u w s) (hcaught : w.startIndex = w.endIndex)
    {k : ℕ} (hdata : k ≤ w.fileDataLength) (hread : k ≤ readCount s w.endIndex)
    (hall : k = w.fileDataLength ∨ k = readCount s w.endIndex) :
    InStep file s₀ len u (turnStore s w k) (turnState s w k) := by
  have hin := inBuffer_afterRead h.inBuffer
  have hk : w.startIndex + k ≤ w.endIndex + readCount s w.endIndex := by omega
  have hlen : (turnChunk s w k).length = k := window_front_length hin hk
  have hreads := (reads_afterRead h.inBuffer.fits).stored (file.advance w.hasher.fed.length)
  have hwrite := stored_afterWrite (afterRead s w.endIndex) w.file (turnChunk s w k)
  rw [h.handle] at hwrite
  refine ⟨⟨hk, hin.fits⟩, ?_, ?_, h.initial, ?_, ?_, ?_⟩
  · have hstored := (h.stored.trans (hreads.trans hwrite))
    rw [List.nil_append, ← h.handle] at hstored
    exact hstored
  · show w.file.advance _ = file.advance (w.hasher.fed ++ turnChunk s w k).length
    rw [h.handle, advance_advance, List.length_append]
  · show (w.hasher.fed ++ turnChunk s w k).length + (w.fileDataLength - k) = len
    have hl := h.length
    rw [List.length_append, hlen]
    omega
  · show u = (w.hasher.fed ++ turnChunk s w k) ++ _
    rw [h.bytes, ← unread_afterRead h.inBuffer, slice_front _ hk, List.append_assoc]
    rfl
  · show w.fileDataLength - k = 0 ∨ w.startIndex + k = w.endIndex + readCount s w.endIndex
    rcases hall with rfl | rfl
    · exact Or.inl (Nat.sub_self _)
    · exact Or.inr (by omega)

theorem socket_turnState_lt (s : ServerState) (w : DataLoop) (k : ℕ)
    (hn : readCount s w.endIndex ≠ 0) :
    (turnState s w k).socket.elems.length < s.socket.elems.length := by
  have hsum := socket_afterRead_length s w.endIndex
  show (afterRead s w.endIndex).socket.elems.length < _
  omega

/-! ### The loop -/

/-- With no data missing the loop is over. -/
theorem dataLoopFuel_done {v : DataLoop} {fuel : ℕ} (hfuel : 0 < fuel)
    (hordered : v.startIndex ≤ v.endIndex) (hdone : v.fileDataLength = 0) (s : ServerState) :
    dataLoopFuel fuel v s = (.ok v, s) := by
  obtain ⟨fuel', rfl⟩ : ∃ fuel', fuel = fuel' + 1 := ⟨fuel - 1, by omega⟩
  rw [dataLoopFuel, Exec.bind_ok (checkedSub_run hordered s), if_neg (by omega)]
  rfl

/-- How a turn ends while data is missing: with the records in step, or starved, or in the
panic of a last chunk, behind which there is more on the stream. -/
def TurnPost (file : FileHandle) (s₀ : ServerState) (len : ℕ) (u : List UInt8) (s : ServerState) :
    Except (Fault IoError) DataLoop → ServerState → Prop
  | .ok v, s' => InStep file s₀ len u v s' ∧ s'.socket.elems.length < s.socket.elems.length ∧
      s'.buf.length = s.buf.length
  | .error (.err _), s' => ∃ v, InStep file s₀ len u v s' ∧ 0 < v.fileDataLength ∧
      unread s' v.startIndex v.endIndex = []
  | .error (.panic msg), _ => Overran msg ∧ len < u.length
  | .error .outOfFuel, _ => False

/-- **A turn keeps the records in step.** -/
theorem dataTurn_ensures (hlt : len < 2 ^ 32) (hbuf : 0 < s.buf.length)
    (h : InStep file s₀ len u v s) (hmore : 0 < v.fileDataLength) :
    (dataTurn v).Ensures s (TurnPost file s₀ len u s) := by
  have hw := h.rewind hmore
  have hcaught := rewind_caughtUp s.buf.length (h.caught hmore)
  have hroom := rewind_lt h.inBuffer (h.caught hmore) hbuf
  have hfdl := hw.length
  generalize hwv : Server.rewind s.buf.length v = w at hw hcaught hroom hfdl
  have hwmore : 0 < w.fileDataLength := by
    rw [← hwv, rewind_fileDataLength]
    exact hmore
  by_cases hn : readCount s w.endIndex = 0
  · -- starved
    obtain ⟨e, hrun⟩ := dataTurn_starved hwv hw.inBuffer hn
    rw [Exec.Ensures, hrun]
    refine ⟨w, hw.starve hcaught hn, hwmore, ?_⟩
    rw [hcaught, unread_caughtUp]
    have hsum := socket_afterRead_length s w.endIndex
    rcases (readCount_eq_zero_iff hw.inBuffer.fits).mp hn with hfull | hend
    · omega
    · rw [hend, List.length_nil] at hsum
      exact List.length_eq_zero_iff.mp (Nat.eq_zero_of_add_eq_zero_right hsum)
  · have hsock := fun k => socket_turnState_lt s w k hn
    have hlen : ∀ k, (turnState s w k).buf.length = s.buf.length :=
      fun _ => bufLen_afterRead hw.inBuffer.fits
    by_cases hle : readCount s w.endIndex ≤ w.fileDataLength
    · -- data only
      rw [Exec.Ensures, dataTurn_middle hwv hw.inBuffer hcaught (by omega) hn hle]
      exact ⟨hw.store hcaught hle le_rfl (Or.inr rfl), hsock _, hlen _⟩
    · by_cases hzero : asU32 (w.startIndex + w.fileDataLength) = w.fileDataLength
      · -- the last chunk
        rw [Exec.Ensures, dataTurn_last hwv hw.inBuffer hcaught (by omega) hzero]
        exact ⟨hw.store hcaught le_rfl (by omega) (Or.inl rfl), hsock _, hlen _⟩
      · obtain ⟨msg, hmsg, hrun⟩ := dataTurn_overrun hwv hw.inBuffer hcaught (by omega) hzero
        rw [Exec.Ensures, hrun]
        refine ⟨hmsg, ?_⟩
        have hbytes := congrArg List.length hw.bytes
        have hsum := socket_afterRead_length s w.endIndex
        rw [List.length_append, unread_length hw.inBuffer] at hbytes
        omega

/-- How the data loop ends: with all the data, or starved with some of it, or in the panic
of a last chunk. -/
def LoopPost (file : FileHandle) (s₀ : ServerState) (len : ℕ) (u : List UInt8) :
    Except (Fault IoError) DataLoop → ServerState → Prop
  | .ok v, s => InStep file s₀ len u v s ∧ v.fileDataLength = 0
  | .error (.err _), s => ∃ v, InStep file s₀ len u v s ∧ 0 < v.fileDataLength ∧
      unread s v.startIndex v.endIndex = []
  | .error (.panic _), _ => True
  | .error .outOfFuel, _ => False

theorem dataLoopFuel_ensures (hlt : len < 2 ^ 32) (fuel : ℕ) :
    ∀ (v : DataLoop) (s : ServerState), s.socket.elems.length < fuel → 0 < s.buf.length →
      InStep file s₀ len u v s →
      (dataLoopFuel fuel v).Ensures s (LoopPost file s₀ len u) := by
  induction fuel with
  | zero => intro v s hfuel; omega
  | succ fuel ih =>
      intro v s hfuel hbuf h
      rw [dataLoopFuel]
      refine Exec.Ensures.step (checkedSub_run h.inBuffer.ordered s) ?_
      split
      · refine Exec.Ensures.bind ((dataTurn_ensures hlt hbuf h (by omega)).mono ?_)
        intro o s' hturn
        match o with
        | .ok v' =>
            exact ih v' s' (by have := hturn.2.1; omega) (by rw [hturn.2.2]; exact hbuf) hturn.1
        | .error (.err _) => exact hturn
        | .error (.panic _) => exact trivial
        | .error .outOfFuel => exact hturn
      · rename_i hdone
        have hz : v.fileDataLength = 0 := by
          rcases h.caughtUp with h0 | h0
          · exact h0
          · omega
        exact Exec.Ensures.pure ⟨h, hz⟩

/-- **The data loop keeps its records in step** and never runs out of turns. -/
theorem dataLoop_ensures (hlt : len < 2 ^ 32) (hbuf : 0 < s.buf.length)
    (h : InStep file s₀ len u v s) : (dataLoop v).Ensures s (LoopPost file s₀ len u) :=
  dataLoopFuel_ensures hlt _ v s (Nat.lt_succ_self _) hbuf h

/-- **The loop panics only in a last chunk**, with more on the stream than the data. -/
theorem dataLoopFuel_panics (hlt : len < 2 ^ 32) (fuel : ℕ) :
    ∀ (v : DataLoop) (s : ServerState), 0 < s.buf.length → InStep file s₀ len u v s →
      ∀ msg s', dataLoopFuel fuel v s = (.error (.panic msg), s') →
        Overran msg ∧ len < u.length := by
  induction fuel with
  | zero => intro v s _ _ msg s' hrun; cases hrun
  | succ fuel ih =>
      intro v s hbuf h msg s' hrun
      rw [dataLoopFuel, Exec.bind_ok (checkedSub_run h.inBuffer.ordered s)] at hrun
      split at hrun
      · have hturn := dataTurn_ensures hlt hbuf h (by omega)
        rcases Exec.bind_cases hrun with ⟨v', s₁, hfirst, hrest⟩ | ⟨φ, hfirst, hφ⟩
        · obtain ⟨hstep, _, hlen⟩ := hturn.of_run hfirst
          exact ih v' s₁ (by omega) hstep msg s' hrest
        · cases hφ
          exact hturn.of_run hfirst
      · cases hrun

end Records

/-! ### The first chunk -/

/-- The data that came with the fields puts the records in step, when the write takes the
whole of it. -/
theorem firstChunk_run {host : Host} (hfull : host.FullWrites) {s : ServerState}
    {startIndex endIndex len : ℕ} (hin : InBuffer s startIndex endIndex) (hlt : len < 2 ^ 32)
    (file : FileHandle) :
    ∃ v s', firstChunk host file endIndex startIndex len s = (.ok v, s') ∧
      InStep file s len (unread s startIndex endIndex) v s' ∧
      v.startIndex = min (startIndex + len) endIndex ∧ v.endIndex = endIndex ∧
      s'.socket = s.socket ∧ s'.buf = s.buf := by
  have ho := hin.ordered
  have hfit := hin.fits
  obtain ⟨k, hk⟩ : ∃ k, min (startIndex + len) endIndex = startIndex + k :=
    ⟨min (startIndex + len) endIndex - startIndex, by omega⟩
  have hkle : startIndex + k ≤ endIndex := by omega
  have hchunk := window_front_length hin hkle
  have hslice : slice startIndex (startIndex + k) s
      = (.ok (window s.buf startIndex (startIndex + k)), s) :=
    slice_run (Nat.le_add_right _ _) (hkle.trans hfit)
  generalize hc : window s.buf startIndex (startIndex + k) = chunk at hchunk hslice
  have hwrite : writeSome host file chunk s
      = (.ok (k, file.advance k), afterWrite s file chunk) := by
    rw [writeSome, hfull, hchunk, List.take_of_length_le (le_of_eq hchunk),
      Exec.bind_ok (writeAll_run _ _ _), hchunk, Exec.pure_run]
  have hrun : firstChunk host file endIndex startIndex len s =
      (.ok (DataLoop.mk (startIndex + k) endIndex (len - k) k (Hasher.new.update chunk)
        (file.advance k)), afterWrite s file chunk) := by
    rw [firstChunk]
    dsimp only
    rw [hk, Exec.bind_ok hslice, Exec.bind_ok hwrite]
    dsimp only
    rw [asU32_of_lt (by omega), Exec.bind_ok (checkedSub_run (by omega) _), Exec.pure_run]
  refine ⟨_, _, hrun, ⟨⟨hkle, hfit⟩, stored_afterWrite s file chunk, ?_, rfl, ?_, ?_, ?_⟩,
    hk.symm, rfl, rfl, rfl⟩
  · show file.advance k = file.advance chunk.length
    rw [hchunk]
  · show chunk.length + (len - k) = len
    omega
  · show unread s startIndex endIndex = chunk ++ _
    rw [slice_front s hkle, hc]
    rfl
  · show len - k = 0 ∨ startIndex + k = endIndex
    omega

end Pcopy.Server
