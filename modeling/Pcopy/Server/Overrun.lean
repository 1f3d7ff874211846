import Pcopy.Lib.BufferedReads
import Pcopy.Server.DataLoop

/-!
# Where the data loop panics

The last chunk is stored without a panic only from an index that `start_index as u32` turns
into 0, in any buffer of less than 4 GiB only from the start of the buffer.  The loop
therefore panics exactly if the read that goes past the end of the data starts anywhere
else, and where a read starts is decided by the cuts of the stream and the size of the
buffer (`FollowedUp`).

* `dataLoopFuel_ends` — the loop on a stream that holds the missing data;
* `receiveData_enters` — how `save_file` comes to the loop;
* `Enters.dataLoop_ends` — what the loop then does, by the cuts of the stream as it was before
  the fields in front of the data were read.
-/

namespace Pcopy.Server

open Pcopy.Lib Pcopy.Path

/-- An index that does not become 0 as a `u32`. -/
def Misplaced (i : ℕ) : Prop := ¬ 2 ^ 32 ∣ i

theorem not_misplaced_zero : ¬ Misplaced 0 := fun h => h (dvd_zero _)

/-- The subtraction behind the last chunk comes out as 0 exactly from an index that is not
misplaced. -/
theorem asU32_add_eq_iff {i len : ℕ} (hlen : len < 2 ^ 32) :
    asU32 (i + len) = len ↔ ¬ Misplaced i := by
  rw [Misplaced, not_not, asU32]
  constructor
  · intro h
    omega
  · rintro ⟨q, rfl⟩
    rw [Nat.mul_add_mod, Nat.mod_eq_of_lt hlen]

/-- The window of the loop in the stream: `total` is the place of the end of the stream, and
so many times the buffer has been used up. -/
def Placed (N total : ℕ) (v : DataLoop) (s : ServerState) : Prop :=
  ∃ k, total = N * k + v.endIndex + s.socket.elems.length

theorem Placed.rewind {N total : ℕ} {v : DataLoop} {s : ServerState} (h : Placed N total v s)
    (hcaught : v.startIndex = v.endIndex) : Placed N total (rewind N v) s := by
  obtain ⟨k, hk⟩ := h
  unfold Server.rewind
  split
  · rename_i hfull
    refine ⟨k + 1, ?_⟩
    show total = N * (k + 1) + 0 + s.socket.elems.length
    rw [Nat.mul_succ]
    omega
  · exact ⟨k, hk⟩

theorem Placed.turn {N total : ℕ} {w : DataLoop} {s : ServerState} (h : Placed N total w s)
    (k : ℕ) : Placed N total (turnStore s w k) (turnState s w k) := by
  obtain ⟨j, hj⟩ := h
  have hsum := socket_afterRead_length s w.endIndex
  refine ⟨j, ?_⟩
  show total = N * j + (w.endIndex + readCount s w.endIndex)
    + (afterRead s w.endIndex).socket.elems.length
  omega

/-! ### A turn of the loop -/

/-- A turn: nothing buffered is left to store, and the stream holds the missing data and
`rest` bytes more. -/
structure AtTurn (N total rest hi : ℕ) (v : DataLoop) (s : ServerState) : Prop where
  bufLen : s.buf.length = N
  roomy : 0 < N
  inBuffer : InBuffer s v.startIndex v.endIndex
  caughtUp : v.startIndex = v.endIndex
  missing : 0 < v.fileDataLength
  lt : v.fileDataLength < 2 ^ 32
  ahead : s.socket.elems.length = v.fileDataLength + rest
  upTo : s.socket.elems.length ≤ hi
  placed : Placed N total v s

section

variable {N total rest hi : ℕ} {v w : DataLoop} {s : ServerState}

/-- The buffer is rewound where it is used up, and then has room. -/
theorem AtTurn.rewind (h : AtTurn N total rest hi v s) :
    AtTurn N total rest hi (rewind N v) s ∧ (rewind N v).endIndex < N := by
  have hin := rewind_fits h.inBuffer
  have hroom := rewind_lt h.inBuffer h.caughtUp (by rw [h.bufLen]; exact h.roomy)
  have hlength := rewind_fileDataLength N v
  rw [h.bufLen] at hin hroom
  refine ⟨⟨h.bufLen, h.roomy, hin, rewind_caughtUp N h.caughtUp, ?_, ?_, ?_, h.upTo,
    h.placed.rewind h.caughtUp⟩, hroom⟩
  · rw [hlength]
    exact h.missing
  · rw [hlength]
    exact h.lt
  · rw [hlength]
    exact h.ahead

/-- With room in the buffer a read returns something. -/
theorem AtTurn.reads (h : AtTurn N total rest hi w s) (hroom : w.endIndex < N) :
    readCount s w.endIndex ≠ 0 := by
  have hahead := h.ahead
  have hmissing := h.missing
  rw [Ne, readCount_eq_zero_iff h.inBuffer.fits, h.bufLen]
  rintro (h0 | h0)
  · omega
  · rw [h0, List.length_nil] at hahead
    omega

theorem AtTurn.socket_afterRead (h : AtTurn N total rest hi w s) :
    (afterRead s w.endIndex).socket = (s.socket.read (N - w.endIndex)).2 := by
  rw [← h.bufLen]
  rfl

/-- A read of some of the missing data leads to the next turn. -/
theorem AtTurn.next (h : AtTurn N total rest hi w s)
    (hless : readCount s w.endIndex < w.fileDataLength) :
    AtTurn N total rest hi (turnStore s w (readCount s w.endIndex))
      (turnState s w (readCount s w.endIndex)) := by
  have hsum := socket_afterRead_length s w.endIndex
  have hahead := h.ahead
  have hupTo := h.upTo
  have hbuf : (afterRead s w.endIndex).buf.length = N := by
    rw [bufLen_afterRead h.inBuffer.fits, h.bufLen]
  have hcaught : w.startIndex + readCount s w.endIndex = w.endIndex + readCount s w.endIndex := by
    rw [h.caughtUp]
  refine ⟨hbuf, h.roomy, ⟨hcaught.le, (inBuffer_afterRead h.inBuffer).fits⟩, hcaught,
    Nat.sub_pos_of_lt hless, (Nat.sub_le _ _).trans_lt h.lt, ?_, ?_, h.placed.turn _⟩
  · show (afterRead s w.endIndex).socket.elems.length
      = w.fileDataLength - readCount s w.endIndex + rest
    omega
  · show (afterRead s w.endIndex).socket.elems.length ≤ hi
    omega

/-- With all the missing data stored the loop is over, behind the data. -/
theorem AtTurn.done (h : AtTurn N total rest hi w s)
    (hall : w.fileDataLength ≤ readCount s w.endIndex) {fuel : ℕ} (hfuel : 0 < fuel) :
    ∃ v' s' k, dataLoopFuel fuel (turnStore s w w.fileDataLength)
        (turnState s w w.fileDataLength) = (.ok v', s') ∧
      1 ≤ v'.startIndex ∧ v'.startIndex ≤ N ∧ total = N * k + v'.startIndex + rest := by
  obtain ⟨k, hk⟩ := h.placed
  have hcount := readCount_le h.inBuffer.fits
  have hcaught := h.caughtUp
  have hahead := h.ahead
  have hmissing := h.missing
  rw [h.bufLen] at hcount
  refine ⟨_, _, k, dataLoopFuel_done hfuel ?_ (Nat.sub_self _) _, ?_, ?_, ?_⟩
  · show w.startIndex + w.fileDataLength ≤ w.endIndex + readCount s w.endIndex
    omega
  · show 1 ≤ w.startIndex + w.fileDataLength
    omega
  · show w.startIndex + w.fileDataLength ≤ N
    omega
  · show total = N * k + (w.startIndex + w.fileDataLength) + rest
    omega

/-- What the loop does on a stream with the missing data and `rest` bytes more. -/
theorem dataLoopFuel_ends (fuel : ℕ) :
    ∀ (v : DataLoop) (s : ServerState), s.socket.elems.length < fuel →
      AtTurn N total rest hi v s →
      (FollowedUp N total Misplaced rest hi s.socket →
        ∃ v' s' k, dataLoopFuel fuel v s = (.ok v', s') ∧ 1 ≤ v'.startIndex ∧
          v'.startIndex ≤ N ∧ total = N * k + v'.startIndex + rest) ∧
      (¬ FollowedUp N total Misplaced rest hi s.socket →
        ∃ msg s', Overran msg ∧ dataLoopFuel fuel v s = (.error (.panic msg), s')) := by
  induction fuel with
  | zero => intro v s hfuel; omega
  | succ fuel ih =>
      intro v s hfuel h
      have hloop : v.endIndex - v.startIndex < v.fileDataLength := by
        rw [h.caughtUp, Nat.sub_self]
        exact h.missing
      rw [dataLoopFuel, Exec.bind_ok (checkedSub_run h.inBuffer.ordered s), if_pos hloop]
      obtain ⟨hw, hroom⟩ := h.rewind
      have hwv : rewind s.buf.length v = rewind N v := by rw [h.bufLen]
      generalize rewind N v = w at hw hroom hwv
      obtain ⟨k, hk⟩ := hw.placed
      have hne := hw.reads hroom
      have hahead := hw.ahead
      have hmissing := hw.missing
      have hsum := socket_afterRead_length s w.endIndex
      rw [hw.socket_afterRead] at hsum
      rcases Nat.lt_trichotomy (readCount s w.endIndex) w.fileDataLength with hless | hall | hpast
      · -- the read returned some of the missing data: one more turn
        have hread : (s.socket.read (N - w.endIndex)).1 ≠ [] := by
          intro hnil
          rw [readCount, h.bufLen, hnil] at hne
          exact hne rfl
        have hiff : FollowedUp N total Misplaced rest hi _ ↔ _ :=
          followedUp_after_read not_misplaced_zero hk hroom hread (by omega)
        rw [Exec.bind_ok (dataTurn_middle hwv hw.inBuffer hw.caughtUp hw.lt hne hless.le), ← hiff,
          ← hw.socket_afterRead]
        refine ih _ _ ?_ (hw.next hless)
        show (afterRead s w.endIndex).socket.elems.length < fuel
        rw [hw.socket_afterRead]
        omega
      · -- all of it: the loop is over
        have hfollowed : FollowedUp N total Misplaced rest hi s.socket :=
          followedUp_of_exact hk hroom (by omega)
        rw [Exec.bind_ok (dataTurn_middle hwv hw.inBuffer hw.caughtUp hw.lt hne hall.le), hall]
        exact ⟨fun _ => hw.done hall.ge (by omega), fun hnot => absurd hfollowed hnot⟩
      · -- the read went past the end of the data
        have hiff : FollowedUp N total Misplaced rest hi _ ↔ _ :=
          followedUp_of_past hk hroom hw.upTo (by omega) (by omega)
        have hcomes : asU32 (w.startIndex + w.fileDataLength) = w.fileDataLength ↔
            ¬ Misplaced w.endIndex := by
          rw [asU32_add_eq_iff hw.lt, hw.caughtUp]
        by_cases hzero : asU32 (w.startIndex + w.fileDataLength) = w.fileDataLength
        · rw [Exec.bind_ok (dataTurn_last hwv hw.inBuffer hw.caughtUp hpast hzero)]
          exact ⟨fun _ => hw.done hpast.le (by omega),
            fun hnot => absurd (hiff.mpr (hcomes.mp hzero)) hnot⟩
        · obtain ⟨msg, hmsg, hturn⟩ :=
            dataTurn_overrun hwv hw.inBuffer hw.caughtUp hpast hzero
          rw [Exec.bind_fault hturn]
          exact ⟨fun hfollowed => absurd (hcomes.mpr (hiff.mp hfollowed)) hzero,
            fun _ => ⟨msg, _, hmsg, rfl⟩⟩

end

/-! ### Before the loop -/

/-- The cuts that count are those of the stream as it was before the fields in front of the
data were read, since no cut behind them was passed over. -/
theorem followedUp_fetch {N total rest hi e₀ e : ℕ} {s₀ s : ServerState}
    (hfetch : Fetch hi e₀ s₀ e s) (hbuf : s.buf.length = N)
    (htotal : total = e + s.socket.elems.length) :
    FollowedUp N total Misplaced rest hi s₀.socket ↔
      FollowedUp N total Misplaced rest hi s.socket := by
  have hkeep : ∀ {r}, r < s.socket.elems.length →
      (s.socket.CutLeaving r ↔ s₀.socket.CutLeaving r) := fun hr => hfetch.cuts _ hr
  have hmay : ∀ {r}, r < s.socket.elems.length →
      (MayStop N total s.socket r ↔ MayStop N total s₀.socket r) :=
    fun hr => or_congr (hkeep hr) Iff.rfl
  have hhere : s₀.socket.CutLeaving s.socket.elems.length ∨ e = N := by
    rcases hfetch.stopped with ⟨hlen, _⟩ | ⟨_, hstop⟩ | hfull
    · rw [hlen]
      exact Or.inl (SegStream.cutLeaving_length _)
    · exact Or.inl hstop
    · exact Or.inr (hfull.trans hbuf)
  constructor
  · intro h r hrest hr hcut hbad
    have hle := hcut.1
    have hcut₀ : s₀.socket.CutLeaving r := by
      rcases Nat.lt_or_ge r s.socket.elems.length with hlt | hge
      · exact (hkeep hlt).mp hcut
      · obtain rfl : r = s.socket.elems.length := by omega
        rcases hhere with hstop | hfull
        · exact hstop
        · rw [htotal, Nat.add_sub_cancel, hfull, Nat.mod_self] at hbad
          exact absurd hbad not_misplaced_zero
    obtain ⟨r', hr', hlt, hstop⟩ := h r hrest hr hcut₀ hbad
    exact ⟨r', hr', hlt, (hmay (by omega)).mpr hstop⟩
  · intro h r hrest hr hcut hbad
    have hle : r ≤ s.socket.elems.length := by
      by_contra hgt
      exact hfetch.passed r (by omega) hr hcut
    have hcut' : s.socket.CutLeaving r := by
      rcases Nat.lt_or_ge r s.socket.elems.length with hlt | hge
      · exact (hkeep hlt).mpr hcut
      · rw [show r = s.socket.elems.length by omega]
        exact SegStream.cutLeaving_length _
    obtain ⟨r', hr', hlt, hstop⟩ := h r hrest hr hcut' hbad
    exact ⟨r', hr', hlt, (hmay (by omega)).mp hstop⟩

/-- How `save_file` comes to the head of the data loop: the length field has been read, and
the data that came with it is in the file. -/
structure Enters (host : Host) (file : FileHandle) (s : ServerState) (startIndex endIndex len : ℕ)
    (data : List UInt8) (v : DataLoop) (s₁ s' : ServerState) : Prop where
  read : readUntil 4
      (fun _ => ⟨.invalidData, "No data to read from stream. Cannot read file data length"⟩)
      endIndex startIndex s = (.ok v.endIndex, s₁)
  first : firstChunk host file v.endIndex (startIndex + 4) len s₁ = (.ok v, s')
  reads : Reads s s₁
  fetch : Fetch data.length endIndex s v.endIndex s₁
  fieldRead : startIndex + 4 ≤ v.endIndex
  place : startIndex + 4 + data.length = v.endIndex + s₁.socket.elems.length
  inStep : InStep file s₁ len data v s'
  chunk : v.startIndex = min (startIndex + 4 + len) v.endIndex
  socket : s'.socket = s₁.socket
  buf : s'.buf = s₁.buf
  run : ∀ path, receiveData host file path endIndex startIndex s
    = (dataLoop v >>= checkData host path) s'

/-- A length field within the buffer is read, and the loop entered. -/
theorem receiveData_enters {host : Host} (hfull : host.FullWrites) (file : FileHandle)
    {s : ServerState} {startIndex endIndex len : ℕ} {data : List UInt8}
    (hin : InBuffer s startIndex endIndex) (hlen : len < 2 ^ 32)
    (hun : unread s startIndex endIndex = BigEndian.toBytes 4 len ++ data)
    (hroom : startIndex + 4 ≤ s.buf.length) :
    ∃ v s₁ s', Enters host file s startIndex endIndex len data v s₁ s' := by
  have hread := readUntil_ensures 4
    (fun _ => ⟨.invalidData, "No data to read from stream. Cannot read file data length"⟩) hin
  rcases hrun : readUntil 4
    (fun _ => ⟨.invalidData, "No data to read from stream. Cannot read file data length"⟩)
    endIndex startIndex s with ⟨φ | e, s₁⟩
  · have hstuck := (hread.of_run hrun).stuck
    rw [hun, List.length_append, BigEndian.toBytes_length] at hstuck
    omega
  obtain ⟨hreads, hfetch, hin₁, hun₁, hle⟩ := hread.of_run hrun
  have hslice := slice_run (Nat.le_add_right startIndex 4) (hle.trans hin₁.fits)
  have hfield := window_front_length hin₁ hle
  rw [slice_front s₁ hle, hun] at hun₁
  obtain ⟨hlength, hrest⟩ := List.append_inj hun₁ (by rw [hfield, BigEndian.toBytes_length])
  rw [hun, List.length_append, BigEndian.toBytes_length, Nat.add_sub_cancel_left] at hfetch
  have hlt : BigEndian.ofBytes (window s₁.buf startIndex (startIndex + 4)) = len := by
    rw [hlength, BigEndian.ofBytes_toBytes hlen]
  obtain ⟨v, s₂, hfirst, hstep, hvstart, hvend, hsock, hbuf₂⟩ :=
    firstChunk_run hfull (⟨hle, hin₁.fits⟩ : InBuffer s₁ (startIndex + 4) e) hlen file
  have hplace := unread_length (⟨hle, hin₁.fits⟩ : InBuffer s₁ (startIndex + 4) e)
  rw [hrest] at hstep hplace
  subst hvend
  refine ⟨v, s₁, s₂, hrun, hfirst, hreads, hfetch, hle, by omega, hstep, hvstart, hsock, hbuf₂,
    fun path => ?_⟩
  rw [receiveData, Exec.bind_ok hrun, Exec.bind_ok hslice, hlt, Exec.bind_ok hfirst]

/-- **The data loop, entered on a stream that goes on behind the data**, ends with all the
data or in the panic of a last chunk, and the cuts of the stream decide which. -/
theorem Enters.dataLoop_ends {host : Host} {file : FileHandle} {s s₁ s' : ServerState}
    {startIndex endIndex len total : ℕ} {data : List UInt8} {v : DataLoop}
    (h : Enters host file s startIndex endIndex len data v s₁ s') (hlen : len < 2 ^ 32)
    (htotal : total = startIndex + 4 + data.length) (hmore : len ≤ data.length) :
    (FollowedUp s.buf.length total Misplaced (data.length - len) data.length s.socket →
      ∃ v' s'' k, dataLoop v s' = (.ok v', s'') ∧ 1 ≤ v'.startIndex ∧
        v'.startIndex ≤ s.buf.length ∧
        total = s.buf.length * k + v'.startIndex + (data.length - len)) ∧
    (¬ FollowedUp s.buf.length total Misplaced (data.length - len) data.length s.socket →
      ∃ msg s'', Overran msg ∧ dataLoop v s' = (.error (.panic msg), s'')) := by
  have hin := h.inStep.inBuffer
  have ho := hin.ordered
  have hf := hin.fits
  have hread := h.fieldRead
  have hchunk := h.chunk
  have hbuf : s'.buf.length = s.buf.length := by rw [h.buf, h.reads.bufLen]
  have hbytes := congrArg List.length h.inStep.bytes
  rw [List.length_append, unread_length hin] at hbytes
  have hsum := h.inStep.length
  have hplace := htotal.trans h.place
  have hfollowed : FollowedUp _ _ Misplaced (data.length - len) _ _ ↔ _ :=
    followedUp_fetch h.fetch h.reads.bufLen hplace
  rw [← h.socket] at hplace
  rw [hfollowed, ← h.socket]
  by_cases hdone : v.fileDataLength = 0
  · -- all the data came with the fields
    have hloop : dataLoop v s' = (.ok v, s') := dataLoopFuel_done (Nat.succ_pos _) ho hdone s'
    refine ⟨fun _ => ⟨v, s', 0, hloop, by omega, by omega, by omega⟩, fun hnot => ?_⟩
    refine absurd ?_ hnot
    intro r hr _ hcut
    have hle := hcut.1
    omega
  · have hcaught := h.inStep.caught (Nat.pos_of_ne_zero hdone)
    exact dataLoopFuel_ends _ v s' (Nat.lt_succ_self _) ⟨hbuf, by omega, hin, hcaught, by omega,
      by omega, by omega, by omega, 0, by omega⟩

end Pcopy.Server
