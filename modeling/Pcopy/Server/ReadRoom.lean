import Pcopy.Server.Overrun
import Pcopy.Server.SaveSoundness

/-!
# With how much room the socket is read

A read into a full buffer returns nothing, and the callers of `read_data` take that for the
end of the stream.  A read loop for a field that fits into the buffer never issues such a
read, and neither does the data loop; a loop for a field that does not fit ends with one.

* `readField_roomy`, `readUntil_stuffed` — the read loops;
* `createParentFolder_roomy` — a path field that fits;
* `receiveData_roomy_iff` — the data, and the checksum behind it.
-/

namespace Pcopy.Server

open Pcopy.Lib Pcopy.Path

/-- Every read so far was issued with room in the buffer. -/
def Roomy (s : ServerState) : Prop := 0 ∉ s.rooms

/-- However `x` ends, it has not read the socket. -/
def Quiet {α : Type} (x : Task α) : Prop := Exec.Moves (fun s s' => s'.rooms = s.rooms) x

section Quiet

variable {α β : Type}

theorem Quiet.bind {x : Task α} {f : α → Task β} (hx : Quiet x) (hf : ∀ a, Quiet (f a)) :
    Quiet (x >>= f) :=
  Exec.Moves.bind (fun _ _ _ h h' => h'.trans h) hx hf

theorem Quiet.attempt {x : Task α} (hx : Quiet x) : Quiet (Exec.attempt x) := Exec.Moves.attempt hx

theorem Quiet.roomy {x : Task α} (hx : Quiet x) {s : ServerState} (h : Roomy s) :
    Roomy (x s).2 := by
  rw [Roomy, hx s]
  exact h

theorem slice_quiet (a b : ℕ) : Quiet (slice a b) := by
  intro s
  unfold slice
  split <;> rfl

theorem checkedSub_quiet (a b : ℕ) : Quiet (checkedSub a b) := by
  intro s
  unfold checkedSub
  split <;> rfl

theorem writeAll_quiet (file : FileHandle) (data : List UInt8) : Quiet (writeAll file data) :=
  fun _ => rfl

theorem createDirAll_quiet (dir : List Component) : Quiet (createDirAll dir) := by
  intro s
  unfold createDirAll
  dsimp only
  split <;> rfl

theorem makeParentFolder_quiet (path : PathBytes) (st : BufferState) :
    Quiet (makeParentFolder path st) := by
  unfold makeParentFolder
  split
  · exact fun _ => rfl
  · refine Quiet.bind (createDirAll_quiet _).attempt ?_
    intro r
    split <;> exact fun _ => rfl

theorem firstChunk_quiet (host : Host) (file : FileHandle) (endIndex startIndex len : ℕ) :
    Quiet (firstChunk host file endIndex startIndex len) :=
  Quiet.bind (slice_quiet _ _) fun _ =>
    Quiet.bind (Quiet.bind (writeAll_quiet _ _) fun _ _ => rfl) fun _ =>
      Quiet.bind (checkedSub_quiet _ _) fun _ _ => rfl

theorem lastChunk_quiet (v : DataLoop) : Quiet (lastChunk v) := by
  refine Quiet.bind (slice_quiet _ _) fun chunk => Quiet.bind (writeAll_quiet _ _) fun file =>
    Quiet.bind (checkedSub_quiet _ _) fun remaining => ?_
  split <;> exact fun _ => rfl

theorem middleChunk_quiet (n : ℕ) (v : DataLoop) : Quiet (middleChunk n v) :=
  Quiet.bind (slice_quiet _ _) fun _ => Quiet.bind (writeAll_quiet _ _) fun _ =>
    Quiet.bind (checkedSub_quiet _ _) fun _ _ => rfl

end Quiet

/-! ### The read loops -/

theorem afterRead_roomy {s : ServerState} {endIndex : ℕ} (h : Roomy s)
    (hroom : endIndex < s.buf.length) : Roomy (afterRead s endIndex) := by
  intro hzero
  rcases List.mem_append.mp hzero with hzero | hzero
  · exact h hzero
  · have := List.mem_singleton.mp hzero
    omega

theorem readUntilFuel_roomy (need : ℕ) (eof : ℕ → IoError) (startIndex : ℕ) (fuel : ℕ) :
    ∀ (s : ServerState) (endIndex : ℕ), InBuffer s startIndex endIndex →
      startIndex + need ≤ s.buf.length → Roomy s →
      Roomy (readUntilFuel need eof fuel endIndex startIndex s).2 := by
  induction fuel with
  | zero => intro s endIndex _ _ h; exact h
  | succ fuel ih =>
      intro s endIndex hin hfits h
      have ho := hin.ordered
      rw [readUntilFuel, Exec.bind_ok (checkedSub_run hin.ordered s)]
      split
      · have hread : Roomy (afterRead s endIndex) := afterRead_roomy h (by omega)
        rw [Exec.bind_ok (readData_run hin.fits)]
        split
        · exact hread
        · exact ih _ _ (inBuffer_afterRead hin) (by rw [bufLen_afterRead hin.fits]; exact hfits)
            hread
      · exact h

/-- A loop for what fits into the buffer reads with room. -/
theorem readUntil_roomy {need : ℕ} (eof : ℕ → IoError) {s : ServerState}
    {startIndex endIndex : ℕ} (hin : InBuffer s startIndex endIndex)
    (hfits : startIndex + need ≤ s.buf.length) (h : Roomy s) :
    Roomy (readUntil need eof endIndex startIndex s).2 :=
  readUntilFuel_roomy need eof startIndex _ s endIndex hin hfits h

theorem readUntilFuel_stuffed (need : ℕ) (eof : ℕ → IoError) (startIndex : ℕ) (fuel : ℕ) :
    ∀ (s : ServerState) (endIndex : ℕ), s.socket.elems.length < fuel →
      InBuffer s startIndex endIndex → s.buf.length < startIndex + need →
      need ≤ (unread s startIndex endIndex).length →
      ∃ e s', readUntilFuel need eof fuel endIndex startIndex s = (.error (.err e), s') ∧
        ¬ Roomy s' := by
  induction fuel with
  | zero => intro s endIndex hfuel; omega
  | succ fuel ih =>
      intro s endIndex hfuel hin hlong hmore
      have ho := hin.ordered
      have hf := hin.fits
      have hlen := unread_length hin
      rw [readUntilFuel, Exec.bind_ok (checkedSub_run hin.ordered s), if_pos (by omega),
        Exec.bind_ok (readData_run hin.fits)]
      by_cases hn : readCount s endIndex = 0
      · rw [if_pos hn]
        refine ⟨_, _, rfl, fun hroomy => hroomy ?_⟩
        -- the stream is not at its end, so the buffer is full
        have hfull : endIndex = s.buf.length := by
          rcases (readCount_eq_zero_iff hin.fits).mp hn with hfull | hend
          · exact hfull
          · rw [hend, List.length_nil] at hlen
            omega
        refine List.mem_append_right _ (List.mem_singleton.mpr ?_)
        omega
      · have hsum := socket_afterRead_length s endIndex
        rw [if_neg hn]
        refine ih _ _ (by omega) (inBuffer_afterRead hin) ?_ ?_
        · rw [bufLen_afterRead hin.fits]
          exact hlong
        · rw [unread_afterRead hin]
          exact hmore

/-- A loop for what the stream holds and the buffer does not ends with a read into the full
buffer, and takes it for the end of the stream. -/
theorem readUntil_stuffed {need : ℕ} (eof : ℕ → IoError) {s : ServerState}
    {startIndex endIndex : ℕ} (hin : InBuffer s startIndex endIndex)
    (hlong : s.buf.length < startIndex + need)
    (hmore : need ≤ (unread s startIndex endIndex).length) :
    ∃ e s', readUntil need eof endIndex startIndex s = (.error (.err e), s') ∧ ¬ Roomy s' :=
  readUntilFuel_stuffed need eof startIndex _ s endIndex (Nat.lt_succ_self _) hin hlong hmore

/-- **A field that fits into the buffer is read with room**, if what follows it is. -/
theorem readField_roomy {β : Type} {k : ℕ} {eof : ℕ → IoError} {s : ServerState}
    {startIndex endIndex : ℕ} (hin : InBuffer s startIndex endIndex)
    (hfits : startIndex + k ≤ s.buf.length) (h : Roomy s) {f : ℕ → List UInt8 → Task β}
    (hok : ∀ e s₁ field, Reads s s₁ → InBuffer s₁ (startIndex + k) e → field.length = k →
      unread s startIndex endIndex = field ++ unread s₁ (startIndex + k) e → Roomy s₁ →
      Roomy (f e field s₁).2) :
    Roomy ((do
      let e ← readUntil k eof endIndex startIndex
      let field ← slice startIndex (startIndex + k)
      f e field) s).2 := by
  have hroomy := readUntil_roomy eof hin hfits h
  rcases hrun : readUntil k eof endIndex startIndex s with ⟨φ | e, s₁⟩
  · rw [hrun] at hroomy
    rw [Exec.bind_fault hrun]
    exact hroomy
  · rw [hrun] at hroomy
    obtain ⟨hreads, _, hin₁, hun, hle⟩ := (readUntil_ensures k eof hin).of_run hrun
    rw [Exec.bind_ok hrun, Exec.bind_ok (slice_run (Nat.le_add_right _ _) (hle.trans hin₁.fits))]
    exact hok e s₁ _ hreads ⟨hle, hin₁.fits⟩ (window_front_length hin₁ hle)
      (hun.symm.trans (slice_front s₁ hle)) hroomy

theorem readChecksum_roomy (host : Host) {s : ServerState} {startIndex endIndex : ℕ}
    (hin : InBuffer s startIndex endIndex) (hfits : startIndex + 4 ≤ s.buf.length)
    (h : Roomy s) : Roomy (readChecksum host endIndex startIndex s).2 :=
  readField_roomy hin hfits h fun _ _ _ _ _ _ _ hroomy => hroomy

theorem readChecksum_stuffed (host : Host) {s : ServerState} {startIndex endIndex : ℕ}
    (hin : InBuffer s startIndex endIndex) (hlong : s.buf.length < startIndex + 4)
    (hmore : 4 ≤ (unread s startIndex endIndex).length) :
    ¬ Roomy (readChecksum host endIndex startIndex s).2 := by
  obtain ⟨e, s', hrun, hnot⟩ := readUntil_stuffed
    (fun n => ⟨.invalidData,
      s!"Cannot read checksum from stream. No of checksum bytes read {n}"⟩) hin hlong hmore
  rw [readChecksum, Exec.bind_fault hrun]
  exact hnot

/-! ### The path field -/

/-- A path field that is announced to fit into the buffer is read with room. -/
theorem createParentFolder_roomy (host : Host) {s : ServerState} {startIndex endIndex len : ℕ}
    {u : List UInt8} (hin : InBuffer s startIndex endIndex) (hlen : len < 2 ^ 16)
    (hun : unread s startIndex endIndex = BigEndian.toBytes 2 len ++ u)
    (hfits : startIndex + (len + 6) ≤ s.buf.length) (h : Roomy s) :
    Roomy (createParentFolder host endIndex startIndex s).2 := by
  have hread : Roomy (readPathField host endIndex startIndex s).2 := by
    refine readField_roomy hin (by omega) h ?_
    intro e s₁ field hreads₁ hin₁ hfield hun₁ h₁
    obtain ⟨hfield', _⟩ := List.append_inj (hun₁.symm.trans hun)
      (by rw [hfield, BigEndian.toBytes_length])
    have hpath : BigEndian.ofBytes field = len := by rw [hfield', BigEndian.ofBytes_toBytes hlen]
    have hbuf₁ := hreads₁.bufLen
    refine readField_roomy hin₁ (by omega) h₁ ?_
    intro e₂ s₂ path hreads₂ hin₂ _ _ h₂
    have hbuf₂ := hreads₂.bufLen
    split
    · have hsum := readChecksum_roomy host hin₂ (by omega) h₂
      rcases hrun : readChecksum host e₂ (startIndex + 2 + BigEndian.ofBytes field) s₂
        with ⟨φ | r, s₃⟩
      · rw [hrun] at hsum
        rw [Exec.bind_fault hrun]
        exact hsum
      · rw [hrun] at hsum
        rw [Exec.bind_ok hrun]
        exact hsum
    · exact h₂
  rcases hrun : readPathField host endIndex startIndex s with ⟨φ | ⟨path, c, st⟩, s₁⟩
  · rw [hrun] at hread
    rw [createParentFolder, Exec.bind_fault hrun]
    exact hread
  · rw [hrun] at hread
    rw [createParentFolder, Exec.bind_ok hrun]
    dsimp only
    split
    · exact (makeParentFolder_quiet path st).roomy hread
    · exact hread

/-! ### The data and its checksum -/

/-- A turn of the data loop reads with room. -/
theorem dataTurn_roomy {v : DataLoop} {s : ServerState} (hin : InBuffer s v.startIndex v.endIndex)
    (hcaught : v.startIndex = v.endIndex) (hbuf : 0 < s.buf.length) (h : Roomy s) :
    Roomy (dataTurn v s).2 := by
  have hroom := rewind_lt hin hcaught hbuf
  have hw := rewind_fits hin
  rw [dataTurn, Exec.get_bind]
  generalize rewind s.buf.length v = w at hroom hw
  rw [Exec.bind_ok (readData_run hw.fits)]
  have hread := afterRead_roomy h hroom
  split
  · exact (Quiet.bind (checkedSub_quiet _ _) fun _ _ => rfl).roomy hread
  · dsimp only
    split
    · exact (lastChunk_quiet _).roomy hread
    · exact (middleChunk_quiet _ _).roomy hread

/-- **The data loop reads with room.** -/
theorem dataLoopFuel_roomy {file : FileHandle} {s₀ : ServerState} {len : ℕ} {u : List UInt8}
    (hlen : len < 2 ^ 32) (fuel : ℕ) :
    ∀ (v : DataLoop) (s : ServerState), 0 < s.buf.length → InStep file s₀ len u v s → Roomy s →
      Roomy (dataLoopFuel fuel v s).2 := by
  induction fuel with
  | zero => intro v s _ _ h; exact h
  | succ fuel ih =>
      intro v s hbuf hstep h
      rw [dataLoopFuel, Exec.bind_ok (checkedSub_run hstep.inBuffer.ordered s)]
      split
      · have hmore : 0 < v.fileDataLength := by omega
        have hturn := dataTurn_roomy hstep.inBuffer (hstep.caught hmore) hbuf h
        rcases hrun : dataTurn v s with ⟨φ | v', s'⟩
        · rw [hrun] at hturn
          rw [Exec.bind_fault hrun]
          exact hturn
        · rw [hrun] at hturn
          obtain ⟨hstep', _, hlen'⟩ := (dataTurn_ensures hlen hbuf hstep hmore).of_run hrun
          rw [Exec.bind_ok hrun]
          exact ih v' s' (by omega) hstep' hturn
      · exact h

/-- Behind the data, only the checksum is read. -/
theorem checkData_roomy_iff (host : Host) (path : PathBytes) (v : DataLoop) (s : ServerState) :
    Roomy (checkData host path v s).2 ↔
      Roomy (readChecksum host v.endIndex v.startIndex s).2 := by
  rcases hrun : readChecksum host v.endIndex v.startIndex s with ⟨φ | r, s'⟩
  · rw [checkData, Exec.bind_fault hrun]
  · rw [checkData, Exec.bind_ok hrun]
    dsimp only
    split <;> rfl

/-- **The data field and its checksum**, whole on the stream: they are read with room exactly
if the loop panics before the checksum, or the checksum fits into the buffer behind the
data. -/
theorem receiveData_roomy_iff {host : Host} (hfull : host.FullWrites) (file : FileHandle)
    (path : PathBytes) {s : ServerState} {startIndex endIndex len : ℕ} {data : List UInt8}
    (hin : InBuffer s startIndex endIndex) (hlen : len < 2 ^ 32)
    (hun : unread s startIndex endIndex = BigEndian.toBytes 4 len ++ data)
    (hwhole : len + 4 ≤ data.length) (hroom : startIndex + 4 ≤ s.buf.length) (h : Roomy s) :
    Roomy (receiveData host file path endIndex startIndex s).2 ↔
      (FollowedUp s.buf.length (startIndex + 4 + data.length) Misplaced (data.length - len)
          data.length s.socket →
        0 < (startIndex + 4 + len) % s.buf.length ∧
          (startIndex + 4 + len) % s.buf.length + 4 ≤ s.buf.length) := by
  obtain ⟨v, s₁, s', henters⟩ := receiveData_enters hfull file hin hlen hun hroom
  have hbuf : s'.buf.length = s.buf.length := by rw [henters.buf, henters.reads.bufLen]
  -- up to the loop, and through it, there is room
  have hfield := readUntil_roomy
    (fun _ => ⟨.invalidData, "No data to read from stream. Cannot read file data length"⟩) hin
    hroom h
  rw [henters.read] at hfield
  have hfirst := (firstChunk_quiet host file v.endIndex (startIndex + 4) len).roomy hfield
  rw [henters.first] at hfirst
  have hloop : Roomy (dataLoop v s').2 :=
    dataLoopFuel_roomy hlen _ v s' (by omega) henters.inStep hfirst
  obtain ⟨hgood, hbad⟩ := henters.dataLoop_ends hlen rfl (by omega)
  have hpost := dataLoop_ensures hlen (by omega) henters.inStep
  rw [henters.run path]
  by_cases hfollowed : FollowedUp s.buf.length (startIndex + 4 + data.length) Misplaced
      (data.length - len) data.length s.socket
  · obtain ⟨v', s'', k, hrun, h1, hN, hplace⟩ := hgood hfollowed
    rw [hrun] at hloop
    obtain ⟨hstep, hdone⟩ := hpost.of_run hrun
    rw [Exec.bind_ok hrun]
    have hbuf'' : s''.buf.length = s.buf.length := by rw [hstep.stored.bufLen, ← henters.buf, hbuf]
    have hmod : (startIndex + 4 + len) % s.buf.length = v'.startIndex % s.buf.length := by
      rw [show startIndex + 4 + len = s.buf.length * k + v'.startIndex by omega, Nat.mul_add_mod]
    have hleft := congrArg List.length hstep.bytes
    have hfed := hstep.length
    rw [List.length_append] at hleft
    rw [checkData_roomy_iff, hmod]
    by_cases hfits : v'.startIndex + 4 ≤ s.buf.length
    · rw [Nat.mod_eq_of_lt (by omega)]
      exact ⟨fun _ _ => ⟨by omega, hfits⟩,
        fun _ => readChecksum_roomy host hstep.inBuffer (by omega) hloop⟩
    · have hstuffed := readChecksum_stuffed host hstep.inBuffer (by omega) (by omega)
      refine ⟨fun hroomy => absurd hroomy hstuffed, fun hcond => ?_⟩
      obtain ⟨hpos, hle⟩ := hcond hfollowed
      rcases Nat.lt_or_eq_of_le hN with hlt | heq
      · rw [Nat.mod_eq_of_lt hlt] at hle
        omega
      · rw [heq, Nat.mod_self] at hpos
        omega
  · obtain ⟨msg, s'', _, hrun⟩ := hbad hfollowed
    rw [hrun] at hloop
    rw [Exec.bind_fault hrun]
    exact ⟨fun _ hf => absurd hf hfollowed, fun _ => hloop⟩

end Pcopy.Server
