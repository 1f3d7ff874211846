import Pcopy.Server.SaveFile

/-!
# What the reads of a connection task do

The bytes that a task has not processed yet stand in two places: the window of the buffer
between `start_index` and `end_index`, and the socket.  `unread` is their concatenation.
A read moves bytes from the socket to the window and leaves `unread` as it was; taking a
field off the front of the window takes it off `unread`.  Everything the server makes of a
request is a statement about `unread`, and so does not depend on how the reads cut it.

* `readData_run`, `unread_afterRead` — one read;
* `readUntil_ensures` — a read loop ends with enough bytes, or stuck at the end of the
  stream or of the buffer;
* `slice_front` — taking a field.
-/

namespace Pcopy.Server

open Pcopy.Lib Pcopy.Path

/-- The indexes delimit a window of the buffer. -/
structure InBuffer (s : ServerState) (startIndex endIndex : ℕ) : Prop where
  ordered : startIndex ≤ endIndex
  fits : endIndex ≤ s.buf.length

/-- The bytes not processed yet: the window of the buffer, then the socket. -/
def unread (s : ServerState) (startIndex endIndex : ℕ) : List UInt8 :=
  window s.buf startIndex endIndex ++ s.socket.elems

theorem unread_length {s : ServerState} {startIndex endIndex : ℕ}
    (h : InBuffer s startIndex endIndex) :
    (unread s startIndex endIndex).length = endIndex - startIndex + s.socket.elems.length := by
  rw [unread, List.length_append, window_length _ h.fits]

theorem unread_caughtUp (s : ServerState) (i : ℕ) : unread s i i = s.socket.elems := by
  simp [unread, window_self]

/-- From `s` to `s'` the socket has been read, and nothing was sent. -/
structure Consumes (s s' : ServerState) : Prop where
  reply : s'.reply = s.reply
  bufLen : s'.buf.length = s.buf.length
  suffix : s'.socket.elems <:+ s.socket.elems
  cuts : ∀ r < s'.socket.elems.length, s'.socket.CutLeaving r ↔ s.socket.CutLeaving r

theorem Consumes.refl (s : ServerState) : Consumes s s :=
  ⟨rfl, rfl, List.suffix_rfl, fun _ _ => Iff.rfl⟩

theorem Consumes.shrinks {s s' : ServerState} (h : Consumes s s') :
    s'.socket.elems.length ≤ s.socket.elems.length := h.suffix.length_le

theorem Consumes.trans {s s₁ s₂ : ServerState} (h : Consumes s s₁) (h' : Consumes s₁ s₂) :
    Consumes s s₂ where
  reply := h'.reply.trans h.reply
  bufLen := h'.bufLen.trans h.bufLen
  suffix := h'.suffix.trans h.suffix
  cuts := fun r hr => (h'.cuts r hr).trans (h.cuts r (lt_of_lt_of_le hr h'.shrinks))

/-- `s'` comes from `s` by reading only: the file system was not touched either. -/
structure Reads (s s' : ServerState) : Prop extends Consumes s s' where
  disk : s'.disk = s.disk
  effects : s'.effects = s.effects

theorem Reads.refl (s : ServerState) : Reads s s := ⟨Consumes.refl s, rfl, rfl⟩

theorem Reads.trans {s s₁ s₂ : ServerState} (h : Reads s s₁) (h' : Reads s₁ s₂) : Reads s s₂ :=
  ⟨h.toConsumes.trans h'.toConsumes, h'.disk.trans h.disk, h'.effects.trans h.effects⟩

/-! ### One read -/

/-- The state after a read behind `endIndex`. -/
def afterRead (s : ServerState) (endIndex : ℕ) : ServerState :=
  let r := s.socket.read (s.buf.length - endIndex)
  { s with
    socket := r.2
    buf := overwrite s.buf endIndex r.1
    rooms := s.rooms ++ [s.buf.length - endIndex] }

/-- The count a read behind `endIndex` returns. -/
def readCount (s : ServerState) (endIndex : ℕ) : ℕ :=
  (s.socket.read (s.buf.length - endIndex)).1.length

theorem readData_run {s : ServerState} {endIndex : ℕ} (h : endIndex ≤ s.buf.length) :
    readData endIndex s = (.ok (readCount s endIndex), afterRead s endIndex) := by
  rw [readData, if_pos h]
  rfl

theorem readCount_le {s : ServerState} {endIndex : ℕ} (h : endIndex ≤ s.buf.length) :
    endIndex + readCount s endIndex ≤ s.buf.length := by
  have hle := s.socket.read_length_le (s.buf.length - endIndex)
  rw [readCount]
  omega

/-- A read returns nothing exactly when the buffer is full or the stream at its end. -/
theorem readCount_eq_zero_iff {s : ServerState} {endIndex : ℕ} (h : endIndex ≤ s.buf.length) :
    readCount s endIndex = 0 ↔ endIndex = s.buf.length ∨ s.socket.elems = [] := by
  rw [readCount, List.length_eq_zero_iff, SegStream.read_eq_nil_iff]
  constructor
  · rintro (h0 | h0)
    · exact Or.inl (by omega)
    · exact Or.inr h0
  · rintro (h0 | h0)
    · exact Or.inl (by omega)
    · exact Or.inr h0

theorem socket_afterRead_length (s : ServerState) (endIndex : ℕ) :
    (afterRead s endIndex).socket.elems.length + readCount s endIndex
      = s.socket.elems.length := s.socket.read_elems_length _

theorem bufLen_afterRead {s : ServerState} {endIndex : ℕ} (h : endIndex ≤ s.buf.length) :
    (afterRead s endIndex).buf.length = s.buf.length :=
  overwrite_length _ (readCount_le h)

theorem reads_afterRead {s : ServerState} {endIndex : ℕ} (h : endIndex ≤ s.buf.length) :
    Reads s (afterRead s endIndex) where
  disk := rfl
  effects := rfl
  reply := rfl
  bufLen := bufLen_afterRead h
  suffix := ⟨_, s.socket.read_append _⟩
  cuts := fun _ hr => s.socket.cutLeaving_after_read _ hr

/-- **A read moves bytes from the socket to the window.** -/
theorem unread_afterRead {s : ServerState} {startIndex endIndex : ℕ}
    (h : InBuffer s startIndex endIndex) :
    unread (afterRead s endIndex) startIndex (endIndex + readCount s endIndex)
      = unread s startIndex endIndex := by
  show window (overwrite s.buf endIndex _) startIndex (endIndex + _) ++ _ = _
  rw [readCount, window_overwrite _ _ h.ordered h.fits, List.append_assoc]
  congr 1
  exact s.socket.read_append _

theorem inBuffer_afterRead {s : ServerState} {startIndex endIndex : ℕ}
    (h : InBuffer s startIndex endIndex) :
    InBuffer (afterRead s endIndex) startIndex (endIndex + readCount s endIndex) where
  ordered := by
    have ho := h.ordered
    omega
  fits := by
    rw [bufLen_afterRead h.fits]
    exact readCount_le h.fits

/-! ### Where reads stop -/

/-- From `s`, the window ending at `e`, to `s'`, the window ending at `e'`, the socket was
read only while more than `r` bytes were still to come: no cut of the stream was passed
over below that, and the last read, if there was one, stopped at a cut or at the end of the
buffer. -/
structure Fetch (r e : ℕ) (s : ServerState) (e' : ℕ) (s' : ServerState) : Prop
    extends Consumes s s' where
  passed : ∀ q, s'.socket.elems.length < q → q ≤ r → ¬ s.socket.CutLeaving q
  stopped : (s'.socket.elems.length = s.socket.elems.length ∧ e' = e) ∨
    (s'.socket.elems.length < s.socket.elems.length ∧
      s.socket.CutLeaving s'.socket.elems.length) ∨ e' = s'.buf.length

theorem Fetch.refl (r e : ℕ) (s : ServerState) : Fetch r e s e s where
  toConsumes := Consumes.refl s
  passed := fun _ hlt _ hcut => absurd hcut.1 (by omega)
  stopped := Or.inl ⟨rfl, rfl⟩

theorem Fetch.read {r e : ℕ} {s : ServerState} (he : e ≤ s.buf.length)
    (hr : r < s.socket.elems.length) : Fetch r e s (e + readCount s e) (afterRead s e) where
  toConsumes := (reads_afterRead he).toConsumes
  passed := fun _ hlo hhi => s.socket.not_cutLeaving_inside_read _ hlo (by omega)
  stopped := by
    have hsum := socket_afterRead_length s e
    have hle := readCount_le he
    by_cases hshort : readCount s e < s.buf.length - e
    · by_cases hzero : readCount s e = 0
      · exact Or.inl ⟨by omega, by omega⟩
      · exact Or.inr (Or.inl ⟨by omega, s.socket.cutLeaving_of_short_read _ hshort⟩)
    · refine Or.inr (Or.inr ?_)
      rw [bufLen_afterRead he]
      omega

/-- What a fetch says is about the socket and the buffer only. -/
theorem Fetch.congr {r e e' : ℕ} {s s' s'' : ServerState} (h : Fetch r e s e' s')
    (hsocket : s''.socket = s'.socket) (hreply : s''.reply = s'.reply)
    (hbuf : s''.buf = s'.buf) : Fetch r e s e' s'' := by
  obtain ⟨⟨hr, hb, hsuf, hcuts⟩, hpassed, hstopped⟩ := h
  exact ⟨⟨by rw [hreply, hr], by rw [hbuf, hb], by rw [hsocket]; exact hsuf,
    by rw [hsocket]; exact hcuts⟩, by rw [hsocket]; exact hpassed,
    by rw [hsocket, hbuf]; exact hstopped⟩

/-- A fetch for the sake of more is one for the sake of less. -/
theorem Fetch.mono {r r' e e' : ℕ} {s s' : ServerState} (h : Fetch r e s e' s') (hr : r' ≤ r) :
    Fetch r' e s e' s' :=
  ⟨h.toConsumes, fun q hlo hhi => h.passed q hlo (hhi.trans hr), h.stopped⟩

theorem Fetch.trans {r r' e e₁ e' : ℕ} {s s₁ s' : ServerState} (h : Fetch r e s e₁ s₁)
    (h' : Fetch r' e₁ s₁ e' s') (hr : r' ≤ r) : Fetch r' e s e' s' where
  toConsumes := h.toConsumes.trans h'.toConsumes
  passed := by
    intro q hlo hhi hcut
    rcases Nat.lt_trichotomy q s₁.socket.elems.length with hq | hq | hq
    · exact h'.passed q hlo hhi ((h.cuts q hq).mpr hcut)
    · -- where the first part stopped, its socket has a cut by definition
      refine h'.passed q hlo hhi ⟨le_of_eq hq, ?_⟩
      rw [hq, Nat.sub_self]
      exact SegStream.isCut_zero _
    · exact h.passed q hq (hhi.trans hr) hcut
  stopped := by
    rcases h'.stopped with ⟨hlen, rfl⟩ | ⟨hlt, hcut⟩ | hfull
    · have hbuf := h'.bufLen
      rw [hlen, hbuf]
      exact h.stopped
    · have hle := h.shrinks
      exact Or.inr (Or.inl ⟨by omega, (h.cuts _ hlt).mp hcut⟩)
    · exact Or.inr (Or.inr hfull)

/-! ### The read loops -/

@[simp] theorem checkedSub_run {a b : ℕ} (h : b ≤ a) (s : ServerState) :
    checkedSub a b s = (.ok (a - b), s) := by
  rw [checkedSub, if_pos h]
  rfl

/-- How a read loop for `need` bytes ends, `u` being what was unread when it began with the
window ending at `endIndex`: with `need` bytes in the window, or stuck with fewer because
the stream or the buffer is at its end. -/
def ReadPost (need : ℕ) (eof : ℕ → IoError) (startIndex endIndex : ℕ) (u : List UInt8)
    (s₀ : ServerState) : Except (Fault IoError) ℕ → ServerState → Prop
  | .ok e, s' => Reads s₀ s' ∧ Fetch (u.length - need) endIndex s₀ e s' ∧
      InBuffer s' startIndex e ∧ unread s' startIndex e = u ∧ startIndex + need ≤ e
  | .error φ, s' => Reads s₀ s' ∧ ∃ e, φ = .err (eof (e - startIndex)) ∧
      InBuffer s' startIndex e ∧ unread s' startIndex e = u ∧ e < startIndex + need ∧
      (e = s'.buf.length ∨ s'.socket.elems = [])

theorem readUntilFuel_ensures (need : ℕ) (eof : ℕ → IoError) (startIndex : ℕ) (fuel : ℕ) :
    ∀ (s : ServerState) (endIndex : ℕ), s.socket.elems.length < fuel →
      InBuffer s startIndex endIndex →
      (readUntilFuel need eof fuel endIndex startIndex).Ensures s
        (ReadPost need eof startIndex endIndex (unread s startIndex endIndex) s) := by
  induction fuel with
  | zero => intro s endIndex hfuel; omega
  | succ fuel ih =>
      intro s endIndex hfuel hin
      rw [readUntilFuel]
      refine Exec.Ensures.step (checkedSub_run hin.ordered s) ?_
      have ho := hin.ordered
      have hlen := unread_length hin
      by_cases hlt : endIndex - startIndex < need
      · rw [if_pos hlt]
        refine Exec.Ensures.step (readData_run hin.fits) ?_
        by_cases hn : readCount s endIndex = 0
        · -- nothing read: the window keeps its bytes, the loop is stuck
          have hun := unread_afterRead hin
          have hin' := inBuffer_afterRead hin
          rw [hn, Nat.add_zero] at hun hin'
          rw [if_pos hn]
          refine Exec.Ensures.fail
            ⟨reads_afterRead hin.fits, endIndex, rfl, hin', hun, by omega, ?_⟩
          rcases (readCount_eq_zero_iff hin.fits).mp hn with hfull | hend
          · exact Or.inl (by rw [bufLen_afterRead hin.fits, hfull])
          · refine Or.inr (List.length_eq_zero_iff.mp ?_)
            have hsum := socket_afterRead_length s endIndex
            rw [hend, List.length_nil] at hsum
            omega
        · rw [if_neg hn]
          have hsum := socket_afterRead_length s endIndex
          have hfetch : Fetch ((unread s startIndex endIndex).length - need) endIndex s
              (endIndex + readCount s endIndex) (afterRead s endIndex) :=
            Fetch.read hin.fits (by omega)
          have hrec := ih (afterRead s endIndex) (endIndex + readCount s endIndex) (by omega)
            (inBuffer_afterRead hin)
          rw [unread_afterRead hin] at hrec
          refine hrec.mono ?_
          intro o s' hpost
          cases o with
          | ok e =>
              obtain ⟨hreads, hfetch', hrest⟩ := hpost
              exact ⟨(reads_afterRead hin.fits).trans hreads, hfetch.trans hfetch' le_rfl, hrest⟩
          | error φ => exact ⟨(reads_afterRead hin.fits).trans hpost.1, hpost.2⟩
      · rw [if_neg hlt]
        exact Exec.Ensures.pure ⟨Reads.refl s, Fetch.refl _ _ s, hin, rfl, by omega⟩

/-- **A read loop ends with enough bytes or stuck**, and never runs out of turns. -/
theorem readUntil_ensures (need : ℕ) (eof : ℕ → IoError) {s : ServerState}
    {startIndex endIndex : ℕ} (hin : InBuffer s startIndex endIndex) :
    (readUntil need eof endIndex startIndex).Ensures s
      (ReadPost need eof startIndex endIndex (unread s startIndex endIndex) s) :=
  readUntilFuel_ensures need eof startIndex _ s endIndex (Nat.lt_succ_self _) hin

/-- A stuck loop had too few bytes ahead, or too little buffer. -/
theorem ReadPost.stuck {need : ℕ} {eof : ℕ → IoError} {startIndex endIndex : ℕ}
    {u : List UInt8} {s₀ s' : ServerState} {φ : Fault IoError}
    (h : ReadPost need eof startIndex endIndex u s₀ (.error φ) s') :
    u.length < need ∨ s₀.buf.length < startIndex + need := by
  obtain ⟨hreads, e, _, hin, hun, hlt, hend⟩ := h
  have ho := hin.ordered
  rcases hend with hfull | hnil
  · right
    rw [← hreads.bufLen]
    omega
  · left
    rw [← hun, unread_length hin, hnil, List.length_nil]
    omega

/-! ### Taking a field off the front -/

theorem slice_run {s : ServerState} {a b : ℕ} (hab : a ≤ b) (hb : b ≤ s.buf.length) :
    slice a b s = (.ok (window s.buf a b), s) := by
  rw [slice, if_pos ⟨hab, hb⟩]

/-- Taking `k` bytes off the window takes them off `unread`. -/
theorem slice_front (s : ServerState) {startIndex endIndex k : ℕ}
    (hk : startIndex + k ≤ endIndex) :
    unread s startIndex endIndex
      = window s.buf startIndex (startIndex + k) ++ unread s (startIndex + k) endIndex := by
  rw [unread, unread, window_split s.buf (Nat.le_add_right startIndex k) hk, List.append_assoc]

theorem window_front_length {s : ServerState} {startIndex endIndex k : ℕ}
    (hin : InBuffer s startIndex endIndex) (hk : startIndex + k ≤ endIndex) :
    (window s.buf startIndex (startIndex + k)).length = k := by
  rw [window_length _ (hk.trans hin.fits)]
  omega

/-- **A field of `k` bytes.**  Every field is read by a read loop and then a slice: either
the loop gets stuck, or the field comes off the front of the unread bytes. -/
theorem readField_ensures {β : Type} {k : ℕ} {eof : ℕ → IoError} {s : ServerState}
    {startIndex endIndex : ℕ} (hin : InBuffer s startIndex endIndex)
    {f : ℕ → List UInt8 → Task β} {post : Except (Fault IoError) β → ServerState → Prop}
    (hstuck : ∀ e s', Reads s s' →
      (unread s startIndex endIndex).length < k ∨ s.buf.length < startIndex + k →
      post (.error (.err e)) s')
    (hok : ∀ e s₁ field, Reads s s₁ →
      Fetch ((unread s startIndex endIndex).length - k) endIndex s e s₁ →
      InBuffer s₁ (startIndex + k) e → field.length = k →
      unread s startIndex endIndex = field ++ unread s₁ (startIndex + k) e →
      (f e field).Ensures s₁ post) :
    Exec.Ensures (do
      let e ← readUntil k eof endIndex startIndex
      let field ← slice startIndex (startIndex + k)
      f e field) s post := by
  refine Exec.Ensures.bind ((readUntil_ensures k eof hin).mono ?_)
  intro o s₁ hpost
  cases o with
  | error φ =>
      obtain ⟨e, rfl, _⟩ := hpost.2
      exact hstuck _ _ hpost.1 hpost.stuck
  | ok e =>
      obtain ⟨hreads, hfetch, hin₁, hun, hle⟩ := hpost
      refine Exec.Ensures.step (slice_run (Nat.le_add_right _ _) (hle.trans hin₁.fits)) ?_
      exact hok e s₁ _ hreads hfetch ⟨hle, hin₁.fits⟩ (window_front_length hin₁ hle)
        (hun.symm.trans (slice_front s₁ hle))

end Pcopy.Server
