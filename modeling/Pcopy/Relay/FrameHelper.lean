import Pcopy.Lib.SegmentedStream
import Pcopy.Relay.Frame

/-!
# Reading and writing frames on a shared stream

`read_frame_given_stream` and `write_frame_given_stream`.  The reader parses what its
buffer holds and reads more only when that is an incomplete frame; it never takes from the
buffer what it returned.

The mutex around the stream is left out here: a task that runs alone always gets it.

* `readFrame_ensures` — on a stream in segments the reader accounts for every byte, and
  its end says what the buffer parses to;
* `readFrame_of_parsed` — a buffer that holds a frame is read without touching the stream;
* `readFrame_first`, `readFrame_closed` — what the first read of a stream returns.
-/

namespace Pcopy.Relay

open Pcopy.Lib

/-- `BytesMut`: the capacity it was made with and what it holds. -/
structure BytesMut where
  capacity : ℕ
  bytes : List UInt8
  deriving DecidableEq

/-- `BytesMut::with_capacity`. -/
def BytesMut.withCapacity (capacity : ℕ) : BytesMut := ⟨capacity, []⟩

/-- What a read does to the buffer it is given. -/
def BytesMut.extend (buffer : BytesMut) (bytes : List UInt8) : BytesMut :=
  { buffer with bytes := buffer.bytes ++ bytes }

/-- How `BytesMut` grows: the room it offers to a read, by the capacity it was made with
and the number of bytes in it.  There always is some. -/
structure Reserve where
  room : ℕ → ℕ → ℕ
  room_pos : ∀ capacity len, 0 < room capacity len

/-- A stream that can be read and written: what `AsyncReadExt` and `AsyncWriteExt` offer. -/
structure AsyncStream (σ : Type) where
  readBuf : ℕ → Exec IoError σ (List UInt8)
  writeAll : List UInt8 → Exec IoError σ Unit
  flush : Exec IoError σ Unit

/-- The end of parsing a buffer from its start. -/
def parsed (F : Type) [Frame F] (bytes : List UInt8) : Except (Fault FrameError) F :=
  ((Frame.parse : Parser F) (Cursor.new bytes)).1

/-- The capacity after the growths that leave room behind `len` bytes: a full buffer doubles
its capacity or takes 64 bytes more, whichever is larger. -/
def BytesMut.grown : ℕ → ℕ → ℕ → ℕ
  | 0, capacity, _ => capacity
  | fuel + 1, capacity, len =>
      if len < capacity then capacity
      else grown fuel (max (2 * capacity) (capacity + 64)) len

theorem BytesMut.lt_grown (fuel capacity len : ℕ) (h : len < capacity + fuel) :
    len < grown fuel capacity len := by
  induction fuel generalizing capacity with
  | zero => simpa [grown] using h
  | succ fuel ih =>
      rw [grown]
      by_cases hlt : len < capacity
      · rwa [if_pos hlt]
      · rw [if_neg hlt]
        exact ih _ (by omega)

/-- The growth of `BytesMut` in the `bytes` crate. -/
def BytesMut.reserve : Reserve where
  room capacity len := grown (len + 1) capacity len - len
  room_pos capacity len := by
    have h := lt_grown (len + 1) capacity len (by omega)
    omega

section

variable {σ F : Type} [Frame F]

/-- `parse_frame`. -/
def parseFrame (buffer : BytesMut) : Except (Fault IoError) (Option F) :=
  match parsed F buffer.bytes with
  | .ok frame => .ok (some frame)
  | .error (.err .incomplete) => .ok none
  | .error (.err e) => .error (.err e.intoIo)
  | .error (.panic msg) => .error (.panic msg)
  | .error .outOfFuel => .error .outOfFuel

theorem parsed_of_parses {bytes rest : List UInt8} {f : F}
    (h : Parses (Frame.parse : Parser F) bytes f) : parsed F (bytes ++ rest) = .ok f := by
  rw [parsed, Cursor.new_eq_split, h [] rest]

theorem parsed_of_short {bytes : List UInt8} (h : Short (Frame.parse : Parser F) bytes) :
    parsed F bytes = .error (.err .incomplete) := by
  rw [parsed, Cursor.new_eq_split, h []]

/-- What a part of a stream that starts with an encoded frame parses to. -/
theorem parsed_front {bytes rest front back : List UInt8} {f : F}
    (h : Delimits (Frame.parse : Parser F) bytes f) (hsplit : front ++ back = bytes ++ rest) :
    parsed F front = .ok f ∨
      front.length < bytes.length ∧ parsed F front = .error (.err .incomplete) := by
  have hfront : front = (bytes ++ rest).take front.length := by rw [← hsplit, List.take_left]
  by_cases hlt : front.length < bytes.length
  · rw [List.take_append_of_le_length (le_of_lt hlt)] at hfront
    rw [hfront]
    exact Or.inr ⟨by rw [List.length_take]; omega, parsed_of_short (h.short _ hlt)⟩
  · rw [List.take_append, List.take_of_length_le (by omega)] at hfront
    rw [hfront]
    exact Or.inl (parsed_of_parses h.whole)

/-- What a part of a stream parses to is what all of it parses to, unless it is too short. -/
theorem parsed_steady (h : Steady 0 (Frame.parse : Parser F)) (front back : List UInt8) :
    parsed F front = .error (.err .incomplete) ∨
      parsed F (front ++ back) = parsed F front ∧
        ((∃ e, parsed F front = .error (.err (.other e))) ∨ ∃ f, parsed F front = .ok f) := by
  rcases h [] front (Nat.zero_le _) with hshort | ⟨e, hrefused⟩ | ⟨taken, left, f, _, htaken⟩
  · exact Or.inl hshort
  · have hfront := hrefused []
    rw [List.append_nil] at hfront
    exact Or.inr ⟨(hrefused back).trans hfront.symm, Or.inl ⟨e, hfront⟩⟩
  · have hfront := congrArg Prod.fst (htaken [])
    rw [List.append_nil] at hfront
    exact Or.inr ⟨(congrArg Prod.fst (htaken back)).trans hfront.symm, Or.inr ⟨f, hfront⟩⟩

/-- Such a parser fails with errors only. -/
theorem parsed_fault (h : Steady 0 (Frame.parse : Parser F)) {bytes : List UInt8}
    {φ : Fault FrameError} (hparsed : parsed F bytes = .error φ) : ∃ e, φ = .err e := by
  rcases parsed_steady h bytes [] with hend | ⟨_, ⟨e, hend⟩ | ⟨f, hend⟩⟩
  · exact ⟨.incomplete, Except.error.inj (hparsed.symm.trans hend)⟩
  · exact ⟨.other e, Except.error.inj (hparsed.symm.trans hend)⟩
  · exact absurd (hparsed.symm.trans hend) (by simp)

/-- The error for a stream that ends inside a frame. -/
def connectionReset : IoError := ⟨.connectionReset, "connection reset by peer"⟩

/-- The part of `read_frame_given_stream` that goes to the stream; `loop` is its next turn. -/
def readMore (stream : AsyncStream σ) (room : ℕ) (buffer : BytesMut)
    (loop : Exec IoError (BytesMut × σ) (Option F)) : Exec IoError (BytesMut × σ) (Option F) := do
  let bytes ← Exec.onSecond (stream.readBuf room)
  Exec.modify fun s => (s.1.extend bytes, s.2)
  if bytes = [] then
    -- the remote closed the connection
    if buffer.bytes = [] then pure none else Exec.fail connectionReset
  else loop

/-- `read_frame_given_stream`.  The state is the buffer, which the caller keeps, and the
state of the stream. -/
def readFrameGivenStream (r : Reserve) (stream : AsyncStream σ) :
    ℕ → Exec IoError (BytesMut × σ) (Option F)
  | 0 => Exec.outOfFuel
  | fuel + 1 => do
      let (buffer, _) ← Exec.get
      match ← Exec.ofResult (parseFrame buffer) with
      | some frame => pure (some frame)
      | none =>
          readMore stream (r.room buffer.capacity buffer.bytes.length) buffer
            (readFrameGivenStream r stream fuel)

/-- `write_frame_given_stream`. -/
def writeFrameGivenStream (stream : AsyncStream σ) (frame : F) : Exec IoError σ Unit := do
  stream.writeAll (Frame.toBeBytes frame)
  stream.flush

/-! ### The reader, turn by turn -/

variable {r : Reserve} {stream : AsyncStream σ}

/-- A buffer that holds a frame is read without touching the stream, and keeps it. -/
theorem readFrame_of_parsed {buffer : BytesMut} {f : F} (h : parsed F buffer.bytes = .ok f)
    (fuel : ℕ) (s : σ) :
    readFrameGivenStream r stream (fuel + 1) (buffer, s) = (.ok (some f), (buffer, s)) := by
  rw [readFrameGivenStream, Exec.get_bind]
  simp only [parseFrame, h, Exec.ofResult_ok_bind, Exec.pure_run]

/-- What a stream with the input `source` does to it when it is read. -/
def ReadsFrom (stream : AsyncStream σ) (source : σ → SegStream UInt8 → Prop) : Prop :=
  ∀ room s st, source s st →
    ∃ s', stream.readBuf room s = (.ok (st.read room).1, s') ∧ source s' (st.read room).2

/-- How a reader ends that was given `fuel` for `ahead` bytes and has `buffer` and `rest`
left. -/
def ReadEnd (fuel ahead : ℕ) (buffer : List UInt8) (rest : SegStream UInt8) :
    Except (Fault IoError) (Option F) → Prop
  | .ok (some f) => parsed F buffer = .ok f
  | .ok none => parsed F buffer = .error (.err .incomplete) ∧ buffer = [] ∧ rest.elems = []
  | .error (.err e) =>
      (∃ e', parsed F buffer = .error (.err e') ∧ e' ≠ .incomplete ∧ e = e'.intoIo) ∨
        parsed F buffer = .error (.err .incomplete) ∧ buffer ≠ [] ∧ rest.elems = [] ∧
          e = connectionReset
  | .error (.panic msg) => parsed F buffer = .error (.panic msg)
  | .error .outOfFuel => parsed F buffer = .error .outOfFuel ∨ fuel ≤ ahead

theorem ReadEnd.mono {fuel ahead fuel' ahead' : ℕ} {buffer : List UInt8}
    {rest : SegStream UInt8} {o : Except (Fault IoError) (Option F)}
    (h : ReadEnd fuel ahead buffer rest o) (himp : fuel ≤ ahead → fuel' ≤ ahead') :
    ReadEnd fuel' ahead' buffer rest o := by
  match o, h with
  | .ok (some _), h => exact h
  | .ok none, h => exact h
  | .error (.err _), h => exact h
  | .error (.panic _), h => exact h
  | .error .outOfFuel, h => exact h.imp_right himp

/-- A reader that is left with a frame returns it. -/
theorem ReadEnd.of_ok {fuel ahead : ℕ} {buffer : List UInt8} {rest : SegStream UInt8} {f : F}
    {o : Except (Fault IoError) (Option F)} (hparsed : parsed F buffer = .ok f)
    (h : ReadEnd fuel ahead buffer rest o) :
    o = .error .outOfFuel ∧ fuel ≤ ahead ∨ o = .ok (some f) := by
  match o, h with
  | .ok (some g), h => exact Or.inr (by rw [Except.ok.inj (h.symm.trans hparsed)])
  | .ok none, h => exact absurd (h.1.symm.trans hparsed) (by simp)
  | .error (.err _), .inl ⟨_, he, _⟩ => exact absurd (he.symm.trans hparsed) (by simp)
  | .error (.err _), .inr h => exact absurd (h.1.symm.trans hparsed) (by simp)
  | .error (.panic _), h => exact absurd (h.symm.trans hparsed) (by simp)
  | .error .outOfFuel, .inl h => exact absurd (h.symm.trans hparsed) (by simp)
  | .error .outOfFuel, .inr h => exact Or.inl ⟨rfl, h⟩

/-- A reader that is left with an incomplete frame is at the end of the stream. -/
theorem ReadEnd.of_incomplete {fuel ahead : ℕ} {buffer : List UInt8} {rest : SegStream UInt8}
    {o : Except (Fault IoError) (Option F)}
    (hparsed : parsed F buffer = .error (.err .incomplete))
    (h : ReadEnd fuel ahead buffer rest o) :
    o = .error .outOfFuel ∧ fuel ≤ ahead ∨ o = .ok none ∧ buffer = [] ∧ rest.elems = [] ∨
      o = .error (.err connectionReset) ∧ buffer ≠ [] ∧ rest.elems = [] := by
  match o, h with
  | .ok (some g), h => exact absurd (h.symm.trans hparsed) (by simp)
  | .ok none, h => exact Or.inr (Or.inl ⟨rfl, h.2⟩)
  | .error (.err _), .inl ⟨e', he, hne, _⟩ =>
      rw [hparsed, Except.error.injEq, Fault.err.injEq] at he
      exact absurd he.symm hne
  | .error (.err _), .inr ⟨_, hne, hrest, he⟩ => exact Or.inr (Or.inr ⟨by rw [he], hne, hrest⟩)
  | .error (.panic _), h => exact absurd (h.symm.trans hparsed) (by simp)
  | .error .outOfFuel, .inl h => exact absurd (h.symm.trans hparsed) (by simp)
  | .error .outOfFuel, .inr h => exact Or.inl ⟨rfl, h⟩

/-- The post-condition of a reader that starts with `buffer` and `st` ahead. -/
def ReadPost (source : σ → SegStream UInt8 → Prop) (fuel : ℕ) (buffer : BytesMut)
    (st : SegStream UInt8) (o : Except (Fault IoError) (Option F)) (s' : BytesMut × σ) : Prop :=
  ∃ st', source s'.2 st' ∧ s'.1.capacity = buffer.capacity ∧
    s'.1.bytes ++ st'.elems = buffer.bytes ++ st.elems ∧
      ReadEnd fuel st.elems.length s'.1.bytes st' o

/-- The turn of the reader that goes to the stream. -/
theorem readMore_ensures {source : σ → SegStream UInt8 → Prop} (hreads : ReadsFrom stream source)
    {fuel : ℕ} {buffer : BytesMut} {s : σ} {st : SegStream UInt8}
    (hparsed : parsed F buffer.bytes = .error (.err .incomplete)) (hs : source s st)
    (ih : ∀ (buffer : BytesMut) {s : σ} {st : SegStream UInt8}, source s st →
      Exec.Ensures (readFrameGivenStream (F := F) r stream fuel) (buffer, s)
        (ReadPost source fuel buffer st)) :
    Exec.Ensures (readMore (F := F) stream (r.room buffer.capacity buffer.bytes.length) buffer
      (readFrameGivenStream r stream fuel)) (buffer, s) (ReadPost source (fuel + 1) buffer st) := by
  have hpos := r.room_pos buffer.capacity buffer.bytes.length
  generalize r.room buffer.capacity buffer.bytes.length = room at hpos ⊢
  obtain ⟨s', hrun, hs'⟩ := hreads room s st hs
  have happend := st.read_append room
  rw [readMore]
  refine Exec.Ensures.step (Exec.onSecond_run buffer hrun) ?_
  refine Exec.Ensures.step (Exec.modify_run _ _) ?_
  by_cases hnil : (st.read room).1 = []
  · have hend : st.elems = [] := by
      rcases (st.read_eq_nil_iff room).mp hnil with hroom | hend
      · omega
      · exact hend
    have hrest : (st.read room).2.elems = [] := by rwa [hnil, List.nil_append, hend] at happend
    have hpost : ∀ o : Except (Fault IoError) (Option F),
        ReadEnd (fuel + 1) st.elems.length buffer.bytes (st.read room).2 o →
          ReadPost source (fuel + 1) buffer st o (buffer.extend [], s') :=
      fun o ho => ⟨_, hs', rfl, by simp [BytesMut.extend, hrest, hend],
        by simpa [BytesMut.extend] using ho⟩
    rw [hnil, if_pos rfl]
    by_cases hempty : buffer.bytes = []
    · rw [if_pos hempty]
      exact hpost (.ok none) ⟨hparsed, hempty, hrest⟩
    · rw [if_neg hempty]
      exact hpost (.error (.err _)) (Or.inr ⟨hparsed, hempty, hrest, rfl⟩)
  · rw [if_neg hnil]
    have hlt := st.read_elems_lt room hnil
    refine Exec.Ensures.mono (ih (buffer.extend (st.read room).1) hs') ?_
    intro o s₁ hpost
    obtain ⟨st', hs₁, hcap, hbytes, hend⟩ := hpost
    refine ⟨st', hs₁, hcap, ?_, hend.mono (by omega)⟩
    rw [hbytes, BytesMut.extend, List.append_assoc, happend]

/-- **Every byte is accounted for.**  What the reader leaves in the buffer and on the stream
is what it found there, and its end tells what the buffer parses to. -/
theorem readFrame_ensures {source : σ → SegStream UInt8 → Prop} (hreads : ReadsFrom stream source)
    (fuel : ℕ) (buffer : BytesMut) {s : σ} {st : SegStream UInt8} (hs : source s st) :
    Exec.Ensures (readFrameGivenStream (F := F) r stream fuel) (buffer, s)
      (ReadPost source fuel buffer st) := by
  induction fuel generalizing buffer s st with
  | zero => exact ⟨st, hs, rfl, rfl, Or.inr (Nat.zero_le _)⟩
  | succ fuel ih =>
      have hsame : ∀ o : Except (Fault IoError) (Option F),
          ReadEnd (fuel + 1) st.elems.length buffer.bytes st o →
            ReadPost source (fuel + 1) buffer st o (buffer, s) :=
        fun o ho => ⟨st, hs, rfl, rfl, ho⟩
      rw [readFrameGivenStream, Exec.Ensures, Exec.get_bind]
      cases hparsed : parsed F buffer.bytes with
      | ok f => simpa [parseFrame, hparsed] using hsame (.ok (some f)) hparsed
      | error φ =>
          cases φ with
          | panic msg => simpa [parseFrame, hparsed] using hsame (.error (.panic msg)) hparsed
          | outOfFuel =>
              simpa [parseFrame, hparsed] using hsame (.error .outOfFuel) (Or.inl hparsed)
          | err e =>
              cases e with
              | other e =>
                  simpa [parseFrame, hparsed] using
                    hsame (.error (.err _)) (Or.inl ⟨_, hparsed, by simp, rfl⟩)
              | incomplete =>
                  simp only [parseFrame, hparsed, Exec.ofResult_ok_bind]
                  exact readMore_ensures hreads hparsed hs ih

/-- **The first read** of a stream that starts with a frame returns it, and leaves the
buffer holding it. -/
theorem readFrame_first {source : σ → SegStream UInt8 → Prop} (hreads : ReadsFrom stream source)
    {bytes rest : List UInt8} {f : F} {st : SegStream UInt8} {s : σ}
    (h : Delimits (Frame.parse : Parser F) bytes f) (hs : source s st)
    (hst : st.elems = bytes ++ rest) (capacity fuel : ℕ) :
    Exec.Ensures (readFrameGivenStream (F := F) r stream fuel)
      (BytesMut.withCapacity capacity, s) fun o s' =>
        o = .error .outOfFuel ∧ fuel ≤ st.elems.length ∨
          o = .ok (some f) ∧ parsed F s'.1.bytes = .ok f ∧ ∃ st', source s'.2 st' := by
  refine Exec.Ensures.mono
    (readFrame_ensures hreads fuel (BytesMut.withCapacity capacity) hs) ?_
  intro o s' hpost
  obtain ⟨st', hs', _, hbytes, hend⟩ := hpost
  have hsplit : s'.1.bytes ++ st'.elems = bytes ++ rest := hbytes.trans hst
  rcases parsed_front h hsplit with hok | ⟨hlt, hinc⟩
  · exact (hend.of_ok hok).imp_right fun ho => ⟨ho, hok, st', hs'⟩
  · have hahead : st'.elems ≠ [] := by
      intro hnil
      have hlen := congrArg List.length hsplit
      rw [hnil, List.append_nil, List.length_append] at hlen
      omega
    rcases hend.of_incomplete hinc with ho | ⟨_, _, hnil⟩ | ⟨_, _, hnil⟩
    · exact Or.inl ho
    · exact absurd hnil hahead
    · exact absurd hnil hahead

/-- On a stream that is closed the first read finds that. -/
theorem readFrame_closed {source : σ → SegStream UInt8 → Prop} (hreads : ReadsFrom stream source)
    {st : SegStream UInt8} {s : σ} (h : Short (Frame.parse : Parser F) []) (hs : source s st)
    (hst : st.elems = []) (capacity : ℕ) {fuel : ℕ} (hfuel : 0 < fuel) :
    Exec.Ensures (readFrameGivenStream (F := F) r stream fuel)
      (BytesMut.withCapacity capacity, s) fun o s' => o = .ok none ∧ ∃ st', source s'.2 st' := by
  refine Exec.Ensures.mono
    (readFrame_ensures hreads fuel (BytesMut.withCapacity capacity) hs) ?_
  intro o s' hpost
  obtain ⟨st', hs', _, hbytes, hend⟩ := hpost
  have hempty := List.append_eq_nil_iff.mp (hbytes.trans hst)
  rw [hempty.1] at hend
  rcases hend.of_incomplete (parsed_of_short h) with ⟨_, hle⟩ | ⟨ho, _⟩ | ⟨_, hne, _⟩
  · rw [hst, List.length_nil] at hle
    omega
  · exact ⟨ho, st', hs'⟩
  · exact absurd rfl hne

end

end Pcopy.Relay
