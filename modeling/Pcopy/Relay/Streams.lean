import Pcopy.Relay.Agreement
import Pcopy.Relay.Codec

/-!
# What a peer can read off its stream

Several tasks write to the stream of one peer: its own task the replies, the others commands.
Writes and flushes may fail part-way, and what a task could not flush the next one sends.  One
frame is not read as it was written: a DOCONNECT with an IPv6 address, of which the parser takes
the first four bytes of the address.

* `Delimits.atFront` — a parser that is put in front of bytes it delimits, as far as they are sent;
* `streams_carry` — in every state of every run, whatever fails, a stream is whole frames.
-/

namespace Pcopy.Relay

open Pcopy.Lib

/-! ### A parser inside a stream that is still being sent -/

section

variable {α : Type} {p : Parser α} {bytes : List UInt8} {a : α}

/-- Behind `pre` the parser takes the bytes once all of them are sent, and finds them incomplete
before. -/
theorem Delimits.atFront (h : Delimits p bytes a) {pre post sent : List UInt8}
    (hsent : sent <+: pre ++ bytes ++ post) (hstart : pre.length ≤ sent.length) :
    (pre.length + bytes.length ≤ sent.length →
        p ⟨sent, pre.length⟩ = (.ok a, ⟨sent, pre.length + bytes.length⟩)) ∧
      (sent.length < pre.length + bytes.length →
        (p ⟨sent, pre.length⟩).1 = .error (.err .incomplete)) := by
  -- what is sent behind `pre`
  obtain ⟨tail, rfl⟩ : pre <+: sent := by
    refine List.prefix_of_prefix_length_le ?_ hsent hstart
    rw [List.append_assoc]
    exact List.prefix_append _ _
  rw [List.append_assoc, List.prefix_append_right_inj] at hsent
  rw [List.length_append]
  have hcursor : (⟨pre ++ tail, pre.length⟩ : Cursor) = Cursor.split pre tail := rfl
  rw [hcursor]
  constructor
  · intro hwhole
    obtain ⟨rest, rfl⟩ : bytes <+: tail :=
      List.prefix_of_prefix_length_le (List.prefix_append _ _) hsent (by omega)
    rw [h.whole pre rest, Cursor.split, List.append_assoc, List.length_append]
  · intro hpart
    have htail : tail = bytes.take tail.length := by
      refine List.prefix_iff_eq_take.mp ?_
      exact List.prefix_of_prefix_length_le hsent (List.prefix_append _ _) (by omega)
    rw [htail]
    exact h.short tail.length (by omega) pre

end

/-! ### Frames one behind the other -/

/-- How many bytes the first `k` of the frames are. -/
def lengthOf (frames : List PeerFrames) (k : ℕ) : ℕ := (encoded (frames.take k)).length

/-- A stream carries the frames: these are what is given to it, and a parser that has read some of
them gets the next one, as it arrives on the wire, once all of it is sent.  The exception is a
DOCONNECT with an IPv6 address, which it reads as one with an IPv4 address, twelve bytes short of
the next frame. -/
structure Framed (b : BufWriter) (frames : List PeerFrames) : Prop where
  written : b.written = encoded frames
  /-- It finds a frame that is sent and stops behind it. -/
  read : ∀ k frame, frames[k]? = some frame → frame.AddressFits →
    lengthOf frames (k + 1) ≤ b.sent.length →
    PeerFrames.parse ⟨b.sent, lengthOf frames k⟩
      = (.ok frame.onWire, ⟨b.sent, lengthOf frames (k + 1)⟩)
  /-- It waits for a frame of which only a part is sent. -/
  awaited : ∀ k frame, frames[k]? = some frame → frame.AddressFits →
    lengthOf frames k ≤ b.sent.length → b.sent.length < lengthOf frames (k + 1) →
    (PeerFrames.parse ⟨b.sent, lengthOf frames k⟩).1 = .error (.err .incomplete)
  /-- It stops inside a DOCONNECT with an IPv6 address, with the first four bytes of that. -/
  misread : ∀ k ip, frames[k]? = some (.command (.doConnect (.v6 ip))) →
    lengthOf frames (k + 1) = lengthOf frames k + 6 + 12 ∧
    (lengthOf frames k + 6 ≤ b.sent.length →
      PeerFrames.parse ⟨b.sent, lengthOf frames k⟩
        = (.ok (.command (.doConnect (.v4 ip.firstFour))), ⟨b.sent, lengthOf frames k + 6⟩)) ∧
    (lengthOf frames k ≤ b.sent.length → b.sent.length < lengthOf frames k + 6 →
      (PeerFrames.parse ⟨b.sent, lengthOf frames k⟩).1 = .error (.err .incomplete))

theorem encoded_split {frames : List PeerFrames} {k : ℕ} {frame : PeerFrames}
    (hk : frames[k]? = some frame) :
    encoded frames = encoded (frames.take k) ++ frame.toBeBytes
      ++ encoded (frames.drop (k + 1)) := by
  obtain ⟨hlt, hget⟩ := List.getElem?_eq_some_iff.mp hk
  rw [← encoded_single, ← encoded_append, ← encoded_append, ← hget, List.take_concat_get',
    List.take_append_drop]

theorem lengthOf_succ {frames : List PeerFrames} {k : ℕ} {frame : PeerFrames}
    (hk : frames[k]? = some frame) :
    lengthOf frames (k + 1) = lengthOf frames k + frame.toBeBytes.length := by
  rw [lengthOf, List.take_add_one, hk, Option.toList_some, encoded_append, encoded_single,
    List.length_append, lengthOf]

/-- Whatever part of them is sent. -/
theorem Framed.of_written {b : BufWriter} {frames : List PeerFrames}
    (hwritten : b.written = encoded frames) : Framed b frames := by
  have hsent : b.sent <+: encoded frames := hwritten ▸ List.take_prefix _ _
  refine ⟨hwritten, ?_, ?_, ?_⟩
  · intro k frame hk hfits hwhole
    rw [lengthOf_succ hk] at hwhole ⊢
    rw [encoded_split hk] at hsent
    exact ((PeerFrames.delimits frame hfits).atFront hsent (by
      rw [← lengthOf]
      omega)).1 hwhole
  · intro k frame hk hfits hstart hpart
    rw [lengthOf_succ hk] at hpart
    rw [encoded_split hk] at hsent
    exact ((PeerFrames.delimits frame hfits).atFront hsent hstart).2 hpart
  · intro k ip hk
    have hv4 := doConnect_v4_length ip.firstFour
    have hdelimits := (PeerFrames.command (.doConnect (.v4 ip.firstFour))).delimits trivial
    have hsplit := encoded_split hk
    rw [doConnect_v6_toBeBytes, ← List.append_assoc, List.append_assoc _ _ (encoded _)] at hsplit
    rw [hsplit] at hsent
    refine ⟨?_, ?_, ?_⟩
    · rw [lengthOf_succ hk, doConnect_v6_toBeBytes, List.length_append, hv4, List.length_drop,
        ip.length_eq]
    · intro hwhole
      have hread := (hdelimits.atFront hsent (by
        rw [← lengthOf]
        omega)).1 (by rwa [hv4])
      rwa [hv4] at hread
    · intro hstart hpart
      exact (hdelimits.atFront hsent hstart).2 (by rwa [hv4])

/-! ### Every step, also one that fails -/

section

variable {cfg : Config} {s s' : State} {h : History} {a : Action} {i : StreamId}

/-- A write or a flush that fails gives the stream no bytes. -/
theorem written_failed (hstep : step cfg s a = some s')
    (ha : ∃ t n, a = .writeAll t (some n) ∨ a = .flush t (some n)) :
    (s'.channels i).written = (s.channels i).written ∧ event s a = none := by
  obtain ⟨t, n, rfl | rfl⟩ := ha
  · cases step_cases hstep with
    | writeFailed hwrites =>
        exact ⟨State.field_onChannel (fun c => c.written) rfl rfl i, rfl⟩
  · cases step_cases hstep with
    | flushFailed hwrites =>
        exact ⟨State.field_onChannel (fun c => c.written) rfl rfl i, rfl⟩

/-- **One step.**  A stream is given the frame of a write event, and nothing else. -/
theorem written_step (hw : (s.channels i).written = encoded (framesOn i h.log))
    (hstep : step cfg s a = some s') :
    (s'.channels i).written = encoded (framesOn i (observe s a h).log) := by
  by_cases hfailed : ∃ t n, a = .writeAll t (some n) ∨ a = .flush t (some n)
  · obtain ⟨hsame, hnone⟩ := written_failed (i := i) hstep hfailed
    rw [hsame, hw, log_observe_none hnone]
  · have hok (t : TaskId) (n : ℕ) : a ≠ .writeAll t (some n) ∧ a ≠ .flush t (some n) :=
      ⟨fun ha => hfailed ⟨t, n, Or.inl ha⟩, fun ha => hfailed ⟨t, n, Or.inr ha⟩⟩
    rcases writer_step hstep i hok with ⟨t, frame, rfl, hwrites, hframe, hc⟩ |
      ⟨t, rfl, hwrites, hc⟩ | ⟨hc, hnowrite, -⟩
    · rw [hc, log_observe (event_wrote hwrites hframe), framesOn_wrote, encoded_append,
        encoded_single, ← hw, Channel.writeAll, Channel.onWriter_toBufWriter]
      split
      · rfl
      · rfl
    · rw [hc, log_observe (event_flushed hwrites), BufWriter.drained_written, hw,
        framesOn_other fun _ heq => by cases heq]
    · rw [hc, hw]
      cases he : event s a with
      | none => rw [log_observe_none he]
      | some e =>
          obtain ⟨t, e⟩ := e
          rw [log_observe he, framesOn_other]
          rintro frame rfl
          rcases event_cases he with ⟨_, _, _, _, _, h0⟩ | ⟨_, _, ha, hwrites, _, h0⟩ |
            ⟨_, _, _, h0⟩ | ⟨_, _, _, h0⟩ | ⟨_, _, _, _, h0⟩
          · cases h0
          · cases h0
            exact hnowrite t ha hwrites
          · cases h0
          · cases h0
          · cases h0

/-- What a task writes to a stream that is not its own is a command. -/
theorem wrote_elsewhere {t : TaskId} {frame : PeerFrames} (hi : i ≠ t)
    (he : event s a = some (t, .wrote i frame)) : ∃ c, frame = .command c := by
  rcases event_cases he with ⟨_, _, _, _, _, h0⟩ | ⟨j, f, _, hwrites, hframe, h0⟩ |
    ⟨_, _, _, h0⟩ | ⟨_, _, _, h0⟩ | ⟨_, _, _, _, h0⟩
  · cases h0
  · cases h0
    cases hpc : s.pc t with
    | command inquiry id connMd phase =>
        rw [hpc] at hframe
        exact ⟨_, (Option.some.inj hframe).symm⟩
    | reply reply phase =>
        rw [hpc, Pc.writes] at hwrites
        split at hwrites
        · exact absurd (Option.some.inj hwrites).symm hi
        · cases hwrites
    | _ =>
        rw [hpc] at hframe
        cases hframe
  · cases h0
  · cases h0
  · cases h0

end

/-- What is given to the streams, in every state of every run. -/
theorem inStates_written (cfg : Config) (as : List Action) :
    InStates (observedStep cfg) (State.init, History.new) as fun s => ∀ i,
      (s.1.channels i).written = encoded (framesOn i s.2.log) ∧
        ∀ t frame, (t, .wrote i frame) ∈ s.2.log → i ≠ t → ∃ c, frame = .command c := by
  refine inStates_of_invariant (I := fun s : State × History => ∀ i,
    (s.1.channels i).written = encoded (framesOn i s.2.log) ∧
      ∀ t frame, (t, .wrote i frame) ∈ s.2.log → i ≠ t → ∃ c, frame = .command c) ?_ ?_
    (fun _ hinv => hinv) as
  · exact fun i => ⟨rfl, fun t frame hmem _ => absurd hmem List.not_mem_nil⟩
  · intro s a s' hinv hstep i
    obtain ⟨hstep, hobserve⟩ := observed_some.mp hstep
    obtain ⟨hwritten, hothers⟩ := hinv i
    rw [hobserve]
    refine ⟨written_step hwritten hstep, ?_⟩
    intro t frame hmem hi
    rcases List.mem_append.mp hmem with hold | hnew
    · exact hothers t frame hold hi
    · exact wrote_elsewhere hi (Option.mem_toList.mp hnew)

/-- **What a peer can read off its stream.**  In every state of every run of any number of
connections, whichever of their writes and flushes fail and after however many bytes: what is
given to a stream is the frames that the tasks wrote to it, whole and in the order in which they
wrote them; the parser of the peer, put behind any of them, finds the next one and waits while only
a part of it is sent, but reads a DOCONNECT with an IPv6 address as one with an IPv4 address and
stops twelve bytes before its end; and other tasks than the peer's own write only commands there. -/
theorem streams_carry (cfg : Config) (as : List Action) :
    InStates (observedStep cfg) (State.init, History.new) as fun s => ∀ i,
      Framed (s.1.channels i).toBufWriter (framesOn i s.2.log) ∧
        ∀ t frame, (t, .wrote i frame) ∈ s.2.log → i ≠ t → ∃ c, frame = .command c := by
  intro front hpre s hs i
  obtain ⟨hwritten, hothers⟩ := inStates_written cfg as front hpre s hs i
  exact ⟨Framed.of_written hwritten, hothers⟩

end Pcopy.Relay
