import Pcopy.Relay.Connection

/-!
# Incremental reading agrees with parsing the whole

What a parser of frames makes of a buffer, other than finding it incomplete, it makes of
every longer one, and from some length on it finds no buffer incomplete.  A reader that
starts with an empty buffer therefore makes of a finite stream what the parser makes of all
its bytes, however they arrive.

* `readFrame_eq_readAll` — the reader returns what the whole stream parses to;
* `frames_readIncrementally` — both families of frames are read so.
-/

namespace Pcopy.Relay

open Pcopy.Lib

/-! ### Both parsers are steady, and sated by their longest frame -/

namespace RelayFrames

theorem chooses_operation (value : UInt8) : Chooses (RelayOperations.tryFrom value) := by
  unfold RelayOperations.tryFrom
  split
  all_goals first | exact Chooses.pure _ | exact Chooses.refuse _

theorem steady_withPeerId (make : PeerId → RelayFrames) :
    Steady 0 (do
      let peerId ← PeerId.tryFrom
      pure (make peerId)) :=
  Steady.bind steady_peerId fun id => Steady.pure 0 (make id)

/-- What has parsed, or was refused, is not changed by what follows. -/
theorem steady : Steady 0 parse := by
  refine Steady.bind (Steady.require (Steady.getU8 fun value =>
    (chooses_operation value).steady 0)) fun op => ?_
  cases op with
  | register => exact steady_withPeerId RelayFrames.register
  | probe => exact steady_withPeerId RelayFrames.probe
  | doConnect => exact steady_withPeerId RelayFrames.doConnect
  | ping => exact Steady.pure _ _
  | probeAck => exact Steady.pure _ _

/-- The operation and an identifier are the most that a frame needs. -/
theorem sated : Sated 65 parse := by
  rw [parse, readOperation, Exec.bind_assoc]
  refine Sated.require (by decide) ?_
  rw [Exec.bind_assoc]
  refine Sated.getU8 fun value => Sated.choose (chooses_operation value) fun op => ?_
  cases op with
  | register => exact sated_peerId.map RelayFrames.register
  | probe => exact sated_peerId.map RelayFrames.probe
  | doConnect => exact sated_peerId.map RelayFrames.doConnect
  | ping => exact (Chooses.pure _).sated _
  | probeAck => exact (Chooses.pure _).sated _

end RelayFrames

namespace PeerFrames

/-- A guarded byte that is turned into a value or refused. -/
theorem sated_code {α : Type} {n : ℕ} {tryFrom : UInt8 → Parser α}
    (hchooses : ∀ code, Chooses (tryFrom code)) {f : α → Parser PeerFrames}
    (hf : ∀ a, Sated n (f a)) :
    Sated (n + 1) (do
      Cursor.require 1
      let code ← Cursor.getU8
      let value ← tryFrom code
      f value) :=
  Sated.require (by omega) (Sated.getU8 fun code => Sated.choose (hchooses code) hf)

theorem sated_command : Sated 5 parseCommand := by
  refine Sated.require (by decide) (Sated.getU8 fun code => ?_)
  by_cases hsync : code = syncCode
  · rw [if_pos hsync]
    exact (Chooses.pure _).sated _
  · rw [if_neg hsync]
    by_cases hconnect : code = doConnectCode
    · rw [if_pos hconnect]
      refine Sated.require le_rfl (Sated.take (fun xs hxs => ⟨_, parses_getU32 hxs⟩) le_rfl ?_)
      exact fun ip => (Chooses.pure _).sated _
    · rw [if_neg hconnect]
      exact (Chooses.refuse _).sated _

/-- The operation, a status and a `PeerInfo` are the most that a frame needs. -/
theorem sated : Sated 35 parse := by
  rw [parse, readOperation, Exec.bind_assoc]
  refine Sated.require (by decide) ?_
  rw [Exec.bind_assoc]
  refine Sated.getU8 fun value => Sated.choose (chooses_operation value) fun op => ?_
  cases op with
  | registerResult => exact sated_code chooses_statusCode fun _ => (Chooses.pure _).sated _
  | probeResult =>
      refine sated_code chooses_statusCode fun status => ?_
      by_cases hfailure : status = .failure
      · rw [if_pos hfailure]
        exact (Chooses.pure _).sated _
      · rw [if_neg hfailure]
        exact sated_peerInfo.map fun info => PeerFrames.probeResult (some info)
  | doConnectResult => exact sated_code chooses_statusCode fun _ => (Chooses.pure _).sated _
  | pingResult => exact sated_code chooses_healthStatus fun _ => (Chooses.pure _).sated _
  | commands => exact sated_command.mono (by decide)

end PeerFrames

/-! ### What a reader makes of a stream -/

section

variable {F : Type} [Frame F]

variable (F) in
/-- What parsing a whole stream gives: its first frame, or the error in it; nothing where the
stream is empty, and a reset where it ends inside a frame. -/
def readAll (bytes : List UInt8) : Except (Fault IoError) (Option F) :=
  match parsed F bytes with
  | .ok f => .ok (some f)
  | .error (.err .incomplete) => if bytes = [] then .ok none else .error (.err connectionReset)
  | .error (.err e) => .error (.err e.intoIo)
  | .error (.panic msg) => .error (.panic msg)
  | .error .outOfFuel => .error .outOfFuel

/-- A reader that is left with an error of the parser returns it. -/
theorem ReadEnd.of_refused {fuel ahead : ℕ} {buffer : List UInt8} {rest : SegStream UInt8}
    {e : IoError} {o : Except (Fault IoError) (Option F)}
    (hparsed : parsed F buffer = .error (.err (.other e)))
    (h : ReadEnd fuel ahead buffer rest o) :
    o = .error .outOfFuel ∧ fuel ≤ ahead ∨ o = .error (.err (FrameError.other e).intoIo) := by
  match o, h with
  | .ok (some g), h => exact absurd (h.symm.trans hparsed) (by simp)
  | .ok none, h => exact absurd (h.1.symm.trans hparsed) (by simp)
  | .error (.err _), .inl ⟨e', he, _, ho⟩ =>
      rw [hparsed, Except.error.injEq, Fault.err.injEq] at he
      exact Or.inr (by rw [ho, he])
  | .error (.err _), .inr h => exact absurd (h.1.symm.trans hparsed) (by simp)
  | .error (.panic _), h => exact absurd (h.symm.trans hparsed) (by simp)
  | .error .outOfFuel, .inl h => exact absurd (h.symm.trans hparsed) (by simp)
  | .error .outOfFuel, .inr h => exact Or.inl ⟨rfl, h⟩

/-- **The reader returns what the whole stream parses to**, from a new buffer of any capacity
and however the bytes arrive. -/
theorem readFrame_eq_readAll {σ : Type} {r : Reserve} {stream : AsyncStream σ}
    {source : σ → SegStream UInt8 → Prop} (hreads : ReadsFrom stream source)
    (hsteady : Steady 0 (Frame.parse : Parser F)) {s : σ} {st : SegStream UInt8}
    (hs : source s st) (capacity : ℕ) {fuel : ℕ} (hfuel : st.elems.length < fuel) :
    (readFrameGivenStream (F := F) r stream fuel (BytesMut.withCapacity capacity, s)).1
      = readAll F st.elems := by
  rcases hrun : readFrameGivenStream (F := F) r stream fuel (BytesMut.withCapacity capacity, s)
    with ⟨o, s'⟩
  obtain ⟨st', _, _, hbytes, hend⟩ := (readFrame_ensures hreads fuel _ hs).of_run hrun
  have hall : st.elems = s'.1.bytes ++ st'.elems := hbytes.symm
  rcases parsed_steady hsteady s'.1.bytes st'.elems with hinc | ⟨hsame, ⟨e, he⟩ | ⟨f, hf⟩⟩
  · -- incomplete: the whole stream is in the buffer
    rcases hend.of_incomplete hinc with ⟨_, hle⟩ | ⟨rfl, hnil, hrest⟩ | ⟨rfl, hne, hrest⟩
    · omega
    · rw [hnil] at hinc
      rw [hall, hnil, hrest, readAll, List.append_nil, hinc]
      rfl
    · rw [hall, hrest, List.append_nil, readAll, hinc]
      exact (if_neg hne).symm
  · rcases hend.of_refused he with ⟨_, hle⟩ | rfl
    · omega
    · rw [hall, readAll, hsame, he]
  · rcases hend.of_ok hf with ⟨_, hle⟩ | rfl
    · omega
    · rw [hall, readAll, hsame, hf]

/-! ### Both families of frames -/

variable (F) in
/-- Incremental reading of the frames `F` agrees with parsing: what parses or is refused stays
so whatever follows, nothing panics, `bound` bytes are never incomplete, and a reader with a
new buffer makes of every finite stream what parsing the whole of it gives. -/
structure ReadIncrementally (bound : ℕ) : Prop where
  accepts : ∀ (b : List UInt8) (f : F) (c : Cursor), Frame.parse (Cursor.new b) = (.ok f, c) →
    ∀ s, Frame.parse (Cursor.new (b ++ s)) = (.ok f, ⟨b ++ s, c.position⟩)
  refuses : ∀ b e, parsed F b = .error (.err e) → e ≠ .incomplete →
    ∀ s, parsed F (b ++ s) = .error (.err e)
  noPanic : ∀ b, (∃ f, parsed F b = .ok f) ∨ ∃ e, parsed F b = .error (.err e)
  complete : ∀ b, bound ≤ b.length → parsed F b ≠ .error (.err .incomplete)
  reads : ∀ (r : Reserve) (out : Outlet) (capacity fuel : ℕ) (st : SegStream UInt8),
    st.elems.length < fuel →
    (readFrameGivenStream (F := F) r (socketStream out) fuel
      (BytesMut.withCapacity capacity, Socket.fresh st)).1 = readAll F st.elems
  closed : ∀ b, readAll F b = .ok none ↔ b = []
  reset : ∀ b, readAll F b = .error (.err connectionReset) ↔
    b ≠ [] ∧ parsed F b = .error (.err .incomplete)

/-- A frame that was parsed is parsed whatever follows, and the cursor comes to the same
place. -/
theorem parse_append_of_ok (hsteady : Steady 0 (Frame.parse : Parser F)) {b : List UInt8} {f : F}
    {c : Cursor} (hparse : Frame.parse (Cursor.new b) = (.ok f, c)) (s : List UInt8) :
    Frame.parse (Cursor.new (b ++ s)) = (.ok f, ⟨b ++ s, c.position⟩) := by
  rw [Cursor.new_eq_split] at hparse ⊢
  rcases hsteady [] b (Nat.zero_le _) with hshort | ⟨e, hrefused⟩ | ⟨taken, left, g, rfl, htaken⟩
  · rw [hparse] at hshort
    cases hshort
  · have hend := hrefused []
    rw [List.append_nil, hparse] at hend
    cases hend
  · have hend := htaken []
    rw [List.append_nil, List.append_nil, hparse] at hend
    obtain ⟨ho, rfl⟩ := Prod.mk.inj hend
    rw [htaken s, Except.ok.inj ho]
    simp [Cursor.split]

theorem readAll_eq_none_iff (hsteady : Steady 0 (Frame.parse : Parser F))
    (hnil : Short (Frame.parse : Parser F) []) (b : List UInt8) :
    readAll F b = .ok none ↔ b = [] := by
  constructor
  · intro h
    rw [readAll] at h
    cases hparsed : parsed F b with
    | ok f => simp [hparsed] at h
    | error φ =>
        obtain ⟨e, rfl⟩ := parsed_fault hsteady hparsed
        cases e with
        | other e => simp [hparsed] at h
        | incomplete =>
            by_contra hne
            simp [hparsed, hne] at h
  · rintro rfl
    rw [readAll, parsed_of_short hnil]
    rfl

theorem readAll_eq_reset_iff (hsteady : Steady 0 (Frame.parse : Parser F)) (b : List UInt8) :
    readAll F b = .error (.err connectionReset) ↔
      b ≠ [] ∧ parsed F b = .error (.err .incomplete) := by
  constructor
  · intro h
    rw [readAll] at h
    cases hparsed : parsed F b with
    | ok f => simp [hparsed] at h
    | error φ =>
        obtain ⟨e, rfl⟩ := parsed_fault hsteady hparsed
        cases e with
        | other e =>
            -- an error of the parser keeps no kind
            simp [hparsed, connectionReset, FrameError.intoIo] at h
        | incomplete =>
            refine ⟨?_, rfl⟩
            rintro rfl
            simp [hparsed] at h
  · rintro ⟨hne, hparsed⟩
    rw [readAll, hparsed]
    exact if_neg hne

theorem ReadIncrementally.of_steady {bound : ℕ} (hsteady : Steady 0 (Frame.parse : Parser F))
    (hsated : Sated bound (Frame.parse : Parser F)) (hnil : Short (Frame.parse : Parser F) []) :
    ReadIncrementally F bound where
  accepts := fun b f c hparse s => parse_append_of_ok hsteady hparse s
  refuses := by
    intro b e hparsed hne s
    rcases parsed_steady hsteady b s with hinc | ⟨hsame, _⟩
    · rw [hparsed, Except.error.injEq, Fault.err.injEq] at hinc
      exact absurd hinc hne
    · rw [hsame, hparsed]
  noPanic := by
    intro b
    cases hparsed : parsed F b with
    | ok f => exact Or.inl ⟨f, rfl⟩
    | error φ =>
        obtain ⟨e, rfl⟩ := parsed_fault hsteady hparsed
        exact Or.inr ⟨e, rfl⟩
  complete := fun b hlen => hsated [] b hlen
  reads := fun r out capacity fuel st hfuel =>
    readFrame_eq_readAll (socketStream_readsFrom out) hsteady
      (show Sends (Socket.fresh st) st from rfl) capacity hfuel
  closed := readAll_eq_none_iff hsteady hnil
  reset := readAll_eq_reset_iff hsteady

/-- **Incremental reading agrees with one-shot parsing**, for both families of frames and on
arbitrary bytes. -/
theorem frames_readIncrementally :
    ReadIncrementally RelayFrames 65 ∧ ReadIncrementally PeerFrames 35 :=
  ⟨ReadIncrementally.of_steady RelayFrames.steady RelayFrames.sated RelayFrames.short_nil,
    ReadIncrementally.of_steady PeerFrames.steady PeerFrames.sated PeerFrames.short_nil⟩

end

end Pcopy.Relay
