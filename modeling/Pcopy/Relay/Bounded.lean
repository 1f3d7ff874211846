import Pcopy.Relay.IncrementalReading
import Pcopy.Relay.History

/-!
# What the relay keeps in memory for a peer

A task reads on only while its buffer holds less than a frame, and a `BufWriter` flushes before it
overflows.  So no peer makes the relay keep more than a fixed number of bytes, whatever it sends
and whether or not it takes what it is sent.

* `Bounded` — the bounds;
* `buffers_bounded` — they hold in every state of every run.
-/

namespace Pcopy.Relay

open Pcopy.Lib

/-- The relay with the buffers of the `bytes` crate. -/
def Config.growing (shard : PeerId → ℕ) : Config := ⟨BytesMut.reserve, shard⟩

/-- The sizes of all buffers: those of connections, of those of them that are read into, of
probes, and of what is not sent yet. -/
structure Bounded (s : State) : Prop where
  buffer : ∀ t, (s.tasks t).buffer.bytes.length ≤ 1024
  receiving : ∀ t phase, s.pc t = .receive phase →
    (s.tasks t).buffer.capacity = 1024 ∧ (s.tasks t).buffer.bytes.length ≤ 64
  probing : ∀ t id connMd buffer phase, s.pc t = .ack id connMd buffer phase →
    buffer.bytes.length ≤ 64
  unflushed : ∀ i, (s.channels i).unflushed.length ≤ bufWriterCapacity

theorem Bounded.init : Bounded State.init where
  buffer _ := Nat.zero_le _
  receiving _ _ hpc := by cases hpc
  probing _ _ _ _ _ hpc := by cases hpc
  unflushed _ := Nat.zero_le _

/-! ### Sizes -/

/-- A buffer that is not full does not grow. -/
theorem room_of_lt {capacity len : ℕ} (h : len < capacity) :
    BytesMut.reserve.room capacity len = capacity - len := by
  show BytesMut.grown (len + 1) capacity len - len = _
  rw [BytesMut.grown, if_pos h]

/-- Less than a frame is at most 64 bytes. -/
theorem length_of_incomplete {bytes : List UInt8}
    (h : parsed RelayFrames bytes = .error (.err .incomplete)) : bytes.length ≤ 64 := by
  by_contra hlt
  exact RelayFrames.sated [] bytes (Nat.lt_of_not_le hlt) h

theorem PeerFrames.toBeBytes_length (frame : PeerFrames) : frame.toBeBytes.length ≤ 35 := by
  cases frame with
  | registerResult code => exact Nat.le_of_ble_eq_true rfl
  | doConnectResult code => exact Nat.le_of_ble_eq_true rfl
  | pingResult health => exact Nat.le_of_ble_eq_true rfl
  | probeResult info =>
      cases info with
      | none => exact Nat.le_of_ble_eq_true rfl
      | some info =>
          rw [toBeBytes, List.length_cons, List.length_cons, info.toBeBytes_length]
          exact Nat.le_of_ble_eq_true rfl
  | command c =>
      cases c with
      | sync => exact Nat.le_of_ble_eq_true rfl
      | doConnect ip =>
          cases ip with
          | v4 ip => simp [toBeBytes, PeerCommands.toBeBytes, IpAddr.octets, ip.length_eq]
          | v6 ip => simp [toBeBytes, PeerCommands.toBeBytes, IpAddr.octets, ip.length_eq]

theorem dispatch_receive {health : HealthStatus} {buffer : BytesMut} {phase : ReadPhase}
    (h : dispatch health buffer = .receive phase) :
    parsed RelayFrames buffer.bytes = .error (.err .incomplete) := by
  rcases dispatch_cases health buffer with ⟨-, hparse⟩ | ⟨_, hd⟩ | ⟨_, _, hd⟩ | hd | ⟨_, hd⟩
  · rw [parseFrame] at hparse
    split at hparse
    · cases hparse
    · assumption
    · cases hparse
    · cases hparse
    · cases hparse
  all_goals cases hd.symm.trans h

theorem afterAck_ack {id id' : PeerId} {connMd connMd' : PeerConnectionMetadata}
    {elapsed : Duration} {buffer buffer' : BytesMut} {phase : ReadPhase}
    (h : afterAck id connMd elapsed buffer = .ack id' connMd' buffer' phase) :
    parsed RelayFrames buffer'.bytes = .error (.err .incomplete) := by
  rw [afterAck, parseFrame] at h
  cases hparsed : parsed RelayFrames buffer.bytes with
  | ok f =>
      rw [hparsed] at h
      cases f <;> cases h
  | error φ =>
      rw [hparsed] at h
      rcases φ with (_ | e) | msg | _
      · cases h
        exact hparsed
      · cases h
      · cases h
      · cases h

section

variable {cfg : Config} {shard : PeerId → ℕ} {s s' : State} {a : Action} {t : TaskId}

/-! ### Steps -/

/-- A connection's buffer has room for what its task reads. -/
theorem room_of_read {n : ℕ} {elapsed : Duration}
    (hstep : step cfg s (.read t n elapsed) = some s') (hpos : 0 < n)
    (hpc : s.pc t = .receive .read) :
    n ≤ cfg.reserve.room (s.tasks t).buffer.capacity (s.tasks t).buffer.bytes.length := by
  cases step_cases hstep with
  | readEnd hreads hempty hclosed => exact absurd hpos (Nat.lt_irrefl 0)
  | read hreads hpos hn hroom =>
      rw [hpc] at hroom
      exact hroom

theorem buffer_step (hb : Bounded s) (hstep : step (.growing shard) s a = some s') (t : TaskId) :
    (s'.tasks t).buffer.bytes.length ≤ 1024 := by
  rcases tasks_step hstep t with ⟨-, hm⟩ | ⟨-, hsame⟩ | ⟨-, -, address, htask⟩
  · rcases hm.buffer with hsame | ⟨n, elapsed, rfl, hpc, hn, hextend⟩
    · rw [hsame]
      exact hb.buffer t
    · obtain ⟨hcap, hlen⟩ := hb.receiving t .read hpc
      rw [hextend, BytesMut.extend, List.length_append, List.length_take_of_le hn]
      rcases Nat.eq_zero_or_pos n with rfl | hpos
      · exact hb.buffer t
      · have hroom := room_of_read hstep hpos hpc
        rw [hcap] at hroom
        have hle : n ≤ 1024 - (s.tasks t).buffer.bytes.length :=
          (room_of_lt (show (s.tasks t).buffer.bytes.length < 1024 by omega)) ▸ hroom
        omega
  · rw [hsame]
    exact hb.buffer t
  · rw [htask]
    exact Nat.zero_le _

theorem receiving_step (hb : Bounded s) (hstep : step cfg s a = some s') {phase : ReadPhase}
    (hpc' : s'.pc t = .receive phase) (hserving : (s.tasks t).Serving) :
    (s'.tasks t).buffer.capacity = 1024 ∧ (s'.tasks t).buffer.bytes.length ≤ 64 := by
  rcases tasks_step hstep t with ⟨-, hm⟩ | ⟨-, hsame⟩ | ⟨-, -, address, htask⟩
  · obtain ⟨phase₀, hpc⟩ := hm.receive hserving hpc'
    obtain ⟨hcap, hlen⟩ := hb.receiving t phase₀ hpc
    rw [State.pc] at hpc'
    generalize s'.tasks t = task' at hm hpc' ⊢
    cases hm with
    | readReceive hpc hpos hn =>
        exact ⟨hcap, length_of_incomplete (dispatch_receive hpc')⟩
    | _ => exact ⟨hcap, hlen⟩
  · rw [hsame]
    exact hb.receiving t phase ((congrArg Task.pc hsame).symm.trans hpc')
  · rw [htask]
    exact ⟨rfl, Nat.zero_le _⟩

theorem probing_step (hb : Bounded s) (hstep : step cfg s a = some s') {id : PeerId}
    {connMd : PeerConnectionMetadata} {buffer : BytesMut} {phase : ReadPhase}
    (hpc' : s'.pc t = .ack id connMd buffer phase) : buffer.bytes.length ≤ 64 := by
  rcases tasks_step hstep t with ⟨-, hm⟩ | ⟨-, hsame⟩ | ⟨-, -, address, htask⟩
  · rw [State.pc] at hpc'
    generalize s'.tasks t = task' at hm hpc'
    cases hm with
    | lockAck hpc =>
        cases hpc'
        exact hb.probing t _ _ _ _ hpc
    | endAck hpc hclosed hnext =>
        rcases hnext with ⟨-, rfl⟩ | ⟨-, rfl⟩
        · cases hpc'
        · cases hpc'
    | readReceive hpc hpos hn => cases metadata_of_dispatch hpc'
    | readAck hpc hpos hn => exact length_of_incomplete (afterAck_ack hpc')
    | flushProbe hpc =>
        cases hpc'
        exact Nat.zero_le _
    | flushReply hpc => cases metadata_of_dispatch hpc'
    | _ => cases hpc'
  · exact hb.probing t _ _ _ _ ((congrArg Task.pc hsame).symm.trans hpc')
  · rw [State.pc, htask] at hpc'
    cases hpc'

theorem unflushed_advance (b : BufWriter) (n : ℕ) :
    (b.advance n).unflushed.length ≤ b.unflushed.length := by
  simp only [BufWriter.unflushed, BufWriter.advance, List.length_drop]
  omega

theorem unflushed_writeAll {c : Channel} {bytes : List UInt8}
    (hbytes : bytes.length ≤ bufWriterCapacity) :
    (c.writeAll bytes).unflushed.length ≤ bufWriterCapacity := by
  simp only [Channel.writeAll, Channel.onWriter_toBufWriter]
  split
  · rw [BufWriter.push_unflushed, BufWriter.drained_unflushed]
    exact hbytes
  · rename_i hfits
    rw [BufWriter.push_unflushed, List.length_append]
    exact Nat.le_of_not_lt hfits

/-- An update of one connection keeps a bound on all of them. -/
theorem unflushed_onChannel {s₀ s₁ : State} {j : StreamId} {f : Channel → Channel}
    (hb : ∀ i, (s₀.channels i).unflushed.length ≤ bufWriterCapacity)
    (hs : s₁.channels = s₀.channels)
    (hf : (f (s₀.channels j)).unflushed.length ≤ bufWriterCapacity) (i : StreamId) :
    ((s₁.onChannel j f).channels i).unflushed.length ≤ bufWriterCapacity := by
  by_cases hi : i = j
  · subst hi
    rw [State.channels_onChannel_self, hs]
    exact hf
  · rw [State.channels_onChannel_ne _ _ hi, hs]
    exact hb i

theorem unflushed_step (hb : Bounded s) (hstep : step cfg s a = some s') :
    ∀ i, (s'.channels i).unflushed.length ≤ bufWriterCapacity := by
  have hall := hb.unflushed
  cases step_cases hstep with
  | connect address => exact hall
  | send hi hopen hbytes => exact unflushed_onChannel hall rfl (hall _)
  | answer hi hopen => exact unflushed_onChannel hall rfl (hall _)
  | close hi hopen => exact unflushed_onChannel hall rfl (hall _)
  | lock hwants hfree => exact unflushed_onChannel hall rfl (hall _)
  | readEnd hreads hempty hclosed => exact unflushed_onChannel hall rfl (hall _)
  | read hreads hpos hn hroom => exact unflushed_onChannel hall rfl (hall _)
  | @write t j frame hwrites hframe =>
      refine unflushed_onChannel hall rfl (unflushed_writeAll ?_)
      exact frame.toBeBytes_length.trans (Nat.le_of_ble_eq_true rfl)
  | writeFailed hwrites =>
      exact unflushed_onChannel hall rfl ((unflushed_advance _ _).trans (hall _))
  | flush hwrites =>
      refine unflushed_onChannel hall rfl ?_
      show (BufWriter.drained _).unflushed.length ≤ _
      rw [BufWriter.drained_unflushed]
      exact Nat.zero_le _
  | flushFailed hwrites =>
      exact unflushed_onChannel hall rfl ((unflushed_advance _ _).trans (hall _))
  | insertNew hpc hfree hnew => exact hall
  | insertAgain hpc hfree hold => exact hall
  | found hpc hfound => exact hall
  | missing hpc hmissing => exact hall

end

/-- **Bounded memory for each peer.**  In every state of every run: the buffer of a connection
holds at most 1024 bytes, and at most 64 while its task still reads, that of a probe at most 64,
and no more is waiting to be sent on a stream than its `BufWriter` was made for. -/
theorem buffers_bounded (shard : PeerId → ℕ) (as : List Action) :
    InStates (step (.growing shard)) State.init as Bounded := by
  refine inStates_of_invariant (I := fun s => HasHistory s ∧ Bounded s)
    ⟨hasHistory_init, Bounded.init⟩ ?_ (fun _ hinv => hinv.2) as
  rintro s a s' ⟨hhist, hb⟩ hstep
  obtain ⟨h, h'⟩ := hhist
  refine ⟨⟨_, orderly_step h' hstep⟩, buffer_step hb hstep, ?_, ?_, unflushed_step hb hstep⟩
  · exact fun t phase hpc' => receiving_step hb hstep hpc' (h'.serving t)
  · exact fun t id connMd buffer phase hpc' => probing_step hb hstep hpc'

end Pcopy.Relay
