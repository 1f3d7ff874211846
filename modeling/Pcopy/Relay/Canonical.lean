import Pcopy.Relay.Codec
import Pcopy.Relay.Delivery

/-!
# What a peer has read can be sent on

A frame loses on its way to a peer what its encoding has no room for.  It loses this once:
the frames that come out of `PeerFrames::parse` are the ones that are read back as they are.

* `Settles`, `Yields` — what is known of the value of a parser and of the bytes it has taken,
  with the rules that compose this along a parser;
* `PeerFrames.yields_parse` — a frame and the bytes it was read from;
* `peerFrames_canonical` — for all bytes.
-/

namespace Pcopy.Relay

open Pcopy.Lib

/-- `p` does not move the cursor, and its values satisfy `P`. -/
def Settles {α : Type} (p : Parser α) (P : α → Prop) : Prop :=
  ∀ c a c', p c = (.ok a, c') → c' = c ∧ P a

theorem Settles.pure {α : Type} {P : α → Prop} {a : α} (h : P a) :
    Settles (pure a : Parser α) P := by
  intro c a' c' hrun
  cases hrun
  exact ⟨rfl, h⟩

theorem Settles.fail {α : Type} {P : α → Prop} (e : FrameError) :
    Settles (Exec.fail e : Parser α) P := by
  intro c a c' hrun
  cases hrun

/-- Where `p` returns on `n` bytes or more, it has taken a part of them, and `P` holds of its
value and this part. -/
def Yields {α : Type} (n : ℕ) (p : Parser α) (P : α → List UInt8 → Prop) : Prop :=
  ∀ pre bytes a c, n ≤ bytes.length → p (Cursor.split pre bytes) = (.ok a, c) →
    ∃ taken left, bytes = taken ++ left ∧ c = Cursor.split (pre ++ taken) left ∧ P a taken

section Rules

variable {α β : Type} {n k : ℕ} {p : Parser α} {f : α → Parser β} {P : α → List UInt8 → Prop}
  {Q : β → List UInt8 → Prop}

theorem Yields.pure {a : α} (h : P a []) : Yields n (pure a) P := by
  intro pre bytes a' c _ hrun
  cases hrun
  exact ⟨[], bytes, rfl, by rw [List.append_nil], h⟩

theorem Yields.fail (e : FrameError) : Yields n (Exec.fail e) P := by
  intro pre bytes a c _ hrun
  cases hrun

theorem Yields.bind (hp : Yields n p P)
    (hf : ∀ a xs, P a xs → Yields 0 (f a) fun b ys => Q b (xs ++ ys)) :
    Yields n (p >>= f) Q := by
  intro pre bytes b c hn hrun
  obtain ⟨a, c₁, hfirst, hsecond⟩ := Exec.bind_eq_ok.mp hrun
  obtain ⟨xs, left, rfl, rfl, hP⟩ := hp pre bytes a c₁ hn hfirst
  obtain ⟨ys, left', rfl, rfl, hQ⟩ := hf a xs hP _ left b c (Nat.zero_le _) hsecond
  exact ⟨xs ++ ys, left', (List.append_assoc xs ys left').symm, by rw [List.append_assoc], hQ⟩

theorem Yields.settle {P : α → Prop} (hp : Settles p P) (hf : ∀ a, P a → Yields n (f a) Q) :
    Yields n (p >>= f) Q := by
  intro pre bytes b c hn hrun
  obtain ⟨a, c₁, hfirst, hsecond⟩ := Exec.bind_eq_ok.mp hrun
  obtain ⟨rfl, hP⟩ := hp _ a c₁ hfirst
  exact hf a hP pre bytes b c hn hsecond

theorem Settles.yields {P : α → Prop} (hp : Settles p P) {Q : α → List UInt8 → Prop}
    (hPQ : ∀ a, P a → Q a []) : Yields n p Q := by
  intro pre bytes a c _ hrun
  obtain ⟨rfl, hP⟩ := hp _ a c hrun
  exact ⟨[], bytes, rfl, by rw [List.append_nil], hPQ a hP⟩

/-- A guard, and what needs the bytes it made sure of. -/
theorem Yields.require {f : Unit → Parser β} (hf : Yields n (f ()) Q) :
    Yields 0 (Cursor.require n >>= f) Q := by
  intro pre bytes b c _ hrun
  by_cases hn : n ≤ bytes.length
  · rw [Exec.bind_ok (Cursor.require_run pre bytes hn)] at hrun
    exact hf pre bytes b c hn hrun
  · have hshort := (Short.require (f := f) (by omega : bytes.length < n)) pre
    rw [hrun] at hshort
    cases hshort

/-- A step that takes exactly `k` of the bytes that are there. -/
theorem Yields.take (hk : k ≤ n)
    (hp : ∀ xs : List UInt8, xs.length = k →
      ∃ a, Parses p xs a ∧ Yields (n - k) (f a) fun b ys => Q b (xs ++ ys)) :
    Yields n (p >>= f) Q := by
  intro pre bytes b c hn hrun
  obtain ⟨a, hparses, hf⟩ := hp (bytes.take k) (by rw [List.length_take]; omega)
  have hstep := hparses pre (bytes.drop k)
  rw [List.take_append_drop] at hstep
  rw [Exec.bind_ok hstep] at hrun
  obtain ⟨ys, left, hleft, rfl, hQ⟩ := hf _ _ b c (by rw [List.length_drop]; omega) hrun
  refine ⟨bytes.take k ++ ys, left, ?_, by rw [List.append_assoc], hQ⟩
  rw [List.append_assoc, ← hleft, List.take_append_drop]

/-- The last step, where it takes exactly `k` bytes. -/
theorem Yields.exactly
    (hp : ∀ xs : List UInt8, xs.length = k → ∃ a, Parses p xs a ∧ P a xs) : Yields k p P := by
  intro pre bytes a c hn hrun
  obtain ⟨a', hparses, hP⟩ := hp (bytes.take k) (by rw [List.length_take]; omega)
  have hstep := hparses pre (bytes.drop k)
  rw [List.take_append_drop, hrun] at hstep
  obtain ⟨ha, rfl⟩ := Prod.mk.inj hstep
  obtain rfl := Except.ok.inj ha
  exact ⟨bytes.take k, bytes.drop k, (List.take_append_drop k bytes).symm, rfl, hP⟩

theorem Yields.getU8 {f : UInt8 → Parser β}
    (hf : ∀ code, Yields n (f code) fun b ys => Q b (code :: ys)) :
    Yields (n + 1) (Cursor.getU8 >>= f) Q := by
  refine Yields.take (k := 1) (by omega) ?_
  intro xs hxs
  obtain ⟨code, rfl⟩ := List.length_eq_one_iff.mp hxs
  exact ⟨code, parses_getU8 code, hf code⟩

theorem Yields.readExact {f : Octets k → Parser β} (hk : k ≤ n)
    (hf : ∀ xs, Yields (n - k) (f xs) fun b ys => Q b (xs.bytes ++ ys)) :
    Yields n (Cursor.readExact k >>= f) Q :=
  Yields.take hk fun xs hxs => ⟨⟨xs, hxs⟩, parses_readExact ⟨xs, hxs⟩, hf ⟨xs, hxs⟩⟩

end Rules

/-! ### The values of the tables -/

theorem settles_operation (value : UInt8) :
    Settles (PeerOperations.tryFrom value) fun op => value = op.toU8 := by
  unfold PeerOperations.tryFrom
  split
  all_goals first | exact Settles.pure rfl | exact Settles.fail _

theorem settles_statusCode (code : UInt8) :
    Settles (StatusCodes.tryFrom code) fun status => code = status.intoU8 := by
  unfold StatusCodes.tryFrom
  split
  all_goals first | exact Settles.pure rfl | exact Settles.fail _

theorem settles_healthStatus (code : UInt8) :
    Settles (HealthStatus.tryFrom code) fun health => code = health.toU8 := by
  unfold HealthStatus.tryFrom
  split
  all_goals first | exact Settles.pure rfl | exact Settles.fail _

theorem settles_ipOf (ipType : UInt8) (ipBytes : Octets 16) :
    Settles (PeerInfo.ipOf ipType ipBytes) fun _ => True := by
  unfold PeerInfo.ipOf
  split
  all_goals first | exact Settles.pure trivial | exact Settles.fail _

/-! ### What is read is what would have been written -/

/-- A time that was read is in whole milliseconds. -/
theorem Duration.fromMillis_asMillis_fromMillis (ms : ℕ) :
    Duration.fromMillis (Duration.fromMillis ms).asMillis = Duration.fromMillis ms := by
  simp only [Duration.asMillis, Duration.fromMillis, Duration.mk.injEq]
  omega

theorem yields_peerInfo :
    Yields 0 PeerInfo.tryFrom fun info taken =>
      info.onWire = info ∧ taken.length = PeerInfo.serializeBytesLen := by
  refine Yields.require ?_
  refine Yields.readExact (by decide) fun ipType => ?_
  refine Yields.readExact (by decide) fun ipBytes => ?_
  refine Yields.settle (settles_ipOf _ ipBytes) fun ip _ => ?_
  refine Yields.exactly ?_
  intro xs hxs
  refine ⟨_, parses_time ip hxs, ?_, ?_⟩
  · rw [PeerInfo.onWire, Duration.fromMillis_asMillis_fromMillis]
  · rw [List.length_append, List.length_append, ipType.length_eq, ipBytes.length_eq, hxs]
    rfl

/-- What is known of a frame that was read from `taken`. -/
structure PeerFrames.ReadFrom (f : PeerFrames) (taken : List UInt8) : Prop where
  fits : f.AddressFits
  onWire : f.onWire = f
  length : f.toBeBytes.length = taken.length
  bytes : (∃ info, f = .probeResult (some info)) ∨ f.toBeBytes = taken

/-- A frame that its encoding does not change and that was read from this encoding. -/
theorem PeerFrames.ReadFrom.of_eq {f : PeerFrames} {taken : List UInt8} (hfits : f.AddressFits)
    (honWire : f.onWire = f) (h : f.toBeBytes = taken) : f.ReadFrom taken :=
  ⟨hfits, honWire, congrArg List.length h, Or.inr h⟩

namespace PeerFrames

theorem yields_command : Yields 0 parseCommand fun f taken =>
    f.ReadFrom (PeerOperations.commands.toU8 :: taken) := by
  refine Yields.require (Yields.getU8 fun code => ?_)
  by_cases hsync : code = syncCode
  · rw [if_pos hsync]
    exact Yields.pure (ReadFrom.of_eq trivial rfl (by rw [hsync]; rfl))
  · rw [if_neg hsync]
    by_cases hconnect : code = doConnectCode
    · rw [if_pos hconnect]
      refine Yields.require (Yields.take le_rfl ?_)
      intro xs hxs
      refine ⟨_, parses_getU32 hxs, Yields.pure ?_⟩
      rw [ipOfU32_ofBytes ⟨xs, hxs⟩, hconnect, List.append_nil]
      exact ReadFrom.of_eq trivial rfl rfl
    · rw [if_neg hconnect]
      exact Yields.fail _

/-- A guarded byte of a table, and the frame that it makes. -/
theorem yields_code {α : Type} {tryFrom : UInt8 → Parser α} {toU8 : α → UInt8}
    (hsettles : ∀ code, Settles (tryFrom code) fun a => code = toU8 a)
    {f : α → Parser PeerFrames} {Q : PeerFrames → List UInt8 → Prop}
    (hf : ∀ a, Yields 0 (f a) fun b ys => Q b (toU8 a :: ys)) :
    Yields 0 (do
      Cursor.require 1
      let code ← Cursor.getU8
      let value ← tryFrom code
      f value) Q := by
  refine Yields.require (Yields.getU8 fun code => Yields.settle (hsettles code) fun a ha => ?_)
  rw [ha]
  exact hf a

theorem yields_body (op : PeerOperations) :
    Yields 0 (parseBody op) fun f taken => f.ReadFrom (op.toU8 :: taken) := by
  cases op with
  | registerResult =>
      exact yields_code settles_statusCode fun _ => Yields.pure (ReadFrom.of_eq trivial rfl rfl)
  | probeResult =>
      refine yields_code settles_statusCode fun status => ?_
      cases status with
      | failure => exact Yields.pure (ReadFrom.of_eq trivial rfl rfl)
      | success =>
          refine Yields.bind yields_peerInfo fun info taken h => Yields.pure ?_
          refine ⟨trivial, ?_, ?_, Or.inl ⟨info, rfl⟩⟩
          · rw [PeerFrames.onWire, h.1]
          · simp only [toBeBytes, List.length_cons, info.toBeBytes_length, List.append_nil, h.2]
  | doConnectResult =>
      exact yields_code settles_statusCode fun _ => Yields.pure (ReadFrom.of_eq trivial rfl rfl)
  | pingResult =>
      exact yields_code settles_healthStatus fun _ => Yields.pure (ReadFrom.of_eq trivial rfl rfl)
  | commands => exact yields_command

theorem yields_parse : Yields 0 parse ReadFrom := by
  have hread : Yields 0 readOperation fun op taken => taken = [op.toU8] := by
    refine Yields.require (Yields.getU8 fun value => ?_)
    refine (settles_operation value).yields fun op hvalue => ?_
    rw [hvalue]
  refine Yields.bind hread fun op taken htaken => ?_
  rw [htaken]
  exact yields_body op

end PeerFrames

/-- **What a peer has read can be sent on.**  Whatever bytes a frame was read from: it is read
back as it is, whatever follows its encoding and from nothing less, and this encoding is as
long as what was taken.  Only the encoding of a probe result with a peer may differ from
what was taken. -/
theorem peerFrames_canonical {b : List UInt8} {f : PeerFrames} {c : Cursor}
    (h : PeerFrames.parse (Cursor.new b) = (.ok f, c)) :
    ReadBack f f ∧ f.toBeBytes.length = c.position ∧
      ((∃ info, f = .probeResult (some info)) ∨ f.toBeBytes = b.take c.position) := by
  obtain ⟨taken, left, rfl, rfl, hread⟩ := PeerFrames.yields_parse [] b f c (Nat.zero_le _) h
  have hback : Delimits PeerFrames.parse f.toBeBytes f := by
    have hdelimits := f.delimits hread.fits
    rwa [hread.onWire] at hdelimits
  refine ⟨ReadBack.of_delimits hback, hread.length, hread.bytes.imp_right ?_⟩
  intro htaken
  rw [htaken]
  exact List.take_left.symm

/-- A probe result with an IPv4 address whose field is padded with ones, and a time of which
the upper half is not zero. -/
def paddedProbe : List UInt8 :=
  [22, 200, 0, 10, 0, 0, 2] ++ List.replicate 12 1 ++ List.replicate 15 1 ++ [3]

/-- The peer that is read from it. -/
def paddedPeer : PeerInfo :=
  ⟨PeerId.zero, .v4 (Ipv4Addr.new 10 0 0 2),
    Duration.fromMillis (BigEndian.ofBytes (List.replicate 15 1 ++ [3]))⟩

theorem peerFrames_canonical_paddedProbe :
    PeerFrames.parse (Cursor.new paddedProbe)
      = (.ok (.probeResult (some paddedPeer)), ⟨paddedProbe, 35⟩) ∧
    PeerFrames.toBeBytes (.probeResult (some paddedPeer)) ≠ paddedProbe ∧
    ReadBack (PeerFrames.probeResult (some paddedPeer)) (.probeResult (some paddedPeer)) := by
  have hparse : PeerFrames.parse (Cursor.new paddedProbe)
      = (.ok (.probeResult (some paddedPeer)), ⟨paddedProbe, 35⟩) := by decide +kernel
  exact ⟨hparse, by decide +kernel, (peerFrames_canonical hparse).1⟩

end Pcopy.Relay
