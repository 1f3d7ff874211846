import Pcopy.Relay.Serving

/-!
# What survives the wire

A frame is read back from the front of a stream when the parser takes its encoding and
nothing more, whatever follows, and finds everything less of it incomplete.

* `relayFrames_codec` — the frames sent to the relay are in bijection with a prefix-free
  language;
* `result_readBack` — the results sent to a peer are read back with the documented losses;
* `command_survives_iff` — the commands sent to a peer are read back unless they carry an
  IPv6 address.
-/

namespace Pcopy.Relay

open Pcopy.Lib

section

variable {F : Type} [Frame F]

/-- `f` is read back as `g`: from its encoding and any bytes behind it, with the cursor at
these bytes, and from nothing less. -/
structure ReadBack (f g : F) : Prop where
  whole : ∀ s, Frame.parse (Cursor.new (Frame.toBeBytes f ++ s))
    = (.ok g, ⟨Frame.toBeBytes f ++ s, (Frame.toBeBytes f).length⟩)
  incomplete : ∀ front, front <+: Frame.toBeBytes f → front ≠ Frame.toBeBytes f →
    parsed F front = .error (.err .incomplete)

/-- What a parser delimits is read back. -/
theorem ReadBack.of_delimits {f g : F}
    (h : Delimits (Frame.parse : Parser F) (Frame.toBeBytes f) g) : ReadBack f g where
  whole := by
    intro s
    have hwhole := h.whole [] s
    rw [List.nil_append] at hwhole
    exact hwhole
  incomplete := by
    intro front hfront hne
    have hlt : front.length < (Frame.toBeBytes f).length :=
      lt_of_le_of_ne hfront.length_le fun hlen => hne (hfront.eq_of_length hlen)
    rw [List.prefix_iff_eq_take.mp hfront]
    exact parsed_of_short (h.short _ hlt)

/-- A frame is read back as one frame only. -/
theorem ReadBack.unique {f g g' : F} {s : List UInt8} {c : Cursor} (h : ReadBack f g)
    (hparse : Frame.parse (Cursor.new (Frame.toBeBytes f ++ s)) = (.ok g', c)) :
    g' = g ∧ c.position = (Frame.toBeBytes f).length := by
  obtain ⟨ho, rfl⟩ := Prod.mk.inj (hparse.symm.trans (h.whole s))
  exact ⟨Except.ok.inj ho, rfl⟩

variable (F) in
/-- `Frame::parse` and `Frame::to_be_bytes` are inverse to each other between the frames and
the fronts of streams that parse. -/
structure Codec : Prop where
  readBack : ∀ f : F, ReadBack f f
  inverse : ∀ (b : List UInt8) (f : F) (c : Cursor),
    Frame.parse (Cursor.new b) = (.ok f, c) → Frame.toBeBytes f = b.take c.position

/-- The language of such encodings is prefix-free, and each of its words is that of one
frame. -/
theorem Codec.eq_of_prefix (h : Codec F) {f g : F}
    (hfront : Frame.toBeBytes f <+: Frame.toBeBytes g) : f = g := by
  obtain ⟨s, hs⟩ := hfront
  have hparse := (h.readBack g).whole []
  rw [List.append_nil, ← hs] at hparse
  exact ((h.readBack f).unique hparse).1.symm

end

/-! ### Frames sent from peers to the relay -/

/-- **The frames sent to the relay are in bijection with a prefix-free language**: each is
read back whatever follows it, from nothing less, and what is read is the encoding. -/
theorem relayFrames_codec : Codec RelayFrames where
  readBack := fun f => ReadBack.of_delimits f.delimits
  inverse := by
    intro b f c hparse
    obtain ⟨rest, rfl⟩ := RelayFrames.parse_ok_bytes (congrArg Prod.fst hparse)
    obtain ⟨_, hposition⟩ := (ReadBack.of_delimits f.delimits).unique hparse
    rw [hposition]
    exact List.take_left.symm

/-! ### Frames sent to peers from the relay -/

/-- The documented losses: of a probe result the identifier is zeroed and the round trip time
rounded down to whole milliseconds; nothing else is lost. -/
def LosesAsDocumented : PeerFrames → PeerFrames → Prop
  | .probeResult (some info), g =>
      ∃ rtt : Duration, g = .probeResult (some ⟨PeerId.zero, info.ip, rtt⟩) ∧
        rtt.nanos = info.pingRtt.nanos / 10 ^ 6 * 10 ^ 6
  | f, g => g = f

/-- A round trip time that fits in milliseconds is rounded down on the wire. -/
theorem PeerFrames.onWire_losesAsDocumented {f : PeerFrames}
    (hrtt : ∀ info, f = .probeResult (some info) → info.pingRtt.nanos < 2 ^ 64 * 10 ^ 6) :
    LosesAsDocumented f f.onWire := by
  cases f with
  | probeResult info =>
      cases info with
      | none => exact rfl
      | some info =>
          have hlt := hrtt info rfl
          refine ⟨Duration.fromMillis info.pingRtt.asMillis, rfl, ?_⟩
          show info.pingRtt.nanos / 10 ^ 6 % 2 ^ 64 * 10 ^ 6 = _
          rw [Nat.mod_eq_of_lt (by omega)]
  | registerResult status => exact rfl
  | doConnectResult status => exact rfl
  | pingResult health => exact rfl
  | command c => exact rfl

/-- **A result is read back with the documented losses**, whatever follows it, and from
nothing less. -/
theorem result_readBack (f : PeerFrames) (hresult : f.isResult = true)
    (hrtt : ∀ info, f = .probeResult (some info) → info.pingRtt.nanos < 2 ^ 64 * 10 ^ 6) :
    ∃ g, ReadBack f g ∧ LosesAsDocumented f g := by
  have hfits : PeerFrames.AddressFits f := by
    cases f with
    | command c => exact absurd hresult (by simp [PeerFrames.isResult])
    | registerResult _ => exact trivial
    | probeResult _ => exact trivial
    | doConnectResult _ => exact trivial
    | pingResult _ => exact trivial
  exact ⟨f.onWire, ReadBack.of_delimits (f.delimits hfits),
    PeerFrames.onWire_losesAsDocumented hrtt⟩

/-- A probe result about a peer with an IPv6 address, 1.5 milliseconds away. -/
def probedV6 : PeerInfo :=
  ⟨PeerId.zero, .v6 ⟨List.range 16 |>.map UInt8.ofNat, by decide⟩, ⟨1500000, by decide⟩⟩

theorem result_readBack_probedV6 :
    ∃ g, ReadBack (PeerFrames.probeResult (some probedV6)) g ∧
      LosesAsDocumented (.probeResult (some probedV6)) g := by
  refine result_readBack (.probeResult (some probedV6)) rfl ?_
  rintro info h
  cases h
  decide

/-! ### Commands -/

/-- What `doconnect` writes to the destination is the command with the requester's address. -/
theorem doconnect_writes {net : Net} {w : World} {destinationPeerId : PeerId}
    {md : PeerConnectionMetadata} (sourceIp : IpAddr)
    (hget : w.connCache.get destinationPeerId = some md)
    (htakes : (w.sockets md.stream).Takes (net.outlet md.stream)
      (PeerFrames.command (.doConnect sourceIp)).toBeBytes) :
    Server.doconnect net destinationPeerId sourceIp w
      = (.ok (), w.wrote md.stream (.command (.doConnect sourceIp))) := by
  rw [Server.doconnect, Exec.get_bind]
  simp only [hget]
  rcases writeFrame_cases net md.stream (.command (.doConnect sourceIp)) w with
    ⟨_, hrun⟩ | ⟨hnot, _⟩
  · exact hrun
  · exact absurd htakes hnot

/-- The command is read back as itself. -/
def Survives (c : PeerCommands) : Prop := ReadBack (PeerFrames.command c) (PeerFrames.command c)

theorem doConnect_v4_readBack (ip : Octets 4) : Survives (.doConnect (.v4 ip)) :=
  ReadBack.of_delimits ((PeerFrames.command (.doConnect (.v4 ip))).delimits trivial)

theorem doConnect_v4_length (ip : Octets 4) :
    (PeerFrames.command (.doConnect (.v4 ip))).toBeBytes.length = 6 := by
  show ip.bytes.length + 1 + 1 = 6
  rw [ip.length_eq]

theorem Octets.length_firstFour (ip : Octets 16) : (ip.bytes.take 4).length = 4 := by
  rw [List.length_take, ip.length_eq]
  rfl

/-- The first four of the bytes, as an IPv4 address. -/
def Octets.firstFour (ip : Octets 16) : Octets 4 := ⟨ip.bytes.take 4, ip.length_firstFour⟩

/-- A DOCONNECT with an IPv6 address begins like one with an IPv4 address. -/
theorem doConnect_v6_toBeBytes (ip : Octets 16) :
    (PeerFrames.command (.doConnect (.v6 ip))).toBeBytes
      = (PeerFrames.command (.doConnect (.v4 ip.firstFour))).toBeBytes ++ ip.bytes.drop 4 := by
  show PeerOperations.commands.toU8 :: doConnectCode :: ip.bytes
    = PeerOperations.commands.toU8 :: doConnectCode :: (ip.bytes.take 4 ++ ip.bytes.drop 4)
  rw [List.take_append_drop]

/-- The sixteen bytes of an IPv6 address are read as an IPv4 address and twelve bytes that
belong to no frame. -/
theorem doConnect_v6_readAsV4 (ip : Octets 16) (s : List UInt8) :
    ∃ ip' : Octets 4, PeerFrames.parse (Cursor.new
        ((PeerFrames.command (.doConnect (.v6 ip))).toBeBytes ++ s))
      = (.ok (.command (.doConnect (.v4 ip'))),
        ⟨(PeerFrames.command (.doConnect (.v6 ip))).toBeBytes ++ s, 6⟩) := by
  refine ⟨ip.firstFour, ?_⟩
  rw [doConnect_v6_toBeBytes, List.append_assoc, ← doConnect_v4_length ip.firstFour]
  exact (doConnect_v4_readBack ip.firstFour).whole (ip.bytes.drop 4 ++ s)

/-- **Which commands survive the wire**: all but DOCONNECT with an IPv6 address. -/
theorem command_survives_iff (c : PeerCommands) :
    Survives c ↔ ∀ ip, c ≠ .doConnect (.v6 ip) := by
  constructor
  · rintro h ip rfl
    obtain ⟨ip', hparse⟩ := doConnect_v6_readAsV4 ip []
    obtain ⟨hsame, _⟩ := ReadBack.unique h hparse
    cases hsame
  · intro h
    refine ReadBack.of_delimits ((PeerFrames.command c).delimits ?_)
    match c with
    | .sync => exact trivial
    | .doConnect (.v4 _) => exact trivial
    | .doConnect (.v6 ip) => exact absurd rfl (h ip)

/-- The address `::1` does not survive. -/
theorem localhostV6_lost : ¬ ∀ c : PeerCommands, Survives c := by
  intro h
  obtain ⟨hsame, _⟩ := ReadBack.unique
    (h (.doConnect (.v6 ⟨List.replicate 15 0 ++ [1], by decide⟩))) (s := [])
    (Exec.run_eq (o := .ok (.command (.doConnect (.v4 ⟨[0, 0, 0, 0], rfl⟩)))) (by decide))
  cases hsame

end Pcopy.Relay
