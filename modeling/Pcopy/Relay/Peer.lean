import Pcopy.Relay.Cursor

/-!
# Peers: their identifiers and what is told about them

`PeerId`, `PeerInfo` and their encodings.  A `PeerInfo` travels as the kind of its address,
the address padded to sixteen bytes and the round trip time in whole milliseconds; its
identifier does not travel.

* `delimits_peerId` — an identifier is its 64 bytes and nothing less;
* `delimits_peerInfo` — a `PeerInfo` is read back with the documented losses, from exactly
  33 bytes.
-/

namespace Pcopy.Relay

open Pcopy.Lib

/-- `PEER_ID_LENGTH_BYTES`. -/
def peerIdLengthBytes : ℕ := 64

/-- `PeerId`. -/
abbrev PeerId : Type := Octets peerIdLengthBytes

/-- `IpAddr`, by its octets. -/
inductive IpAddr where
  | v4 : Octets 4 → IpAddr
  | v6 : Octets 16 → IpAddr
  deriving DecidableEq

/-- `Ipv4Addr::new`. -/
def Ipv4Addr.new (a b c d : UInt8) : Octets 4 := ⟨[a, b, c, d], rfl⟩

/-- `IpAddr::as_octets`. -/
def IpAddr.octets : IpAddr → List UInt8
  | .v4 ip => ip.bytes
  | .v6 ip => ip.bytes

/-- `std::time::Duration`: nanoseconds, with seconds that fit a `u64`. -/
structure Duration where
  nanos : ℕ
  in_range : nanos < 2 ^ 64 * 10 ^ 9
  deriving DecidableEq

/-- `Duration::as_millis`. -/
def Duration.asMillis (d : Duration) : ℕ := d.nanos / 10 ^ 6

/-- `Duration::from_millis`, of the number a `u64` cast leaves. -/
def Duration.fromMillis (ms : ℕ) : Duration := ⟨ms % 2 ^ 64 * 10 ^ 6, by omega⟩

/-- `PeerInfo`. -/
structure PeerInfo where
  peerId : PeerId
  ip : IpAddr
  pingRtt : Duration
  deriving DecidableEq

/-- The identifier that `PeerInfo::try_from` fills in, `PeerId([0; PEER_ID_LENGTH_BYTES])`. -/
def PeerId.zero : PeerId := ⟨List.replicate peerIdLengthBytes 0, List.length_replicate ..⟩

namespace PeerId

/-- `PeerId::try_from` a cursor. -/
def tryFrom : Parser PeerId := do
  Cursor.require peerIdLengthBytes
  let c ← Exec.get
  let peerId ← Octets.ofSlice c.bytes c.position peerIdLengthBytes
  Cursor.advance peerId.bytes.length
  pure peerId

end PeerId

namespace PeerInfo

/-- `PEER_INFO_SERIALIZE_BYTES_LEN`. -/
def serializeBytesLen : ℕ := 33

/-- `PeerInfo::to_be_bytes`. -/
def toBeBytes (info : PeerInfo) : List UInt8 :=
  let kind : UInt8 := match info.ip with
    | .v4 _ => 0
    | .v6 _ => 1
  let ipBytes : List UInt8 := match info.ip with
    | .v4 ip => ip.bytes ++ List.replicate 12 0
    | .v6 ip => ip.bytes
  [kind] ++ (ipBytes ++ BigEndian.toBytes 16 info.pingRtt.asMillis)

/-- The address in the sixteen bytes of its field. -/
def ipOf (ipType : UInt8) (ipBytes : Octets 16) : Parser IpAddr :=
  match ipType with
  | 0 => pure (.v4 ⟨ipBytes.bytes.take 4, by rw [List.length_take, ipBytes.length_eq]; rfl⟩)
  | 1 => pure (.v6 ipBytes)
  | _ => Exec.fail (.other ⟨.invalidData, "Invalid IP type"⟩)

/-- `PeerInfo::try_from` a cursor. -/
def tryFrom : Parser PeerInfo := do
  Cursor.require serializeBytesLen
  let ipType ← Cursor.readExact 1
  let ipBytes ← Cursor.readExact 16
  let ip ← ipOf (ipType.bytes.headD 0) ipBytes
  let c ← Exec.get
  let millis ← Octets.ofSlice c.bytes c.position 16
  Exec.modify fun c => { c with position := c.position + 16 }
  pure ⟨PeerId.zero, ip, Duration.fromMillis (BigEndian.ofBytes millis.bytes)⟩

/-- What a `PeerInfo` becomes on the wire: its identifier is zeroed and its round trip
time cut to whole milliseconds. -/
def onWire (info : PeerInfo) : PeerInfo :=
  ⟨PeerId.zero, info.ip, Duration.fromMillis info.pingRtt.asMillis⟩

end PeerInfo

/-! ### Identifiers -/

/-- The identifier is taken where it stands. -/
theorem parses_peerId (id : PeerId) :
    Parses (do
      let c ← Exec.get
      let peerId : PeerId ← Octets.ofSlice c.bytes c.position peerIdLengthBytes
      Cursor.advance peerId.bytes.length
      pure peerId) id.bytes id := by
  obtain ⟨xs, hxs⟩ := id
  intro pre rest
  rw [Exec.get_bind, Cursor.split_bytes, Cursor.split_position,
    Exec.bind_ok (Cursor.ofSlice_run pre xs rest hxs _),
    Exec.bind_ok (parses_advance xs pre rest), Exec.pure_run]

theorem delimits_peerId (id : PeerId) : Delimits PeerId.tryFrom id.bytes id :=
  Delimits.require (parses_peerId id) id.length_eq

/-- On enough bytes an identifier is read, whatever follows. -/
theorem steady_peerId : Steady 0 PeerId.tryFrom :=
  Steady.require (Steady.exactly fun xs hxs => ⟨⟨xs, hxs⟩, parses_peerId ⟨xs, hxs⟩⟩)

theorem sated_peerId : Sated peerIdLengthBytes PeerId.tryFrom :=
  Sated.require le_rfl (Sated.exactly fun xs hxs => ⟨⟨xs, hxs⟩, parses_peerId ⟨xs, hxs⟩⟩)

/-! ### Peer information -/

theorem PeerInfo.toBeBytes_length (info : PeerInfo) :
    info.toBeBytes.length = PeerInfo.serializeBytesLen := by
  obtain ⟨_, ip, _⟩ := info
  cases ip with
  | v4 ip => simp [toBeBytes, serializeBytesLen, ip.length_eq]
  | v6 ip => simp [toBeBytes, serializeBytesLen, ip.length_eq]

theorem Duration.asMillis_lt (d : Duration) : d.asMillis < 256 ^ 16 := by
  have h := d.in_range
  simp only [Duration.asMillis]
  omega

/-- The time field is taken where it stands. -/
theorem parses_time (ip : IpAddr) {xs : List UInt8} (hlen : xs.length = 16) :
    Parses (do
      let c ← Exec.get
      let millis ← Octets.ofSlice c.bytes c.position 16
      Exec.modify fun c => { c with position := c.position + 16 }
      pure (⟨PeerId.zero, ip, Duration.fromMillis (BigEndian.ofBytes millis.bytes)⟩ : PeerInfo))
      xs ⟨PeerId.zero, ip, Duration.fromMillis (BigEndian.ofBytes xs)⟩ := by
  intro pre rest
  rw [Exec.get_bind, Cursor.split_bytes, Cursor.split_position,
    Exec.bind_ok (Cursor.ofSlice_run pre _ rest hlen _), Exec.modify_bind, Exec.pure_run]
  have hmoved := Cursor.split_moved pre xs rest
  rw [hlen] at hmoved
  exact congrArg _ hmoved

theorem parses_millis (ip : IpAddr) (d : Duration) :
    Parses (do
      let c ← Exec.get
      let millis ← Octets.ofSlice c.bytes c.position 16
      Exec.modify fun c => { c with position := c.position + 16 }
      pure (⟨PeerId.zero, ip, Duration.fromMillis (BigEndian.ofBytes millis.bytes)⟩ : PeerInfo))
      (BigEndian.toBytes 16 d.asMillis) ⟨PeerId.zero, ip, Duration.fromMillis d.asMillis⟩ := by
  have hparses := parses_time ip (BigEndian.toBytes_length 16 d.asMillis)
  rwa [BigEndian.ofBytes_toBytes d.asMillis_lt] at hparses

theorem delimits_peerInfo (info : PeerInfo) :
    Delimits PeerInfo.tryFrom info.toBeBytes info.onWire := by
  have hlen := info.toBeBytes_length
  obtain ⟨_, ip, rtt⟩ := info
  refine Delimits.require ?_ hlen
  cases ip with
  | v4 ip =>
      have hpad : (ip.bytes ++ List.replicate 12 0).length = 16 := by simp [ip.length_eq]
      have htake : (ip.bytes ++ List.replicate 12 0).take 4 = ip.bytes := by
        rw [List.take_append_of_le_length (le_of_eq ip.length_eq.symm),
          List.take_of_length_le (le_of_eq ip.length_eq)]
      have hip : ip = ⟨(ip.bytes ++ List.replicate 12 0).take 4, by rw [htake, ip.length_eq]⟩ := by
        obtain ⟨xs, hxs⟩ := ip
        simp only [Octets.mk.injEq]
        exact htake.symm
      refine (parses_readExact ⟨[0], rfl⟩).bind ((parses_readExact ⟨_, hpad⟩).bind ?_)
      simp only [PeerInfo.ipOf, List.headD_cons, Exec.pure_bind, ← hip]
      exact parses_millis (.v4 ip) rtt
  | v6 ip =>
      refine (parses_readExact ⟨[1], rfl⟩).bind ((parses_readExact ip).bind ?_)
      simp only [PeerInfo.ipOf, List.headD_cons, Exec.pure_bind]
      exact parses_millis (.v6 ip) rtt

theorem chooses_ipOf (ipType : UInt8) (ipBytes : Octets 16) :
    Chooses (PeerInfo.ipOf ipType ipBytes) := by
  unfold PeerInfo.ipOf
  split
  · exact Chooses.pure _
  · exact Chooses.pure _
  · exact Chooses.refuse _

/-- On enough bytes a `PeerInfo` is read or refused, whatever follows. -/
theorem steady_peerInfo : Steady 0 PeerInfo.tryFrom := by
  refine Steady.require ?_
  refine Steady.readExact (by decide) fun ipType => ?_
  refine Steady.readExact (by decide) fun ipBytes => ?_
  refine Steady.choose (chooses_ipOf _ ipBytes) fun ip => ?_
  exact Steady.exactly fun xs hxs => ⟨_, parses_time ip hxs⟩

theorem sated_peerInfo : Sated PeerInfo.serializeBytesLen PeerInfo.tryFrom := by
  refine Sated.require le_rfl ?_
  refine Sated.readExact (by decide) fun ipType => ?_
  refine Sated.readExact (by decide) fun ipBytes => ?_
  refine Sated.choose (chooses_ipOf _ ipBytes) fun ip => ?_
  exact Sated.exactly fun xs hxs => ⟨_, parses_time ip hxs⟩

end Pcopy.Relay
