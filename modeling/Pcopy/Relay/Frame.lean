import Pcopy.Relay.Peer

/-!
# The two families of frames

`RelayFrames` go from a peer to the relay, `PeerFrames` from the relay to a peer.  A frame
is an operation byte and the payload of the operation.

* `Frame` — the trait: parse from a cursor, write into bytes;
* `RelayFrames.delimits`, `PeerFrames.delimits` — an encoding is parsed back whatever
  follows it, and nothing less of it parses; of `PeerFrames` this holds with the losses of
  `PeerFrames.onWire` and where a command carries no IPv6 address;
* `RelayFrames.parse_ok_bytes` — what parses starts with the encoding of the frame.
-/

namespace Pcopy.Relay

open Pcopy.Lib

/-- `RelayOperations`. -/
inductive RelayOperations where
  | register : RelayOperations
  | probe : RelayOperations
  | doConnect : RelayOperations
  | ping : RelayOperations
  | probeAck : RelayOperations
  deriving DecidableEq, Repr

namespace RelayOperations

/-- `Operations::to_u8`. -/
def toU8 : RelayOperations → UInt8
  | .register => 1
  | .probe => 2
  | .doConnect => 3
  | .ping => 4
  | .probeAck => 5

/-- `TryFrom<u8>`. -/
def tryFrom (value : UInt8) : Parser RelayOperations :=
  match value with
  | 1 => pure .register
  | 2 => pure .probe
  | 3 => pure .doConnect
  | 4 => pure .ping
  | 5 => pure .probeAck
  | _ => Exec.fail (.other ⟨.invalidInput, "Receiving Operation not supported"⟩)

end RelayOperations

/-- `PeerOperations`. -/
inductive PeerOperations where
  | registerResult : PeerOperations
  | probeResult : PeerOperations
  | doConnectResult : PeerOperations
  | pingResult : PeerOperations
  | commands : PeerOperations
  deriving DecidableEq, Repr

namespace PeerOperations

/-- `Operations::to_u8`. -/
def toU8 : PeerOperations → UInt8
  | .registerResult => 21
  | .probeResult => 22
  | .doConnectResult => 23
  | .pingResult => 24
  | .commands => 25

/-- `TryFrom<u8>`. -/
def tryFrom (value : UInt8) : Parser PeerOperations :=
  match value with
  | 21 => pure .registerResult
  | 22 => pure .probeResult
  | 23 => pure .doConnectResult
  | 24 => pure .pingResult
  | 25 => pure .commands
  | _ => Exec.fail (.other ⟨.invalidInput, "Sending Operation not supported"⟩)

end PeerOperations

/-- `StatusCodes`. -/
inductive StatusCodes where
  | success : StatusCodes
  | failure : StatusCodes
  deriving DecidableEq, Repr

namespace StatusCodes

/-- `StatusCodes::into_u8`. -/
def intoU8 : StatusCodes → UInt8
  | .success => 200
  | .failure => 111

/-- `TryFrom<u8>`. -/
def tryFrom (value : UInt8) : Parser StatusCodes :=
  match value with
  | 200 => pure .success
  | 111 => pure .failure
  | _ => Exec.fail (.other ⟨.invalidInput, "Status Code not supported"⟩)

end StatusCodes

/-- `HealthStatus`. -/
inductive HealthStatus where
  | healthy : HealthStatus
  | unhealthy : HealthStatus
  deriving DecidableEq, Repr

namespace HealthStatus

/-- `health_status as u8`. -/
def toU8 : HealthStatus → UInt8
  | .healthy => 1
  | .unhealthy => 2

/-- `TryFrom<u8>`, an `io::Error` that `?` turns into a frame error. -/
def tryFrom (value : UInt8) : Parser HealthStatus :=
  match value with
  | 1 => pure .healthy
  | 2 => pure .unhealthy
  | _ => Exec.fail (FrameError.ofIo ⟨.invalidInput, "Sending Operation not supported"⟩)

end HealthStatus

/-- `PeerCommands`. -/
inductive PeerCommands where
  | sync : PeerCommands
  | doConnect : IpAddr → PeerCommands
  deriving DecidableEq

/-- `SYNC_CODE`. -/
def syncCode : UInt8 := 100

/-- `DOCONNECT_CODE`. -/
def doConnectCode : UInt8 := 101

/-- `PeerCommands::to_be_bytes`. -/
def PeerCommands.toBeBytes : PeerCommands → List UInt8
  | .sync => [syncCode]
  | .doConnect sourceIp => doConnectCode :: sourceIp.octets

/-- The trait `Frame`. -/
class Frame (F : Type) where
  parse : Parser F
  toBeBytes : F → List UInt8

/-! ### Frames sent from peers to the relay -/

/-- `RelayFrames`. -/
inductive RelayFrames where
  | register : PeerId → RelayFrames
  | probe : PeerId → RelayFrames
  | doConnect : PeerId → RelayFrames
  | ping : RelayFrames
  | probeAck : RelayFrames
  deriving DecidableEq

namespace RelayFrames

/-- `RelayFrames::read_operation`. -/
def readOperation : Parser RelayOperations := do
  Cursor.require 1
  let value ← Cursor.getU8
  RelayOperations.tryFrom value

/-- The payload that follows an operation. -/
def parseBody : RelayOperations → Parser RelayFrames
  | .register => do
      let peerId ← PeerId.tryFrom
      pure (.register peerId)
  | .probe => do
      let peerId ← PeerId.tryFrom
      pure (.probe peerId)
  | .doConnect => do
      let peerId ← PeerId.tryFrom
      pure (.doConnect peerId)
  | .ping => pure .ping
  | .probeAck => pure .probeAck

/-- `RelayFrames::parse`. -/
def parse : Parser RelayFrames := do
  let operation ← readOperation
  parseBody operation

/-- `RelayFrames::to_be_bytes`. -/
def toBeBytes : RelayFrames → List UInt8
  | .register peerId => RelayOperations.register.toU8 :: peerId.bytes
  | .probe peerId => RelayOperations.probe.toU8 :: peerId.bytes
  | .doConnect peerId => RelayOperations.doConnect.toU8 :: peerId.bytes
  | .ping => [RelayOperations.ping.toU8]
  | .probeAck => [RelayOperations.probeAck.toU8]

theorem delimits_readOperation (op : RelayOperations) :
    Delimits readOperation [op.toU8] op := by
  refine Delimits.u8 ?_
  cases op <;> exact Delimits.pure _

theorem delimits_operation (op : RelayOperations) {body : List UInt8} {f : RelayFrames}
    (h : Delimits (parseBody op) body f) : Delimits parse (op.toU8 :: body) f :=
  (delimits_readOperation op).bind h

theorem delimits (f : RelayFrames) : Delimits parse f.toBeBytes f := by
  cases f with
  | register id =>
      exact delimits_operation .register ((delimits_peerId id).map RelayFrames.register)
  | probe id => exact delimits_operation .probe ((delimits_peerId id).map RelayFrames.probe)
  | doConnect id =>
      exact delimits_operation .doConnect ((delimits_peerId id).map RelayFrames.doConnect)
  | ping => exact delimits_operation .ping (Delimits.pure RelayFrames.ping)
  | probeAck => exact delimits_operation .probeAck (Delimits.pure RelayFrames.probeAck)

theorem short_nil : Short parse [] := ping.delimits.short 0 Nat.one_pos

/-- A byte is an operation or is refused. -/
theorem tryFrom_cases (value : UInt8) :
    (∃ op : RelayOperations, value = op.toU8) ∨
      ∃ e, ∀ c, RelayOperations.tryFrom value c = (.error (.err (.other e)), c) := by
  unfold RelayOperations.tryFrom
  split
  · exact Or.inl ⟨.register, rfl⟩
  · exact Or.inl ⟨.probe, rfl⟩
  · exact Or.inl ⟨.doConnect, rfl⟩
  · exact Or.inl ⟨.ping, rfl⟩
  · exact Or.inl ⟨.probeAck, rfl⟩
  · exact Or.inr ⟨_, fun _ => rfl⟩

theorem parse_refused {value : UInt8} {rest : List UInt8} {e : IoError}
    (h : ∀ c, RelayOperations.tryFrom value c = (.error (.err (.other e)), c)) :
    (parse (Cursor.new (value :: rest))).1 = .error (.err (.other e)) := by
  have hread : readOperation (Cursor.new (value :: rest))
      = (.error (.err (.other e)), Cursor.split [value] rest) := by
    have hbyte : Cursor.getU8 (Cursor.split [] (value :: rest))
        = (.ok value, Cursor.split [value] rest) := parses_getU8 value [] rest
    rw [readOperation, Cursor.new_eq_split, Exec.bind_ok (Cursor.require_run [] _ (by simp)),
      Exec.bind_ok hbyte, h]
  rw [parse, Exec.bind_fault hread]

/-- A payload that is an identifier parses only where an identifier is. -/
theorem parse_withPeerId {op : RelayOperations} {make : PeerId → RelayFrames}
    (hbody : parseBody op = (do
      let peerId ← PeerId.tryFrom
      pure (make peerId))) {rest : List UInt8} {f : RelayFrames}
    (h : (parse (Cursor.new (op.toU8 :: rest))).1 = .ok f) :
    ∃ id : PeerId, f = make id ∧ ∃ rest', rest = id.bytes ++ rest' := by
  by_cases hlt : rest.length < peerIdLengthBytes
  · have hshort : Short (parseBody op) rest := hbody ▸ Short.first (Short.require hlt)
    have hparse := (Short.bind (delimits_readOperation op).whole hshort) []
    exact absurd (h.symm.trans hparse) (by simp)
  · refine ⟨⟨rest.take peerIdLengthBytes, by rw [List.length_take]; omega⟩, ?_,
      rest.drop peerIdLengthBytes, (List.take_append_drop _ _).symm⟩
    have hwhole := (delimits_operation op
      (hbody ▸ (delimits_peerId ⟨rest.take peerIdLengthBytes, by rw [List.length_take]; omega⟩).map
        make)).whole [] (rest.drop peerIdLengthBytes)
    simp only [List.cons_append, List.take_append_drop] at hwhole
    have hparse : (parse (Cursor.new (op.toU8 :: rest))).1 = _ := congrArg Prod.fst hwhole
    exact Except.ok.inj (h.symm.trans hparse)

/-- What parses starts with the encoding of what it parses to. -/
theorem parse_ok_bytes {bytes : List UInt8} {f : RelayFrames}
    (h : (parse (Cursor.new bytes)).1 = .ok f) : ∃ rest, bytes = f.toBeBytes ++ rest := by
  cases bytes with
  | nil =>
      exact absurd (h.symm.trans (short_nil [])) (by simp)
  | cons value rest =>
      rcases tryFrom_cases value with ⟨op, rfl⟩ | ⟨e, hrefused⟩
      · cases op with
        | register =>
            obtain ⟨id, rfl, rest', rfl⟩ := parse_withPeerId rfl h
            exact ⟨rest', rfl⟩
        | probe =>
            obtain ⟨id, rfl, rest', rfl⟩ := parse_withPeerId rfl h
            exact ⟨rest', rfl⟩
        | doConnect =>
            obtain ⟨id, rfl, rest', rfl⟩ := parse_withPeerId rfl h
            exact ⟨rest', rfl⟩
        | ping =>
            have hwhole := congrArg Prod.fst (ping.delimits.whole [] rest)
            exact ⟨rest, by rw [Except.ok.inj (h.symm.trans hwhole)]; rfl⟩
        | probeAck =>
            have hwhole := congrArg Prod.fst (probeAck.delimits.whole [] rest)
            exact ⟨rest, by rw [Except.ok.inj (h.symm.trans hwhole)]; rfl⟩
      · exact absurd (h.symm.trans (parse_refused hrefused)) (by simp)

end RelayFrames

instance : Frame RelayFrames := ⟨RelayFrames.parse, RelayFrames.toBeBytes⟩

/-! ### Frames sent to peers from the relay -/

/-- `PeerFrames`. -/
inductive PeerFrames where
  | registerResult : StatusCodes → PeerFrames
  | probeResult : Option PeerInfo → PeerFrames
  | doConnectResult : StatusCodes → PeerFrames
  | pingResult : HealthStatus → PeerFrames
  | command : PeerCommands → PeerFrames
  deriving DecidableEq

namespace PeerFrames

/-- `PeerFrames::read_operation`. -/
def readOperation : Parser PeerOperations := do
  Cursor.require 1
  let value ← Cursor.getU8
  PeerOperations.tryFrom value

/-- The address that the four bytes of a DOCONNECT command are read as. -/
def ipOfU32 (ipBytes : ℕ) : IpAddr :=
  .v4 ⟨[UInt8.ofNat ((ipBytes >>> 24) &&& 0xFF), UInt8.ofNat ((ipBytes >>> 16) &&& 0xFF),
    UInt8.ofNat ((ipBytes >>> 8) &&& 0xFF), UInt8.ofNat (ipBytes &&& 0xFF)], rfl⟩

/-- The command that follows the operation `Commands`. -/
def parseCommand : Parser PeerFrames := do
  Cursor.require 1
  let commandCode ← Cursor.getU8
  if commandCode = syncCode then pure (.command .sync)
  else if commandCode = doConnectCode then do
    Cursor.require 4
    let ipBytes ← Cursor.getU32
    pure (.command (.doConnect (ipOfU32 ipBytes)))
  else Exec.fail (.other ⟨.invalidInput, "Unknown Peer Command"⟩)

/-- The payload that follows an operation. -/
def parseBody : PeerOperations → Parser PeerFrames
  | .registerResult => do
      Cursor.require 1
      let code ← Cursor.getU8
      let statusCode ← StatusCodes.tryFrom code
      pure (.registerResult statusCode)
  | .probeResult => do
      Cursor.require 1
      let code ← Cursor.getU8
      let statusCode ← StatusCodes.tryFrom code
      if statusCode = .failure then pure (.probeResult none)
      else do
        let peerInfo ← PeerInfo.tryFrom
        pure (.probeResult (some peerInfo))
  | .doConnectResult => do
      Cursor.require 1
      let code ← Cursor.getU8
      let statusCode ← StatusCodes.tryFrom code
      pure (.doConnectResult statusCode)
  | .pingResult => do
      Cursor.require 1
      let code ← Cursor.getU8
      let healthStatus ← HealthStatus.tryFrom code
      pure (.pingResult healthStatus)
  | .commands => parseCommand

/-- `PeerFrames::parse`. -/
def parse : Parser PeerFrames := do
  let operation ← readOperation
  parseBody operation

/-- `PeerFrames::to_be_bytes`. -/
def toBeBytes : PeerFrames → List UInt8
  | .registerResult statusCode => [PeerOperations.registerResult.toU8, statusCode.intoU8]
  | .probeResult none => [PeerOperations.probeResult.toU8, StatusCodes.failure.intoU8]
  | .probeResult (some peerInfo) =>
      PeerOperations.probeResult.toU8 :: StatusCodes.success.intoU8 :: peerInfo.toBeBytes
  | .doConnectResult statusCode => [PeerOperations.doConnectResult.toU8, statusCode.intoU8]
  | .pingResult healthStatus => [PeerOperations.pingResult.toU8, healthStatus.toU8]
  | .command peerCommands => PeerOperations.commands.toU8 :: peerCommands.toBeBytes

/-- What a frame becomes on the wire. -/
def onWire : PeerFrames → PeerFrames
  | .probeResult (some peerInfo) => .probeResult (some peerInfo.onWire)
  | f => f

/-- The frames whose address, if they are a command with one, fits its field. -/
def AddressFits : PeerFrames → Prop
  | .command (.doConnect (.v6 _)) => False
  | _ => True

theorem delimits_readOperation (op : PeerOperations) :
    Delimits readOperation [op.toU8] op := by
  refine Delimits.u8 ?_
  cases op <;> exact Delimits.pure _

theorem delimits_statusCode (status : StatusCodes) :
    Delimits (StatusCodes.tryFrom status.intoU8) [] status := by
  cases status <;> exact Delimits.pure _

theorem delimits_healthStatus (health : HealthStatus) :
    Delimits (HealthStatus.tryFrom health.toU8) [] health := by
  cases health <;> exact Delimits.pure _

theorem ofNat_shiftRight_and (n k : ℕ) :
    UInt8.ofNat ((n >>> k) &&& 0xFF) = UInt8.ofNat (n / 2 ^ k) := by
  have hmask : (n >>> k) &&& 0xFF = n / 2 ^ k % 2 ^ 8 := by
    rw [Nat.shiftRight_eq_div_pow]
    exact Nat.and_two_pow_sub_one_eq_mod _ 8
  apply UInt8.toNat_inj.mp
  rw [hmask, UInt8.toNat_ofNat', UInt8.toNat_ofNat', Nat.mod_mod]

/-- Four bytes are the four bytes of the number they spell. -/
theorem ipOfU32_ofBytes (ip : Octets 4) : ipOfU32 (BigEndian.ofBytes ip.bytes) = .v4 ip := by
  have hbytes := BigEndian.toBytes_ofBytes_of_length ip.length_eq
  obtain ⟨xs, hxs⟩ := ip
  have hlow := ofNat_shiftRight_and (BigEndian.ofBytes xs) 0
  simp only [Nat.shiftRight_zero] at hlow
  simp only [ipOfU32, IpAddr.v4.injEq, Octets.mk.injEq, ofNat_shiftRight_and, hlow]
  exact hbytes

theorem delimits_command (c : PeerCommands) (h : AddressFits (.command c)) :
    Delimits parseCommand c.toBeBytes (.command c) := by
  cases c with
  | sync => exact Delimits.u8 (Delimits.pure _)
  | doConnect ip =>
      cases ip with
      | v6 ip => exact absurd h not_false
      | v4 ip =>
          refine Delimits.u8 (Delimits.require ?_ ip.length_eq)
          have hparse := (parses_getU32 ip.length_eq).map fun ipBytes =>
            PeerFrames.command (.doConnect (ipOfU32 ipBytes))
          rwa [ipOfU32_ofBytes] at hparse

theorem delimits_operation (op : PeerOperations) {body : List UInt8} {f : PeerFrames}
    (h : Delimits (parseBody op) body f) : Delimits parse (op.toU8 :: body) f :=
  (delimits_readOperation op).bind h

theorem delimits (f : PeerFrames) (h : AddressFits f) :
    Delimits parse f.toBeBytes f.onWire := by
  cases f with
  | registerResult status =>
      exact delimits_operation .registerResult
        (Delimits.u8 ((delimits_statusCode status).map PeerFrames.registerResult))
  | probeResult info =>
      cases info with
      | none => exact delimits_operation .probeResult (Delimits.u8 (Delimits.pure _))
      | some info =>
          exact delimits_operation .probeResult
            (Delimits.u8 ((delimits_peerInfo info).map fun i => PeerFrames.probeResult (some i)))
  | doConnectResult status =>
      exact delimits_operation .doConnectResult
        (Delimits.u8 ((delimits_statusCode status).map PeerFrames.doConnectResult))
  | pingResult health =>
      exact delimits_operation .pingResult
        (Delimits.u8 ((delimits_healthStatus health).map PeerFrames.pingResult))
  | command c => exact delimits_operation .commands (delimits_command c h)

theorem short_nil : Short parse [] := (delimits (.command .sync) trivial).short 0 (by decide)

theorem chooses_operation (value : UInt8) : Chooses (PeerOperations.tryFrom value) := by
  unfold PeerOperations.tryFrom
  split
  all_goals first | exact Chooses.pure _ | exact Chooses.refuse _

theorem chooses_statusCode (code : UInt8) : Chooses (StatusCodes.tryFrom code) := by
  unfold StatusCodes.tryFrom
  split
  · exact Chooses.pure _
  · exact Chooses.pure _
  · exact Chooses.refuse _

theorem chooses_healthStatus (code : UInt8) : Chooses (HealthStatus.tryFrom code) := by
  unfold HealthStatus.tryFrom
  split
  · exact Chooses.pure _
  · exact Chooses.pure _
  · exact Chooses.refuse _

/-- A guarded byte that is turned into a value or refused. -/
theorem steady_code {α : Type} {tryFrom : UInt8 → Parser α}
    (hchooses : ∀ code, Chooses (tryFrom code))
    {f : α → Parser PeerFrames} (hf : ∀ a, Steady 0 (f a)) :
    Steady 0 (do
      Cursor.require 1
      let code ← Cursor.getU8
      let value ← tryFrom code
      f value) :=
  Steady.require (Steady.getU8 fun code => Steady.choose (hchooses code) hf)

theorem steady_command : Steady 0 parseCommand := by
  refine Steady.require (Steady.getU8 fun code => ?_)
  by_cases hsync : code = syncCode
  · rw [if_pos hsync]
    exact Steady.pure _ _
  · rw [if_neg hsync]
    by_cases hconnect : code = doConnectCode
    · rw [if_pos hconnect]
      refine Steady.require (Steady.take (fun xs hxs => ⟨_, parses_getU32 hxs⟩) le_rfl ?_)
      exact fun ip => Steady.pure _ _
    · rw [if_neg hconnect]
      exact Steady.refuse _ _

/-- What has parsed, or was refused, is not changed by what follows. -/
theorem steady : Steady 0 parse := by
  refine Steady.bind (Steady.require (Steady.getU8 fun value =>
    (chooses_operation value).steady 0)) fun op => ?_
  cases op with
  | registerResult => exact steady_code chooses_statusCode fun _ => Steady.pure _ _
  | probeResult =>
      refine steady_code chooses_statusCode fun status => ?_
      by_cases hfailure : status = .failure
      · rw [if_pos hfailure]
        exact Steady.pure _ _
      · rw [if_neg hfailure]
        exact Steady.bind steady_peerInfo fun info => Steady.pure _ _
  | doConnectResult => exact steady_code chooses_statusCode fun _ => Steady.pure _ _
  | pingResult => exact steady_code chooses_healthStatus fun _ => Steady.pure _ _
  | commands => exact steady_command

end PeerFrames

instance : Frame PeerFrames := ⟨PeerFrames.parse, PeerFrames.toBeBytes⟩

end Pcopy.Relay
