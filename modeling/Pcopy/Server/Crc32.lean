import Pcopy.Server.CreateParentFolder

/-!
# A concrete host

`crc32fast` computes the CRC-32 of the IEEE polynomial; here it is, bit by bit, together
with a `File::write` that takes whole slices.  Runs of the server on given inputs are runs
on this host.
-/

namespace Pcopy.Server

open Pcopy.Path

/-- One bit of the reflected polynomial division. -/
def crcBit (c : UInt32) : UInt32 :=
  if c &&& 1 = 1 then (c >>> 1) ^^^ 0xEDB88320 else c >>> 1

/-- One byte: eight bits. -/
def crcByte (c : UInt32) (b : UInt8) : UInt32 :=
  crcBit (crcBit (crcBit (crcBit (crcBit (crcBit (crcBit (crcBit (c ^^^ b.toUInt32))))))))

/-- The checksum of `bytes` by a hasher that starts at `initial`. -/
def ieee (initial : UInt32) (bytes : List UInt8) : UInt32 :=
  ~~~ (bytes.foldl crcByte (~~~ initial))

theorem ieee_nil (initial : UInt32) : ieee initial [] = initial := by simp [ieee]

/-- **Feeding a hasher in pieces is feeding it the concatenation.** -/
theorem ieee_append (initial : UInt32) (xs ys : List UInt8) :
    ieee initial (xs ++ ys) = ieee (ieee initial xs) ys := by
  simp [ieee, List.foldl_append]

/-- A host whose checksum is the IEEE one and whose writes are never short. -/
def ieeeHost : Host where
  crc := ieee
  crc_nil := ieee_nil
  accept := id
  accept_le := fun _ => le_rfl

theorem ieeeHost_fullWrites : ieeeHost.FullWrites := fun _ => rfl

/-- A file system in which the saving directory stands and nothing else does. -/
def savingDisk : FileSystem where
  node := fun loc => if loc <+: resolve (components rootSavingDirectory) then some .dir else none
  refuses := fun _ => none

end Pcopy.Server
