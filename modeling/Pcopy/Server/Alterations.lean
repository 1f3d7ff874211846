import Pcopy.Lib.ShiftRegister
import Pcopy.Server.SavedFiles

/-!
# Requests that are altered on their way

The path and the data of a save request are followed by the CRC-32 of their bytes.  An alteration
within 32 bits in a row of the one or the other does not go unnoticed.  The bits are counted from
the least significant one of each byte on, which is the order in which this CRC divides them; the 32
bits may begin anywhere in a byte.  What is said of altered data is said of files that `File::write`
gives whole slices to.

* `ieee_burst` — the checksum of `ieee` changes;
* `altered_refused` — the server does nothing with an altered path, and never reports altered data
  as saved.
-/

namespace Pcopy.Server

open Pcopy.Lib Pcopy.Path

/-! ### The checksum is that of a shift register -/

/-- The polynomial of `crcBit`. -/
def ieeePoly : BitVec 32 := 0xEDB88320

/-- The bits of a byte in the order in which they are divided, the least significant first. -/
def bitsOf (b : UInt8) : List Bool := (List.range 8).map b.toBitVec.getLsbD

/-- The bits of bytes. -/
def bitsOfAll (bytes : List UInt8) : List Bool := bytes.flatMap bitsOf

theorem bitsOf_length (b : UInt8) : (bitsOf b).length = 8 := by
  rw [bitsOf, List.length_map, List.length_range]

theorem bitsOfAll_length (bytes : List UInt8) : (bitsOfAll bytes).length = 8 * bytes.length := by
  induction bytes with
  | nil => rfl
  | cons b bytes ih =>
      rw [bitsOfAll, List.flatMap_cons, List.length_append, ← bitsOfAll, ih, bitsOf_length,
        List.length_cons]
      omega

theorem low_bit_set (c : UInt32) : c &&& 1 = 1 ↔ c.toBitVec.getLsbD 0 = true := by
  rw [← UInt32.toBitVec_inj, UInt32.toBitVec_and]
  have hone : (c.toBitVec &&& (1 : UInt32).toBitVec)
      = BitVec.setWidth 32 (BitVec.ofBool (c.toBitVec.getLsbD 0)) :=
    BitVec.and_one_eq_setWidth_ofBool_getLsbD
  rw [hone]
  cases c.toBitVec.getLsbD 0 with
  | true => decide
  | false => decide

theorem toBitVec_crcBit (c : UInt32) :
    (crcBit c).toBitVec = ShiftRegister.shift ieeePoly c.toBitVec := by
  rw [crcBit, ShiftRegister.shift]
  by_cases hlow : c &&& 1 = 1
  · rw [if_pos hlow, if_pos ((low_bit_set c).mp hlow)]
    rfl
  · rw [if_neg hlow, if_neg fun h => hlow ((low_bit_set c).mpr h)]
    rfl

theorem spell_bitsOf (b : UInt8) : ShiftRegister.spell 32 (bitsOf b) = b.toUInt32.toBitVec := by
  apply BitVec.eq_of_getLsbD_eq
  intro i hi
  rw [ShiftRegister.getLsbD_spell, UInt8.toBitVec_toUInt32, BitVec.getLsbD_setWidth]
  by_cases hlt : i < 8
  · have hbit : (bitsOf b).getD i false = b.toBitVec.getLsbD i := by
      rw [List.getD_eq_getElem _ _ (by rw [bitsOf_length]; exact hlt)]
      simp [bitsOf]
    rw [hbit]
  · rw [List.getD_eq_default _ _ (by rw [bitsOf_length]; omega),
      BitVec.getLsbD_of_ge _ _ (by omega)]

/-- A byte is eight bits. -/
theorem toBitVec_crcByte (c : UInt32) (b : UInt8) :
    (crcByte c b).toBitVec = ShiftRegister.feed ieeePoly c.toBitVec (bitsOf b) := by
  rw [ShiftRegister.feed_eq ieeePoly (bitsOf b) _ (by rw [bitsOf_length]; decide), bitsOf_length,
    spell_bitsOf, ← UInt32.toBitVec_xor]
  simp only [crcByte, toBitVec_crcBit]
  rfl

theorem toBitVec_foldl_crcByte (bytes : List UInt8) :
    ∀ c : UInt32, (bytes.foldl crcByte c).toBitVec
      = ShiftRegister.feed ieeePoly c.toBitVec (bitsOfAll bytes) := by
  induction bytes with
  | nil => exact fun c => rfl
  | cons b bytes ih =>
      intro c
      rw [List.foldl_cons, ih, toBitVec_crcByte, bitsOfAll, bitsOfAll, List.flatMap_cons,
        ShiftRegister.feed_append]

/-! ### Bursts -/

/-- The bytes differ, and only within 32 bits in a row, which may begin anywhere in a byte: bit by
bit as `bitsOf` has them, the least significant bit of each byte first. -/
def Burst (xs ys : List UInt8) : Prop :=
  ∃ before bits bits' after, bitsOfAll xs = before ++ bits ++ after ∧
    bitsOfAll ys = before ++ bits' ++ after ∧ bits.length = bits'.length ∧
    bits.length ≤ 32 ∧ bits ≠ bits'

theorem bitsOf_injective : Function.Injective bitsOf := by
  intro b c h
  have hword := congrArg (ShiftRegister.spell 32) h
  rw [spell_bitsOf, spell_bitsOf, UInt32.toBitVec_inj] at hword
  exact UInt8.toUInt32_inj.mp hword

theorem bitsOfAll_injective : Function.Injective bitsOfAll := by
  intro xs
  induction xs with
  | nil =>
      intro ys h
      have hlen := congrArg List.length h
      rw [bitsOfAll_length, bitsOfAll_length, List.length_nil] at hlen
      exact (List.length_eq_zero_iff.mp (by omega)).symm
  | cons x xs ih =>
      intro ys h
      cases ys with
      | nil =>
          have hlen := congrArg List.length h
          rw [bitsOfAll_length, bitsOfAll_length, List.length_cons, List.length_nil] at hlen
          omega
      | cons y ys =>
          rw [bitsOfAll, bitsOfAll, List.flatMap_cons, List.flatMap_cons] at h
          obtain ⟨hhead, htail⟩ := List.append_inj h (by rw [bitsOf_length, bitsOf_length])
          rw [bitsOf_injective hhead, ih htail]

/-- Up to four bytes in a row that have become others are a burst. -/
theorem Burst.of_bytes {xs ys : List UInt8} (hsame : xs.length = ys.length)
    (hroom : xs.length ≤ 4) (hne : xs ≠ ys) (before after : List UInt8) :
    Burst (before ++ xs ++ after) (before ++ ys ++ after) := by
  refine ⟨bitsOfAll before, bitsOfAll xs, bitsOfAll ys, bitsOfAll after, ?_, ?_, ?_, ?_, ?_⟩
  · rw [bitsOfAll, List.flatMap_append, List.flatMap_append]
    rfl
  · rw [bitsOfAll, List.flatMap_append, List.flatMap_append]
    rfl
  · rw [bitsOfAll_length, bitsOfAll_length, hsame]
  · rw [bitsOfAll_length]
    omega
  · exact fun h => hne (bitsOfAll_injective h)

theorem Burst.length_eq {xs ys : List UInt8} (h : Burst xs ys) : xs.length = ys.length := by
  obtain ⟨before, bits, bits', after, hxs, hys, hsame, -, -⟩ := h
  have hbits : (bitsOfAll xs).length = (bitsOfAll ys).length := by
    rw [hxs, hys, List.length_append, List.length_append, List.length_append, List.length_append,
      hsame]
  rw [bitsOfAll_length, bitsOfAll_length] at hbits
  omega

/-- **The checksum notices a burst.** -/
theorem ieee_burst (initial : UInt32) {xs ys : List UInt8} (h : Burst xs ys) :
    ieee initial xs ≠ ieee initial ys := by
  obtain ⟨before, bits, bits', after, hxs, hys, hsame, hroom, hne⟩ := h
  intro heq
  have hregister : (xs.foldl crcByte (~~~ initial)).toBitVec
      = (ys.foldl crcByte (~~~ initial)).toBitVec :=
    congrArg UInt32.toBitVec (UInt32.not_inj.mp heq)
  rw [toBitVec_foldl_crcByte, toBitVec_foldl_crcByte, hxs, hys] at hregister
  exact hne (ShiftRegister.feed_burst (by decide) hsame hroom hregister)

/-! ### A field that was altered -/

/-- A field of a request as it arrives: the length and the checksum are those of `bytes`, and its
bytes have become `bytes'`. -/
def arriving (host : Host) (width : ℕ) (bytes bytes' : List UInt8) : List UInt8 :=
  BigEndian.toBytes width bytes.length ++ bytes' ++ checksumBytes host bytes

section

variable {host : Host}

theorem checksumBytes_burst (hcrc : host.crc = ieee) {xs ys : List UInt8} (h : Burst xs ys) :
    checksumBytes host xs ≠ checksumBytes host ys := by
  intro heq
  have hsum := congrArg BigEndian.ofBytes heq
  rw [checksumBytes, checksumBytes, BigEndian.ofBytes_toBytes (UInt32.toNat_lt _),
    BigEndian.ofBytes_toBytes (UInt32.toNat_lt _), UInt32.toNat_inj, crc32, crc32, hcrc] at hsum
  exact ieee_burst 0 h hsum

/-- A field that was altered in a burst is no field of other bytes. -/
theorem arriving_ne (hcrc : host.crc = ieee) {width : ℕ}
    {bytes bytes' other rest rest' : List UInt8}
    (hlen : bytes.length < 256 ^ width) (hlen' : other.length < 256 ^ width)
    (hburst : Burst bytes bytes') :
    arriving host width bytes bytes' ++ rest ≠ arriving host width other other ++ rest' := by
  intro h
  simp only [arriving, List.append_assoc] at h
  obtain ⟨hfield, htail⟩ := List.append_inj h (by simp)
  have hlength := congrArg BigEndian.ofBytes hfield
  rw [BigEndian.ofBytes_toBytes hlen, BigEndian.ofBytes_toBytes hlen'] at hlength
  obtain ⟨rfl, htail⟩ := List.append_inj htail (hburst.length_eq.symm.trans hlength)
  obtain ⟨hsum, -⟩ := List.append_inj htail (by simp)
  exact checksumBytes_burst hcrc hburst hsum

/-- Nobody asks for anything with an altered path. -/
theorem not_asks_altered (hcrc : host.crc = ieee) {socket : SegStream UInt8} {op : UInt8}
    {path path' rest : List UInt8} (hpath : path.length < 2 ^ 16) (hburst : Burst path path')
    (harrived : socket.elems = op :: (arriving host 2 path path' ++ rest)) {op' : UInt8}
    {asked : PathBytes} {dir : List Component} {rest' : List UInt8} :
    ¬ Asks host socket op' asked dir rest' := by
  intro hasks
  obtain ⟨u, helems, hahead⟩ := hasks.ahead
  rw [harrived, List.cons.injEq, hahead.bytes] at helems
  have hfield : arriving host 2 path path' ++ rest = arriving host 2 asked asked ++ rest' := by
    rw [helems.2, arriving, checksumBytes]
    simp only [List.append_assoc]
  exact arriving_ne hcrc hpath hahead.short hburst hfield

/-- The script of a connection with an altered path makes no call, and reports no success. -/
theorem altered_quiet (hcrc : host.crc = ieee) {socket : SegStream UInt8} {op : UInt8}
    {path path' rest : List UInt8} (hpath : path.length < 2 ^ 16) (hburst : Burst path path')
    (harrived : socket.elems = op :: (arriving host 2 path path' ++ rest)) :
    ∃ o, connectionScript host socket = .done o ∧ ¬ o.Succeeded := by
  have hshape := connectionScript_shape host socket
  generalize connectionScript host socket = script at hshape
  cases hshape with
  | quiet o ho => exact ⟨o, rfl, ho⟩
  | folder hasks => exact absurd hasks (not_asks_altered hcrc hpath hburst harrived)
  | save hasks hsaved hwritten => exact absurd hasks (not_asks_altered hcrc hpath hburst harrived)

end

/-- **Altered requests are refused.**  In every state of every run, among any other connections and
however the bytes arrive, for a host with the checksum `ieee`: of a request whose path was altered
within 32 bits in a row, counted from the least significant bit of each byte on, the task makes no
call to the file system and never reports a file as saved; nor does it where the data was altered so
and `File::write` takes whole slices. -/
theorem altered_refused {host : Host} (hcrc : host.crc = ieee) {disk : FileSystem}
    {as : List Action} {s : State}
    (hrun : runFrom (step host) (State.listening disk) as = some s) {t : TaskId}
    {socket : SegStream UInt8} (hsocket : s.started[t]? = some socket) {op : UInt8}
    {path path' data data' left : List UInt8} (hpath : path.length < 2 ^ 16)
    (hdata : data.length < 2 ^ 32)
    (harrived : socket.elems
      = op :: (arriving host 2 path path' ++ (arriving host 4 data data' ++ left))) :
    (Burst path path' → ∀ e ∈ s.log, e.1 ≠ t) ∧
      (Burst path path' ∨ host.FullWrites ∧ path' = path ∧ Burst data data' →
        ∀ saved reply, s.tasks[t]? ≠ some (.done (.ok (.fileSaved saved), reply))) := by
  have hfaithful := Pool.faithful_run hrun
  obtain ⟨now, hnow, hreach⟩ := hfaithful.reached t socket hsocket
  constructor
  · rintro hburst ⟨t', c⟩ hmem rfl
    obtain ⟨o, hscript, -⟩ := altered_quiet hcrc hpath hburst harrived
    have hcall : c ∈ (connectionScript host socket).calls :=
      hreach.prefix.subset (mem_project.mpr hmem)
    rw [hscript] at hcall
    cases hcall
  · rintro haltered saved reply hended
    obtain rfl := Option.some.inj (hnow.symm.trans hended)
    rcases haltered with hburst | ⟨hfull, rfl, hburst⟩
    · obtain ⟨o, hscript, ho⟩ := altered_quiet hcrc hpath hburst harrived
      rw [hscript] at hreach
      generalize project s.log t = made at hreach
      cases hreach
      exact ho ⟨saved, Or.inl rfl⟩
    · -- what is reported as saved is on the stream with its checksums
      obtain ⟨-, rel, stored, rest, before, after, -, hshort, hlen, helems, -, -⟩ :=
        saved_content hfull hfaithful.replayed hreach
      have hframe : pathFrame host path' ++ (arriving host 4 data data' ++ left)
          = pathFrame host rel ++ (arriving host 4 stored stored ++ rest) := by
        rw [harrived, List.cons.injEq, saveFrame, List.append_assoc] at helems
        exact helems.2
      exact arriving_ne hcrc hdata hlen hburst (pathFrame_inj hpath hshort hframe).2

/-- A save request of the file `a` with the data `[1, 1]`, of which the last byte was altered. -/
def alteredRequest : SegStream UInt8 :=
  .single (opSaveFile ::
    (arriving ieeeHost 2 [97] [97] ++ (arriving ieeeHost 4 [1, 1] [1, 6] ++ [])))
    (List.cons_ne_nil _ _)

theorem altered_refused_lastByte :
    ∃ s : State, runFrom (step ieeeHost) (State.listening savingDisk)
        (.start alteredRequest :: List.replicate 7 (.turn 0)) = some s ∧
      ∀ saved reply, s.tasks[0]? ≠ some (.done (.ok (.fileSaved saved), reply)) := by
  have hend : ((runFrom (step ieeeHost) (State.listening savingDisk)
      (.start alteredRequest :: List.replicate 7 (.turn 0))).map fun s =>
        decide (s.started[0]? = some alteredRequest)) = some true := by
    decide +kernel
  obtain ⟨s, hrun, hend⟩ := Option.map_eq_some_iff.mp hend
  have hburst : Burst [1, 1] [1, 6] :=
    @Burst.of_bytes [1] [6] rfl (by decide) (by decide) [1] []
  exact ⟨s, hrun, (altered_refused rfl hrun (of_decide_eq_true hend)
    (by decide) (by decide) rfl).2 (Or.inr ⟨ieeeHost_fullWrites, rfl, hburst⟩)⟩

end Pcopy.Server
