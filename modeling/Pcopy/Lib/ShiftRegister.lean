import Mathlib.Data.List.GetD
import Mathlib.Logic.Function.Iterate

/-!
# Shift registers that divide by a polynomial

A register of `n` bits takes a stream bit by bit: the bit is added at the low end, everything
moves down by one place, and if the bit that falls out is set the polynomial is added.  This is
division of the stream by a polynomial, with all bits reversed, as cyclic redundancy checks do it.

Such a register is linear, so it takes up to `n` bits as it takes their number, shifted; and where
the polynomial has its top bit no step loses anything.

* `feed_eq` — up to `n` bits at once;
* `feed_injective` — the register tells apart any two ways to fill in up to `n` bits;
* `feed_burst` — also when more bits follow.
-/

namespace Pcopy.Lib.ShiftRegister

variable {n : ℕ}

/-- One step of the division. -/
def shift (poly c : BitVec n) : BitVec n :=
  if c.getLsbD 0 then (c >>> 1) ^^^ poly else c >>> 1

/-- A bit at the low end. -/
def lowBit (n : ℕ) (b : Bool) : BitVec n := (BitVec.ofBool b).setWidth n

/-- The register takes one bit. -/
def feedBit (poly c : BitVec n) (b : Bool) : BitVec n := shift poly (c ^^^ lowBit n b)

/-- The register takes a stream of bits. -/
def feed (poly c : BitVec n) (bits : List Bool) : BitVec n := bits.foldl (feedBit poly) c

/-- The number that the bits spell, the first at the low end. -/
def spell (n : ℕ) : List Bool → BitVec n
  | [] => 0
  | b :: bits => lowBit n b ^^^ (spell n bits) <<< 1

/-! ### Bit by bit -/

theorem getLsbD_shift (poly c : BitVec n) (i : ℕ) :
    (shift poly c).getLsbD i = (c.getLsbD (i + 1) ^^ (c.getLsbD 0 && poly.getLsbD i)) := by
  rw [shift]
  cases c.getLsbD 0 with
  | true => simp [Nat.add_comm]
  | false => simp [Nat.add_comm]

theorem getLsbD_lowBit (b : Bool) (i : ℕ) :
    (lowBit n b).getLsbD i = (decide (i = 0) && decide (i < n) && b) := by
  rw [lowBit, BitVec.getLsbD_setWidth, BitVec.getLsbD_ofBool]
  cases b <;> cases decide (i = 0) <;> cases decide (i < n) <;> rfl

/-- The bits of the number that bits spell. -/
theorem getLsbD_spell (bits : List Bool) :
    ∀ i, (spell n bits).getLsbD i = (decide (i < n) && bits.getD i false) := by
  induction bits with
  | nil => intro i; simp [spell]
  | cons b bits ih =>
      intro i
      rw [spell, BitVec.getLsbD_xor, getLsbD_lowBit, BitVec.getLsbD_shiftLeft, ih]
      cases i with
      | zero => simp
      | succ i =>
          by_cases hi : i + 1 < n
          · have hlt : i < n := by omega
            simp [hi, hlt]
          · simp [hi]

/-- As many bits as there is room for are not lost. -/
theorem spell_injective {bits bits' : List Bool} (hsame : bits.length = bits'.length)
    (hroom : bits.length ≤ n) (h : spell n bits = spell n bits') : bits = bits' := by
  apply List.ext_getElem hsame
  intro i hi hi'
  have hbit := congrArg (fun c => BitVec.getLsbD c i) h
  simp only [getLsbD_spell, List.getD_eq_getElem _ _ hi, List.getD_eq_getElem _ _ hi'] at hbit
  have hlt : i < n := by omega
  simpa [hlt] using hbit

/-! ### The steps are linear -/

section

variable {poly : BitVec n}

theorem shift_xor (poly c d : BitVec n) :
    shift poly (c ^^^ d) = shift poly c ^^^ shift poly d := by
  apply BitVec.eq_of_getLsbD_eq
  intro i _
  simp only [BitVec.getLsbD_xor, getLsbD_shift]
  cases c.getLsbD 0 <;> cases d.getLsbD 0 <;> cases poly.getLsbD i <;>
    cases c.getLsbD (i + 1) <;> cases d.getLsbD (i + 1) <;> rfl

/-- A step loses nothing: it leaves the bit that fell out at the top. -/
theorem shift_injective (hpoly : poly.msb = true) : Function.Injective (shift poly) := by
  intro c d h
  have hbits (i : ℕ) := congrArg (fun x => BitVec.getLsbD x i) h
  simp only [getLsbD_shift] at hbits
  have hpos : 0 < n := by
    by_contra hzero
    obtain rfl : n = 0 := by omega
    rw [BitVec.msb_eq_getLsbD_last, BitVec.getLsbD_of_ge _ _ (Nat.zero_le _)] at hpoly
    cases hpoly
  have hlow : c.getLsbD 0 = d.getLsbD 0 := by
    have htop := hbits (n - 1)
    rw [BitVec.msb_eq_getLsbD_last] at hpoly
    rw [hpoly, Nat.sub_add_cancel hpos, BitVec.getLsbD_of_ge c n (Nat.le_refl n),
      BitVec.getLsbD_of_ge d n (Nat.le_refl n)] at htop
    simpa using htop
  apply BitVec.eq_of_getLsbD_eq
  intro i _
  cases i with
  | zero => exact hlow
  | succ i =>
      have hbit := hbits i
      rw [hlow] at hbit
      exact Bool.xor_left_inj.mp hbit

/-- What does not reach the low end is only moved. -/
theorem shift_shiftLeft {w : BitVec n} (hw : w.getLsbD (n - 1) = false) :
    shift poly (w <<< 1) = w := by
  apply BitVec.eq_of_getLsbD_eq
  intro i hi
  rw [getLsbD_shift, BitVec.getLsbD_shiftLeft, BitVec.getLsbD_shiftLeft]
  by_cases hlast : i + 1 < n
  · simp [hlast]
  · obtain rfl : i = n - 1 := by omega
    have hend : ¬ n - 1 + 1 < n := hlast
    rw [hw]
    simp [hend]

/-- **Up to `n` bits at once.**  The register takes them as it takes their number, moved down. -/
theorem feed_eq (poly : BitVec n) (bits : List Bool) :
    ∀ c, bits.length ≤ n → feed poly c bits = (shift poly)^[bits.length] (c ^^^ spell n bits) := by
  induction bits with
  | nil => intro c _; simp [feed, spell]
  | cons b bits ih =>
      intro c hroom
      rw [List.length_cons] at hroom
      have htop : (spell n bits).getLsbD (n - 1) = false := by
        rw [getLsbD_spell, List.getD_eq_default _ _ (by omega), Bool.and_false]
      have hfeed : feed poly c (b :: bits) = feed poly (feedBit poly c b) bits := rfl
      rw [hfeed, ih _ (by omega), feedBit, List.length_cons, Function.iterate_succ_apply, spell,
        ← BitVec.xor_assoc, shift_xor poly (c ^^^ lowBit n b), shift_shiftLeft htop]

theorem feed_append (poly c : BitVec n) (xs ys : List Bool) :
    feed poly c (xs ++ ys) = feed poly (feed poly c xs) ys := List.foldl_append ..

/-- The register after a stream tells where it was before. -/
theorem feed_start_injective (hpoly : poly.msb = true) (bits : List Bool) :
    ∀ c d, feed poly c bits = feed poly d bits → c = d := by
  induction bits with
  | nil => exact fun c d h => h
  | cons b bits ih =>
      intro c d h
      have hnext : feedBit poly c b = feedBit poly d b := ih _ _ h
      exact (BitVec.xor_left_inj _).mp (shift_injective hpoly hnext)

/-- **The register tells up to `n` bits apart.** -/
theorem feed_injective (hpoly : poly.msb = true) {c : BitVec n} {bits bits' : List Bool}
    (hsame : bits.length = bits'.length) (hroom : bits.length ≤ n)
    (h : feed poly c bits = feed poly c bits') : bits = bits' := by
  rw [feed_eq poly bits c hroom, feed_eq poly bits' c (hsame ▸ hroom), ← hsame] at h
  have hnumber := (shift_injective hpoly).iterate bits.length h
  exact spell_injective hsame hroom ((BitVec.xor_right_inj c).mp hnumber)

/-- **Bursts.**  Two streams that differ only within `n` bits in a row leave different registers. -/
theorem feed_burst (hpoly : poly.msb = true) {c : BitVec n} {before bits bits' after : List Bool}
    (hsame : bits.length = bits'.length) (hroom : bits.length ≤ n)
    (h : feed poly c (before ++ bits ++ after) = feed poly c (before ++ bits' ++ after)) :
    bits = bits' := by
  rw [feed_append, feed_append, feed_append, feed_append] at h
  exact feed_injective hpoly hsame hroom (feed_start_injective hpoly after _ _ h)

end

end Pcopy.Lib.ShiftRegister
