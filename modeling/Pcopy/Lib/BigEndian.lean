import Mathlib.Tactic.Positivity
import Mathlib.Tactic.Ring

/-!
# Big-endian fixed-width numbers

`toBytes w n` is the number `n` in `w` bytes, most significant first (truncated to the low
`w` bytes when it does not fit), and `ofBytes` reads bytes back.  The two are inverse on
the numbers below `256 ^ w`, which is what makes a fixed-width field of a wire format
unambiguous.
-/

namespace Pcopy.Lib.BigEndian

/-- The low `w` bytes of `n`, most significant first. -/
def toBytes : ℕ → ℕ → List UInt8
  | 0, _ => []
  | w + 1, n => UInt8.ofNat (n / 256 ^ w) :: toBytes w n

/-- The number that bytes spell, most significant first. -/
def ofBytes : List UInt8 → ℕ
  | [] => 0
  | b :: bs => b.toNat * 256 ^ bs.length + ofBytes bs

@[simp] theorem toBytes_length (w n : ℕ) : (toBytes w n).length = w := by
  induction w with
  | zero => rfl
  | succ w ih => simp [toBytes, ih]

theorem ofBytes_lt (bs : List UInt8) : ofBytes bs < 256 ^ bs.length := by
  induction bs with
  | nil => simp [ofBytes]
  | cons b bs ih =>
      have hb : b.toNat + 1 ≤ 256 := b.toNat_lt
      calc ofBytes (b :: bs)
          < b.toNat * 256 ^ bs.length + 256 ^ bs.length := by
            simpa only [ofBytes] using Nat.add_lt_add_left ih _
        _ = (b.toNat + 1) * 256 ^ bs.length := by ring
        _ ≤ 256 * 256 ^ bs.length := Nat.mul_le_mul_right _ hb
        _ = 256 ^ (b :: bs).length := by rw [List.length_cons, pow_succ']

/-- The number comes back modulo the range of the field. -/
theorem ofBytes_toBytes_mod (w n : ℕ) : ofBytes (toBytes w n) = n % 256 ^ w := by
  induction w with
  | zero => simp [toBytes, ofBytes, Nat.mod_one]
  | succ w ih =>
      have hmod : n % 256 ^ (w + 1) = n % 256 ^ w + 256 ^ w * (n / 256 ^ w % 256) := by
        rw [pow_succ, Nat.mod_mul]
      rw [toBytes, ofBytes, toBytes_length, ih, UInt8.toNat_ofNat', hmod,
        show (2 : ℕ) ^ 8 = 256 from rfl, Nat.mul_comm, Nat.add_comm]

theorem ofBytes_toBytes {w n : ℕ} (h : n < 256 ^ w) : ofBytes (toBytes w n) = n := by
  rw [ofBytes_toBytes_mod, Nat.mod_eq_of_lt h]

/-- The bytes only depend on the number modulo the range of the field. -/
theorem toBytes_add_mul (w n k : ℕ) : toBytes w (k * 256 ^ w + n) = toBytes w n := by
  induction w generalizing k with
  | zero => rfl
  | succ w ih =>
      have hshift : k * 256 ^ (w + 1) + n = k * 256 * 256 ^ w + n := by ring
      have hdiv : (k * 256 * 256 ^ w + n) / 256 ^ w = k * 256 + n / 256 ^ w := by
        rw [Nat.add_comm, Nat.add_mul_div_right _ _ (by positivity), Nat.add_comm]
      rw [toBytes, toBytes, hshift, ih, hdiv]
      congr 1
      apply UInt8.toNat_inj.mp
      simp only [UInt8.toNat_ofNat']
      omega

theorem toBytes_ofBytes (bs : List UInt8) : toBytes bs.length (ofBytes bs) = bs := by
  induction bs with
  | nil => rfl
  | cons b bs ih =>
      have hlt := ofBytes_lt bs
      have hdiv : (b.toNat * 256 ^ bs.length + ofBytes bs) / 256 ^ bs.length = b.toNat := by
        rw [Nat.add_comm, Nat.add_mul_div_right _ _ (by positivity), Nat.div_eq_of_lt hlt]
        omega
      rw [List.length_cons, toBytes, ofBytes, hdiv, toBytes_add_mul, ih]
      simp

/-- A field read from exactly `w` bytes, written again, gives those bytes. -/
theorem toBytes_ofBytes_of_length {w : ℕ} {bs : List UInt8} (h : bs.length = w) :
    toBytes w (ofBytes bs) = bs := by
  rw [← h, toBytes_ofBytes]

theorem ofBytes_lt_of_length {w : ℕ} {bs : List UInt8} (h : bs.length = w) :
    ofBytes bs < 256 ^ w := h ▸ ofBytes_lt bs

end Pcopy.Lib.BigEndian
