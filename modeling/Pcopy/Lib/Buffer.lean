import Mathlib.Order.Nat

/-!
# Windows of a reusable buffer, and files written at a position

A receive buffer is a list of fixed length of which only a window `[a, b)` holds received
elements; new elements are put behind the window without moving it.  A file is a list that
a write at a position may overwrite or extend, the gap it may leave being filled.

* `window_overwrite` — appending to the window is appending to the elements in it;
* `window_split` — a window is the concatenation of its parts;
* `writeAt_end` — writing at the end appends;
* `getElem?_writeAt` — a positional write, position by position.
-/

namespace Pcopy.Lib

variable {α : Type*}

/-! ### Windows -/

/-- The elements of `buf` from index `a` up to `b`. -/
def window (buf : List α) (a b : ℕ) : List α := (buf.take b).drop a

/-- Put `xs` over the elements of `buf` from index `i` on. -/
def overwrite (buf : List α) (i : ℕ) (xs : List α) : List α :=
  buf.take i ++ xs ++ buf.drop (i + xs.length)

@[simp] theorem window_self (buf : List α) (a : ℕ) : window buf a a = [] := by
  rw [window, List.drop_eq_nil_iff, List.length_take]
  omega

theorem window_length (buf : List α) {a b : ℕ} (hb : b ≤ buf.length) :
    (window buf a b).length = b - a := by
  rw [window, List.length_drop, List.length_take, Nat.min_eq_left hb]

theorem window_split (buf : List α) {a m b : ℕ} (ham : a ≤ m) (hmb : m ≤ b) :
    window buf a b = window buf a m ++ window buf m b := by
  rcases Nat.le_total m buf.length with hm | hm
  · have htake : buf.take b = buf.take m ++ (buf.take b).drop m := by
      conv_lhs => rw [← List.take_append_drop m (buf.take b)]
      rw [List.take_take, Nat.min_eq_left hmb]
    rw [window, htake, List.drop_append_of_le_length (by rw [List.length_take]; omega)]
    rfl
  · have hempty : window buf m b = [] := by
      rw [window, List.drop_eq_nil_iff, List.length_take]
      omega
    rw [hempty, List.append_nil, window, window, List.take_of_length_le hm,
      List.take_of_length_le (by omega)]

theorem overwrite_length (buf : List α) {i : ℕ} {xs : List α} (h : i + xs.length ≤ buf.length) :
    (overwrite buf i xs).length = buf.length := by
  simp only [overwrite, List.length_append, List.length_take, List.length_drop]
  omega

/-- **Appending to the window.** -/
theorem window_overwrite (buf : List α) {a i : ℕ} (xs : List α) (hai : a ≤ i)
    (hi : i ≤ buf.length) :
    window (overwrite buf i xs) a (i + xs.length) = window buf a i ++ xs := by
  have hlen : (buf.take i).length = i := by rw [List.length_take]; omega
  have htake : (overwrite buf i xs).take (i + xs.length) = buf.take i ++ xs := by
    rw [overwrite, List.take_append_of_le_length (by rw [List.length_append]; omega),
      List.take_of_length_le (by rw [List.length_append]; omega)]
  rw [window, htake, List.drop_append_of_le_length (by omega), window]

/-! ### Positional writes -/

/-- The content of a file after `xs` was written at position `off`: what stood there is
overwritten, a gap before it is filled with `fill`, and writing nothing changes nothing. -/
def writeAt (fill : α) (content : List α) (off : ℕ) (xs : List α) : List α :=
  if xs.isEmpty then content
  else content.take off ++ List.replicate (off - content.length) fill ++ xs ++
    content.drop (off + xs.length)

@[simp] theorem writeAt_nil (fill : α) (content : List α) (off : ℕ) :
    writeAt fill content off [] = content := rfl

/-- Writing at the end of a file appends. -/
theorem writeAt_end (fill : α) (content xs : List α) :
    writeAt fill content content.length xs = content ++ xs := by
  cases xs with
  | nil => simp
  | cons x xs => simp [writeAt]

theorem writeAt_length (fill : α) (content : List α) (off : ℕ) {xs : List α} (h : xs ≠ []) :
    (writeAt fill content off xs).length = max content.length (off + xs.length) := by
  have hx : xs.isEmpty = false := by simpa using h
  simp only [writeAt, hx, Bool.false_eq_true, if_false, List.length_append, List.length_take,
    List.length_replicate, List.length_drop]
  omega

/-- **A positional write, position by position**: the written range holds what was written,
a gap before it the fill, and every other position what it held. -/
theorem getElem?_writeAt (fill : α) (content : List α) (off : ℕ) {xs : List α} (h : xs ≠ [])
    (i : ℕ) :
    (writeAt fill content off xs)[i]? =
      if off ≤ i ∧ i < off + xs.length then xs[i - off]?
      else if content.length ≤ i ∧ i < off then some fill
      else content[i]? := by
  have hx : xs.isEmpty = false := by simpa using h
  simp only [writeAt, hx, Bool.false_eq_true, if_false, List.getElem?_append, List.length_append,
    List.length_take, List.length_replicate, List.getElem?_take, List.getElem?_replicate,
    List.getElem?_drop]
  by_cases hmid : off ≤ i ∧ i < off + xs.length
  · rw [if_pos (by omega), if_neg (by omega), if_pos hmid]
    congr 1
    omega
  · rw [if_neg hmid]
    by_cases hgap : content.length ≤ i ∧ i < off
    · rw [if_pos hgap, if_pos (by omega), if_pos (by omega), if_neg (by omega), if_pos (by omega)]
    · rw [if_neg hgap]
      by_cases hlt : i < off
      · rw [if_pos (by omega), if_pos (by omega), if_pos (by omega), if_pos (by omega)]
      · rw [if_neg (by omega)]
        rcases Nat.lt_or_ge content.length off with hc | hc
        · rw [List.getElem?_eq_none (by omega), List.getElem?_eq_none (by omega)]
        · congr 1
          omega

end Pcopy.Lib
