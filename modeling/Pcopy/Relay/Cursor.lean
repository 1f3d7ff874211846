import Pcopy.IoError
import Pcopy.Lib.BigEndian

/-!
# The cursor that frames are parsed from

`frame::Error`, and the part of `bytes::Buf` and `std::io::Read` for `Cursor<&[u8]>` that
the parsers use.  Reading past the end is a panic for the `Buf` methods and an error for
the `Read` methods, as in the source.

* `Octets n` — the array `[u8; n]`;
* `Parses`, `Short` — a parser takes exactly these bytes, or finds them too few;
* `Delimits` — it takes these bytes and finds everything less of them too few; with the
  rules that compose this along a parser;
* `Steady` — a parser that more bytes do not move to another end, with its rules;
* `Sated` — a parser that does not find so many bytes too few, with its rules;
* `FrameError.ofIo` — the conversion that turns `InvalidData` into `Incomplete`.
-/

namespace Pcopy.Relay

open Pcopy.Lib

/-- `[u8; n]`. -/
structure Octets (n : ℕ) where
  bytes : List UInt8
  length_eq : bytes.length = n
  deriving DecidableEq

/-- `buf[start..start + n].try_into().unwrap()`. -/
def Octets.ofSlice {ε σ : Type} (buf : List UInt8) (start n : ℕ) : Exec ε σ (Octets n) :=
  if h : start + n ≤ buf.length then
    pure ⟨(buf.drop start).take n, by rw [List.length_take, List.length_drop]; omega⟩
  else Exec.unwind "range end index out of range for slice"

/-- `frame::Error`. -/
inductive FrameError where
  | incomplete : FrameError
  | other : IoError → FrameError
  deriving DecidableEq, Repr

/-- `From<std::io::Error> for Error`. -/
def FrameError.ofIo (e : IoError) : FrameError :=
  match e.kind with
  | .invalidData => .incomplete
  | _ => .other e

/-- `Display for Error`. -/
def FrameError.toString : FrameError → String
  | .incomplete => "Incomplete Frame Received"
  | .other e => e.message

/-- `Into<std::io::Error> for Error`. -/
def FrameError.intoIo (e : FrameError) : IoError := ⟨.other, e.toString⟩

/-- `Cursor<&[u8]>`. -/
structure Cursor where
  bytes : List UInt8
  position : ℕ
  deriving DecidableEq, Repr

/-- What a parser of frames is: it moves a cursor. -/
abbrev Parser (α : Type) : Type := Exec FrameError Cursor α

namespace Cursor

/-- A cursor at the start of a buffer. -/
def new (bytes : List UInt8) : Cursor := ⟨bytes, 0⟩

/-- `Buf::remaining`. -/
def remaining (c : Cursor) : ℕ := c.bytes.length - c.position

/-- The guard `if buf.remaining() < n { return Err(Error::Incomplete) }`, which is
`if !buf.has_remaining()` for `n = 1`. -/
def require (n : ℕ) : Parser Unit := do
  let c ← Exec.get
  if c.remaining < n then Exec.fail .incomplete else pure ()

/-- `Buf::advance`. -/
def advance (n : ℕ) : Parser Unit := do
  let c ← Exec.get
  if c.remaining < n then Exec.unwind "cannot advance past `remaining`"
  else Exec.modify fun c => { c with position := c.position + n }

/-- `Buf::get_u8`. -/
def getU8 : Parser UInt8 := do
  let c ← Exec.get
  match c.bytes[c.position]? with
  | some b => do
      Exec.modify fun c => { c with position := c.position + 1 }
      pure b
  | none => Exec.unwind "buffer has no byte left"

/-- `Buf::get_u32`. -/
def getU32 : Parser ℕ := do
  let c ← Exec.get
  if c.remaining < 4 then Exec.unwind "buffer has no four bytes left"
  else do
    Exec.modify fun c => { c with position := c.position + 4 }
    pure (BigEndian.ofBytes ((c.bytes.drop c.position).take 4))

/-- `Read::read_exact` into an array of `n` bytes, which `ReadBytesExt::read_u8` is for one
byte.  Where too few are left the cursor goes to the end. -/
def readExact (n : ℕ) : Parser (Octets n) := do
  let c ← Exec.get
  if c.remaining < n then do
    Exec.modify fun c => { c with position := max c.position c.bytes.length }
    Exec.fail (FrameError.ofIo ⟨.unexpectedEof, "failed to fill whole buffer"⟩)
  else do
    Exec.modify fun c => { c with position := c.position + n }
    Octets.ofSlice c.bytes c.position n

/-! ### Cursors split at their position -/

/-- The cursor with `pre` behind it and `rest` ahead of it. -/
def split (pre rest : List UInt8) : Cursor := ⟨pre ++ rest, pre.length⟩

theorem new_eq_split (bytes : List UInt8) : new bytes = split [] bytes := rfl

@[simp] theorem split_remaining (pre rest : List UInt8) :
    (split pre rest).remaining = rest.length := by
  simp [split, remaining]

@[simp] theorem split_bytes (pre rest : List UInt8) : (split pre rest).bytes = pre ++ rest := rfl

@[simp] theorem split_position (pre rest : List UInt8) :
    (split pre rest).position = pre.length := rfl

/-- Moving over `taken`. -/
theorem split_moved (pre taken rest : List UInt8) :
    ({ split pre (taken ++ rest) with position := pre.length + taken.length } : Cursor)
      = split (pre ++ taken) rest := by
  simp [split]

theorem require_run {n : ℕ} (pre rest : List UInt8) (hn : n ≤ rest.length) :
    require n (split pre rest) = (.ok (), split pre rest) := by
  rw [require, Exec.get_bind, split_remaining, if_neg (by omega), Exec.pure_run]

theorem ofSlice_run {ε σ : Type} (pre taken rest : List UInt8) {n : ℕ} (hn : taken.length = n)
    (s : σ) :
    (Octets.ofSlice (pre ++ (taken ++ rest)) pre.length n : Exec ε σ (Octets n)) s
      = (.ok ⟨taken, hn⟩, s) := by
  subst hn
  rw [Octets.ofSlice, dif_pos (by simp)]
  simp

end Cursor

/-! ### What a parser takes -/

/-- `p` takes exactly `taken`, whatever stands before and after it, and returns `a`. -/
def Parses {α : Type} (p : Parser α) (taken : List UInt8) (a : α) : Prop :=
  ∀ pre rest, p (Cursor.split pre (taken ++ rest)) = (.ok a, Cursor.split (pre ++ taken) rest)

/-- `p` finds `bytes` too short. -/
def Short {α : Type} (p : Parser α) (bytes : List UInt8) : Prop :=
  ∀ pre, (p (Cursor.split pre bytes)).1 = .error (.err .incomplete)

/-- `p` takes `bytes`, which end themselves: it finds everything less of them too short. -/
structure Delimits {α : Type} (p : Parser α) (bytes : List UInt8) (a : α) : Prop where
  whole : Parses p bytes a
  short : ∀ k < bytes.length, Short p (bytes.take k)

section Rules

open Cursor

variable {α β : Type} {p : Parser α} {f : α → Parser β} {xs ys : List UInt8} {a : α} {b : β}

theorem Parses.pure (a : α) : Parses (pure a) [] a := by
  intro pre rest
  simp

theorem Parses.bind (hp : Parses p xs a) (hf : Parses (f a) ys b) :
    Parses (p >>= f) (xs ++ ys) b := by
  intro pre rest
  rw [List.append_assoc, Exec.bind_ok (hp pre (ys ++ rest)), hf, List.append_assoc]

theorem Parses.map (g : α → β) (hp : Parses p xs a) :
    Parses (p >>= fun a => Pure.pure (g a)) xs (g a) := by
  intro pre rest
  rw [Exec.bind_ok (hp pre rest), Exec.pure_run]

/-- A guard is passed when the bytes that will be taken are there. -/
theorem Parses.require {n : ℕ} {f : Unit → Parser β} (hf : Parses (f ()) ys b)
    (hn : n ≤ ys.length) : Parses (Cursor.require n >>= f) ys b := by
  intro pre rest
  rw [Exec.bind_ok (require_run pre (ys ++ rest) (by rw [List.length_append]; omega)), hf]

theorem Short.require {n : ℕ} {f : Unit → Parser β} (hn : ys.length < n) :
    Short (Cursor.require n >>= f) ys := by
  intro pre
  have hguard : Cursor.require n (split pre ys) = (.error (.err .incomplete), split pre ys) := by
    rw [Cursor.require, Exec.get_bind, split_remaining, if_pos hn, Exec.fail_run]
  rw [Exec.bind_fault hguard]

theorem Short.first (hp : Short p xs) : Short (p >>= f) xs := by
  intro pre
  rw [Exec.bind_fault (Exec.run_eq (hp pre))]

theorem Short.bind (hp : Parses p xs a) (hf : Short (f a) ys) : Short (p >>= f) (xs ++ ys) := by
  intro pre
  rw [Exec.bind_ok (hp pre ys)]
  exact hf (pre ++ xs)

theorem Delimits.pure (a : α) : Delimits (pure a) [] a :=
  ⟨Parses.pure a, fun _ hk => absurd hk (Nat.not_lt_zero _)⟩

theorem Delimits.bind (hp : Delimits p xs a) (hf : Delimits (f a) ys b) :
    Delimits (p >>= f) (xs ++ ys) b := by
  refine ⟨hp.whole.bind hf.whole, ?_⟩
  intro k hk
  rw [List.length_append] at hk
  by_cases hxs : k < xs.length
  · rw [List.take_append_of_le_length (le_of_lt hxs)]
    exact Short.first (hp.short k hxs)
  · rw [List.take_append, List.take_of_length_le (by omega)]
    exact Short.bind hp.whole (hf.short (k - xs.length) (by omega))

theorem Delimits.map (g : α → β) (hp : Delimits p xs a) :
    Delimits (p >>= fun a => Pure.pure (g a)) xs (g a) :=
  ⟨hp.whole.map g, fun k hk => Short.first (hp.short k hk)⟩

/-- A parser that makes sure of `n` bytes first and takes exactly these. -/
theorem Delimits.require {n : ℕ} {f : Unit → Parser β} (hf : Parses (f ()) ys b)
    (hn : ys.length = n) : Delimits (Cursor.require n >>= f) ys b := by
  refine ⟨hf.require (le_of_eq hn.symm), ?_⟩
  intro k hk
  refine Short.require ?_
  rw [List.length_take]
  omega

/-! ### The reading operations -/

theorem parses_getU8 (b : UInt8) : Parses getU8 [b] b := by
  intro pre rest
  have hbyte : (split pre (b :: rest)).bytes[(split pre (b :: rest)).position]? = some b := by
    simp
  rw [getU8, Exec.get_bind, List.singleton_append, hbyte]
  simp only [Exec.modify_bind, Exec.pure_run]
  exact congrArg _ (split_moved pre [b] rest)

theorem parses_advance (xs : List UInt8) : Parses (advance xs.length) xs () := by
  intro pre rest
  rw [advance, Exec.get_bind, if_neg (by simp)]
  exact congrArg _ (split_moved pre xs rest)

theorem parses_getU32 (hn : xs.length = 4) : Parses getU32 xs (BigEndian.ofBytes xs) := by
  intro pre rest
  rw [getU32, Exec.get_bind, if_neg (by simp [hn])]
  simp only [Exec.modify_bind, Exec.pure_run, split_bytes, split_position, List.drop_left]
  rw [← hn, List.take_left]
  exact congrArg _ (split_moved pre xs rest)

theorem parses_readExact {n : ℕ} (x : Octets n) : Parses (readExact n) x.bytes x := by
  intro pre rest
  obtain ⟨xs, rfl⟩ := x
  rw [readExact, Exec.get_bind, if_neg (by simp)]
  simp only [Exec.modify_bind, split_bytes, split_position]
  rw [ofSlice_run pre xs rest rfl]
  exact congrArg _ (split_moved pre xs rest)

/-- One guarded byte, and what follows it. -/
theorem Delimits.u8 {f : UInt8 → Parser β} {c : UInt8} (hf : Delimits (f c) ys b) :
    Delimits (do
      Cursor.require 1
      let value ← getU8
      f value) (c :: ys) b := by
  refine ⟨((parses_getU8 c).bind hf.whole).require (by simp), ?_⟩
  intro k hk
  cases k with
  | zero => exact Short.require (by simp)
  | succ k =>
      have hshort : Short (getU8 >>= f) ([c] ++ ys.take k) :=
        Short.bind (parses_getU8 c) (hf.short k (by simpa using hk))
      intro pre
      rw [List.take_succ_cons, Exec.bind_ok (require_run pre _ (by simp))]
      exact hshort pre

end Rules

/-! ### What more bytes do to a parse -/

/-- How `p` ends on `bytes` behind `pre`: it finds them too few, or it refuses them, or it
takes a part of them; and if it does not find them too few, it does the same whatever
follows. -/
def Verdict {α : Type} (p : Parser α) (pre bytes : List UInt8) : Prop :=
  (p (Cursor.split pre bytes)).1 = .error (.err .incomplete) ∨
    (∃ e, ∀ rest, (p (Cursor.split pre (bytes ++ rest))).1 = .error (.err (.other e))) ∨
      ∃ taken left a, bytes = taken ++ left ∧ ∀ rest,
        p (Cursor.split pre (bytes ++ rest))
          = (.ok a, Cursor.split (pre ++ taken) (left ++ rest))

/-- `p` has a verdict on all inputs of at least `n` bytes. -/
def Steady {α : Type} (n : ℕ) (p : Parser α) : Prop :=
  ∀ pre bytes, n ≤ bytes.length → Verdict p pre bytes

/-- `p` leaves the cursor where it is, and returns a value or refuses. -/
def Chooses {α : Type} (p : Parser α) : Prop :=
  (∃ a, ∀ c, p c = (.ok a, c)) ∨ ∃ e, ∀ c, p c = (.error (.err (.other e)), c)

theorem Chooses.pure {α : Type} (a : α) : Chooses (pure a : Parser α) :=
  Or.inl ⟨a, fun _ => rfl⟩

theorem Chooses.refuse {α : Type} (e : IoError) :
    Chooses (Exec.fail (.other e) : Parser α) := Or.inr ⟨e, fun _ => rfl⟩

section Steadiness

open Cursor

variable {α β : Type} {p : Parser α} {f : α → Parser β} {n : ℕ}

theorem Chooses.steady (hp : Chooses p) (n : ℕ) : Steady n p := by
  intro pre bytes _
  rcases hp with ⟨a, hrun⟩ | ⟨e, hrun⟩
  · exact Or.inr (Or.inr ⟨[], bytes, a, rfl, fun rest => by rw [hrun, List.append_nil]⟩)
  · exact Or.inr (Or.inl ⟨e, fun rest => by rw [hrun]⟩)

theorem Steady.pure (n : ℕ) (a : α) : Steady n (pure a : Parser α) := (Chooses.pure a).steady n

theorem Steady.refuse (n : ℕ) (e : IoError) : Steady n (Exec.fail (.other e) : Parser α) :=
  (Chooses.refuse e).steady n

theorem Steady.choose (hp : Chooses p) (hf : ∀ a, Steady n (f a)) : Steady n (p >>= f) := by
  intro pre bytes hn
  rcases hp with ⟨a, hrun⟩ | ⟨e, hrun⟩
  · have hstep : ∀ c, (p >>= f) c = f a c := fun c => Exec.bind_ok (hrun c)
    rw [Verdict]
    simp only [hstep]
    exact hf a pre bytes hn
  · exact Or.inr (Or.inl ⟨e, fun rest => by rw [Exec.bind_fault (hrun _)]⟩)

theorem Steady.bind (hp : Steady n p) (hf : ∀ a, Steady 0 (f a)) : Steady n (p >>= f) := by
  intro pre bytes hn
  rcases hp pre bytes hn with hshort | ⟨e, hrefused⟩ | ⟨taken, left, a, rfl, htaken⟩
  · exact Or.inl (by rw [Exec.bind_fault (Exec.run_eq hshort)])
  · exact Or.inr (Or.inl ⟨e, fun rest => by rw [Exec.bind_fault (Exec.run_eq (hrefused rest))]⟩)
  · rcases hf a (pre ++ taken) left (Nat.zero_le _) with
      hshort | ⟨e, hrefused⟩ | ⟨taken', left', b, rfl, htaken'⟩
    · have hrun := htaken []
      rw [List.append_nil, List.append_nil] at hrun
      exact Or.inl (by rw [Exec.bind_ok hrun, hshort])
    · exact Or.inr (Or.inl ⟨e, fun rest => by rw [Exec.bind_ok (htaken rest), hrefused]⟩)
    · refine Or.inr (Or.inr ⟨taken ++ taken', left', b, by rw [List.append_assoc], ?_⟩)
      intro rest
      rw [Exec.bind_ok (htaken rest), htaken', List.append_assoc]

/-- A guard, and what needs the bytes it made sure of. -/
theorem Steady.require {f : Unit → Parser β} (hf : Steady n (f ())) :
    Steady 0 (Cursor.require n >>= f) := by
  intro pre bytes _
  by_cases hn : n ≤ bytes.length
  · have hguard : ∀ rest, (Cursor.require n >>= f) (split pre (bytes ++ rest))
        = f () (split pre (bytes ++ rest)) := fun rest => Exec.bind_ok
      (require_run pre (bytes ++ rest) (by rw [List.length_append]; omega))
    have hguard' : (Cursor.require n >>= f) (split pre bytes) = f () (split pre bytes) :=
      Exec.bind_ok (require_run pre bytes hn)
    rw [Verdict, hguard']
    simp only [hguard]
    exact hf pre bytes hn
  · exact Or.inl (Short.require (by omega) pre)

/-- A step that takes exactly `k` of the bytes that are there. -/
theorem Steady.take {k : ℕ} (hp : ∀ xs : List UInt8, xs.length = k → ∃ a, Parses p xs a)
    (hk : k ≤ n) (hf : ∀ a, Steady (n - k) (f a)) : Steady n (p >>= f) := by
  intro pre bytes hn
  obtain ⟨a, hparses⟩ := hp (bytes.take k) (by rw [List.length_take]; omega)
  have hstep : ∀ rest, (p >>= f) (split pre (bytes ++ rest))
      = f a (split (pre ++ bytes.take k) (bytes.drop k ++ rest)) := by
    intro rest
    have hrun := hparses pre (bytes.drop k ++ rest)
    rw [← List.append_assoc, List.take_append_drop] at hrun
    exact Exec.bind_ok hrun
  have hstep' := hstep []
  rw [List.append_nil, List.append_nil] at hstep'
  rcases hf a (pre ++ bytes.take k) (bytes.drop k) (by rw [List.length_drop]; omega) with
    hshort | ⟨e, hrefused⟩ | ⟨taken, left, b, hsplit, htaken⟩
  · exact Or.inl (by rw [hstep', hshort])
  · exact Or.inr (Or.inl ⟨e, fun rest => by rw [hstep, hrefused]⟩)
  · refine Or.inr (Or.inr ⟨bytes.take k ++ taken, left, b, ?_, ?_⟩)
    · rw [List.append_assoc, ← hsplit, List.take_append_drop]
    · intro rest
      rw [hstep, htaken, List.append_assoc]

/-- The last step, where it takes exactly `k` bytes. -/
theorem Steady.exactly {k : ℕ} (hp : ∀ xs : List UInt8, xs.length = k → ∃ a, Parses p xs a) :
    Steady k p := by
  intro pre bytes hn
  obtain ⟨a, hparses⟩ := hp (bytes.take k) (by rw [List.length_take]; omega)
  refine Or.inr (Or.inr ⟨bytes.take k, bytes.drop k, a, (List.take_append_drop k bytes).symm, ?_⟩)
  intro rest
  have hrun := hparses pre (bytes.drop k ++ rest)
  rwa [← List.append_assoc, List.take_append_drop] at hrun

theorem Steady.getU8 {f : UInt8 → Parser β} (hf : ∀ a, Steady 0 (f a)) :
    Steady 1 (Cursor.getU8 >>= f) := by
  refine Steady.take (k := 1) ?_ le_rfl hf
  intro xs hxs
  obtain ⟨b, rfl⟩ := List.length_eq_one_iff.mp hxs
  exact ⟨b, parses_getU8 b⟩

theorem Steady.readExact {k : ℕ} {f : Octets k → Parser β} (hk : k ≤ n)
    (hf : ∀ a, Steady (n - k) (f a)) : Steady n (Cursor.readExact k >>= f) :=
  Steady.take (fun xs hxs => ⟨⟨xs, hxs⟩, parses_readExact ⟨xs, hxs⟩⟩) hk hf

end Steadiness

/-! ### How many bytes are enough -/

/-- `p` does not find `n` bytes or more too few. -/
def Sated {α : Type} (n : ℕ) (p : Parser α) : Prop :=
  ∀ pre bytes, n ≤ bytes.length →
    (p (Cursor.split pre bytes)).1 ≠ .error (.err .incomplete)


section Satedness

open Cursor

variable {α β : Type} {p : Parser α} {f : α → Parser β} {n k : ℕ}

theorem Chooses.sated (hp : Chooses p) (n : ℕ) : Sated n p := by
  intro pre bytes _
  rcases hp with ⟨a, hrun⟩ | ⟨e, hrun⟩ <;> rw [hrun] <;> simp

theorem Sated.map (g : α → β) (hp : Sated n p) : Sated n (p >>= fun a => Pure.pure (g a)) := by
  intro pre bytes hn
  have hend := hp pre bytes hn
  rcases hrun : p (split pre bytes) with ⟨φ | a, c⟩
  · rw [Exec.bind_fault hrun]
    rw [hrun] at hend
    intro h
    exact hend (by rw [Except.error.inj h])
  · rw [Exec.bind_ok hrun]
    simp

theorem Sated.choose (hp : Chooses p) (hf : ∀ a, Sated n (f a)) : Sated n (p >>= f) := by
  intro pre bytes hn
  rcases hp with ⟨a, hrun⟩ | ⟨e, hrun⟩
  · rw [Exec.bind_ok (hrun _)]
    exact hf a pre bytes hn
  · rw [Exec.bind_fault (hrun _)]
    simp

/-- A guard for no more than the bytes that are there. -/
theorem Sated.require {f : Unit → Parser β} (hk : k ≤ n) (hf : Sated n (f ())) :
    Sated n (Cursor.require k >>= f) := by
  intro pre bytes hn
  rw [Exec.bind_ok (require_run pre bytes (hk.trans hn))]
  exact hf pre bytes hn

/-- A step that takes exactly `k` of the bytes that are there. -/
theorem Sated.take (hp : ∀ xs : List UInt8, xs.length = k → ∃ a, Parses p xs a) (hk : k ≤ n)
    (hf : ∀ a, Sated (n - k) (f a)) : Sated n (p >>= f) := by
  intro pre bytes hn
  obtain ⟨a, hparses⟩ := hp (bytes.take k) (by rw [List.length_take]; omega)
  have hrun := hparses pre (bytes.drop k)
  rw [List.take_append_drop] at hrun
  rw [Exec.bind_ok hrun]
  exact hf a _ _ (by rw [List.length_drop]; omega)

/-- The last step, where it takes exactly `k` bytes. -/
theorem Sated.exactly (hp : ∀ xs : List UInt8, xs.length = k → ∃ a, Parses p xs a) :
    Sated k p := by
  intro pre bytes hn
  obtain ⟨a, hparses⟩ := hp (bytes.take k) (by rw [List.length_take]; omega)
  have hrun := hparses pre (bytes.drop k)
  rw [List.take_append_drop] at hrun
  rw [hrun]
  simp

theorem Sated.mono {p : Parser α} (hp : Sated k p) (hk : k ≤ n) : Sated n p :=
  fun pre bytes hn => hp pre bytes (hk.trans hn)

theorem Sated.getU8 {f : UInt8 → Parser β} (hf : ∀ a, Sated n (f a)) :
    Sated (n + 1) (Cursor.getU8 >>= f) := by
  refine Sated.take (k := 1) ?_ (by omega) hf
  intro xs hxs
  obtain ⟨b, rfl⟩ := List.length_eq_one_iff.mp hxs
  exact ⟨b, parses_getU8 b⟩

theorem Sated.readExact {f : Octets k → Parser β} (hk : k ≤ n)
    (hf : ∀ a, Sated (n - k) (f a)) : Sated n (Cursor.readExact k >>= f) :=
  Sated.take (fun xs hxs => ⟨⟨xs, hxs⟩, parses_readExact ⟨xs, hxs⟩⟩) hk hf

end Satedness

end Pcopy.Relay
