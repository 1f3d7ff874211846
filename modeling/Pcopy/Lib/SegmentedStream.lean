import Mathlib.Order.MinMax
import Mathlib.Order.Nat

/-!
# Finite streams as a transport hands them over

A stream is a list of nonempty segments followed by the end of the stream.  A read with
room for `r` elements takes the first segment, or as much of it as fits; it returns
nothing only when there is no room or nothing is left.  Every behaviour of a reader that
returns "at least one element, at most the room" is the reading of one segmentation, so a
statement for all `SegStream`s is a statement for all behaviours of the transport.

* `read_append` — a read moves elements, it neither loses nor invents any;
* `read_eq_nil_iff` — an empty read means no room, or the end;
* `Feed` — a stream that may never end, of which the finite ones are a case;
* `IsCut` — the positions at which one segment ends and the next begins, and what a read
  does to them.
-/

namespace Pcopy.Lib

variable {α : Type*}

/-- A finite stream in nonempty segments. -/
structure SegStream (α : Type*) where
  segs : List (List α)
  nonempty : ∀ seg ∈ segs, seg ≠ []

namespace SegStream

theorem eq_iff_segs {s t : SegStream α} : s.segs = t.segs ↔ s = t := by
  constructor
  · intro h
    cases s
    cases t
    cases h
    rfl
  · rintro rfl
    rfl

instance [DecidableEq α] : DecidableEq (SegStream α) := fun _ _ => decidable_of_iff _ eq_iff_segs

/-- The elements still to come. -/
def elems (s : SegStream α) : List α := s.segs.flatten

/-- A stream that is at its end. -/
def done : SegStream α := ⟨[], by simp⟩

/-- The whole of `xs` in one segment. -/
def single (xs : List α) (h : xs ≠ []) : SegStream α := ⟨[xs], by simpa using h⟩

/-- Take the first segment, or as much of it as there is room for. -/
def read (s : SegStream α) (room : ℕ) : List α × SegStream α :=
  match s with
  | ⟨[], h⟩ => ([], ⟨[], h⟩)
  | ⟨seg :: rest, h⟩ =>
    if hle : seg.length ≤ room then
      (seg, ⟨rest, fun x hx => h x (List.mem_cons_of_mem seg hx)⟩)
    else
      (seg.take room, ⟨seg.drop room :: rest, by
        intro x hx
        rcases List.mem_cons.mp hx with rfl | hx
        · simpa using hle
        · exact h x (List.mem_cons_of_mem seg hx)⟩)

@[simp] theorem elems_done : (done : SegStream α).elems = [] := rfl

@[simp] theorem elems_single (xs : List α) (h : xs ≠ []) : (single xs h).elems = xs := by
  simp [single, elems]

theorem read_append (s : SegStream α) (room : ℕ) :
    (s.read room).1 ++ (s.read room).2.elems = s.elems := by
  rcases s with ⟨_ | ⟨seg, rest⟩, hne⟩
  · rfl
  · by_cases hle : seg.length ≤ room
    · simp [read, hle, elems]
    · simp only [read, hle, dite_false, elems, List.flatten_cons]
      rw [← List.append_assoc, List.take_append_drop]

theorem read_length_le (s : SegStream α) (room : ℕ) : (s.read room).1.length ≤ room := by
  rcases s with ⟨_ | ⟨seg, rest⟩, hne⟩
  · exact Nat.zero_le room
  · by_cases hle : seg.length ≤ room <;> simp [read, hle]

/-- A read returns nothing exactly when there is no room or nothing is left. -/
theorem read_eq_nil_iff (s : SegStream α) (room : ℕ) :
    (s.read room).1 = [] ↔ room = 0 ∨ s.elems = [] := by
  rcases s with ⟨_ | ⟨seg, rest⟩, hne⟩
  · simp [read, elems]
  · have hseg : seg ≠ [] := hne seg List.mem_cons_self
    have hpos : 0 < seg.length := List.length_pos_iff.mpr hseg
    by_cases hle : seg.length ≤ room
    · simp only [read, hle, dite_true, elems, List.flatten_cons, List.append_eq_nil_iff, hseg,
        false_and, or_false, false_iff]
      omega
    · simp [read, hle, elems, hseg]

theorem read_elems_length (s : SegStream α) (room : ℕ) :
    (s.read room).2.elems.length + (s.read room).1.length = s.elems.length := by
  rw [← read_append s room, List.length_append, Nat.add_comm]

/-- A read that returns something leaves a shorter stream. -/
theorem read_elems_lt (s : SegStream α) (room : ℕ) (h : (s.read room).1 ≠ []) :
    (s.read room).2.elems.length < s.elems.length := by
  have hsum := read_elems_length s room
  have hpos := List.length_pos_iff.mpr h
  omega

/-! ### Where segments end -/

/-- Position `p` of the stream is the end of one of its segments (or its start). -/
def IsCut (s : SegStream α) (p : ℕ) : Prop :=
  ∃ k ≤ s.segs.length, (s.segs.take k).flatten.length = p

theorem isCut_zero (s : SegStream α) : s.IsCut 0 := ⟨0, Nat.zero_le _, rfl⟩

/-- The cuts of a stream with a first segment are its start and the shifted cuts of the
rest. -/
theorem isCut_cons (seg : List α) (rest : List (List α))
    (h : ∀ x ∈ seg :: rest, x ≠ []) (p : ℕ) :
    IsCut ⟨seg :: rest, h⟩ p ↔
      p = 0 ∨ ∃ q, IsCut ⟨rest, fun x hx => h x (List.mem_cons_of_mem seg hx)⟩ q ∧
        p = seg.length + q := by
  constructor
  · rintro ⟨k, hk, hp⟩
    cases k with
    | zero => exact Or.inl (by simpa using hp.symm)
    | succ k =>
        refine Or.inr ⟨(rest.take k).flatten.length, ⟨k, by simpa using hk, rfl⟩, ?_⟩
        simpa [List.take_succ_cons] using hp.symm
  · rintro (rfl | ⟨q, ⟨k, hk, hq⟩, rfl⟩)
    · exact ⟨0, Nat.zero_le _, rfl⟩
    · refine ⟨k + 1, by simpa using hk, ?_⟩
      simp only [List.take_succ_cons, List.flatten_cons, List.length_append]
      rw [hq]

/-- **Reads stop at cuts.**  No cut lies strictly inside what one read returns. -/
theorem not_isCut_inside_read (s : SegStream α) (room p : ℕ) (h0 : 0 < p)
    (hp : p < (s.read room).1.length) : ¬ s.IsCut p := by
  rcases s with ⟨_ | ⟨seg, rest⟩, hne⟩
  · simp [read] at hp
  · have hseg : p < seg.length := by
      by_cases hle : seg.length ≤ room
      · simpa [read, hle] using hp
      · simp only [read, hle, dite_false, List.length_take] at hp
        omega
    rw [isCut_cons]
    rintro (rfl | ⟨q, _, rfl⟩) <;> omega

/-- A read that did not fill its room stopped at a cut. -/
theorem isCut_read_length (s : SegStream α) (room : ℕ)
    (h : (s.read room).1.length < room) : s.IsCut (s.read room).1.length := by
  rcases s with ⟨_ | ⟨seg, rest⟩, hne⟩
  · exact isCut_zero _
  · by_cases hle : seg.length ≤ room
    · rw [isCut_cons]
      exact Or.inr ⟨0, isCut_zero _, by simp [read, hle]⟩
    · simp only [read, hle, dite_false, List.length_take] at h
      omega

/-- The cuts left after a read are the old ones beyond it. -/
theorem isCut_after_read (s : SegStream α) (room p : ℕ) (hp : 0 < p) :
    (s.read room).2.IsCut p ↔ s.IsCut ((s.read room).1.length + p) := by
  rcases s with ⟨_ | ⟨seg, rest⟩, hne⟩
  · simp [read]
  · by_cases hle : seg.length ≤ room
    · rw [isCut_cons]
      simp only [read, hle, dite_true]
      constructor
      · intro h
        exact Or.inr ⟨p, h, rfl⟩
      · rintro (h | ⟨q, hq, he⟩)
        · omega
        · rwa [show p = q by omega]
    · rw [isCut_cons]
      simp only [read, hle, dite_false]
      rw [isCut_cons, List.length_take, List.length_drop, Nat.min_eq_left (by omega)]
      constructor
      · rintro (h | ⟨q, hq, he⟩)
        · omega
        · exact Or.inr ⟨q, hq, by omega⟩
      · rintro (h | ⟨q, hq, he⟩)
        · omega
        · exact Or.inr ⟨q, hq, by omega⟩

/-- `r` elements are still to come at the end of some segment.  Counting from the end makes
the cuts of a stream independent of how much of it has been read. -/
def CutLeaving (s : SegStream α) (r : ℕ) : Prop :=
  r ≤ s.elems.length ∧ s.IsCut (s.elems.length - r)

/-- Reading keeps the cuts that are still ahead. -/
theorem cutLeaving_after_read (s : SegStream α) (room : ℕ) {r : ℕ}
    (hr : r < (s.read room).2.elems.length) :
    (s.read room).2.CutLeaving r ↔ s.CutLeaving r := by
  have hsum := read_elems_length s room
  have hpos : s.elems.length - r
      = (s.read room).1.length + ((s.read room).2.elems.length - r) := by omega
  rw [CutLeaving, CutLeaving, hpos, ← isCut_after_read s room _ (by omega)]
  constructor
  · rintro ⟨_, hcut⟩
    exact ⟨by omega, hcut⟩
  · rintro ⟨_, hcut⟩
    exact ⟨by omega, hcut⟩

/-- Reads stop at cuts: none is passed over. -/
theorem not_cutLeaving_inside_read (s : SegStream α) (room : ℕ) {r : ℕ}
    (hlo : (s.read room).2.elems.length < r) (hhi : r < s.elems.length) : ¬ s.CutLeaving r := by
  have hsum := read_elems_length s room
  rintro ⟨_, hcut⟩
  exact not_isCut_inside_read s room _ (by omega) (by omega) hcut

/-- A read that did not fill its room stopped at a cut. -/
theorem cutLeaving_of_short_read (s : SegStream α) (room : ℕ)
    (h : (s.read room).1.length < room) : s.CutLeaving (s.read room).2.elems.length := by
  have hsum := read_elems_length s room
  refine ⟨by omega, ?_⟩
  rw [show s.elems.length - (s.read room).2.elems.length = (s.read room).1.length by omega]
  exact isCut_read_length s room h

end SegStream

/-! ### Streams that may never end -/

/-- A stream in segments that may go on forever; an empty segment is its end. -/
structure Feed (α : Type*) where
  seg : ℕ → List α

namespace Feed

/-- Take the first segment, or as much of it as there is room for. -/
def read (f : Feed α) (room : ℕ) : List α × Feed α :=
  match f.seg 0 with
  | [] => ([], f)
  | x :: xs =>
      if (x :: xs).length ≤ room then (x :: xs, ⟨fun k => f.seg (k + 1)⟩)
      else ((x :: xs).take room,
        ⟨fun k => if k = 0 then (x :: xs).drop room else f.seg k⟩)

/-- A finite stream. -/
def ofStream (s : SegStream α) : Feed α := ⟨fun k => s.segs.getD k []⟩

/-- A finite stream is read as the segments it is made of. -/
theorem read_ofStream (s : SegStream α) (room : ℕ) :
    (ofStream s).read room = ((s.read room).1, ofStream (s.read room).2) := by
  rcases s with ⟨_ | ⟨seg, rest⟩, hne⟩
  · rfl
  · cases seg with
    | nil => exact absurd rfl (hne [] List.mem_cons_self)
    | cons x xs =>
        by_cases hle : (x :: xs).length ≤ room
        · simp only [read, ofStream, SegStream.read, List.getD_cons_zero, hle, dite_true, if_true,
            List.getD_cons_succ]
        · simp only [read, ofStream, SegStream.read, List.getD_cons_zero, hle, dite_false,
            if_false, Prod.mk.injEq, true_and, Feed.mk.injEq]
          funext k
          cases k with
          | zero => simp
          | succ k => simp

end Feed

end Pcopy.Lib
