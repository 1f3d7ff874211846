import Pcopy.Lib.SegmentedStream

/-!
# A stream read through a buffer that wraps around

A stream is read behind the last read into a buffer of `N` elements that is rewound only when
it is full.  The element at place `p` then goes to index `p % N`, and a read stops where a
segment ends or where the buffer is full.  Places are counted by how many elements are still
to come, `total` being the place of the end of the stream.

* `mayStop_after_read`, `not_mayStop_inside` — a read stops at the first such place;
* `FollowedUp` — no read can start at a bad index and go past a given place; what one read
  does to this.
-/

namespace Pcopy.Lib

variable {α : Type*}

/-- A read may stop where `r` elements are to come: a segment ends there, or the buffer. -/
def MayStop (N total : ℕ) (s : SegStream α) (r : ℕ) : Prop :=
  s.CutLeaving r ∨ N ∣ total - r

/-- Every cut at a bad index, from the place with `hi` elements to come on, is followed by
another place where a read may stop, before or at the place with `rest` to come. -/
def FollowedUp (N total : ℕ) (bad : ℕ → Prop) (rest hi : ℕ) (s : SegStream α) : Prop :=
  ∀ r, rest < r → r ≤ hi → s.CutLeaving r → bad ((total - r) % N) →
    ∃ r', rest ≤ r' ∧ r' < r ∧ MayStop N total s r'

theorem SegStream.cutLeaving_length (s : SegStream α) : s.CutLeaving s.elems.length := by
  refine ⟨le_rfl, ?_⟩
  rw [Nat.sub_self]
  exact s.isCut_zero

section Read

variable {N total k e rest hi : ℕ} {bad : ℕ → Prop} {s : SegStream α}

/-- No place where a read may stop lies strictly inside what one read returns. -/
theorem not_mayStop_inside (htotal : total = N * k + e + s.elems.length) (he : e < N) {r : ℕ}
    (hlo : (s.read (N - e)).2.elems.length < r) (hhi : r < s.elems.length) :
    ¬ MayStop N total s r := by
  have hsum := s.read_elems_length (N - e)
  have hle := s.read_length_le (N - e)
  rintro (hcut | hdvd)
  · exact s.not_cutLeaving_inside_read _ hlo hhi hcut
  · have hplace : total - r = N * k + (e + (s.elems.length - r)) := by omega
    rw [hplace, Nat.dvd_add_right (Nat.dvd_mul_right N k)] at hdvd
    exact Nat.not_dvd_of_pos_of_lt (by omega) (by omega) hdvd

/-- A read stops where it may. -/
theorem mayStop_after_read (htotal : total = N * k + e + s.elems.length) (he : e < N) :
    MayStop N total s (s.read (N - e)).2.elems.length := by
  have hsum := s.read_elems_length (N - e)
  have hle := s.read_length_le (N - e)
  by_cases hshort : (s.read (N - e)).1.length < N - e
  · exact Or.inl (s.cutLeaving_of_short_read _ hshort)
  · have hplace : total - (s.read (N - e)).2.elems.length = N * k + N := by omega
    refine Or.inr ?_
    rw [hplace]
    exact Nat.dvd_add (Nat.dvd_mul_right N k) (Nat.dvd_refl N)

/-- A read that stops before the place leaves the question to the rest. -/
theorem followedUp_after_read (hbad : ¬ bad 0) (htotal : total = N * k + e + s.elems.length)
    (he : e < N) (hread : (s.read (N - e)).1 ≠ [])
    (hmore : rest < (s.read (N - e)).2.elems.length) :
    FollowedUp N total bad rest hi (s.read (N - e)).2 ↔ FollowedUp N total bad rest hi s := by
  have hlt := s.read_elems_lt _ hread
  have hstop := mayStop_after_read htotal he
  have hkeep : ∀ {r}, r < (s.read (N - e)).2.elems.length →
      ((s.read (N - e)).2.CutLeaving r ↔ s.CutLeaving r) :=
    fun hr => s.cutLeaving_after_read _ hr
  have hmay : ∀ {r}, r < (s.read (N - e)).2.elems.length →
      (MayStop N total (s.read (N - e)).2 r ↔ MayStop N total s r) :=
    fun hr => or_congr (hkeep hr) Iff.rfl
  constructor
  · intro h r hrest hr hcut hindex
    rcases Nat.lt_trichotomy r (s.read (N - e)).2.elems.length with hlt' | heq | hgt
    · obtain ⟨r', hr', hlt'', hstop'⟩ := h r hrest hr ((hkeep hlt').mpr hcut) hindex
      exact ⟨r', hr', hlt'', (hmay (by omega)).mp hstop'⟩
    · obtain ⟨r', hr', hlt'', hstop'⟩ :=
        h r hrest hr (heq ▸ SegStream.cutLeaving_length _) hindex
      exact ⟨r', hr', hlt'', (hmay (by omega)).mp hstop'⟩
    · exact ⟨_, hmore.le, hgt, hstop⟩
  · intro h r hrest hr hcut hindex
    have hle := hcut.1
    have hcut' : s.CutLeaving r := by
      rcases Nat.lt_or_ge r (s.read (N - e)).2.elems.length with hlt' | hge
      · exact (hkeep hlt').mp hcut
      · obtain rfl : r = (s.read (N - e)).2.elems.length := by omega
        rcases hstop with hcut' | hdvd
        · exact hcut'
        · rw [Nat.mod_eq_zero_of_dvd hdvd] at hindex
          exact absurd hindex hbad
    obtain ⟨r', hr', hlt', hstop'⟩ := h r hrest hr hcut' hindex
    exact ⟨r', hr', hlt', (hmay (by omega)).mpr hstop'⟩

/-- A read that stops at the place settles it. -/
theorem followedUp_of_exact (htotal : total = N * k + e + s.elems.length) (he : e < N)
    (hexact : (s.read (N - e)).2.elems.length = rest) : FollowedUp N total bad rest hi s := by
  intro r hrest _ _ _
  have hstop := mayStop_after_read htotal he
  rw [hexact] at hstop
  exact ⟨rest, le_rfl, hrest, hstop⟩

/-- A read that goes past the place must not have started at a bad index. -/
theorem followedUp_of_past (htotal : total = N * k + e + s.elems.length) (he : e < N)
    (hhi : s.elems.length ≤ hi) (hlong : rest < s.elems.length)
    (hpast : (s.read (N - e)).2.elems.length < rest) :
    FollowedUp N total bad rest hi s ↔ ¬ bad e := by
  have hinside : ∀ {r}, rest ≤ r → r < s.elems.length → ¬ MayStop N total s r :=
    fun hr hr' => not_mayStop_inside htotal he (by omega) hr'
  have hindex : (total - s.elems.length) % N = e := by
    rw [htotal, Nat.add_sub_cancel, Nat.mul_add_mod, Nat.mod_eq_of_lt he]
  constructor
  · intro h hbad
    obtain ⟨r, hrest, hr, hstop⟩ :=
      h _ hlong hhi s.cutLeaving_length (by rw [hindex]; exact hbad)
    exact hinside hrest hr hstop
  · intro hgood r hrest _ hcut hbad
    rcases Nat.lt_or_ge r s.elems.length with hr | hr
    · exact absurd (Or.inl hcut) (hinside hrest.le hr)
    · have hle := hcut.1
      obtain rfl : r = s.elems.length := by omega
      rw [hindex] at hbad
      exact absurd hbad hgood

end Read

end Pcopy.Lib
