import Mathlib.Logic.Function.Basic

/-!
# The cache of registered peers

`Cache`, a `DashMap` whose entries are never removed.  The locks of its shards are left
out; they matter where tasks run concurrently.
-/

namespace Pcopy.Relay

variable {K V : Type}

/-- `Cache`. -/
structure Cache (K V : Type) where
  inner : K → Option V

namespace Cache

/-- `Cache::new`. -/
def new : Cache K V := ⟨fun _ => none⟩

/-- `Cache::get`. -/
def get (c : Cache K V) (key : K) : Option V := c.inner key

variable [DecidableEq K]

/-- `Cache::insert`: the value that was replaced, and the cache afterwards. -/
def insert (c : Cache K V) (key : K) (value : V) : Option V × Cache K V :=
  (c.inner key, ⟨Function.update c.inner key (some value)⟩)

@[simp] theorem insert_old (c : Cache K V) (key : K) (value : V) :
    (c.insert key value).1 = c.get key := rfl

@[simp] theorem get_insert_self (c : Cache K V) (key : K) (value : V) :
    (c.insert key value).2.get key = some value := by
  simp [insert, get]

theorem get_insert_ne (c : Cache K V) {key other : K} (value : V) (h : other ≠ key) :
    (c.insert key value).2.get other = c.get other := by
  simp [insert, get, h]

end Cache

end Pcopy.Relay
