import Mathlib.Logic.Function.Basic
import RdpProxy.Lib.RedisKey

/-!
# The keys of one Redis database, with its clock

Commands on one key, a frame rule, and time in milliseconds.
-/

namespace RedisKey

structure Keyspace (K V : Type) where
  keys : K → Key V
  clock : Nat

namespace Keyspace

variable {K V : Type}

def empty (clock : Nat) : Keyspace K V := ⟨fun _ => ⟨none, 0⟩, clock⟩

def tick (r : Keyspace K V) (ms : Nat) : Keyspace K V := ⟨fun k => (r.keys k).expire (r.clock + ms), r.clock + ms⟩

theorem get_keys_tick (r : Keyspace K V) (ms : Nat) (k : K) :
    ((r.tick ms).keys k).get = none ∨ (r.tick ms).keys k = r.keys k :=
  get_expire (r.keys k) (r.clock + ms)

/-! ## Texts -/

/-- The text under a key, where there is one and it is not empty. -/
def raw {α : Type} (r : Keyspace K (List α)) (k : K) : Option (List α) :=
  match (r.keys k).get with
  | some (c :: text) => some (c :: text)
  | _ => none

theorem raw_of_get {α : Type} {r : Keyspace K (List α)} {k : K} {text : List α} (h : (r.keys k).get = some text)
    (hne : text ≠ []) : r.raw k = some text := by
  obtain ⟨c, rest, rfl⟩ := List.exists_cons_of_ne_nil hne
  rw [raw, h]

theorem raw_of_none {α : Type} {r : Keyspace K (List α)} {k : K} (h : (r.keys k).get = none) : r.raw k = none := by
  rw [raw, h]

theorem get_of_raw {α : Type} {r : Keyspace K (List α)} {k : K} {text : List α} (h : r.raw k = some text) :
    (r.keys k).get = some text := by
  unfold raw at h
  split at h
  · rename_i hget
    rw [hget]
    exact h
  · cases h

/-! ## Commands -/

variable [DecidableEq K]

def update (r : Keyspace K V) (k : K) (f : Key V → Key V) : Keyspace K V :=
  { r with keys := Function.update r.keys k (f (r.keys k)) }

def setex (r : Keyspace K V) (k : K) (sec : Nat) (v : V) : Keyspace K V := r.update k fun key => key.setex r.clock sec v

def delete (r : Keyspace K V) (k : K) : Keyspace K V := r.update k Key.delete

theorem keys_update (r : Keyspace K V) (k : K) (f : Key V → Key V) : (r.update k f).keys k = f (r.keys k) :=
  Function.update_self ..

theorem keys_update_of_ne (r : Keyspace K V) {k other : K} (h : other ≠ k) (f : Key V → Key V) :
    (r.update k f).keys other = r.keys other :=
  Function.update_of_ne h ..

theorem keys_setex_of_ne (r : Keyspace K V) {k other : K} (h : other ≠ k) (sec : Nat) (v : V) :
    (r.setex k sec v).keys other = r.keys other :=
  r.keys_update_of_ne h _

theorem keys_delete_of_ne (r : Keyspace K V) {k other : K} (h : other ≠ k) : (r.delete k).keys other = r.keys other :=
  r.keys_update_of_ne h _

@[simp] theorem get_keys_setex (r : Keyspace K V) (k : K) (sec : Nat) (v : V) :
    ((r.setex k sec v).keys k).get = some v := by
  rw [setex, keys_update, get_setex]

@[simp] theorem get_keys_delete (r : Keyspace K V) (k : K) : ((r.delete k).keys k).get = none := by
  rw [delete, keys_update, get_delete]

end Keyspace

end RedisKey
