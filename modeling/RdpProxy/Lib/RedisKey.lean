import Mathlib.Tactic.Common

/-!
# One Redis key, as its clients see it

A value with the millisecond at which it expires, and a counter of modifications.
WATCH remembers the counter, and EXEC compares it: writes, deletions and expiry all
move it on.
-/

namespace RedisKey

variable {V : Type}

structure Key (V : Type) where
  entry : Option (V × Nat)
  version : Nat

/-! ## Commands -/

def Key.get (k : Key V) : Option V := k.entry.map Prod.fst

/-- TTL answers in seconds, rounded to the nearest one, and -2 where there is no key. -/
def Key.ttl (k : Key V) (now : Nat) : Int :=
  match k.entry with
  | none => -2
  | some (_, deadline) => ((deadline - now + 500) / 1000 : Nat)

def Key.setex (k : Key V) (now sec : Nat) (v : V) : Key V :=
  ⟨some (v, now + 1000 * sec), k.version + 1⟩

/-- Deleting an absent key modifies nothing. -/
def Key.delete (k : Key V) : Key V :=
  match k.entry with
  | none => k
  | some _ => ⟨none, k.version + 1⟩

/-- The server's clock has moved to `now`. -/
def Key.expire (k : Key V) (now : Nat) : Key V :=
  match k.entry with
  | none => k
  | some (_, deadline) => if deadline ≤ now then ⟨none, k.version + 1⟩ else k

/-! ## What EXEC compares -/

/-- `k'` is `k` itself, or `k` after at least one modification. -/
def Later (k k' : Key V) : Prop := k' = k ∨ k.version < k'.version

theorem later_refl (k : Key V) : Later k k := Or.inl rfl

theorem Later.eq_of_version {k k' : Key V} (h : Later k k') (hv : k'.version = k.version) : k' = k := by
  rcases h with h | h
  · exact h
  · omega

theorem Later.version_le {k k' : Key V} (h : Later k k') : k.version ≤ k'.version := by
  rcases h with rfl | h
  · exact Nat.le_refl _
  · exact Nat.le_of_lt h

theorem setex_later (k : Key V) (now sec : Nat) (v : V) : Later k (k.setex now sec v) :=
  Or.inr (Nat.lt_succ_self _)

theorem delete_later (k : Key V) : Later k k.delete := by
  unfold Key.delete
  split
  · exact later_refl k
  · exact Or.inr (Nat.lt_succ_self _)

theorem expire_later (k : Key V) (now : Nat) : Later k (k.expire now) := by
  unfold Key.expire
  split
  · exact later_refl k
  · split
    · exact Or.inr (Nat.lt_succ_self _)
    · exact later_refl k

/-! ## What a key holds after a command -/

@[simp] theorem get_setex (k : Key V) (now sec : Nat) (v : V) : (k.setex now sec v).get = some v := rfl

@[simp] theorem entry_setex (k : Key V) (now sec : Nat) (v : V) :
    (k.setex now sec v).entry = some (v, now + 1000 * sec) := rfl

@[simp] theorem entry_delete (k : Key V) : k.delete.entry = none := by
  unfold Key.delete
  split
  · assumption
  · rfl

@[simp] theorem get_delete (k : Key V) : k.delete.get = none := by
  unfold Key.delete Key.get
  split
  · rename_i h; rw [h]; rfl
  · rfl

theorem get_expire (k : Key V) (now : Nat) : (k.expire now).get = none ∨ k.expire now = k := by
  unfold Key.expire
  split
  · exact Or.inr rfl
  · split
    · exact Or.inl rfl
    · exact Or.inr rfl

theorem get_expire_none {k : Key V} (now : Nat) (h : k.get = none) : (k.expire now).get = none := by
  rcases get_expire k now with hn | he
  · exact hn
  · rw [he]; exact h

theorem get_expire_iff {key : Key V} {now : Nat} :
    (key.expire now).get = none ↔ ∀ v d, key.entry = some (v, d) → d ≤ now := by
  unfold Key.expire Key.get
  cases he : key.entry with
  | none => simp [he]
  | some e =>
    obtain ⟨v, d⟩ := e
    simp only [Option.some.injEq, Prod.mk.injEq, and_imp]
    split_ifs with hd
    · simp [hd]
    · simp [he, hd]

theorem expire_entry {key : Key V} {now d : Nat} {v : V} (h : (key.expire now).entry = some (v, d)) :
    key.entry = some (v, d) ∧ now < d := by
  unfold Key.expire at h
  split at h
  · rename_i he
    rw [he] at h
    cases h
  · rename_i e he
    split_ifs at h with hd
    rw [he] at h
    cases h
    exact ⟨he, Nat.lt_of_not_le hd⟩

/-- A deadline of as many seconds from now is off by half a second at most. -/
theorem ttl_le {key : Key V} {now : Nat} (h : 0 < key.ttl now) :
    ∃ v d, key.entry = some (v, d) ∧ now + 1000 * (key.ttl now).toNat ≤ d + 500 := by
  unfold Key.ttl at h ⊢
  rcases hentry : key.entry with _ | ⟨v, d⟩
  · rw [hentry] at h
    cases h
  · rw [hentry] at h
    simp only [Int.toNat_natCast, Int.natCast_pos] at h ⊢
    exact ⟨v, d, rfl, by omega⟩

/-- The counter was at `ver` or has been since, and at `ver` itself the key has a value. -/
def Guarded (ver : Nat) (k : Key V) : Prop := ver ≤ k.version ∧ (k.version = ver → k.get ≠ none)

theorem Guarded.later {ver : Nat} {k k' : Key V} (h : Guarded ver k) (hl : Later k k') :
    Guarded ver k' := by
  refine ⟨Nat.le_trans h.1 hl.version_le, ?_⟩
  intro hv
  have hk : k' = k := hl.eq_of_version (by have := h.1; have := hl.version_le; omega)
  rw [hk] at hv ⊢
  exact h.2 hv

end RedisKey
