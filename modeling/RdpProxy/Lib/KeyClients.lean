import RdpProxy.Lib.RedisKey
import RdpProxy.Lib.Steps

/-!
# Any number of clients on one Redis key

`next i input clock key phase` is what the next command of client `i` does: the key and
the phase after it, or `none` where the client has none left to send. `input` is what the
client takes from elsewhere at that command.
-/

open RedisKey Steps

namespace KeyClients

variable {ι V Φ α : Type}

structure Shared (ι V Φ : Type) where
  key : Key V
  clock : Nat
  phase : ι → Φ

inductive Move (ι α : Type) where
  | command (client : ι) (input : α)
  | tick (ms : Nat)

abbrev Next (ι V Φ α : Type) := ι → α → Nat → Key V → Φ → Option (Key V × Φ)

def step [DecidableEq ι] (next : Next ι V Φ α) (s : Shared ι V Φ) : Move ι α → Option (Shared ι V Φ)
  | .command i input =>
    match next i input s.clock s.key (s.phase i) with
    | none => none
    | some (key, phase) => some { s with key := key, phase := Function.update s.phase i phase }
  | .tick ms => some { s with clock := s.clock + ms, key := s.key.expire (s.clock + ms) }

section

variable [DecidableEq ι] {next : Next ι V Φ α} {s s' : Shared ι V Φ} {m : Move ι α}

theorem step_cases (h : step next s m = some s') :
    (∃ i input key phase, m = .command i input ∧
      next i input s.clock s.key (s.phase i) = some (key, phase) ∧
      s' = { s with key := key, phase := Function.update s.phase i phase }) ∨
    ∃ ms, m = .tick ms ∧ s' = { s with clock := s.clock + ms, key := s.key.expire (s.clock + ms) } := by
  cases m with
  | command i input =>
    simp only [step] at h
    split at h
    · cases h
    · rename_i key phase hn
      cases h
      exact Or.inl ⟨i, input, key, phase, rfl, hn, rfl⟩
  | tick ms => cases h; exact Or.inr ⟨ms, rfl, rfl⟩

/-- What each client knows of the key, where later keys cannot make it wrong: a command
has to keep the knowledge of its own client only. -/
theorem step_knows {L : ι → Key V → Φ → Prop}
    (hstable : ∀ i k k' φ, L i k φ → Later k k' → L i k' φ)
    (hnext : ∀ i input clock k φ k' φ', L i k φ → next i input clock k φ = some (k', φ') →
      Later k k' ∧ L i k' φ')
    (hs : ∀ i, L i s.key (s.phase i)) (h : step next s m = some s') :
    Later s.key s'.key ∧ ∀ i, L i s'.key (s'.phase i) := by
  obtain ⟨i, input, key, phase, rfl, hn, rfl⟩ | ⟨ms, rfl, rfl⟩ := step_cases h
  · obtain ⟨hl, hi⟩ := hnext i input s.clock s.key (s.phase i) key phase (hs i) hn
    refine ⟨hl, ?_⟩
    intro j
    by_cases hj : j = i
    · subst hj; simpa using hi
    · simpa [Function.update_of_ne hj] using hstable j _ _ _ (hs j) hl
  · have hl := expire_later s.key (s.clock + ms)
    exact ⟨hl, fun j => hstable j _ _ _ (hs j) hl⟩

theorem run_others {i : ι} {ls : List (Move ι α)} (hrun : run (step next) s ls = some s')
    (hothers : ∀ input, .command i input ∉ ls) : s'.phase i = s.phase i ∧ s.clock ≤ s'.clock := by
  induction ls generalizing s with
  | nil =>
    cases hrun
    exact ⟨rfl, Nat.le_refl _⟩
  | cons m ls ih =>
    obtain ⟨s₁, hstep, hrun⟩ := run_cons_eq_some.mp hrun
    obtain ⟨hphase, hclock⟩ := ih hrun fun input hmem => hothers input (List.mem_cons_of_mem m hmem)
    obtain ⟨j, input, key, phase, rfl, _, rfl⟩ | ⟨ms, rfl, rfl⟩ := step_cases hstep
    · have hj : i ≠ j := fun h => hothers input (by rw [h]; exact List.mem_cons_self)
      exact ⟨hphase.trans (Function.update_of_ne hj ..), hclock⟩
    · exact ⟨hphase, Nat.le_trans (Nat.le_add_right s.clock ms) hclock⟩

end

end KeyClients
