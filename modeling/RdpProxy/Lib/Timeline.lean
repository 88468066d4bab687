import Mathlib.Order.Lattice
import Mathlib.Tactic.Common

/-!
# Histories under a clock that does not go back

A history has the latest event first.
-/

namespace Timeline

variable {α T : Type*} [LinearOrder T] {time : α → T}

def Sorted (time : α → T) (history : List α) : Prop :=
  history.Pairwise fun later earlier => time earlier ≤ time later

/-- The time of the latest event with the mark `P`. -/
def lastAt (time : α → T) (P : α → Bool) (history : List α) : Option T := (history.find? P).map time

variable {P Q : α → Bool} {history : List α} {t : T}

omit [LinearOrder T] in
theorem lastAt_cons (e : α) : lastAt time P (e :: history) = if P e then some (time e) else lastAt time P history := by
  rw [lastAt, List.find?_cons]
  cases P e <;> rfl

omit [LinearOrder T] in
theorem exists_lastAt {e : α} (he : e ∈ history) (hp : P e = true) : ∃ t, lastAt time P history = some t := by
  cases h : history.find? P with
  | none => exact absurd hp (by simpa using List.find?_eq_none.mp h e he)
  | some b => exact ⟨time b, by rw [lastAt, h]; rfl⟩

omit [LinearOrder T] in
theorem mem_of_lastAt (h : lastAt time P history = some t) : ∃ e ∈ history, P e = true ∧ time e = t := by
  obtain ⟨e, he, rfl⟩ := Option.map_eq_some_iff.mp h
  exact ⟨e, List.mem_of_find?_eq_some he, List.find?_some he, rfl⟩

theorem le_lastAt (hs : Sorted time history) (h : lastAt time P history = some t) {e : α} (he : e ∈ history)
    (hp : P e = true) : time e ≤ t := by
  induction history with
  | nil => simp at he
  | cons a history ih =>
    obtain ⟨ha, hs⟩ := List.pairwise_cons.mp hs
    rw [lastAt_cons] at h
    rcases List.mem_cons.mp he with rfl | he
    · rw [if_pos hp] at h
      cases h
      exact le_refl _
    · split_ifs at h with hpa
      · cases h
        exact ha e he
      · exact ih hs h he

theorem lastAt_mono (hs : Sorted time history) (hPQ : ∀ e, P e = true → Q e = true)
    (h : lastAt time P history = some t) : ∃ t', lastAt time Q history = some t' ∧ t ≤ t' := by
  obtain ⟨e, he, hp, rfl⟩ := mem_of_lastAt h
  obtain ⟨t', ht'⟩ := exists_lastAt he (hPQ e hp)
  exact ⟨t', ht', le_lastAt hs ht' he (hPQ e hp)⟩

theorem lastAt_lt_iff (hs : Sorted time history) (h : lastAt time P history = some t) (b : T) :
    t < b ↔ ∀ e ∈ history, P e = true → time e < b := by
  constructor
  · intro hlt e he hp
    exact lt_of_le_of_lt (le_lastAt hs h he hp) hlt
  · intro hall
    obtain ⟨e, he, hp, rfl⟩ := mem_of_lastAt h
    exact hall e he hp

end Timeline
