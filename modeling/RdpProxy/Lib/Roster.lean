import Mathlib.Data.List.Basic
import Mathlib.Data.List.Nodup
import Mathlib.Data.List.Perm.Subperm
import Mathlib.Logic.Function.Basic

/-!
# How many of a family

A family over any index type, with finitely many members of some kind: how their number
changes when one member does.
-/

namespace Roster

variable {ι α : Type*} {Q : α → Prop} {f : ι → α} {i : ι} {a : α} {n m : Nat}

/-- Exactly `n` members are of the kind. -/
def Count (Q : α → Prop) (f : ι → α) (n : Nat) : Prop :=
  ∃ l : List ι, l.Nodup ∧ (∀ j, j ∈ l ↔ Q (f j)) ∧ l.length = n

theorem count_zero (h : ∀ j, ¬ Q (f j)) : Count Q f 0 := ⟨[], List.nodup_nil, by simp [h], rfl⟩

theorem count_le {R : α → Prop} (hn : Count Q f n) (hm : Count R f m) (h : ∀ a, Q a → R a) : n ≤ m := by
  obtain ⟨l, hl, hmem, rfl⟩ := hn
  obtain ⟨l', _, hmem', rfl⟩ := hm
  exact (hl.subperm fun j hj => (hmem' j).mpr (h _ ((hmem j).mp hj))).length_le

theorem count_pos (h : Count Q f n) (hi : Q (f i)) : 0 < n := by
  obtain ⟨l, _, hmem, rfl⟩ := h
  exact List.length_pos_of_mem ((hmem i).mpr hi)

variable [DecidableEq ι]

theorem count_same (h : Count Q f n) (hi : Q (f i) ↔ Q a) : Count Q (Function.update f i a) n := by
  obtain ⟨l, hl, hmem, hlen⟩ := h
  refine ⟨l, hl, ?_, hlen⟩
  intro j
  rw [hmem, Function.update_apply]
  split_ifs with hj
  · rw [hj]
    exact hi
  · rfl

theorem count_add (h : Count Q f n) (hi : ¬ Q (f i)) (ha : Q a) : Count Q (Function.update f i a) (n + 1) := by
  obtain ⟨l, hl, hmem, rfl⟩ := h
  refine ⟨i :: l, List.nodup_cons.mpr ⟨fun hin => hi ((hmem i).mp hin), hl⟩, ?_, rfl⟩
  intro j
  rw [List.mem_cons, hmem, Function.update_apply]
  split_ifs with hj
  · simp [hj, ha]
  · simp [hj]

theorem count_remove (h : Count Q f n) (hi : Q (f i)) (ha : ¬ Q a) :
    ∃ m, n = m + 1 ∧ Count Q (Function.update f i a) m := by
  obtain ⟨l, hl, hmem, rfl⟩ := h
  have hin : i ∈ l := (hmem i).mpr hi
  refine ⟨(l.erase i).length, ?_, l.erase i, hl.erase i, ?_, rfl⟩
  · rw [List.length_erase_of_mem hin]
    have hpos := List.length_pos_of_mem hin
    omega
  · intro j
    rw [hl.mem_erase_iff, hmem, Function.update_apply]
    split_ifs with hj
    · simp [hj, ha]
    · simp [hj]

theorem count_update {q : α → Bool} (h : Count (fun a => q a = true) f n) (i : ι) (a : α) :
    ∃ m, Count (fun a => q a = true) (Function.update f i a) m ∧ m + (q (f i)).toNat = n + (q a).toNat := by
  cases hold : q (f i) with
  | true =>
    cases hnew : q a with
    | true => exact ⟨n, count_same h (iff_of_true hold hnew), rfl⟩
    | false =>
      obtain ⟨m, rfl, hm⟩ := count_remove h hold (a := a) (by simp [hnew])
      exact ⟨m, hm, rfl⟩
  | false =>
    cases hnew : q a with
    | true => exact ⟨n + 1, count_add h (by simp [hold]) hnew, rfl⟩
    | false => exact ⟨n, count_same h (iff_of_false (by simp [hold]) (by simp [hnew])), rfl⟩

end Roster
