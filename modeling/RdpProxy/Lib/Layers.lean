import Mathlib.Data.List.Perm.Basic
import Mathlib.Data.List.Sort
import Mathlib.Tactic.Common

/-!
# Layers with priorities

Layers are put on one another in the order of their priorities, equal ones in the order in
which they come. A value is that of the uppermost layer that has one.
-/

namespace Layers

variable {T V : Type} (prio : T → Nat) (val : T → Option V)

def sorted (l : List T) : List T := l.mergeSort fun x y => prio x ≤ prio y

def winner (l : List T) : Option V := (sorted prio l).reverse.findSome? val

/-- The layer has a value, and none above it has one. -/
structure Top (l : List T) (t : T) : Prop where
  mem : t ∈ l
  some : (val t).isSome = true
  highest : ∀ u ∈ l, (val u).isSome = true → prio u ≤ prio t

variable {prio val} {l l' : List T} {t u : T} {v : V}

theorem sorted_perm (l : List T) : (sorted prio l).Perm l := List.mergeSort_perm ..

theorem sorted_pairwise (l : List T) : (sorted prio l).Pairwise fun x y => prio x ≤ prio y := by
  have h : (l.mergeSort fun x y => decide (prio x ≤ prio y)).Pairwise fun x y => decide (prio x ≤ prio y) :=
    List.pairwise_mergeSort (fun a b c hab hbc => by simp only [decide_eq_true_eq] at *; omega)
      (fun a b => by simp only [Bool.or_eq_true, decide_eq_true_eq]; omega) l
  unfold sorted
  simpa using h

theorem sorted_of_pairwise (h : l.Pairwise fun x y => prio x ≤ prio y) : sorted prio l = l :=
  List.mergeSort_of_pairwise (by simpa using h)

theorem winner_of_pairwise (h : l.Pairwise fun x y => prio x ≤ prio y) :
    winner prio val l = l.reverse.findSome? val := by
  unfold winner
  rw [sorted_of_pairwise h]

theorem winner_eq_none : winner prio val l = none ↔ ∀ t ∈ l, val t = none := by
  unfold winner
  rw [List.findSome?_eq_none_iff]
  simp only [List.mem_reverse, (sorted_perm l).mem_iff]

theorem Top.perm (hp : l.Perm l') (h : Top prio val l t) : Top prio val l' t :=
  ⟨hp.mem_iff.mp h.mem, h.some, fun u hu => h.highest u (hp.mem_iff.mpr hu)⟩

theorem winner_top (h : winner prio val l = some v) : ∃ t, Top prio val l t ∧ val t = some v := by
  unfold winner at h
  obtain ⟨above, t, below, hsplit, hvalue, hnone⟩ := List.findSome?_eq_some_iff.mp h
  have hmem : ∀ u, u ∈ l ↔ u ∈ above ∨ u = t ∨ u ∈ below := by
    intro u
    have hperm : (sorted prio l).Perm l := sorted_perm l
    rw [← hperm.mem_iff, ← List.mem_reverse, hsplit, List.mem_append, List.mem_cons]
  have horder : (above ++ t :: below).Pairwise fun x y => prio y ≤ prio x := by
    rw [← hsplit, List.pairwise_reverse]
    exact sorted_pairwise l
  refine ⟨t, ⟨(hmem t).mpr (.inr (.inl rfl)), by rw [hvalue]; rfl, fun u hu hsome => ?_⟩, hvalue⟩
  rcases (hmem u).mp hu with habove | rfl | hbelow
  · rw [hnone u habove] at hsome
    cases hsome
  · exact Nat.le_refl _
  · exact List.rel_of_pairwise_cons (List.pairwise_append.mp horder).2.1 hbelow

theorem Top.unique (hdistinct : (l.map prio).Nodup) (ht : Top prio val l t) (hu : Top prio val l u) : t = u :=
  List.inj_on_of_nodup_map hdistinct ht.mem hu.mem
    (Nat.le_antisymm (hu.highest t ht.mem ht.some) (ht.highest u hu.mem hu.some))

theorem winner_eq_some (hdistinct : (l.map prio).Nodup) :
    winner prio val l = some v ↔ ∃ t, Top prio val l t ∧ val t = some v := by
  constructor
  · exact winner_top
  · rintro ⟨t, ht, hv⟩
    rcases hw : winner prio val l with _ | w
    · rw [winner_eq_none.mp hw t ht.mem] at hv
      cases hv
    · obtain ⟨u, hu, huw⟩ := winner_top hw
      rw [← huw, ← hv, Top.unique hdistinct hu ht]

theorem exists_perm_winner [DecidableEq T] (h : Top prio val l t) : ∃ l', l'.Perm l ∧ winner prio val l' = val t := by
  let rest := sorted prio (l.erase t)
  let below := rest.filter fun u => prio u ≤ prio t
  let above := rest.filter fun u => !decide (prio u ≤ prio t)
  have hrest : rest.Pairwise fun x y => prio x ≤ prio y := sorted_pairwise _
  have hsub : ∀ u ∈ rest, u ∈ l := fun u hu => List.mem_of_mem_erase ((sorted_perm (l.erase t)).mem_iff.mp hu)
  have hperm : (below ++ t :: above).Perm l := by
    refine List.perm_middle.trans ?_
    refine (List.Perm.cons t ((List.filter_append_perm _ rest).trans (sorted_perm _))).trans ?_
    exact (List.perm_cons_erase h.mem).symm
  have hbelow : ∀ u ∈ below, prio u ≤ prio t := fun u hu => by simpa using (List.mem_filter.mp hu).2
  have habove : ∀ u ∈ above, prio t < prio u := fun u hu => by simpa using (List.mem_filter.mp hu).2
  have hsorted : (below ++ t :: above).Pairwise fun x y => prio x ≤ prio y := by
    refine List.pairwise_append.mpr ⟨hrest.filter _, List.pairwise_cons.mpr ⟨?_, hrest.filter _⟩, ?_⟩
    · exact fun u hu => (habove u hu).le
    · intro x hx y hy
      rcases List.mem_cons.mp hy with rfl | hy
      · exact hbelow x hx
      · exact (hbelow x hx).trans (habove y hy).le
  refine ⟨below ++ t :: above, hperm, ?_⟩
  rw [winner_of_pairwise hsorted]
  have hnone : above.reverse.findSome? val = none := by
    rw [List.findSome?_eq_none_iff]
    intro u hu
    rw [List.mem_reverse] at hu
    by_contra hne
    have hle := h.highest u (hsub u (List.mem_of_mem_filter hu)) (Option.isSome_iff_ne_none.mpr hne)
    have hlt := habove u hu
    omega
  obtain ⟨v, hv⟩ := Option.isSome_iff_exists.mp h.some
  simp [hnone, hv]

/-- The order in which the layers come does not matter exactly where all top layers have one value. -/
theorem winner_perm_iff [DecidableEq T] : (∀ l₁ l₂ : List T, l₁.Perm l → l₂.Perm l →
      winner prio val l₁ = winner prio val l₂) ↔
    ∀ t u, Top prio val l t → Top prio val l u → val t = val u := by
  constructor
  · intro h t u ht hu
    obtain ⟨l₁, hl₁, ht⟩ := exists_perm_winner ht
    obtain ⟨l₂, hl₂, hu⟩ := exists_perm_winner hu
    rw [← ht, ← hu]
    exact h l₁ l₂ hl₁ hl₂
  · intro h l₁ l₂ hl₁ hl₂
    rcases hw : winner prio val l₁ with _ | v
    · symm
      rw [winner_eq_none] at hw ⊢
      exact fun t ht => hw t (hl₁.mem_iff.mpr (hl₂.mem_iff.mp ht))
    · rcases hw' : winner prio val l₂ with _ | v'
      · obtain ⟨t, ht, htv⟩ := winner_top hw
        rw [winner_eq_none] at hw'
        rw [hw' t (hl₂.mem_iff.mpr (hl₁.mem_iff.mp ht.mem))] at htv
        cases htv
      · obtain ⟨t, ht, htv⟩ := winner_top hw
        obtain ⟨u, hu, huv⟩ := winner_top hw'
        rw [← htv, ← huv]
        exact h t u (ht.perm hl₁) (hu.perm hl₂)

end Layers
