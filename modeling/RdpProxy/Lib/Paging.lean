import Mathlib.Data.List.Perm.Basic
import Mathlib.Data.List.Sort
import Mathlib.Order.Basic

/-!
# Pages of a list that is ordered by a key

Rows with the same key come in any order, and in another one the next time. A row has a place of its own only if its ties
are all on one page.
-/

namespace Paging

variable {α T : Type} [LinearOrder T] (key : α → T)

/-- The rows of `l`, the largest key first. -/
structure Ordering (l o : List α) : Prop where
  perm : o.Perm l
  pairwise : o.Pairwise fun a b => key b ≤ key a

/-- The rows that come before `r` in every ordering. -/
def above (l : List α) (r : α) : Nat := l.countP fun a => key r < key a

/-- The rows up to the last one that may come in the place of `r`. -/
def upTo (l : List α) (r : α) : Nat := l.countP fun a => key r ≤ key a

/-- `offset(k * size).limit(size)` -/
def page (size k : Nat) (o : List α) : List α := (o.drop (k * size)).take size

variable {key} {l o : List α} {r : α} {i size : Nat}

/-! ## Places -/

omit [LinearOrder T] in
theorem mem_page {k : Nat} : r ∈ page size k o ↔ ∃ i, o[i]? = some r ∧ k * size ≤ i ∧ i < k * size + size := by
  unfold page
  constructor
  · intro h
    obtain ⟨i, hi⟩ := List.mem_iff_getElem?.mp h
    rw [List.getElem?_take] at hi
    split_ifs at hi with hlt
    rw [List.getElem?_drop] at hi
    exact ⟨k * size + i, hi, by omega, by omega⟩
  · rintro ⟨i, hi, hle, hlt⟩
    apply List.mem_of_getElem? (i := i - k * size)
    rw [List.getElem?_take, if_pos (by omega), List.getElem?_drop, Nat.add_sub_cancel' hle, hi]

omit [LinearOrder T] in
theorem split_at (hi : o[i]? = some r) : ∃ pre post, o = pre ++ r :: post ∧ pre.length = i := by
  obtain ⟨hlt, rfl⟩ := List.getElem?_eq_some_iff.mp hi
  refine ⟨o.take i, o.drop (i + 1), ?_, List.length_take_of_le (by omega)⟩
  rw [← List.drop_eq_getElem_cons hlt, List.take_append_drop]

theorem above_le (ho : Ordering key l o) (hi : o[i]? = some r) : above key l r ≤ i := by
  obtain ⟨pre, post, rfl, rfl⟩ := split_at hi
  obtain ⟨_, hpost, _⟩ := List.pairwise_append.mp ho.pairwise
  have hlow : (r :: post).countP (fun a => key r < key a) = 0 := by
    rw [List.countP_eq_zero]
    intro a ha
    rcases List.mem_cons.mp ha with rfl | ha
    · simp
    · simpa using (List.pairwise_cons.mp hpost).1 a ha
  rw [above, ← ho.perm.countP_eq, List.countP_append, hlow]
  exact List.countP_le_length

theorem lt_upTo (ho : Ordering key l o) (hi : o[i]? = some r) : i < upTo key l r := by
  obtain ⟨pre, post, rfl, rfl⟩ := split_at hi
  obtain ⟨_, _, hpre⟩ := List.pairwise_append.mp ho.pairwise
  have hhigh : pre.countP (fun a => key r ≤ key a) = pre.length := by
    rw [List.countP_eq_length]
    intro a ha
    simpa using hpre a ha r List.mem_cons_self
  rw [upTo, ← ho.perm.countP_eq, List.countP_append, hhigh, List.countP_cons_of_pos (by simp)]
  omega

/-- Where the ties of a row are all on one page, the row is on that page and on no other, in every ordering. -/
theorem page_of_place (hsize : 0 < size) (hr : r ∈ l) (hplace : above key l r / size = (upTo key l r - 1) / size)
    (ho : Ordering key l o) (k : Nat) : r ∈ page size k o ↔ k = above key l r / size := by
  have hall : ∀ i, o[i]? = some r → i / size = above key l r / size := by
    intro i hi
    have hlow := Nat.div_le_div_right (c := size) (above_le ho hi)
    have hhigh := Nat.div_le_div_right (c := size) (Nat.le_sub_one_of_lt (lt_upTo ho hi))
    omega
  have honPage : ∀ i, k * size ≤ i ∧ i < k * size + size ↔ i / size = k := by
    intro i
    rw [Nat.div_eq_iff hsize]
    omega
  rw [mem_page]
  constructor
  · rintro ⟨i, hi, hk⟩
    rw [← hall i hi, (honPage i).mp hk]
  · rintro rfl
    obtain ⟨i, hi⟩ := List.mem_iff_getElem?.mp (ho.perm.mem_iff.mpr hr)
    exact ⟨i, hi, (honPage i).mpr (hall i hi)⟩

/-! ## Ties -/

/-- One of the orderings. -/
def sorted (key : α → T) (l : List α) : List α := l.mergeSort fun a b => key b ≤ key a

theorem sorted_ordering (l : List α) : Ordering key l (sorted key l) := by
  have htrans : ∀ a b c : α, decide (key b ≤ key a) = true → decide (key c ≤ key b) = true →
      decide (key c ≤ key a) = true := by
    simp only [decide_eq_true_eq]
    exact fun _ _ _ hab hbc => hbc.trans hab
  have htotal : ∀ a b : α, (decide (key b ≤ key a) || decide (key a ≤ key b)) = true := by
    simp only [Bool.or_eq_true, decide_eq_true_eq]
    exact fun _ _ => le_total _ _
  exact ⟨List.mergeSort_perm _ _, by simpa [sorted] using List.pairwise_mergeSort htrans htotal l⟩

/-- The rows with a larger key, the ties in the given order, and the rest. -/
def around (key : α → T) (l : List α) (r : α) (ties : List α) : List α :=
  sorted key (l.filter fun a => key r < key a) ++ (ties ++ sorted key (l.filter fun a => key a < key r))

theorem partition_perm (key : α → T) (l : List α) (r : α) :
    ((l.filter fun a => key r < key a) ++ ((l.filter fun a => key a = key r) ++ l.filter fun a => key a < key r)).Perm l := by
  classical
  have hzero : ∀ (p : α → Bool) (a : α), p a = false → (l.filter p).count a = 0 := by
    intro p a hp
    rw [List.count_eq_zero]
    intro hmem
    rw [List.of_mem_filter hmem] at hp
    cases hp
  rw [List.perm_iff_count]
  intro a
  rw [List.count_append, List.count_append]
  rcases lt_trichotomy (key a) (key r) with h | h | h
  · rw [hzero _ a (by simp [h.le]), hzero _ a (by simp [h.ne]), List.count_filter (by simp [h])]
    omega
  · rw [hzero _ a (by simp [h]), List.count_filter (by simp [h]), hzero _ a (by simp [h])]
    omega
  · rw [List.count_filter (by simp [h]), hzero _ a (by simp [h.ne']), hzero _ a (by simp [h.le])]
    omega

theorem around_ordering {ties : List α} (hties : ties.Perm (l.filter fun a => key a = key r)) :
    Ordering key l (around key l r ties) := by
  have hhigh : ∀ a ∈ sorted key (l.filter fun a => key r < key a), key r < key a := by
    intro a ha
    simpa using List.of_mem_filter (List.mem_mergeSort.mp ha)
  have hlow : ∀ a ∈ sorted key (l.filter fun a => key a < key r), key a < key r := by
    intro a ha
    simpa using List.of_mem_filter (List.mem_mergeSort.mp ha)
  have htie : ∀ a ∈ ties, key a = key r := by
    intro a ha
    simpa using List.of_mem_filter (hties.mem_iff.mp ha)
  constructor
  · exact ((sorted_ordering _).perm.append (hties.append (sorted_ordering _).perm)).trans (partition_perm key l r)
  · rw [around, List.pairwise_append, List.pairwise_append]
    refine ⟨(sorted_ordering _).pairwise, ⟨?_, (sorted_ordering _).pairwise, ?_⟩, ?_⟩
    · exact List.pairwise_of_forall_mem_list fun a ha b hb => by rw [htie a ha, htie b hb]
    · exact fun a ha b hb => by rw [htie a ha]; exact (hlow b hb).le
    · intro a ha b hb
      rcases List.mem_append.mp hb with hb | hb
      · rw [htie b hb]
        exact (hhigh a ha).le
      · exact (hlow b hb).le.trans (hhigh a ha).le

theorem length_high (key : α → T) (l : List α) (r : α) :
    (sorted key (l.filter fun a => key r < key a)).length = above key l r := by
  rw [sorted, List.length_mergeSort, above, List.countP_eq_length_filter]

theorem length_ties {ties : List α} (hties : ties.Perm (l.filter fun a => key a = key r)) :
    above key l r + ties.length = upTo key l r := by
  have hhigh : (l.filter fun a => key r < key a).countP (fun a => key r ≤ key a) = above key l r := by
    have hall : (l.filter fun a => key r < key a).countP (fun a => key r ≤ key a) =
        (l.filter fun a => key r < key a).length := by
      rw [List.countP_eq_length]
      intro a ha
      simpa using (show key r < key a by simpa using List.of_mem_filter ha).le
    rw [hall, above, List.countP_eq_length_filter]
  have htie : (l.filter fun a => key a = key r).countP (fun a => key r ≤ key a) = ties.length := by
    rw [hties.length_eq, List.countP_eq_length]
    intro a ha
    simpa using (show key a = key r by simpa using List.of_mem_filter ha).ge
  have hlow : (l.filter fun a => key a < key r).countP (fun a => key r ≤ key a) = 0 := by
    rw [List.countP_eq_zero]
    intro a ha
    simpa using List.of_mem_filter ha
  rw [upTo, ← (partition_perm key l r).countP_eq, List.countP_append, List.countP_append, hhigh, htie, hlow]
  omega

theorem around_place {before after : List α} :
    (around key l r (before ++ r :: after))[above key l r + before.length]? = some r := by
  have hlength := length_high key l r
  unfold around
  rw [List.getElem?_append_right (by omega), hlength, Nat.add_sub_cancel_left, List.append_assoc,
    List.getElem?_append_right (Nat.le_refl _), Nat.sub_self]
  rfl

theorem place_of_mem_page (ho : Ordering key l o) (hnodup : l.Nodup) (hi : o[i]? = some r) {k : Nat}
    (h : r ∈ page size k o) : i / size = k := by
  obtain ⟨j, hj, hle, hlt⟩ := mem_page.mp h
  obtain ⟨hlength, _⟩ := List.getElem?_eq_some_iff.mp hi
  have hij : i = j := (List.getElem?_inj hlength (ho.perm.nodup_iff.mpr hnodup)).mp (hi.trans hj.symm)
  rw [hij, Nat.div_eq_iff (by omega)]
  omega

/-- A row whose ties are on two pages may be missed: each page is from an ordering, and the row is on none of them. -/
theorem exists_missed (hnodup : l.Nodup) (hr : r ∈ l) (hplace : above key l r / size ≠ (upTo key l r - 1) / size) :
    ∃ o : Nat → List α, (∀ k, Ordering key l (o k)) ∧ ∀ k, r ∉ page size k (o k) := by
  have hmem : r ∈ l.filter fun a => key a = key r := by simp [hr]
  obtain ⟨pre, post, hsplit⟩ := List.append_of_mem hmem
  have hfirst : ([] ++ r :: (pre ++ post)).Perm (l.filter fun a => key a = key r) := hsplit ▸ List.perm_middle.symm
  have hlast : ((pre ++ post) ++ r :: []).Perm (l.filter fun a => key a = key r) := by
    rw [hsplit]
    exact (List.perm_append_singleton r _).trans List.perm_middle.symm
  have hfirstPlace : (around key l r ([] ++ r :: (pre ++ post)))[above key l r]? = some r := around_place
  have hlastPlace : (around key l r ((pre ++ post) ++ r :: []))[upTo key l r - 1]? = some r := by
    have hlength := length_ties hlast
    rw [List.length_append, List.length_singleton] at hlength
    rw [← hlength]
    exact around_place
  refine ⟨fun k => if k = above key l r / size then around key l r ((pre ++ post) ++ r :: [])
    else around key l r ([] ++ r :: (pre ++ post)), fun k => ?_, fun k hk => ?_⟩
  · dsimp only
    split_ifs
    · exact around_ordering hlast
    · exact around_ordering hfirst
  · dsimp only at hk
    split_ifs at hk with hpage
    · exact hplace (hpage.symm.trans (place_of_mem_page (around_ordering hlast) hnodup hlastPlace hk).symm)
    · exact hpage (place_of_mem_page (around_ordering hfirst) hnodup hfirstPlace hk).symm

end Paging
