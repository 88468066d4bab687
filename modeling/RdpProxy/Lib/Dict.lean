import Mathlib.Data.List.Nodup

/-!
# Dictionaries in the order of insertion

`d[k] = v` leaves an existing key where it is and puts a new one at the end.
-/

@[ext] structure Dict (K V : Type) where
  entries : List (K × V)
  nodup : (entries.map Prod.fst).Nodup
  deriving DecidableEq

namespace Dict

variable {K V : Type} [DecidableEq K]

/-! ## Operations -/

def empty : Dict K V := ⟨[], List.nodup_nil⟩

def keys (d : Dict K V) : List K := d.entries.map Prod.fst

/-- `d.get(k)` -/
def get? (d : Dict K V) (k : K) : Option V := (d.entries.find? fun e => e.1 = k).map Prod.snd

/-- `k in d` -/
def has (d : Dict K V) (k : K) : Bool := (d.get? k).isSome

def setEntries (k : K) (v : V) : List (K × V) → List (K × V)
  | [] => [(k, v)]
  | e :: rest => if e.1 = k then (k, v) :: rest else e :: setEntries k v rest

theorem setEntries_keys (k : K) (v : V) (l : List (K × V)) : (setEntries k v l).map Prod.fst =
    if k ∈ l.map Prod.fst then l.map Prod.fst else l.map Prod.fst ++ [k] := by
  induction l with
  | nil => rfl
  | cons e rest ih =>
    unfold setEntries
    by_cases he : e.1 = k
    · simp [he]
    · have hk : k ≠ e.1 := fun h => he h.symm
      simp only [he, if_false, List.map_cons, List.mem_cons, hk, false_or, ih]
      split_ifs <;> rfl

/-- `d[k] = v` -/
def set (d : Dict K V) (k : K) (v : V) : Dict K V where
  entries := setEntries k v d.entries
  nodup := by
    rw [setEntries_keys]
    split_ifs with h
    · exact d.nodup
    · exact List.nodup_append.mpr ⟨d.nodup, List.nodup_singleton k, by
        rintro a ha b hb rfl
        exact h (List.mem_singleton.mp hb ▸ ha)⟩

/-- `d.pop(k, None)` -/
def pop (d : Dict K V) (k : K) : Dict K V where
  entries := d.entries.filter fun e => e.1 ≠ k
  nodup := d.nodup.sublist (List.filter_sublist.map _)

def setAll (d : Dict K V) (l : List (K × V)) : Dict K V := l.foldl (fun d e => d.set e.1 e.2) d

/-- `{**d, **e}` -/
def merge (d e : Dict K V) : Dict K V := d.setAll e.entries

def ofList (l : List (K × V)) : Dict K V := empty.setAll l

/-- `{k: v for k, v in d.items() if p(k)}` -/
def filterKeys (d : Dict K V) (p : K → Bool) : Dict K V where
  entries := d.entries.filter fun e => p e.1
  nodup := d.nodup.sublist (List.filter_sublist.map _)

/-! ## What is found -/

theorem has_iff {d : Dict K V} {k : K} : d.has k = true ↔ ∃ v, d.get? k = some v := Option.isSome_iff_exists

theorem has_eq_false {d : Dict K V} {k : K} : d.has k = false ↔ d.get? k = none := by
  unfold has
  exact Option.isSome_eq_false_iff.trans Option.isNone_iff_eq_none

@[simp] theorem get?_empty (k : K) : (empty : Dict K V).get? k = none := rfl

theorem find?_setEntries (k : K) (v : V) (l : List (K × V)) (j : K) :
    ((setEntries k v l).find? fun e => e.1 = j).map Prod.snd =
      if j = k then some v else (l.find? fun e => e.1 = j).map Prod.snd := by
  induction l with
  | nil =>
    unfold setEntries
    by_cases hj : k = j
    · simp [hj]
    · simp [hj, Ne.symm hj]
  | cons e rest ih =>
    unfold setEntries
    by_cases he : e.1 = k
    · by_cases hj : k = j
      · simp [he, hj]
      · simp [he, hj, Ne.symm hj]
    · by_cases hj : e.1 = j
      · have : j ≠ k := fun h => he (hj.trans h)
        simp [hj, this]
      · simp [he, hj, ih]

@[simp] theorem get?_set (d : Dict K V) (k : K) (v : V) (j : K) :
    (d.set k v).get? j = if j = k then some v else d.get? j := find?_setEntries k v d.entries j

theorem find?_filter (p : K → Bool) (l : List (K × V)) (j : K) :
    ((l.filter fun e => p e.1).find? fun e => e.1 = j) = if p j then l.find? fun e => e.1 = j else none := by
  induction l with
  | nil => simp
  | cons e rest ih =>
    rw [List.filter_cons]
    by_cases he : e.1 = j
    · cases hp : p j
      · simp [he, hp, ih]
      · simp [he, hp]
    · cases hpe : p e.1
      · simp [he, ih]
      · simp [he, ih]

@[simp] theorem get?_filterKeys (d : Dict K V) (p : K → Bool) (j : K) :
    (d.filterKeys p).get? j = if p j then d.get? j else none := by
  unfold get? filterKeys
  rw [find?_filter]
  split_ifs <;> rfl

theorem pop_eq_filterKeys (d : Dict K V) (k : K) : d.pop k = d.filterKeys fun j => j ≠ k := rfl

@[simp] theorem get?_pop (d : Dict K V) (k j : K) : (d.pop k).get? j = if j = k then none else d.get? j := by
  rw [pop_eq_filterKeys, get?_filterKeys]
  by_cases h : j = k
  · simp [h]
  · simp [h]

theorem find?_of_mem {d : Dict K V} {e : K × V} (h : e ∈ d.entries) : d.entries.find? (fun x => x.1 = e.1) = some e := by
  obtain ⟨x, hx⟩ : ∃ x, d.entries.find? (fun x => x.1 = e.1) = some x := by
    rw [← Option.isSome_iff_exists, List.find?_isSome]
    exact ⟨e, h, by simp⟩
  have hkey : x.1 = e.1 := by simpa using List.find?_some hx
  rw [hx, List.inj_on_of_nodup_map d.nodup (List.mem_of_find?_eq_some hx) h hkey]

theorem get?_eq_some {d : Dict K V} {k : K} {v : V} : d.get? k = some v ↔ (k, v) ∈ d.entries := by
  unfold get?
  constructor
  · intro h
    obtain ⟨e, he, rfl⟩ := Option.map_eq_some_iff.mp h
    have hk : e.1 = k := by simpa using List.find?_some he
    rw [← hk]
    exact List.mem_of_find?_eq_some he
  · intro h
    have := find?_of_mem h
    simp only at this
    rw [this]
    rfl

theorem mem_keys {d : Dict K V} {k : K} : k ∈ d.keys ↔ d.has k = true := by
  unfold keys
  rw [has_iff]
  constructor
  · intro h
    obtain ⟨e, he, rfl⟩ := List.mem_map.mp h
    exact ⟨e.2, get?_eq_some.mpr he⟩
  · rintro ⟨v, hv⟩
    exact List.mem_map.mpr ⟨(k, v), get?_eq_some.mp hv, rfl⟩

theorem isEmpty_iff {d : Dict K V} : d.entries.isEmpty = true ↔ ∀ k, d.get? k = none := by
  rw [List.isEmpty_iff]
  constructor
  · intro h k
    unfold get?
    rw [h]
    rfl
  · intro h
    rw [List.eq_nil_iff_forall_not_mem]
    intro e he
    have := get?_eq_some.mpr (show (e.1, e.2) ∈ d.entries from he)
    rw [h] at this
    cases this

theorem get?_setAll_of_notMem (d : Dict K V) {l : List (K × V)} {j : K} (h : j ∉ l.map Prod.fst) :
    (d.setAll l).get? j = d.get? j := by
  induction l generalizing d with
  | nil => rfl
  | cons e rest ih =>
    simp only [List.map_cons, List.mem_cons, not_or] at h
    unfold setAll
    rw [List.foldl_cons]
    refine (ih (d.set e.1 e.2) h.2).trans ?_
    rw [get?_set, if_neg h.1]

theorem get?_setAll (d : Dict K V) {l : List (K × V)} (hl : (l.map Prod.fst).Nodup) (j : K) :
    (d.setAll l).get? j = ((l.find? fun e => e.1 = j).map Prod.snd).or (d.get? j) := by
  induction l generalizing d with
  | nil => rfl
  | cons e rest ih =>
    rw [List.map_cons, List.nodup_cons] at hl
    have hstep : d.setAll (e :: rest) = (d.set e.1 e.2).setAll rest := rfl
    rw [hstep]
    by_cases he : e.1 = j
    · rw [get?_setAll_of_notMem _ (he ▸ hl.1), get?_set]
      simp [he]
    · rw [ih _ hl.2, get?_set, if_neg (Ne.symm he)]
      simp [he]

@[simp] theorem get?_merge (d e : Dict K V) (j : K) : (d.merge e).get? j = (e.get? j).or (d.get? j) :=
  get?_setAll d e.nodup j

theorem get?_merge_of_some {d e : Dict K V} {j : K} {v : V} (h : e.get? j = some v) : (d.merge e).get? j = some v := by
  rw [get?_merge, h]
  rfl

/-! ## One dictionary in another -/

/-- Every entry of `a` is one of `d`. -/
def Within (a d : Dict K V) : Prop := ∀ k v, a.get? k = some v → d.get? k = some v

variable {a d : Dict K V}

theorem within_refl (d : Dict K V) : d.Within d := fun _ _ => id

theorem within_merge (d e : Dict K V) : e.Within (d.merge e) := fun _ _ h => get?_merge_of_some h

theorem Within.merge {e : Dict K V} (h : a.Within d) (he : ∀ k v, a.get? k = some v → e.get? k = none) :
    a.Within (d.merge e) := by
  intro k v hk
  rw [get?_merge, he k v hk, h k v hk]
  rfl

theorem Within.pop {k : K} (h : a.Within d) (hk : a.get? k = none) : a.Within (d.pop k) := by
  intro j v hj
  have hne : j ≠ k := by
    rintro rfl
    rw [hk] at hj
    cases hj
  rw [get?_pop, if_neg hne, h j v hj]

/-! ## Updates that change nothing -/

theorem setEntries_of_mem {k : K} {v : V} {l : List (K × V)} (hl : (l.map Prod.fst).Nodup) (h : (k, v) ∈ l) :
    setEntries k v l = l := by
  induction l with
  | nil => simp at h
  | cons e rest ih =>
    rw [List.map_cons, List.nodup_cons] at hl
    unfold setEntries
    rcases List.mem_cons.mp h with rfl | hmem
    · rw [if_pos rfl]
    · have hne : e.1 ≠ k := by
        rintro rfl
        exact hl.1 (List.mem_map.mpr ⟨_, hmem, rfl⟩)
      rw [if_neg hne, ih hl.2 hmem]

theorem set_of_get? {k : K} {v : V} (h : d.get? k = some v) : d.set k v = d :=
  Dict.ext (setEntries_of_mem d.nodup (get?_eq_some.mp h))

theorem merge_of_within {e : Dict K V} (h : e.Within d) : d.merge e = d := by
  have hmem : ∀ x ∈ e.entries, d.get? x.1 = some x.2 := fun x hx => h x.1 x.2 (get?_eq_some.mpr hx)
  unfold merge setAll
  generalize e.entries = l at hmem
  induction l with
  | nil => rfl
  | cons x rest ih =>
    rw [List.foldl_cons, set_of_get? (hmem x (by simp))]
    exact ih fun y hy => hmem y (by simp [hy])

theorem pop_of_has {k : K} (h : d.has k = false) : d.pop k = d := by
  refine Dict.ext (List.filter_eq_self.mpr fun e he => ?_)
  have hne : e.1 ≠ k := by
    rintro rfl
    rw [has_eq_false, get?_eq_some.mpr (show (e.1, e.2) ∈ d.entries from he)] at h
    cases h
  simpa using hne

theorem filter_setEntries (k j : K) (v : V) (l : List (K × V)) :
    (setEntries j v l).filter (fun e => e.1 ≠ k) =
      if j = k then l.filter fun e => e.1 ≠ k else setEntries j v (l.filter fun e => e.1 ≠ k) := by
  induction l with
  | nil =>
    unfold setEntries
    split_ifs with h <;> simp [h]
  | cons e rest ih =>
    have hset : setEntries j v (e :: rest) = if e.1 = j then (j, v) :: rest else e :: setEntries j v rest := rfl
    rw [hset]
    by_cases he : e.1 = j
    · by_cases hj : j = k
      · simp [he, hj]
      · simp [he, hj, setEntries]
    · rw [if_neg he, List.filter_cons, ih, List.filter_cons]
      by_cases hk : e.1 = k
      · simp [hk]
      · simp only [hk, ne_eq, not_false_eq_true, decide_true, if_true, setEntries, he, if_false]
        split_ifs <;> rfl

theorem pop_set (d : Dict K V) (k j : K) (v : V) :
    (d.set j v).pop k = if j = k then d.pop k else (d.pop k).set j v := by
  refine Dict.ext ((filter_setEntries k j v d.entries).trans ?_)
  split_ifs <;> rfl

theorem pop_merge (d e : Dict K V) (k : K) : (d.merge e).pop k = (d.pop k).merge (e.pop k) := by
  have hsetAll : ∀ (l : List (K × V)) (d : Dict K V),
      (d.setAll l).pop k = (d.pop k).setAll (l.filter fun e => e.1 ≠ k) := by
    intro l
    induction l with
    | nil => exact fun d => rfl
    | cons x rest ih =>
      intro d
      refine (ih (d.set x.1 x.2)).trans ?_
      rw [pop_set, List.filter_cons]
      by_cases hx : x.1 = k
      · simp [hx]
      · simp [hx, setAll]
  exact hsetAll e.entries d

end Dict
