import RdpProxy.Lib.Dict
import RdpProxy.Lib.Steps

/-!
# Listing the keys, then reading each, while others write

An iteration returns keys page by page, some of them twice. A key that is there from its begin to its end is on some
page. The values are read afterwards, a command for each key.
-/

open Steps

namespace KeyScan

variable {K V : Type} [DecidableEq K]

structure Listing (K V : Type) where
  /-- There since the iteration began, and not returned yet. -/
  due : List K
  ended : Bool
  /-- Returned, and not read yet. -/
  todo : List K
  rows : List (K × Option V)

structure State (K V : Type) where
  store : Dict K V
  listing : Option (Listing K V)

inductive Act (K V : Type) where
  /-- Others write a key, or delete it, or it expires. -/
  | set (k : K) (v : V)
  | drop (k : K)
  | start
  | scan (page : List K) (last : Bool)
  | read

def Listing.drop (l : Listing K V) (k : K) : Listing K V := { l with due := l.due.filter (· ≠ k) }

def Listing.scan (l : Listing K V) (store : Dict K V) (page : List K) (last : Bool) : Option (Listing K V) :=
  if l.ended = false ∧ (∀ k ∈ page, store.has k = true) ∧ (last = true → ∀ k ∈ l.due, k ∈ page) then
    some { l with due := l.due.filter (· ∉ page), ended := last, todo := l.todo ++ page }
  else none

def Listing.read (l : Listing K V) (store : Dict K V) : Option (Listing K V) :=
  match l.todo with
  | [] => none
  | k :: todo =>
    if l.ended then some { l with todo := todo, rows := l.rows ++ [(k, store.get? k)] } else none

def Listing.Done (l : Listing K V) : Prop := l.ended = true ∧ l.todo = []

def State.update (s : State K V) (l : Option (Listing K V)) : Option (State K V) :=
  l.map fun l => { s with listing := some l }

def step (s : State K V) : Act K V → Option (State K V)
  | .set k v => some { s with store := s.store.set k v }
  | .drop k => some ⟨s.store.pop k, s.listing.map fun l => l.drop k⟩
  | .start => if s.listing.isNone then some { s with listing := some ⟨s.store.keys, false, [], []⟩ } else none
  | .scan page last => s.update (s.listing.bind fun l => l.scan s.store page last)
  | .read => s.update (s.listing.bind fun l => l.read s.store)

variable {s s' : State K V} {l l' : Listing K V} {a : Act K V} {k : K} {v : V} {page : List K} {last : Bool}

omit [DecidableEq K] in
theorem update_eq_some {o : Option (Listing K V)} : s.update o = some s' ↔
    ∃ l, o = some l ∧ s' = { s with listing := some l } := by
  simp only [State.update, Option.map_eq_some_iff]
  exact exists_congr fun l => and_congr_right fun _ => eq_comm

theorem scan_eq_some : l.scan s.store page last = some l' ↔
    (l.ended = false ∧ (∀ k ∈ page, s.store.has k = true) ∧ (last = true → ∀ k ∈ l.due, k ∈ page)) ∧
      l' = { l with due := l.due.filter (· ∉ page), ended := last, todo := l.todo ++ page } := by
  simp only [Listing.scan, Option.ite_none_right_eq_some, Option.some.injEq]
  exact and_congr_right fun _ => eq_comm

theorem read_eq_some (h : l.read s.store = some l') : ∃ k todo, l.todo = k :: todo ∧
    l' = { l with todo := todo, rows := l.rows ++ [(k, s.store.get? k)] } := by
  unfold Listing.read at h
  split at h
  next => cases h
  next k todo htodo =>
    rw [Option.ite_none_right_eq_some] at h
    exact ⟨k, todo, htodo, by simpa using h.2.symm⟩

/-! ## A key that stays -/

/-- The key is still to be returned, or to be read, or it was read with a good value. -/
def Listing.Covers (P : V → Prop) (k : K) (l : Listing K V) : Prop :=
  (l.ended = false ∧ k ∈ l.due) ∨ k ∈ l.todo ∨ ∃ v, (k, some v) ∈ l.rows ∧ P v

structure Kept (P : V → Prop) (k : K) (s : State K V) : Prop where
  value : ∃ v, s.store.get? k = some v ∧ P v
  covered : ∀ l, s.listing = some l → l.Covers P k

/-- The action does not delete the key, and writes only good values to it. -/
def Respects (P : V → Prop) (k : K) : Act K V → Prop
  | .set k' v => k' = k → P v
  | .drop k' => k' ≠ k
  | _ => True

variable {P : V → Prop}

theorem Listing.Covers.drop (h : l.Covers P k) {k' : K} (hk : k' ≠ k) : (l.drop k').Covers P k := by
  rcases h with ⟨hopen, hdue⟩ | hrest
  · have hkeep : k ∈ l.due.filter (· ≠ k') := by simp [hdue, hk.symm]
    exact .inl ⟨hopen, hkeep⟩
  · exact .inr hrest

theorem Listing.Covers.scan (h : l.Covers P k) (hscan : l.scan s.store page last = some l') : l'.Covers P k := by
  obtain ⟨⟨-, -, hlast⟩, rfl⟩ := scan_eq_some.mp hscan
  rcases h with ⟨-, hdue⟩ | htodo | hread
  · by_cases hpage : k ∈ page
    · exact .inr (.inl (List.mem_append_right _ hpage))
    · have hmore : last = false := by
        cases last with
        | false => rfl
        | true => exact absurd (hlast rfl k hdue) hpage
      have hkeep : k ∈ l.due.filter (· ∉ page) := by simp [hdue, hpage]
      exact .inl ⟨hmore, hkeep⟩
  · exact .inr (.inl (List.mem_append_left _ htodo))
  · exact .inr (.inr hread)

theorem Listing.Covers.read (h : l.Covers P k) (hvalue : ∃ v, s.store.get? k = some v ∧ P v)
    (hread : l.read s.store = some l') : l'.Covers P k := by
  obtain ⟨k', todo, htodo, rfl⟩ := read_eq_some hread
  rcases h with hdue | hmem | ⟨v, hrow, hv⟩
  · exact .inl hdue
  · rw [htodo] at hmem
    rcases List.mem_cons.mp hmem with rfl | hmem
    · obtain ⟨v, hv, hP⟩ := hvalue
      have hrow : (k, some v) ∈ l.rows ++ [(k, s.store.get? k)] := by simp [hv]
      exact .inr (.inr ⟨v, hrow, hP⟩)
    · exact .inr (.inl hmem)
  · exact .inr (.inr ⟨v, List.mem_append_left _ hrow, hv⟩)

theorem Kept.step (h : Kept P k s) (ha : Respects P k a) (hstep : step s a = some s') : Kept P k s' := by
  obtain ⟨v, hv, hP⟩ := h.value
  cases a with
  | set k' v' =>
    cases hstep
    refine ⟨?_, h.covered⟩
    by_cases hk : k = k'
    · exact ⟨v', by simp [hk], ha hk.symm⟩
    · exact ⟨v, by simp [hk, hv], hP⟩
  | drop k' =>
    cases hstep
    refine ⟨⟨v, ?_, hP⟩, ?_⟩
    · have hk : k ≠ k' := fun heq => ha heq.symm
      simp [hk, hv]
    · intro l hl
      obtain ⟨l₀, hl₀, rfl⟩ := Option.map_eq_some_iff.mp hl
      exact (h.covered l₀ hl₀).drop ha
  | start =>
    simp only [KeyScan.step, Option.ite_none_right_eq_some, Option.some.injEq] at hstep
    obtain ⟨-, rfl⟩ := hstep
    refine ⟨h.value, ?_⟩
    rintro l ⟨⟩
    exact .inl ⟨rfl, Dict.mem_keys.mpr (Dict.has_iff.mpr ⟨v, hv⟩)⟩
  | scan page last =>
    obtain ⟨l', hscan, rfl⟩ := update_eq_some.mp hstep
    obtain ⟨l, hl, hscan⟩ := Option.bind_eq_some_iff.mp hscan
    refine ⟨h.value, ?_⟩
    rintro _ ⟨⟩
    exact (h.covered l hl).scan hscan
  | read =>
    obtain ⟨l', hread, rfl⟩ := update_eq_some.mp hstep
    obtain ⟨l, hl, hread⟩ := Option.bind_eq_some_iff.mp hread
    refine ⟨h.value, ?_⟩
    rintro _ ⟨⟩
    exact (h.covered l hl).read h.value hread

omit [DecidableEq K] in
theorem Listing.Covers.row (h : l.Covers P k) (hdone : l.Done) : ∃ v, (k, some v) ∈ l.rows ∧ P v := by
  rcases h with ⟨hopen, -⟩ | htodo | hrow
  · rw [hdone.1] at hopen
    cases hopen
  · rw [hdone.2] at htodo
    cases htodo
  · exact hrow

/-! ## What is returned and read -/

/-- Every value that is stored or read is good for its key, and every key that is returned has had one. -/
structure Holds (J : K → V → Prop) (s : State K V) : Prop where
  store : ∀ k v, s.store.get? k = some v → J k v
  todo : ∀ l, s.listing = some l → ∀ k ∈ l.todo, ∃ v, J k v
  rows : ∀ l, s.listing = some l → ∀ row ∈ l.rows, (∃ v, J row.1 v) ∧ ∀ v, row.2 = some v → J row.1 v

variable {J J' : K → V → Prop}

theorem Holds.mono (h : Holds J s) (hJ : ∀ k v, J k v → J' k v) : Holds J' s where
  store k v hv := hJ k v (h.store k v hv)
  todo l hl k hk := (h.todo l hl k hk).imp fun v hv => hJ k v hv
  rows l hl row hrow := by
    obtain ⟨⟨v, hv⟩, hvalue⟩ := h.rows l hl row hrow
    exact ⟨⟨v, hJ row.1 v hv⟩, fun v hv => hJ row.1 v (hvalue v hv)⟩

theorem Holds.step (h : Holds J s) (ha : ∀ k v, a = .set k v → J k v) (hstep : step s a = some s') : Holds J s' := by
  cases a with
  | set k v =>
    cases hstep
    refine ⟨?_, h.todo, h.rows⟩
    intro k' v' hv'
    by_cases hk : k' = k
    · subst hk
      have hvv : v = v' := by simpa using hv'
      exact hvv ▸ ha k' v rfl
    · exact h.store k' v' (by simpa [hk] using hv')
  | drop k =>
    cases hstep
    refine ⟨?_, ?_, ?_⟩
    · intro k' v' hv'
      by_cases hk : k' = k
      · simp [hk] at hv'
      · exact h.store k' v' (by simpa [hk] using hv')
    · intro l hl
      obtain ⟨l₀, hl₀, rfl⟩ := Option.map_eq_some_iff.mp hl
      exact h.todo l₀ hl₀
    · intro l hl
      obtain ⟨l₀, hl₀, rfl⟩ := Option.map_eq_some_iff.mp hl
      exact h.rows l₀ hl₀
  | start =>
    simp only [KeyScan.step, Option.ite_none_right_eq_some, Option.some.injEq] at hstep
    obtain ⟨-, rfl⟩ := hstep
    refine ⟨h.store, ?_, ?_⟩
    · rintro l ⟨⟩ k hk
      cases hk
    · rintro l ⟨⟩ row hrow
      cases hrow
  | scan page last =>
    obtain ⟨l', hscan, rfl⟩ := update_eq_some.mp hstep
    obtain ⟨l, hl, hscan⟩ := Option.bind_eq_some_iff.mp hscan
    obtain ⟨⟨-, hpage, -⟩, rfl⟩ := scan_eq_some.mp hscan
    refine ⟨h.store, ?_, ?_⟩
    · rintro _ ⟨⟩ k hk
      rcases List.mem_append.mp hk with hk | hk
      · exact h.todo l hl k hk
      · obtain ⟨v, hv⟩ := Dict.has_iff.mp (hpage k hk)
        exact ⟨v, h.store k v hv⟩
    · rintro _ ⟨⟩
      exact h.rows l hl
  | read =>
    obtain ⟨l', hread, rfl⟩ := update_eq_some.mp hstep
    obtain ⟨l, hl, hread⟩ := Option.bind_eq_some_iff.mp hread
    obtain ⟨k, todo, htodo, rfl⟩ := read_eq_some hread
    refine ⟨h.store, ?_, ?_⟩
    · rintro _ ⟨⟩ k' hk'
      exact h.todo l hl k' (htodo ▸ List.mem_cons_of_mem k hk')
    · rintro _ ⟨⟩ row hrow
      rcases List.mem_append.mp hrow with hrow | hrow
      · exact h.rows l hl row hrow
      · rw [List.mem_singleton] at hrow
        subst hrow
        exact ⟨h.todo l hl k (htodo ▸ List.mem_cons_self), fun v hv => h.store k v hv⟩

end KeyScan
