import Mathlib.Data.Finset.Basic
import RdpProxy.Lib.Steps

/-!
# Deleting what an iteration returns, while others write

An iteration returns keys page by page. A key that is there from its begin to its end is on some page. Every key of a
page is deleted before the next page is asked for.
-/

open Steps

namespace Sweep

variable {K : Type} [DecidableEq K]

structure State (K : Type) where
  keys : Finset K
  /-- The patterns to come. The iteration is for the first of them. -/
  todo : List (K → Bool)
  /-- The keys that have been there since the iteration began, and that it has not returned. -/
  due : Finset K
  page : List K
  ended : Bool
  deleted : Nat

inductive Act (K : Type) where
  /-- Others write a key, or delete it, or it expires. -/
  | set (k : K)
  | drop (k : K)
  | scan (page : List K) (last : Bool)
  | delete
  | next

/-- The keys that match the pattern in front. -/
def matching (keys : Finset K) : List (K → Bool) → Finset K
  | [] => ∅
  | p :: _ => keys.filter fun k => p k

def start (patterns : List (K → Bool)) (keys : Finset K) : State K :=
  ⟨keys, patterns, matching keys patterns, [], false, 0⟩

def step (s : State K) : Act K → Option (State K)
  | .set k => some { s with keys := insert k s.keys }
  | .drop k => some { s with keys := s.keys.erase k, due := s.due.erase k }
  | .scan page last =>
    match s.todo with
    | [] => none
    | p :: _ =>
      if s.page = [] ∧ s.ended = false ∧ (∀ k ∈ page, k ∈ s.keys ∧ p k = true) ∧ (last = true → s.due ⊆ page.toFinset) then
        some { s with page := page, due := s.due \ page.toFinset, ended := last }
      else none
  | .delete =>
    match s.page with
    | [] => none
    | k :: page => some { s with keys := s.keys.erase k, due := s.due.erase k, page := page, deleted := s.deleted + 1 }
  | .next =>
    match s.todo with
    | [] => none
    | _ :: todo =>
      if s.page = [] ∧ s.ended = true then some { s with todo := todo, due := matching s.keys todo, ended := false }
      else none

variable {patterns : List (K → Bool)} {keys : Finset K} {s s' : State K} {a : Act K} {as : List (Act K)} {k : K}

/-- A step, with what it takes. -/
inductive Moves (s : State K) : Act K → State K → Prop where
  | set (k : K) : Moves s (.set k) { s with keys := insert k s.keys }
  | drop (k : K) : Moves s (.drop k) { s with keys := s.keys.erase k, due := s.due.erase k }
  | scan (page : List K) (last : Bool) {p : K → Bool} {todo : List (K → Bool)} (htodo : s.todo = p :: todo)
      (hpage : s.page = []) (hended : s.ended = false) (hkeys : ∀ k ∈ page, k ∈ s.keys ∧ p k = true)
      (hlast : last = true → s.due ⊆ page.toFinset) :
      Moves s (.scan page last) { s with page := page, due := s.due \ page.toFinset, ended := last }
  | delete {k : K} {page : List K} (hpage : s.page = k :: page) : Moves s .delete
      { s with keys := s.keys.erase k, due := s.due.erase k, page := page, deleted := s.deleted + 1 }
  | next {p : K → Bool} {todo : List (K → Bool)} (htodo : s.todo = p :: todo) (hpage : s.page = [])
      (hended : s.ended = true) : Moves s .next { s with todo := todo, due := matching s.keys todo, ended := false }

theorem moves_of_step (h : step s a = some s') : Moves s a s' := by
  cases a with
  | set k =>
    cases h
    exact .set k
  | drop k =>
    cases h
    exact .drop k
  | scan page last =>
    cases htodo : s.todo with
    | nil => simp [step, htodo] at h
    | cons p todo =>
      simp only [step, htodo, Option.ite_none_right_eq_some, Option.some.injEq] at h
      obtain ⟨⟨hpage, hended, hkeys, hlast⟩, rfl⟩ := h
      rw [← htodo]
      exact .scan page last htodo hpage hended hkeys hlast
  | delete =>
    cases hpage : s.page with
    | nil => simp [step, hpage] at h
    | cons k page =>
      simp only [step, hpage, Option.some.injEq] at h
      rw [← h]
      exact .delete hpage
  | next =>
    cases htodo : s.todo with
    | nil => simp [step, htodo] at h
    | cons p todo =>
      simp only [step, htodo, Option.ite_none_right_eq_some, Option.some.injEq] at h
      obtain ⟨⟨hpage, hended⟩, rfl⟩ := h
      exact .next htodo hpage hended

/-! ## The keys that no pattern matches -/

/-- Whether the key is there, after what others have done to it. -/
def after (k : K) (there : Bool) : Act K → Bool
  | .set k' => k' = k || there
  | .drop k' => k' ≠ k && there
  | _ => there

def replay (k : K) (as : List (Act K)) (there : Bool) : Bool := as.foldl (after k) there

/-- The patterns match every key of a page. -/
structure PageMatches (patterns : List (K → Bool)) (s : State K) : Prop where
  todo : ∀ p ∈ s.todo, p ∈ patterns
  page : ∀ k ∈ s.page, ∃ p ∈ patterns, p k = true

theorem pageMatches_step (hs : PageMatches patterns s) (h : step s a = some s') : PageMatches patterns s' := by
  cases moves_of_step h with
  | set k => exact ⟨hs.todo, hs.page⟩
  | drop k => exact ⟨hs.todo, hs.page⟩
  | scan page last htodo _ _ hkeys _ =>
    exact ⟨hs.todo, fun k hk => ⟨_, hs.todo _ (by simp [htodo]), (hkeys k hk).2⟩⟩
  | delete hpage => exact ⟨hs.todo, fun k hk => hs.page k (by simp [hpage, hk])⟩
  | next htodo _ _ => exact ⟨fun q hq => hs.todo q (by simp [htodo, hq]), hs.page⟩

theorem keys_step (hs : PageMatches patterns s) (h : step s a = some s') (hk : ∀ p ∈ patterns, p k = false) :
    decide (k ∈ s'.keys) = after k (decide (k ∈ s.keys)) a := by
  cases moves_of_step h with
  | set k' => simp [after, eq_comm]
  | drop k' => simp [after, eq_comm]
  | scan page last htodo _ _ hkeys _ => rfl
  | next htodo _ _ => rfl
  | delete hpage =>
    rename_i k' page
    obtain ⟨p, hp, hmatch⟩ := hs.page k' (by simp [hpage])
    have hne : k ≠ k' := by
      rintro rfl
      rw [hk p hp] at hmatch
      cases hmatch
    simp [after, hne]

theorem run_unmatched (hs : PageMatches patterns s) (hrun : run step s as = some s') (hk : ∀ p ∈ patterns, p k = false) :
    decide (k ∈ s'.keys) = replay k as (decide (k ∈ s.keys)) := by
  induction as generalizing s with
  | nil =>
    cases hrun
    rfl
  | cons a as ih =>
    obtain ⟨s₁, h₁, hrest⟩ := run_cons_eq_some.mp hrun
    rw [ih (pageMatches_step hs h₁) hrest, keys_step hs h₁ hk]
    rfl

/-! ## The keys that are swept -/

/-- If the key is there, its turn is still to come: in this iteration, or in a later one. -/
structure Due (k : K) (s : State K) : Prop where
  turn : k ∈ s.keys → (∃ p ∈ s.todo.tail, p k = true) ∨
    (∃ p, s.todo.head? = some p ∧ p k = true) ∧ (k ∈ s.due ∨ k ∈ s.page)
  ended : s.ended = true → s.due = ∅

omit [DecidableEq K] in
theorem due_matching {todo : List (K → Bool)} (hmem : k ∈ keys) (hk : ∃ p ∈ todo, p k = true) {page : List K} :
    (∃ p ∈ todo.tail, p k = true) ∨ (∃ p, todo.head? = some p ∧ p k = true) ∧ (k ∈ matching keys todo ∨ k ∈ page) := by
  cases todo with
  | nil => simp at hk
  | cons p todo =>
    cases hp : p k with
    | true => exact Or.inr ⟨⟨p, rfl, hp⟩, Or.inl (by simp [matching, hmem, hp])⟩
    | false => exact Or.inl (by simpa [hp] using hk)

theorem due_step (hs : Due k s) (h : step s a = some s') (ha : a ≠ .set k) : Due k s' := by
  cases moves_of_step h with
  | set k' =>
    refine ⟨fun hk => hs.turn ?_, hs.ended⟩
    rcases Finset.mem_insert.mp hk with rfl | hk
    · exact absurd rfl ha
    · exact hk
  | drop k' =>
    refine ⟨fun hk => ?_, fun hended => by simp [hs.ended hended]⟩
    obtain ⟨hne, hk⟩ := Finset.mem_erase.mp hk
    exact (hs.turn hk).imp_right fun hturn => hturn.imp_right fun hplace => hplace.imp_left fun hdue => by simp [hne, hdue]
  | scan page last htodo hpage hended hkeys hlast =>
    constructor
    · intro hk
      refine (hs.turn hk).imp_right fun hturn => hturn.imp_right fun hplace => ?_
      rw [hpage] at hplace
      have hdue : k ∈ s.due := by simpa using hplace
      by_cases hin : k ∈ page
      · exact Or.inr hin
      · exact Or.inl (by simp [hdue, hin])
    · intro hend
      exact Finset.sdiff_eq_empty_iff_subset.mpr (hlast hend)
  | delete hpage =>
    refine ⟨fun hk => ?_, fun hended => by simp [hs.ended hended]⟩
    obtain ⟨hne, hk⟩ := Finset.mem_erase.mp hk
    refine (hs.turn hk).imp_right fun hturn => hturn.imp_right fun hplace => ?_
    rw [hpage] at hplace
    simpa [hne] using hplace
  | next htodo hpage hended =>
    refine ⟨fun hk => ?_, fun hend => by cases hend⟩
    have hlate : ∃ p ∈ s.todo.tail, p k = true := by
      refine (hs.turn hk).resolve_right ?_
      rintro ⟨_, hplace⟩
      simp [hpage, hs.ended hended] at hplace
    rw [htodo, List.tail_cons] at hlate
    exact due_matching hk hlate

omit [DecidableEq K] in
theorem due_start (patterns : List (K → Bool)) (keys : Finset K) (hk : ∃ p ∈ patterns, p k = true) :
    Due k (start patterns keys) := ⟨fun hmem => due_matching hmem hk, fun hend => by cases hend⟩

theorem run_due (hs : Due k s) (hrun : run step s as = some s') (has : Act.set k ∉ as) : Due k s' := by
  induction as generalizing s with
  | nil =>
    cases hrun
    exact hs
  | cons a as ih =>
    obtain ⟨s₁, h₁, hrest⟩ := run_cons_eq_some.mp hrun
    obtain ⟨ha, has⟩ := not_or.mp (mt List.mem_cons.mpr has)
    exact ih (due_step hs h₁ (Ne.symm ha)) hrest has

/-- What matches is gone after the last pattern unless others have written it meanwhile, and nothing else is ever touched. -/
theorem swept (hrun : run step (start patterns keys) as = some s) (k : K) :
    ((∃ p ∈ patterns, p k = true) → s.todo = [] → Act.set k ∉ as → k ∉ s.keys) ∧
    ((∀ p ∈ patterns, p k = false) → decide (k ∈ s.keys) = replay k as (decide (k ∈ keys))) := by
  constructor
  · intro hk hdone has hmem
    have hturn := (run_due (due_start patterns keys hk) hrun has).turn hmem
    simp [hdone] at hturn
  · exact run_unmatched ⟨fun _ hp => hp, by simp [start]⟩ hrun

end Sweep
