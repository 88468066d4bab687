import Mathlib.Tactic.Common

/-!
# Lists that are pushed and trimmed

`LPUSH`, `LTRIM 0 last` and `LRANGE 0 last`. Where several clients push and trim, a list is longer than its cap between
the commands of each.
-/

namespace CappedList

variable {α : Type}

def lpush (x : α) (l : List α) : List α := x :: l

def ltrim (last : Nat) (l : List α) : List α := l.take (last + 1)

def lrange (last : Nat) (l : List α) : List α := l.take (last + 1)

/-- The list is, up to its cap, what has been pushed, the newest in front, and `spare` of it may be beyond the cap. -/
structure Holds (last spare : Nat) (pushed l : List α) : Prop where
  front : l.take (last + 1) = pushed.take (last + 1)
  length : l.length ≤ last + 1 + spare

variable {last spare k : Nat} {pushed l : List α}

theorem holds_nil (last : Nat) : Holds last 0 [] ([] : List α) := ⟨rfl, by simp⟩

theorem Holds.lpush (h : Holds last spare pushed l) (x : α) : Holds last (spare + 1) (x :: pushed) (lpush x l) where
  front := by
    have hfront := congrArg (List.take last) h.front
    simp only [List.take_take, Nat.min_eq_left (Nat.le_succ last)] at hfront
    simp only [CappedList.lpush, List.take_succ_cons, hfront]
  length := by
    have hlength := h.length
    simp only [CappedList.lpush, List.length_cons]
    omega

theorem Holds.ltrim (h : Holds last spare pushed l) (rest : Nat) : Holds last rest pushed (ltrim last l) where
  front := by simp only [CappedList.ltrim, List.take_take, Nat.min_self, h.front]
  length := by
    simp only [CappedList.ltrim, List.length_take]
    omega

theorem Holds.lrange (h : Holds last spare pushed l) (hk : k ≤ last) : lrange k l = pushed.take (k + 1) := by
  have hfront := congrArg (List.take (k + 1)) h.front
  have hmin : min (k + 1) (last + 1) = k + 1 := by omega
  simpa only [CappedList.lrange, List.take_take, hmin] using hfront

end CappedList
