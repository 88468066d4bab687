import RdpProxy.Lib.StreamReader

/-!
# Reads with a deadline

A reader as the list of its `readexactly` calls, so that it can be stopped between two of them.
-/

open Words

namespace StreamReader

variable {E α β : Type}

inductive Script (E α : Type) where
  | pure (a : α)
  | raise (e : E)
  | read (n : Nat) (next : Bytes → Script E α)

/-- `TimeoutError` where the deadline comes first. -/
inductive Ending (E α : Type) where
  | returned (a : α)
  | raised (e : Failure E)
  | timedOut

def Ending.isReturned : Ending E α → Bool
  | .returned _ => true
  | _ => false

namespace Script

protected def bind : Script E α → (α → Script E β) → Script E β
  | .pure a, f => f a
  | .raise e, _ => .raise e
  | .read n next, f => .read n fun b => (next b).bind f

instance : Monad (Script E) where
  pure := Script.pure
  bind := Script.bind

/-- The script with all the time in the world. -/
def reader : Script E α → Reader E α
  | .pure a => Pure.pure a
  | .raise e => StreamReader.raise e
  | .read n next => readexactly n >>= fun b => (next b).reader

/-- How `wait_for` of the script ends, where `s` has arrived by its deadline, and how many bytes have been
taken. A read that waits leaves the bytes that it has seen. -/
def waitFor : Script E α → Stream → Ending E α × Nat
  | .pure a, _ => (.returned a, 0)
  | .raise e, _ => (.raised (.own e), 0)
  | .read n next, s =>
    if n ≤ s.bytes.length then
      let (ending, taken) := (next (s.bytes.take n)).waitFor ⟨s.bytes.drop n, s.closed⟩
      (ending, n + taken)
    else if s.closed then (.raised .incomplete, s.bytes.length)
    else (.timedOut, 0)

/-! ## The same reads -/

theorem reader_bind (p : Script E α) (f : α → Script E β) : (p >>= f).reader = p.reader >>= fun a => (f a).reader := by
  induction p with
  | pure a => rfl
  | raise e => rfl
  | read n next ih =>
    have hstep : (Script.read n next >>= f).reader = readexactly n >>= fun b => (next b >>= f).reader := rfl
    rw [hstep, reader, bind_bind]
    simp only [ih]

theorem reader_apply (p : Script E α) (s : Stream) : p.reader s =
    match p.waitFor s with
    | (.returned a, n) => .returned a ⟨s.bytes.drop n, s.closed⟩
    | (.raised e, n) => .raised e ⟨s.bytes.drop n, s.closed⟩
    | (.timedOut, _) => .waiting := by
  induction p generalizing s with
  | pure a => rfl
  | raise e => rfl
  | read n next ih =>
    rw [reader, bind_apply, waitFor]
    unfold readexactly
    split_ifs with hn hclosed
    · dsimp only
      rw [ih]
      rcases (next (s.bytes.take n)).waitFor ⟨s.bytes.drop n, s.closed⟩ with ⟨_ | _ | _, taken⟩ <;>
        simp [List.drop_drop]
    · simp [hclosed]
    · rfl

theorem waitFor_read {n : Nat} {next : Bytes → Script E α} {s : Stream} (h : n ≤ s.bytes.length) :
    (Script.read n next).waitFor s =
      (((next (s.bytes.take n)).waitFor ⟨s.bytes.drop n, s.closed⟩).1,
        n + ((next (s.bytes.take n)).waitFor ⟨s.bytes.drop n, s.closed⟩).2) := by
  rw [waitFor, if_pos h]

theorem waitFor_starved {n : Nat} {next : Bytes → Script E α} {s : Stream} (h : s.bytes.length < n) :
    ((Script.read n next).waitFor s).1.isReturned = false ∧
      ((Script.read n next).waitFor s).2 = if s.closed then s.bytes.length else 0 := by
  rw [waitFor, if_neg (by omega)]
  split_ifs
  · exact ⟨rfl, rfl⟩
  · exact ⟨rfl, rfl⟩

theorem waitFor_le (p : Script E α) (s : Stream) : (p.waitFor s).2 ≤ s.bytes.length := by
  induction p generalizing s with
  | pure a => exact Nat.zero_le _
  | raise e => exact Nat.zero_le _
  | read n next ih =>
    rw [waitFor]
    split_ifs with hn
    · have hrest := ih (s.bytes.take n) ⟨s.bytes.drop n, s.closed⟩
      simp only [List.length_drop] at hrest
      dsimp only
      omega
    · exact Nat.le_refl _
    · exact Nat.zero_le _

end Script

end StreamReader
