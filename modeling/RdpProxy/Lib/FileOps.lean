import Mathlib.Logic.Function.Basic
import RdpProxy.Lib.Words

/-!
# Files written by a sequence of operations

A sequence may stop after any number of its operations, which is what an exception or a crash leaves.
-/

open Words

namespace FileOps

abbrev Files (N : Type) := N → Option Bytes

inductive FileOp (N : Type) where
  /-- `open(name, "wb")` -/
  | create (name : N)
  | write (name : N) (data : Bytes)

variable {N : Type} [DecidableEq N] {files : Files N} {ops before after : List (FileOp N)} {name : N}

def FileOp.target : FileOp N → N
  | .create name => name
  | .write name _ => name

def FileOp.apply (files : Files N) : FileOp N → Files N
  | .create name => Function.update files name (some [])
  | .write name data => Function.update files name (some ((files name).getD [] ++ data))

/-- The files where a sequence stops after `n` operations. -/
def stopped (files : Files N) (ops : List (FileOp N)) (n : Nat) : Files N := (ops.take n).foldl FileOp.apply files

theorem apply_frame {op : FileOp N} (h : op.target ≠ name) : op.apply files name = files name := by
  rcases op with other | ⟨other, data⟩
  · exact Function.update_of_ne (Ne.symm h) _ _
  · exact Function.update_of_ne (Ne.symm h) _ _

theorem foldl_frame (h : ∀ op ∈ ops, op.target ≠ name) : ops.foldl FileOp.apply files name = files name := by
  induction ops generalizing files with
  | nil => rfl
  | cons op rest ih =>
    rw [List.foldl_cons, ih fun other hother => h other (List.mem_cons_of_mem _ hother)]
    exact apply_frame (h op (by simp))

theorem stopped_frame (h : ∀ op ∈ ops, op.target ≠ name) (n : Nat) : stopped files ops n name = files name :=
  foldl_frame fun op hop => h op (List.mem_of_mem_take hop)

theorem stopped_append (n : Nat) :
    stopped files (before ++ after) n = stopped (stopped files before n) after (n - before.length) := by
  unfold stopped
  rw [List.take_append, List.foldl_append]

end FileOps
