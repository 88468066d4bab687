import RdpProxy.Lib.Words

/-!
# Programs that read bytes by their index

A program says which indices it uses. A subscript outside of the bytes raises, and a slice
is cut to them.
-/

open Words

namespace ByteIndex

variable {E α β : Type}

inductive Access where
  | subscript (i : Nat)
  | slice (start stop : Nat)
  deriving DecidableEq

def Access.Inside (b : Bytes) : Access → Prop
  | .subscript i => i < b.length
  | .slice start stop => start ≤ stop ∧ stop ≤ b.length

def Program (E α : Type) := Bytes → Except E α × List Access

namespace Program

protected def pure (a : α) : Program E α := fun _ => (.ok a, [])

protected def bind (p : Program E α) (f : α → Program E β) : Program E β := fun b =>
  match p b with
  | (.ok a, used) => ((f a b).1, used ++ (f a b).2)
  | (.error e, used) => (.error e, used)

instance : Monad (Program E) where
  pure := Program.pure
  bind := Program.bind

end Program

def raise (e : E) : Program E α := fun _ => (.error e, [])

/-- `b[i]`, with the `IndexError` of the program. -/
def subscript (indexError : E) (i : Nat) : Program E UInt8 := fun b =>
  (match b[i]? with
    | some x => .ok x
    | none => .error indexError, [.subscript i])

/-- `b[start:stop]` -/
def slice (start stop : Nat) : Program E Bytes := fun b => (.ok (window b start (stop - start)), [.slice start stop])

/-- `b[start:]` -/
def sliceFrom (start : Nat) : Program E Bytes := fun b => (.ok (b.drop start), [.slice start b.length])

/-- On these bytes the program returns `a`, and stays inside of them. -/
def Returns (p : Program E α) (b : Bytes) (a : α) : Prop := (p b).1 = .ok a ∧ ∀ x ∈ (p b).2, x.Inside b

variable {p : Program E α} {f : α → Program E β} {b : Bytes} {a : α} {c : β}

theorem Returns.pure (a : α) : Returns (pure a : Program E α) b a := ⟨rfl, fun _ hx => by cases hx⟩

theorem Returns.bind (hp : Returns p b a) (hf : Returns (f a) b c) : Returns (p >>= f) b c := by
  obtain ⟨hvalue, hinside⟩ := hp
  have hrun : (p >>= f) b = ((f a b).1, (p b).2 ++ (f a b).2) := by
    show Program.bind p f b = _
    unfold Program.bind
    rcases hpb : p b with ⟨r, used⟩
    rw [hpb] at hvalue
    cases hvalue
    rfl
  refine ⟨?_, ?_⟩
  · rw [hrun]
    exact hf.1
  · rw [hrun]
    intro x hx
    rcases List.mem_append.mp hx with hx | hx
    · exact hinside x hx
    · exact hf.2 x hx

theorem subscript_returns {e : E} {i : Nat} {x : UInt8} (h : b[i]? = some x) : Returns (subscript e i) b x := by
  unfold Returns subscript
  rw [h]
  refine ⟨rfl, fun y hy => ?_⟩
  rw [List.mem_singleton.mp hy]
  exact (List.getElem?_eq_some_iff.mp h).1

theorem slice_returns {start stop : Nat} (h : start ≤ stop ∧ stop ≤ b.length) :
    Returns (slice start stop : Program E Bytes) b (window b start (stop - start)) := by
  refine ⟨rfl, fun y hy => ?_⟩
  rw [List.mem_singleton.mp hy]
  exact h

theorem sliceFrom_returns {start : Nat} (h : start ≤ b.length) :
    Returns (sliceFrom start : Program E Bytes) b (b.drop start) := by
  refine ⟨rfl, fun y hy => ?_⟩
  rw [List.mem_singleton.mp hy]
  exact ⟨h, Nat.le_refl _⟩

end ByteIndex
