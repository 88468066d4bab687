import RdpProxy.Lib.Words

/-!
# Reading from a stream

A reader takes bytes off the front of a stream. It returns, raises, or waits for bytes that
do not come.
-/

open Words

namespace StreamReader

variable {E α β : Type}

/-- The bytes that are still to be read, and whether the peer has closed the stream behind them. -/
structure Stream where
  bytes : Bytes
  closed : Bool

/-- `IncompleteReadError`, or an exception of the reader's own. -/
inductive Failure (E : Type) where
  | incomplete
  | own (e : E)
  deriving DecidableEq

inductive Outcome (E α : Type) where
  | returned (a : α) (rest : Stream)
  | raised (e : Failure E) (rest : Stream)
  | waiting

/-- What is left of the stream. -/
def Outcome.rest : Outcome E α → Option Stream
  | .returned _ rest => some rest
  | .raised _ rest => some rest
  | .waiting => none

def Reader (E α : Type) := Stream → Outcome E α

namespace Reader

protected def pure (a : α) : Reader E α := fun s => .returned a s

protected def bind (p : Reader E α) (f : α → Reader E β) : Reader E β := fun s =>
  match p s with
  | .returned a rest => f a rest
  | .raised e rest => .raised e rest
  | .waiting => .waiting

instance : Monad (Reader E) where
  pure := Reader.pure
  bind := Reader.bind

end Reader

def raise (e : E) : Reader E α := fun s => .raised (.own e) s

def ofExcept : Except E α → Reader E α
  | .ok a => pure a
  | .error e => raise e

/-- `reader.readexactly(n)`. A stream that ends before loses its last bytes to the exception. -/
def readexactly (n : Nat) : Reader E Bytes := fun s =>
  if n ≤ s.bytes.length then .returned (s.bytes.take n) ⟨s.bytes.drop n, s.closed⟩
  else if s.closed then .raised .incomplete ⟨[], true⟩
  else .waiting

theorem bind_apply (p : Reader E α) (f : α → Reader E β) (s : Stream) : (p >>= f) s =
    match p s with
    | .returned a rest => f a rest
    | .raised e rest => .raised e rest
    | .waiting => .waiting := rfl

theorem bind_bind {γ : Type} (p : Reader E α) (f : α → Reader E β) (g : β → Reader E γ) :
    (p >>= f) >>= g = p >>= fun a => f a >>= g := by
  funext s
  simp only [bind_apply]
  rcases p s with ⟨a, rest⟩ | ⟨e, rest⟩ | _ <;> rfl

/-! ## Readers that take just what is theirs -/

/-- In front of any other bytes, the reader takes `xs` and returns `a`. -/
def Reads (p : Reader E α) (xs : Bytes) (a : α) : Prop :=
  ∀ tail closed, p ⟨xs ++ tail, closed⟩ = .returned a ⟨tail, closed⟩

variable {p : Reader E α} {f : α → Reader E β} {xs ys : Bytes} {a : α} {b : β}

theorem Reads.pure (a : α) : Reads (pure a : Reader E α) [] a := fun _ _ => rfl

theorem Reads.bind (hp : Reads p xs a) (hf : Reads (f a) ys b) : Reads (p >>= f) (xs ++ ys) b := by
  intro tail closed
  rw [bind_apply, List.append_assoc, hp]
  exact hf tail closed

theorem Reads.bind_pure (hp : Reads p xs a) (hf : Reads (f a) [] b) : Reads (p >>= f) xs b := by
  have h := hp.bind hf
  rw [List.append_nil] at h
  exact h

theorem readexactly_reads {n : Nat} (h : xs.length = n) : Reads (readexactly n : Reader E Bytes) xs xs := by
  intro tail closed
  unfold readexactly
  subst h
  simp

/-! ## What is left -/

/-- Whatever the reader does, what is left is the end of what there was. -/
def Advances (p : Reader E α) : Prop :=
  ∀ s rest, (p s).rest = some rest → rest.bytes <:+ s.bytes ∧ rest.closed = s.closed

theorem Advances.pure (a : α) : Advances (pure a : Reader E α) := by
  rintro s rest ⟨⟩
  exact ⟨List.suffix_refl _, rfl⟩

theorem Advances.raise (e : E) : Advances (raise e : Reader E α) := by
  rintro s rest ⟨⟩
  exact ⟨List.suffix_refl _, rfl⟩

theorem Advances.ofExcept (r : Except E α) : Advances (ofExcept r) := by
  rcases r with e | a
  · exact Advances.raise e
  · exact Advances.pure a

theorem Advances.bind (hp : Advances p) (hf : ∀ a, Advances (f a)) : Advances (p >>= f) := by
  intro s rest h
  rw [bind_apply] at h
  have hfirst := hp s
  rcases hs : p s with ⟨a, mid⟩ | ⟨e, mid⟩ | _
  · rw [hs] at h hfirst
    obtain ⟨hsuffix, hclosed⟩ := hf a mid rest h
    obtain ⟨hsuffix', hclosed'⟩ := hfirst mid rfl
    exact ⟨hsuffix.trans hsuffix', hclosed.trans hclosed'⟩
  · rw [hs] at h hfirst
    exact hfirst rest h
  · rw [hs] at h
    cases h

theorem readexactly_advances (n : Nat) : Advances (readexactly n : Reader E Bytes) := by
  intro s rest h
  unfold readexactly at h
  split_ifs at h with _ hclosed
  · cases h
    exact ⟨List.drop_suffix .., rfl⟩
  · cases h
    exact ⟨List.nil_suffix, hclosed.symm⟩
  · cases h

theorem readexactly_bind_rest {n : Nat} (hn : 0 < n) {f : Bytes → Reader E β} (hf : ∀ a, Advances (f a))
    {s rest : Stream} (h : ((readexactly n >>= f) s).rest = some rest) : rest = s ↔ s.bytes = [] := by
  constructor
  · intro hsame
    by_contra hne
    have hpos := List.length_pos_iff.mpr hne
    have hshort : rest.bytes.length < s.bytes.length := by
      rw [bind_apply] at h
      unfold readexactly at h
      split_ifs at h
      · have hdrop := (hf _ _ _ h).1.length_le
        simp only [List.length_drop] at hdrop
        omega
      · cases h
        exact hpos
      · cases h
    rw [hsame] at hshort
    omega
  · intro hnil
    obtain ⟨hsuffix, hclosed⟩ := (readexactly_advances (E := E) n).bind hf s rest h
    rw [hnil] at hsuffix
    rcases rest with ⟨bytes, closed⟩
    rcases s with ⟨bytes', closed'⟩
    simp only at hsuffix hclosed hnil
    rw [hclosed, hnil, List.suffix_nil.mp hsuffix]

/-! ## Raising -/

def Raises (p : Reader E α) (s : Stream) : Prop := ∃ e rest, p s = .raised e rest

variable {s : Stream}

theorem not_raises_pure (a : α) : ¬ Raises (pure a : Reader E α) s := by
  rintro ⟨e, rest, h⟩
  cases h

theorem raises_raise (e : E) : Raises (raise e : Reader E α) s := ⟨.own e, s, rfl⟩

theorem raises_raise_bind (e : E) (f : α → Reader E β) : Raises (raise e >>= f) s := ⟨.own e, s, rfl⟩

theorem raises_ofExcept {r : Except E α} : Raises (ofExcept r) s ↔ ∃ e, r = .error e := by
  rcases r with e | a
  · exact ⟨fun _ => ⟨e, rfl⟩, fun _ => raises_raise e⟩
  · refine ⟨fun h => absurd h (not_raises_pure a), ?_⟩
    rintro ⟨e, h⟩
    cases h

theorem raises_pure_bind (a : α) (f : α → Reader E β) : Raises ((pure a : Reader E α) >>= f) s ↔ Raises (f a) s :=
  Iff.rfl

theorem raises_readexactly_bind (n : Nat) (f : Bytes → Reader E β) : Raises (readexactly n >>= f) s ↔
    s.bytes.length < n ∧ s.closed = true ∨
      n ≤ s.bytes.length ∧ Raises (f (s.bytes.take n)) ⟨s.bytes.drop n, s.closed⟩ := by
  unfold Raises
  rw [bind_apply]
  unfold readexactly
  by_cases hn : n ≤ s.bytes.length
  · simp [hn, Nat.not_lt.mpr hn]
  · by_cases hclosed : s.closed = true
    · simp [hn, hclosed, Nat.lt_of_not_le hn]
    · simp [hn, hclosed]

/-! ## `try` -/

/-- What the reader raises becomes a value. -/
def attempt {F : Type} (p : Reader E α) : Reader F (Except (Failure E) α) := fun s =>
  match p s with
  | .returned a rest => .returned (.ok a) rest
  | .raised e rest => .returned (.error e) rest
  | .waiting => .waiting

end StreamReader
