import RdpProxy.Lib.Dict
import RdpProxy.Lib.UnitOfWork
import Mathlib.Data.List.Dedup

/-!
# Transactions on a table, under READ COMMITTED

A transaction keeps the rows that it has written locked until it ends. An UPDATE without a
WHERE goes through the rows that it sees when it begins, one after the other: it waits where
a row is locked, takes the version that it then finds, and passes over a row that is gone.
-/

open Steps UnitOfWork

namespace TableTxn

/-! ## Work -/

inductive Write (K V : Type) where
  | insert (k : K) (v : V)
  | update (k : K) (f : V → V)
  | delete (k : K)

inductive Work (K V A : Type) where
  /-- The session is closed. -/
  | reply (a : A)
  | select (next : (K → Option V) → Work K V A)
  | updateAll (f : V → V) (next : Work K V A)
  | write (w : Write K V) (next : Verdict → Work K V A)
  /-- A statement on another table, with whatever comes of it. -/
  | elsewhere (next : Verdict → Work K V A)
  | commit (next : Work K V A)
  | rollback (next : Work K V A)

inductive Session (K V A : Type) where
  | working (work : Work K V A)
  /-- An UPDATE of all rows with these still to come. -/
  | scanning (f : V → V) (todo : List K) (rest : Work K V A)

variable {ι K V A : Type}

structure Db (ι K V A : Type) where
  committed : Dict K V
  /-- The rows that are locked, who has locked them, and what they are to that transaction. -/
  pending : Dict K (ι × Option V)
  session : ι → Session K V A

inductive Act (ι A : Type) where
  | go (i : ι)
  /-- The statement on another table works, meets no row, or is refused. -/
  | elsewhere (i : ι) (v : Verdict)
  /-- The session is closed with an exception, and rolled back. -/
  | drop (i : ι) (a : A)

/-- The rows that a transaction has written, as it has left them. -/
abbrev Own (K V : Type) := K → Option (Option V)

def Own.clean : Own K V := fun _ => none

/-- The table to a transaction. -/
def Own.over (own : Own K V) (t : K → Option V) (k : K) : Option V := (own k).getD (t k)

variable [DecidableEq ι] [DecidableEq K]

namespace Db

def initial (t : Dict K V) (work : ι → Work K V A) : Db ι K V A := ⟨t, Dict.empty, fun i => .working (work i)⟩

def own (s : Db ι K V A) (i : ι) : Own K V := fun k => ((s.pending.get? k).filter fun p => p.1 = i).map Prod.snd

def visible (s : Db ι K V A) (i : ι) : K → Option V := (s.own i).over s.committed.get?

def visibleKeys (s : Db ι K V A) (i : ι) : List K :=
  (s.committed.keys ++ s.pending.keys).dedup.filter fun k => (s.visible i k).isSome

def lockedFor (s : Db ι K V A) (i : ι) (k : K) : Bool := (s.pending.get? k).any fun p => p.1 ≠ i

/-- The row may not stand beside one that another transaction has not ended with. -/
def unsettled (clash : V → V → Bool) (s : Db ι K V A) (i : ι) (v : V) : Bool :=
  s.pending.entries.any fun e =>
    e.2.1 ≠ i ∧ (e.2.2.any (clash v) ∨ (s.committed.get? e.1).any (clash v))

/-- The row may not stand beside one that the transaction sees. -/
def clashes (clash : V → V → Bool) (s : Db ι K V A) (i : ι) (k : K) (v : V) : Bool :=
  (s.visibleKeys i).any fun k' => k' ≠ k ∧ (s.visible i k').any (clash v)

/-- What is to be written to which row, none where the statement waits. -/
def attempt (clash : V → V → Bool) (s : Db ι K V A) (i : ι) : Write K V → Option (Except Verdict (Option V))
  | .insert k v =>
    if s.lockedFor i k ∨ s.unsettled clash i v then none
    else if (s.visible i k).isSome ∨ s.clashes clash i k v then some (.error .refused)
    else some (.ok (some v))
  | .update k f =>
    if s.lockedFor i k then none
    else
      match s.visible i k with
      | none => some (.error .missed)
      | some v =>
        if s.unsettled clash i (f v) then none
        else if s.clashes clash i k (f v) then some (.error .refused)
        else some (.ok (some (f v)))
  | .delete k =>
    if s.lockedFor i k then none
    else
      match s.visible i k with
      | none => some (.error .missed)
      | some _ => some (.ok none)

def setSession (s : Db ι K V A) (i : ι) (session : Session K V A) : Db ι K V A :=
  { s with session := Function.update s.session i session }

def put (s : Db ι K V A) (i : ι) (k : K) (o : Option V) : Db ι K V A := { s with pending := s.pending.set k (i, o) }

def release (s : Db ι K V A) (i : ι) : Db ι K V A := { s with pending := s.pending.filterKeys (s.lockedFor i) }

def publishEntry (i : ι) (d : Dict K V) (e : K × ι × Option V) : Dict K V :=
  if e.2.1 = i then
    match e.2.2 with
    | some v => d.set e.1 v
    | none => d.pop e.1
  else d

def publish (s : Db ι K V A) (i : ι) : Db ι K V A :=
  { s with committed := s.pending.entries.foldl (publishEntry i) s.committed }

end Db

def Write.key : Write K V → K
  | .insert k _ => k
  | .update k _ => k
  | .delete k => k

namespace Db

def step (clash : V → V → Bool) (s : Db ι K V A) : Act ι A → Option (Db ι K V A)
  | .go i =>
    match s.session i with
    | .working (.reply _) => none
    | .working (.select next) => some (s.setSession i (.working (next (s.visible i))))
    | .working (.updateAll f next) => some (s.setSession i (.scanning f (s.visibleKeys i) next))
    | .working (.write w next) =>
      match s.attempt clash i w with
      | none => none
      | some (.error v) => some (s.setSession i (.working (next v)))
      | some (.ok o) => some ((s.setSession i (.working (next .done))).put i w.key o)
    | .working (.elsewhere _) => none
    | .working (.commit next) => some (((s.publish i).release i).setSession i (.working next))
    | .working (.rollback next) => some ((s.release i).setSession i (.working next))
    | .scanning f (k :: todo) rest =>
      if s.lockedFor i k then none
      else
        match s.visible i k with
        | none => some (s.setSession i (.scanning f todo rest))
        | some v => some ((s.setSession i (.scanning f todo rest)).put i k (some (f v)))
    | .scanning _ [] rest => some (s.setSession i (.working rest))
  | .elsewhere i v =>
    match s.session i with
    | .working (.elsewhere next) => some (s.setSession i (.working (next v)))
    | _ => none
  | .drop i a =>
    match s.session i with
    | .working (.reply _) => none
    | _ => some ((s.release i).setSession i (.working (.reply a)))

/-! ## Who has written what -/

variable {s s' : Db ι K V A} {i j : ι} {k : K} {o : Option V} {clash : V → V → Bool}

@[simp] theorem setSession_own (s : Db ι K V A) (i j : ι) (session : Session K V A) :
    (s.setSession i session).own j = s.own j := rfl

omit [DecidableEq K] in
@[simp] theorem setSession_committed (s : Db ι K V A) (i : ι) (session : Session K V A) :
    (s.setSession i session).committed = s.committed := rfl

omit [DecidableEq K] in
theorem setSession_session (s : Db ι K V A) (i j : ι) (session : Session K V A) :
    (s.setSession i session).session j = if j = i then session else s.session j := by
  unfold setSession
  exact Function.update_apply ..

theorem own_put_self (s : Db ι K V A) (i : ι) (k : K) (o : Option V) :
    (s.put i k o).own i = Function.update (s.own i) k (some o) := by
  funext k'
  unfold own put
  rw [Dict.get?_set, Function.update_apply]
  split_ifs with hk
  · simp
  · rfl

theorem own_eq_none_of_free (h : s.lockedFor i k = false) (hj : j ≠ i) : s.own j k = none := by
  unfold lockedFor at h
  unfold own
  rcases hp : s.pending.get? k with _ | p
  · rfl
  · rw [hp] at h
    have howner : p.1 = i := by simpa using h
    simp [howner, hj.symm]

theorem own_put_of_ne (h : s.lockedFor i k = false) (hj : j ≠ i) : (s.put i k o).own j = s.own j := by
  funext k'
  by_cases hk : k' = k
  · rw [hk, own_eq_none_of_free h hj]
    unfold own put
    simp [hj.symm]
  · unfold own put
    rw [Dict.get?_set, if_neg hk]

theorem own_release_self (s : Db ι K V A) (i : ι) : (s.release i).own i = Own.clean := by
  funext k
  unfold own release lockedFor Own.clean
  rw [Dict.get?_filterKeys]
  rcases s.pending.get? k with _ | p
  · simp
  · by_cases hp : p.1 = i
    · simp [hp]
    · simp [hp]

theorem own_release_of_ne (s : Db ι K V A) (hj : j ≠ i) : (s.release i).own j = s.own j := by
  funext k
  unfold own release lockedFor
  rw [Dict.get?_filterKeys]
  rcases s.pending.get? k with _ | p
  · simp
  · by_cases hp : p.1 = i
    · simp [hp, hj.symm, Option.filter_some]
    · simp [hp]

theorem get?_publishEntry (i : ι) (d : Dict K V) (e : K × ι × Option V) (k : K) :
    (publishEntry i d e).get? k = if e.1 = k ∧ e.2.1 = i then e.2.2 else d.get? k := by
  obtain ⟨k', owner, o⟩ := e
  unfold publishEntry
  by_cases howner : owner = i
  · cases o <;> simp [howner, eq_comm]
  · simp [howner]

theorem get?_foldl_publish (i : ι) (l : List (K × ι × Option V)) (hl : (l.map Prod.fst).Nodup) (d : Dict K V) (k : K) :
    (l.foldl (publishEntry i) d).get? k =
      ((((l.find? fun e => e.1 = k).map Prod.snd).filter fun p => p.1 = i).map Prod.snd).getD (d.get? k) := by
  induction l generalizing d with
  | nil => rfl
  | cons e rest ih =>
    rw [List.map_cons, List.nodup_cons] at hl
    rw [List.foldl_cons, ih hl.2, get?_publishEntry]
    by_cases hk : e.1 = k
    · have hrest : rest.find? (fun e => e.1 = k) = none := by
        rw [List.find?_eq_none]
        intro x hx hxk
        have hmem : x.1 ∈ rest.map Prod.fst := List.mem_map_of_mem hx
        rw [of_decide_eq_true hxk, ← hk] at hmem
        exact hl.1 hmem
      by_cases hi : e.2.1 = i
      · simp [hrest, hk, hi, Option.filter_some]
      · simp [hrest, hk, hi, Option.filter_some]
    · simp [hk]

theorem get?_publish (s : Db ι K V A) (i : ι) : (s.publish i).committed.get? = s.visible i := by
  funext k
  exact get?_foldl_publish i s.pending.entries s.pending.nodup s.committed k

end Db

/-- What the statement may leave of its row. -/
def Write.Leaves : Write K V → Option V → Prop
  | .insert _ v, o => o = some v
  | .update _ f, o => ∃ v, o = some (f v)
  | .delete _, o => o = none

namespace Db

variable {s s' : Db ι K V A} {i j : ι} {k : K} {o : Option V} {clash : V → V → Bool}

theorem attempt_ok {w : Write K V} (h : s.attempt clash i w = some (.ok o)) :
    s.lockedFor i w.key = false ∧ w.Leaves o := by
  unfold attempt at h
  cases w with
  | insert k v =>
    simp only at h
    split_ifs at h with hwait hclash
    · cases h
    cases h
    exact ⟨eq_false_of_ne_true fun hlock => hwait (Or.inl hlock), rfl⟩
  | update k f =>
    simp only at h
    split_ifs at h with hlock
    split at h
    · cases h
    · rename_i v _
      split_ifs at h
      · cases h
      cases h
      exact ⟨eq_false_of_ne_true hlock, v, rfl⟩
  | delete k =>
    simp only at h
    split_ifs at h with hlock
    split at h
    · cases h
    · cases h
      exact ⟨eq_false_of_ne_true hlock, rfl⟩

theorem attempt_error {w : Write K V} {v : Verdict} (h : s.attempt clash i w = some (.error v)) : v ≠ .done := by
  unfold attempt at h
  rintro rfl
  cases w with
  | insert k v =>
    simp only at h
    split_ifs at h <;> cases h
  | update k f =>
    simp only at h
    split_ifs at h
    split at h
    · cases h
    · split_ifs at h <;> cases h
  | delete k =>
    simp only at h
    split_ifs at h
    split at h <;> cases h

end Db

/-! ## What a step does -/

inductive Db.Went (clash : V → V → Bool) (s : Db ι K V A) : Act ι A → Db ι K V A → Prop
  | select {i : ι} {next : (K → Option V) → Work K V A} (hw : s.session i = .working (.select next)) :
    Went clash s (.go i) (s.setSession i (.working (next (s.visible i))))
  | begins {i : ι} {f : V → V} {next : Work K V A} (hw : s.session i = .working (.updateAll f next)) :
    Went clash s (.go i) (s.setSession i (.scanning f (s.visibleKeys i) next))
  | fails {i : ι} {w : Write K V} {next : Verdict → Work K V A} {v : Verdict}
    (hw : s.session i = .working (.write w next)) (hv : s.attempt clash i w = some (.error v)) :
    Went clash s (.go i) (s.setSession i (.working (next v)))
  | writes {i : ι} {w : Write K V} {next : Verdict → Work K V A} {o : Option V}
    (hw : s.session i = .working (.write w next)) (ho : s.attempt clash i w = some (.ok o)) :
    Went clash s (.go i) ((s.put i w.key o).setSession i (.working (next .done)))
  | commits {i : ι} {next : Work K V A} (hw : s.session i = .working (.commit next)) :
    Went clash s (.go i) (((s.publish i).release i).setSession i (.working next))
  | rollsBack {i : ι} {next : Work K V A} (hw : s.session i = .working (.rollback next)) :
    Went clash s (.go i) ((s.release i).setSession i (.working next))
  | passes {i : ι} {f : V → V} {k : K} {todo : List K} {rest : Work K V A}
    (hw : s.session i = .scanning f (k :: todo) rest) (hgone : s.visible i k = none) :
    Went clash s (.go i) (s.setSession i (.scanning f todo rest))
  | visits {i : ι} {f : V → V} {k : K} {todo : List K} {rest : Work K V A} {v : V}
    (hw : s.session i = .scanning f (k :: todo) rest) (hfree : s.lockedFor i k = false) (hv : s.visible i k = some v) :
    Went clash s (.go i) ((s.put i k (some (f v))).setSession i (.scanning f todo rest))
  | ends {i : ι} {f : V → V} {rest : Work K V A} (hw : s.session i = .scanning f [] rest) :
    Went clash s (.go i) (s.setSession i (.working rest))
  | elsewhere {i : ι} {v : Verdict} {next : Verdict → Work K V A} (hw : s.session i = .working (.elsewhere next)) :
    Went clash s (.elsewhere i v) (s.setSession i (.working (next v)))
  | drops {i : ι} {a : A} : Went clash s (.drop i a) ((s.release i).setSession i (.working (.reply a)))

theorem Db.step_went {s s' : Db ι K V A} {a : Act ι A} {clash : V → V → Bool} (hs : s.step clash a = some s') :
    s.Went clash a s' := by
  unfold Db.step at hs
  cases a with
  | go i =>
    simp only at hs
    split at hs
    · cases hs
    · cases hs; exact .select ‹_›
    · cases hs; exact .begins ‹_›
    · rename_i hw
      split at hs
      · cases hs
      · cases hs; exact .fails hw ‹_›
      · cases hs; exact .writes hw ‹_›
    · cases hs
    · cases hs; exact .commits ‹_›
    · cases hs; exact .rollsBack ‹_›
    · rename_i hw
      split_ifs at hs with hlock
      split at hs
      · cases hs; exact .passes hw ‹_›
      · cases hs; exact .visits hw (eq_false_of_ne_true hlock) ‹_›
    · cases hs; exact .ends ‹_›
  | elsewhere i v =>
    simp only at hs
    split at hs <;> cases hs
    exact .elsewhere ‹_›
  | drop i a =>
    simp only at hs
    split at hs <;> cases hs
    exact .drops

/-! ## Outlines -/

/-- From what `A` says of its rows, the transaction goes on so that `J` holds at every COMMIT. -/
def Work.Outline (J : Own K V → Prop) : (Own K V → Prop) → Work K V A → Prop
  | _, .reply _ => True
  | A, .select next => ∀ view, (next view).Outline J A
  | A, .updateAll f next => (∀ own k v, A own → A (Function.update own k (some (some (f v))))) ∧ next.Outline J A
  | A, .write w next =>
    (∃ B, (∀ own o, A own → w.Leaves o → B (Function.update own w.key (some o))) ∧ (next .done).Outline J B) ∧
      ∀ v, v ≠ .done → (next v).Outline J A
  | A, .elsewhere next => ∀ v, (next v).Outline J A
  | A, .commit next => (∀ own, A own → J own) ∧ ∃ B, B Own.clean ∧ next.Outline J B
  | _, .rollback next => ∃ B, B Own.clean ∧ next.Outline J B

/-- A transaction where it stands, with the rows it has written. -/
def Session.Follows (J : Own K V → Prop) (own : Own K V) : Session K V A → Prop
  | .working work => ∃ A, A own ∧ work.Outline J A
  | .scanning f _ rest => ∃ A, A own ∧
      (∀ own k v, A own → A (Function.update own k (some (some (f v))))) ∧ rest.Outline J A

variable {J : Own K V → Prop} {s s' : Db ι K V A} {clash : V → V → Bool}

def InOutline (J : Own K V → Prop) (s : Db ι K V A) : Prop := ∀ i, (s.session i).Follows J (s.own i)

theorem inOutline_setSession {i : ι} {session : Session K V A} {t : Db ι K V A} (h : InOutline J s)
    (hothers : ∀ j ≠ i, t.own j = s.own j) (hsame : t.session = s.session) (hi : session.Follows J (t.own i)) :
    InOutline J (t.setSession i session) := by
  intro j
  rw [Db.setSession_session, Db.setSession_own]
  split_ifs with hj
  · rw [hj]
    exact hi
  · rw [hothers j hj, hsame]
    exact h j

theorem step_inOutline {a : Act ι A} (h : InOutline J s) (hs : s.step clash a = some s') : InOutline J s' := by
  cases Db.step_went hs with
  | @select i next hw =>
    have hi := h i
    rw [hw] at hi
    obtain ⟨A, hA, hnext⟩ := hi
    exact inOutline_setSession h (fun _ _ => rfl) rfl ⟨A, hA, hnext _⟩
  | @begins i f next hw =>
    have hi := h i
    rw [hw] at hi
    obtain ⟨A, hA, hkeep, hnext⟩ := hi
    exact inOutline_setSession h (fun _ _ => rfl) rfl ⟨A, hA, hkeep, hnext⟩
  | @fails i w next v hw hv =>
    have hi := h i
    rw [hw] at hi
    obtain ⟨A, hA, _, hnot⟩ := hi
    exact inOutline_setSession h (fun _ _ => rfl) rfl ⟨A, hA, hnot v (Db.attempt_error hv)⟩
  | @writes i w next o hw ho =>
    have hi := h i
    rw [hw] at hi
    obtain ⟨A, hA, ⟨B, hB, hdone⟩, _⟩ := hi
    obtain ⟨hfree, hleaves⟩ := Db.attempt_ok ho
    refine inOutline_setSession h (fun j hj => Db.own_put_of_ne hfree hj) rfl ⟨B, ?_, hdone⟩
    rw [Db.own_put_self]
    exact hB _ o hA hleaves
  | @commits i next hw =>
    have hi := h i
    rw [hw] at hi
    obtain ⟨A, hA, hJ, B, hB, hnext⟩ := hi
    refine inOutline_setSession h (fun j hj => Db.own_release_of_ne s hj) rfl ⟨B, ?_, hnext⟩
    rw [Db.own_release_self]
    exact hB
  | @rollsBack i next hw =>
    have hi := h i
    rw [hw] at hi
    obtain ⟨A, hA, B, hB, hnext⟩ := hi
    refine inOutline_setSession h (fun j hj => Db.own_release_of_ne s hj) rfl ⟨B, ?_, hnext⟩
    rw [Db.own_release_self]
    exact hB
  | @passes i f k todo rest hw hgone =>
    have hi := h i
    rw [hw] at hi
    exact inOutline_setSession h (fun _ _ => rfl) rfl hi
  | @visits i f k todo rest v hw hfree hv =>
    have hi := h i
    rw [hw] at hi
    obtain ⟨A, hA, hkeep, hrest⟩ := hi
    refine inOutline_setSession h (fun j hj => Db.own_put_of_ne hfree hj) rfl ⟨A, ?_, hkeep, hrest⟩
    rw [Db.own_put_self]
    exact hkeep _ k v hA
  | @ends i f rest hw =>
    have hi := h i
    rw [hw] at hi
    obtain ⟨A, hA, _, hrest⟩ := hi
    exact inOutline_setSession h (fun _ _ => rfl) rfl ⟨A, hA, hrest⟩
  | @elsewhere i v next hw =>
    have hi := h i
    rw [hw] at hi
    obtain ⟨A, hA, hnext⟩ := hi
    exact inOutline_setSession h (fun _ _ => rfl) rfl ⟨A, hA, hnext v⟩
  | @drops i a =>
    exact inOutline_setSession h (fun j hj => Db.own_release_of_ne s hj) rfl ⟨fun _ => True, trivial, trivial⟩

/-! ## What a COMMIT does to the table -/

/-- `G` holds of the table and of the rows of the transaction at its COMMIT. -/
def AtCommit (G : (K → Option V) → Own K V → Prop) (s : Db ι K V A) : Act ι A → Prop
  | .go i =>
    match s.session i with
    | .working (.commit _) => G s.committed.get? (s.own i)
    | _ => True
  | _ => True

theorem step_committed {P : (K → Option V) → Prop} {G : (K → Option V) → Own K V → Prop} {a : Act ι A}
    (hpub : ∀ t own, P t → J own → (P (own.over t) ↔ G t own)) (h : InOutline J s) (hp : P s.committed.get?)
    (hs : s.step clash a = some s') : P s'.committed.get? ↔ AtCommit G s a := by
  unfold AtCommit
  cases Db.step_went hs with
  | @commits i next hw =>
    have hi := h i
    simp only
    rw [hw] at hi ⊢
    obtain ⟨A, hA, hJ, _⟩ := hi
    have hget := Db.get?_publish s i
    simp only [Db.setSession_committed, Db.release, hget]
    exact hpub _ _ hp (hJ _ hA)
  | select hw | begins hw | fails hw _ | writes hw _ | rollsBack hw | passes hw _ | visits hw _ _ | ends hw =>
    simp only
    rw [hw]
    exact iff_of_true hp trivial
  | elsewhere hw => exact iff_of_true hp trivial
  | drops => exact iff_of_true hp trivial

end TableTxn
