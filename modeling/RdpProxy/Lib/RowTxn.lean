import RdpProxy.Lib.Steps

/-!
# Transactions on one row, under READ COMMITTED

A statement is an UPDATE with its WHERE, and a transaction goes on by the row count that
it answers. A row that a transaction has updated is locked until that transaction ends.
An UPDATE waits for the lock only where the committed row matches it, and then looks at
the row again.
-/

open Steps

namespace RowTxn

variable {R ι : Type}

/-! ## Transactions -/

inductive Txn (R : Type) where
  | done
  | exec (update : R → Option R) (next : Bool → Txn R)

/-- The row after the whole transaction, with nobody else at work. -/
def Txn.apply : Txn R → R → R
  | .done, r => r
  | .exec update next, r =>
    match update r with
    | some r' => (next true).apply r'
    | none => (next false).apply r

inductive Status (R : Type) where
  | running (rest : Txn R)
  | committed
  | aborted

structure Row (ι R : Type) where
  committed : R
  /-- Who holds the lock, and the row as its transaction has left it. -/
  lock : Option (ι × R)
  status : ι → Status R

inductive Act (ι : Type) where
  | exec (i : ι)
  | commit (i : ι)
  | abort (i : ι)

def Row.initial (r : R) (txns : ι → Txn R) : Row ι R := ⟨r, none, fun i => .running (txns i)⟩

section

variable [DecidableEq ι]

def Row.setStatus (s : Row ι R) (i : ι) (status : Status R) : Row ι R :=
  { s with status := Function.update s.status i status }

/-- The row that `i` has locked, as `i` has left it. -/
def Row.pending (s : Row ι R) (i : ι) : Option R :=
  match s.lock with
  | some (j, r) => if j = i then some r else none
  | none => none

def Row.step (s : Row ι R) : Act ι → Option (Row ι R)
  | .exec i =>
    match s.status i with
    | .running (.exec update next) =>
      match update ((s.pending i).getD s.committed) with
      | none => some (s.setStatus i (.running (next false)))
      | some r =>
        if s.lock = none ∨ s.pending i ≠ none then
          some { s.setStatus i (.running (next true)) with lock := some (i, r) }
        else none
    | _ => none
  | .commit i =>
    match s.status i with
    | .running .done =>
      match s.pending i with
      | some r => some { s.setStatus i .committed with committed := r, lock := none }
      | none => some (s.setStatus i .committed)
    | _ => none
  | .abort i =>
    match s.status i with
    | .running _ => some { s.setStatus i .aborted with lock := if s.pending i = none then s.lock else none }
    | _ => none

end

/-! ## Statements that stay without a match -/

/-- Every UPDATE of the transaction leads from a row to a later one. -/
def Txn.Leads (rel : R → R → Prop) : Txn R → Prop
  | .done => True
  | .exec update next => (∀ r r', update r = some r' → rel r r') ∧ ∀ b, (next b).Leads rel

/-- A statement that matched no row, seen from a row on which `P` holds, matches no later row. -/
def Txn.Stays (rel : R → R → Prop) : (R → Prop) → Txn R → Prop
  | _, .done => True
  | P, .exec update next =>
    (∀ r r', P r → update r = none → rel r r' → P r' ∧ update r' = none) ∧
      (next false).Stays rel fun r => P r ∧ update r = none

structure Order (rel : R → R → Prop) : Prop where
  refl : ∀ r, rel r r
  trans : ∀ r r' r'', rel r r' → rel r' r'' → rel r r''

/-! ## One transaction after another -/

/-- A transaction that has run up to `rest` and holds no lock will do to the row what the
whole of it does, now and at any later row. -/
structure Waiting (rel : R → R → Prop) (whole rest : Txn R) (r : R) : Prop where
  leads : rest.Leads rel
  stays : ∃ P : R → Prop, rest.Stays rel P ∧ ∀ r', rel r r' → P r'
  same : ∀ r', rel r r' → whole.apply r' = rest.apply r'

/-- What holds of a transaction, which has left the row as `held` where it has the lock. -/
def Known (rel : R → R → Prop) (whole : Txn R) (committed : R) (held : Option R) : Status R → Prop
  | .running rest =>
    match held with
    | some p => rest.Leads rel ∧ rel committed p ∧ whole.apply committed = rest.apply p
    | none => Waiting rel whole rest committed
  | _ => held = none

section

variable {rel : R → R → Prop} {whole rest : Txn R} {r r' : R}

theorem Waiting.later (hrel : Order rel) (h : Waiting rel whole rest r) (hl : rel r r') :
    Waiting rel whole rest r' := by
  obtain ⟨P, hstays, hP⟩ := h.stays
  refine ⟨h.leads, ⟨P, hstays, ?_⟩, ?_⟩
  · intro r'' hr
    exact hP r'' (hrel.trans _ _ _ hl hr)
  · intro r'' hr
    exact h.same r'' (hrel.trans _ _ _ hl hr)

theorem Waiting.unmatched {update : R → Option R} {next : Bool → Txn R}
    (h : Waiting rel whole (.exec update next) r) (hu : update r = none) (hrel : Order rel) :
    Waiting rel whole (next false) r := by
  obtain ⟨P, ⟨hmiss, hnext⟩, hP⟩ := h.stays
  have hlater : ∀ r', rel r r' → P r' ∧ update r' = none := fun r' hr =>
    hmiss r r' (hP r (hrel.refl r)) hu hr
  refine ⟨h.leads.2 false, ⟨_, hnext, hlater⟩, ?_⟩
  intro r' hr
  rw [h.same r' hr, Txn.apply, (hlater r' hr).2]

theorem Waiting.matched {update : R → Option R} {next : Bool → Txn R}
    (h : Waiting rel whole (.exec update next) r) (hu : update r = some r') (hrel : Order rel) :
    (next true).Leads rel ∧ rel r r' ∧ whole.apply r = (next true).apply r' := by
  refine ⟨h.leads.2 true, h.leads.1 r r' hu, ?_⟩
  rw [h.same r (hrel.refl r), Txn.apply, hu]

theorem waiting_start (hl : whole.Leads rel) (hs : whole.Stays rel fun _ => True) : Waiting rel whole whole r :=
  ⟨hl, ⟨_, hs, fun _ _ => trivial⟩, fun _ _ => rfl⟩

end

/-- Whoever has the lock knows what the row will be, and everyone else what it would do to it. -/
def Serial [DecidableEq ι] (rel : R → R → Prop) (txns : ι → Txn R) (s : Row ι R) : Prop :=
  ∀ i, Known rel (txns i) s.committed (s.pending i) (s.status i)

section

variable [DecidableEq ι] {rel : R → R → Prop} {txns : ι → Txn R} {s s' : Row ι R}

theorem pending_locked (s : Row ι R) (i j : ι) (r : R) :
    Row.pending { s with lock := some (i, r) } j = if i = j then some r else none := rfl

theorem pending_of_ne {i j : ι} {p : R} (h : s.pending i = some p) (hj : j ≠ i) : s.pending j = none := by
  unfold Row.pending at h ⊢
  split at h
  · split_ifs at h with hi
    rw [hi]
    simp [hj.symm]
  · cases h

theorem pending_of_unlocked {i : ι} (h : s.lock = none) : s.pending i = none := by
  rw [Row.pending, h]

/-- What a step does: to its own transaction, to the lock and to the committed row. -/
inductive Effect (s s' : Row ι R) : Act ι → Prop where
  | miss (i : ι) (update : R → Option R) (next : Bool → Txn R) (before : s.status i = .running (.exec update next))
      (unmatched : update ((s.pending i).getD s.committed) = none)
      (after : s' = s.setStatus i (.running (next false))) : Effect s s' (.exec i)
  | hit (i : ι) (update : R → Option R) (next : Bool → Txn R) (r : R)
      (before : s.status i = .running (.exec update next))
      (matched : update ((s.pending i).getD s.committed) = some r) (free : s.lock = none ∨ s.pending i ≠ none)
      (after : s' = { s.setStatus i (.running (next true)) with lock := some (i, r) }) : Effect s s' (.exec i)
  | publish (i : ι) (r : R) (before : s.status i = .running .done) (held : s.pending i = some r)
      (after : s' = { s.setStatus i .committed with committed := r, lock := none }) : Effect s s' (.commit i)
  | commit (i : ι) (before : s.status i = .running .done) (held : s.pending i = none)
      (after : s' = s.setStatus i .committed) : Effect s s' (.commit i)
  | abort (i : ι) (rest : Txn R) (before : s.status i = .running rest)
      (after : s' = { s.setStatus i .aborted with lock := if s.pending i = none then s.lock else none }) :
      Effect s s' (.abort i)

theorem step_effect {a : Act ι} (h : s.step a = some s') : Effect s s' a := by
  cases a with
  | exec i =>
    simp only [Row.step] at h
    split at h
    · rename_i update next hs
      split at h
      · rename_i hu
        cases h; exact .miss i update next hs hu rfl
      · rename_i r hu
        split_ifs at h with hfree
        cases h; exact .hit i update next r hs hu hfree rfl
    · cases h
  | commit i =>
    simp only [Row.step] at h
    split at h
    · rename_i hs
      split at h
      · rename_i r hp
        cases h; exact .publish i r hs hp rfl
      · rename_i hp
        cases h; exact .commit i hs hp rfl
    · cases h
  | abort i =>
    simp only [Row.step] at h
    split at h
    · rename_i rest hs
      cases h; exact .abort i rest hs rfl
    · cases h

theorem Known.later (hrel : Order rel) {whole : Txn R} {r r' : R} {status : Status R}
    (h : Known rel whole r none status) (hl : rel r r') : Known rel whole r' none status := by
  cases status with
  | running rest => exact Waiting.later hrel h hl
  | committed => rfl
  | aborted => rfl

@[simp] theorem setStatus_pending (s : Row ι R) (i j : ι) (status : Status R) :
    (s.setStatus i status).pending j = s.pending j := rfl

theorem setStatus_status (s : Row ι R) (i j : ι) (status : Status R) :
    (s.setStatus i status).status j = if j = i then status else s.status j := by
  unfold Row.setStatus
  exact Function.update_apply ..

theorem serial_setStatus {i : ι} {status : Status R} (hs : Serial rel txns s)
    (h : Known rel (txns i) s.committed (s.pending i) status) : Serial rel txns (s.setStatus i status) := by
  intro j
  rw [setStatus_status, setStatus_pending]
  split_ifs with hj
  · rw [hj]; exact h
  · exact hs j

theorem Known.miss (hrel : Order rel) {whole : Txn R} {update : R → Option R} {next : Bool → Txn R} {r : R}
    {held : Option R} (h : Known rel whole r held (.running (.exec update next))) (hu : update (held.getD r) = none) :
    Known rel whole r held (.running (next false)) := by
  cases held with
  | none => exact Waiting.unmatched h hu hrel
  | some p =>
    obtain ⟨hl, hr, he⟩ := h
    have hmiss : update p = none := hu
    refine ⟨hl.2 false, hr, ?_⟩
    rw [he, Txn.apply, hmiss]

theorem Known.hit (hrel : Order rel) {whole : Txn R} {update : R → Option R} {next : Bool → Txn R} {r r' : R}
    {held : Option R} (h : Known rel whole r held (.running (.exec update next)))
    (hu : update (held.getD r) = some r') : Known rel whole r (some r') (.running (next true)) := by
  cases held with
  | none => exact Waiting.matched h hu hrel
  | some p =>
    obtain ⟨hl, hr, he⟩ := h
    have hmatch : update p = some r' := hu
    refine ⟨hl.2 true, hrel.trans _ _ _ hr (hl.1 p r' hmatch), ?_⟩
    rw [he, Txn.apply, hmatch]

theorem pending_of_free {i j : ι} (free : s.lock = none ∨ s.pending i ≠ none) (hj : j ≠ i) : s.pending j = none := by
  rcases free with hfree | hfree
  · exact pending_of_unlocked hfree
  · obtain ⟨p, hp⟩ := Option.ne_none_iff_exists'.mp hfree
    exact pending_of_ne hp hj

theorem step_serial (hrel : Order rel) {a : Act ι} (hs : Serial rel txns s) (h : s.step a = some s') :
    Serial rel txns s' := by
  cases step_effect h with
  | miss i update next before unmatched after =>
    have hk := hs i
    rw [before] at hk
    rw [after]
    exact serial_setStatus hs (hk.miss hrel unmatched)
  | hit i update next r before matched free after =>
    have hk := hs i
    rw [before] at hk
    rw [after]
    intro j
    rw [pending_locked]
    simp only [setStatus_status]
    split_ifs with hi hj hj
    · rw [← hi]
      exact hk.hit hrel matched
    · exact absurd hi.symm hj
    · exact absurd hj.symm hi
    · have hkj := hs j
      rw [pending_of_free free hj] at hkj
      exact hkj
  | publish i r before held after =>
    have hk := hs i
    rw [before, held] at hk
    rw [after]
    intro j
    simp only [setStatus_status, Row.pending]
    split_ifs with hj
    · rfl
    · have hkj := hs j
      rw [pending_of_ne held hj] at hkj
      exact hkj.later hrel hk.2.1
  | commit i before held after =>
    rw [after]
    exact serial_setStatus hs held
  | abort i rest before after =>
    rw [after]
    intro j
    simp only [setStatus_status]
    by_cases hp : s.pending i = none
    · rw [if_pos hp]
      split_ifs with hj
      · rw [hj]; exact hp
      · exact hs j
    · rw [if_neg hp]
      split_ifs with hj
      · rfl
      · have hkj := hs j
        rw [pending_of_free (Or.inr hp) hj] at hkj
        exact hkj

/-- A commit does to the committed row what its whole transaction does to it. -/
theorem commit_apply (hrel : Order rel) {i : ι} (hs : Serial rel txns s) (h : s.step (.commit i) = some s') :
    s'.committed = (txns i).apply s.committed := by
  have hk := hs i
  cases step_effect h with
  | publish _ r before held after =>
    rw [before, held] at hk
    rw [after]
    exact hk.2.2.symm
  | commit _ before held after =>
    rw [before, held] at hk
    rw [after]
    exact (hk.same _ (hrel.refl _)).symm

theorem committed_eq {a : Act ι} (h : s.step a = some s') (ha : ∀ i, a ≠ .commit i) : s'.committed = s.committed := by
  cases step_effect h with
  | miss _ _ _ _ _ after => rw [after]; rfl
  | hit _ _ _ _ _ _ _ after => rw [after]; rfl
  | publish _ _ _ _ _ => exact absurd rfl (ha _)
  | commit _ _ _ _ => exact absurd rfl (ha _)
  | abort _ _ _ after => rw [after]; rfl

theorem Txn.apply_rel (hrel : Order rel) {t : Txn R} (h : t.Leads rel) (r : R) : rel r (t.apply r) := by
  induction t generalizing r with
  | done => exact hrel.refl r
  | exec update next ih =>
    unfold Txn.apply
    split
    · rename_i r' hu
      exact hrel.trans _ _ _ (h.1 r r' hu) (ih true (h.2 true) r')
    · exact ih false (h.2 false) r

theorem step_rel (hrel : Order rel) (hleads : ∀ i, (txns i).Leads rel) {a : Act ι} (hs : Serial rel txns s)
    (h : s.step a = some s') : rel s.committed s'.committed := by
  cases a with
  | commit i =>
    rw [commit_apply hrel hs h]
    exact Txn.apply_rel hrel (hleads i) _
  | exec i => rw [committed_eq h (by simp)]; exact hrel.refl _
  | abort i => rw [committed_eq h (by simp)]; exact hrel.refl _

/-- What a committed transaction did, or something later, is what the row holds. -/
def Lasting (rel : R → R → Prop) (txns : ι → Txn R) (s : Row ι R) : Prop :=
  ∀ i, s.status i = .committed → ∃ r, rel ((txns i).apply r) s.committed

theorem step_status_committed {a : Act ι} (h : s.step a = some s') {i : ι} (hi : s'.status i = .committed) :
    s.status i = .committed ∨ a = .commit i := by
  cases step_effect h with
  | miss j _ _ _ _ after =>
    rw [after, setStatus_status] at hi
    split_ifs at hi
    exact Or.inl hi
  | hit j _ _ _ _ _ _ after =>
    rw [after] at hi
    simp only [setStatus_status] at hi
    split_ifs at hi
    exact Or.inl hi
  | publish j _ _ _ after =>
    rw [after] at hi
    simp only [setStatus_status] at hi
    split_ifs at hi with hj
    · rw [hj]; exact Or.inr rfl
    · exact Or.inl hi
  | commit j _ _ after =>
    rw [after, setStatus_status] at hi
    split_ifs at hi with hj
    · rw [hj]; exact Or.inr rfl
    · exact Or.inl hi
  | abort j _ _ after =>
    rw [after] at hi
    simp only [setStatus_status] at hi
    split_ifs at hi
    exact Or.inl hi

theorem step_lasting (hrel : Order rel) (hleads : ∀ i, (txns i).Leads rel) (s : Row ι R) (a : Act ι) (s' : Row ι R)
    (hs : Serial rel txns s ∧ Lasting rel txns s) (h : s.step a = some s') :
    Serial rel txns s' ∧ Lasting rel txns s' := by
  refine ⟨step_serial hrel hs.1 h, ?_⟩
  intro i hi
  rcases step_status_committed h hi with hold | rfl
  · obtain ⟨r, hr⟩ := hs.2 i hold
    exact ⟨r, hrel.trans _ _ _ hr (step_rel hrel hleads hs.1 h)⟩
  · exact ⟨s.committed, by rw [commit_apply hrel hs.1 h]; exact hrel.refl _⟩

/-! ## Runs -/

theorem initial_serial (hleads : ∀ i, (txns i).Leads rel) (hstays : ∀ i, (txns i).Stays rel fun _ => True) (r : R) :
    Serial rel txns (Row.initial r txns) ∧ Lasting rel txns (Row.initial r txns) := by
  refine ⟨fun i => waiting_start (hleads i) (hstays i), ?_⟩
  intro i hi
  cases hi

theorem run_serial (hrel : Order rel) (hleads : ∀ i, (txns i).Leads rel)
    (hstays : ∀ i, (txns i).Stays rel fun _ => True) {r : R} {acts : List (Act ι)}
    (hrun : run Row.step (Row.initial r txns) acts = some s) : Serial rel txns s ∧ Lasting rel txns s :=
  run_keeps (I := fun s => Serial rel txns s ∧ Lasting rel txns s) (step_lasting hrel hleads) hrun
    (initial_serial hleads hstays r)

theorem run_rel (hrel : Order rel) (hleads : ∀ i, (txns i).Leads rel) {acts : List (Act ι)}
    (hs : Serial rel txns s ∧ Lasting rel txns s) (hrun : run Row.step s acts = some s') :
    rel s.committed s'.committed := by
  induction acts generalizing s with
  | nil => cases hrun; exact hrel.refl _
  | cons a acts ih =>
    obtain ⟨s₁, h₁, hrest⟩ := run_cons_eq_some.mp hrun
    exact hrel.trans _ _ _ (step_rel hrel hleads hs.1 h₁) (ih (step_lasting hrel hleads s a s₁ hs h₁) hrest)

end

end RowTxn
