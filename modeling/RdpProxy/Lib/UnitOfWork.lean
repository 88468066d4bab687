import RdpProxy.Lib.Steps

/-!
# Units of work under READ COMMITTED

A unit of work reads, decides, and ends with one statement and its COMMIT. Each of these
is a step of its own. A read sees what is committed at that moment, and a statement waits
for the COMMIT of any other one that it conflicts with.
-/

open Steps

namespace UnitOfWork

/-! ## Work -/

/-- What the server answers to a statement: it has worked, it has matched no row, or a
constraint forbids it. -/
inductive Verdict where
  | done
  | missed
  | refused
  deriving DecidableEq

structure Server (T W : Type) where
  verdict : W → T → Verdict
  apply : W → T → T
  conflicts : W → W → Bool

inductive Work (T W A : Type) where
  | reply (a : A)
  | read (next : T → Work T W A)
  | write (w : W) (next : Verdict → Work T W A)

variable {T W A ι : Type} {server : Server T W}

/-- The whole of the work with nobody else at the tables. -/
def Work.alone (server : Server T W) : Work T W A → T → A × T
  | .reply a, t => (a, t)
  | .read next, t => (next t).alone server t
  | .write w next, t =>
    match server.verdict w t with
    | .done => (next .done).alone server (server.apply w t)
    | .missed => (next .missed).alone server t
    | .refused => (next .refused).alone server t

inductive Session (T W A : Type) where
  | working (work : Work T W A)
  /-- The statement has been sent and is not committed. -/
  | sent (w : W) (rest : Work T W A)

structure Tables (ι T W A : Type) where
  committed : T
  session : ι → Session T W A
  /-- The sessions with a statement that is not committed. -/
  locks : List ι

inductive Act (ι A : Type) where
  | go (i : ι)
  /-- The session is closed with an exception, and rolled back. -/
  | drop (i : ι) (a : A)

namespace Tables

def initial (t : T) (work : ι → Work T W A) : Tables ι T W A := ⟨t, fun i => .working (work i), []⟩

def holds (server : Server T W) (w : W) : Session T W A → Bool
  | .sent w' _ => server.conflicts w w'
  | .working _ => false

def blocked (server : Server T W) (s : Tables ι T W A) (w : W) : Bool :=
  s.locks.any fun j => holds server w (s.session j)

section

variable [DecidableEq ι]

def setSession (s : Tables ι T W A) (i : ι) (session : Session T W A) : Tables ι T W A :=
  { s with session := Function.update s.session i session }

def step (server : Server T W) (s : Tables ι T W A) : Act ι A → Option (Tables ι T W A)
  | .go i =>
    match s.session i with
    | .working (.reply _) => none
    | .working (.read next) => some (s.setSession i (.working (next s.committed)))
    | .working (.write w next) =>
      if s.blocked server w then none
      else
        match server.verdict w s.committed with
        | .done => some { s.setSession i (.sent w (next .done)) with locks := i :: s.locks }
        | .missed => some (s.setSession i (.working (next .missed)))
        | .refused => some (s.setSession i (.working (next .refused)))
    | .sent w rest =>
      some { s.setSession i (.working rest) with
        committed := server.apply w s.committed, locks := s.locks.erase i }
  | .drop i a =>
    match s.session i with
    | .working (.reply _) => none
    | _ => some { s.setSession i (.working (.reply a)) with locks := s.locks.erase i }

end

end Tables

section

variable [DecidableEq ι]

@[simp] theorem setSession_self (s : Tables ι T W A) (i : ι) (session : Session T W A) :
    (s.setSession i session).session i = session := by
  unfold Tables.setSession
  exact Function.update_self ..

theorem setSession_of_ne (s : Tables ι T W A) (session : Session T W A) {i j : ι} (h : j ≠ i) :
    (s.setSession i session).session j = s.session j := by
  unfold Tables.setSession
  exact Function.update_of_ne h ..

@[simp] theorem setSession_committed (s : Tables ι T W A) (i : ι) (session : Session T W A) :
    (s.setSession i session).committed = s.committed := rfl

@[simp] theorem setSession_locks (s : Tables ι T W A) (i : ι) (session : Session T W A) :
    (s.setSession i session).locks = s.locks := rfl

end

/-! ## What a session has read, and what has committed since -/

structure Reading (T W : Type) where
  table : T
  /-- The statements that have committed since, the latest first, with the tables they have met. -/
  since : List (W × T)

def Reading.initial (t : T) : Reading T W := ⟨t, []⟩

section

variable [DecidableEq ι]

/-- A read begins a session's list anew, and a COMMIT is put on everybody's. -/
def note (s : Tables ι T W A) (a : Act ι A) (_ : Tables ι T W A) (readings : ι → Reading T W) : ι → Reading T W :=
  match a with
  | .go i =>
    match s.session i with
    | .working (.read _) => Function.update readings i (.initial s.committed)
    | .working _ => readings
    | .sent w _ => fun j => ⟨(readings j).table, (w, s.committed) :: (readings j).since⟩
  | .drop _ _ => readings

/-- `Safe` holds of each statement that is committed, of what its session has read, and of the
table that it meets. -/
def CommitsSafely (Safe : W → Reading T W → T → Prop) (p : Tables ι T W A × (ι → Reading T W)) : Act ι A → Prop
  | .go i =>
    match p.1.session i with
    | .sent w _ => Safe w (p.2 i) p.1.committed
    | .working _ => True
  | .drop _ _ => True

instance (Safe : W → Reading T W → T → Prop) [∀ w r t, Decidable (Safe w r t)]
    (p : Tables ι T W A × (ι → Reading T W)) (a : Act ι A) : Decidable (CommitsSafely Safe p a) := by
  unfold CommitsSafely
  cases a with
  | go i =>
    simp only
    split <;> infer_instance
  | drop i a => exact .isTrue trivial

end

/-- Every statement of the work is one that `J` gives for the table that has been read last. -/
def Work.Outline (J : T → W → Prop) : T → Work T W A → Prop
  | _, .reply _ => True
  | _, .read next => ∀ t, (next t).Outline J t
  | t, .write w next => J t w ∧ ∀ v, (next v).Outline J t

def Session.Follows (J : T → W → Prop) (t : T) : Session T W A → Prop
  | .working work => work.Outline J t
  | .sent w rest => J t w ∧ rest.Outline J t

/-- The sessions follow their outlines, `I` holds of what each has read and of the tables as they
are, and `P` of these tables. -/
structure Consistent (J : T → W → Prop) (I : Reading T W → T → Prop) (P : T → Prop) (s : Tables ι T W A)
    (readings : ι → Reading T W) : Prop where
  follows : ∀ i, (s.session i).Follows J (readings i).table
  readings : ∀ i, I (readings i) s.committed
  committed : P s.committed

section

variable [DecidableEq ι] {s s' : Tables ι T W A} {J : T → W → Prop} {I : Reading T W → T → Prop} {P : T → Prop}
  {readings : ι → Reading T W} {i : ι}

theorem follows_setSession {readings' : ι → Reading T W} {session : Session T W A}
    (h : ∀ j, (s.session j).Follows J (readings j).table)
    (hothers : ∀ j ≠ i, (readings' j).table = (readings j).table) (hi : session.Follows J (readings' i).table) (j : ι) :
    ((s.setSession i session).session j).Follows J (readings' j).table := by
  by_cases hj : j = i
  · subst hj
    rw [setSession_self]
    exact hi
  · rw [setSession_of_ne s session hj, hothers j hj]
    exact h j

theorem Consistent.setSession (h : Consistent J I P s readings) {session : Session T W A} (locks : List ι)
    (hi : session.Follows J (readings i).table) :
    Consistent J I P { s.setSession i session with locks := locks } readings :=
  ⟨follows_setSession h.follows (fun _ _ => rfl) hi, h.readings, h.committed⟩

variable {Safe : W → Reading T W → T → Prop}

theorem go_consistent (hread : ∀ t, P t → I (.initial t) t)
    (hcommit : ∀ w r t, I r t → I ⟨r.table, (w, t) :: r.since⟩ (server.apply w t))
    (hsafe : ∀ w r t, P t → I r t → J r.table w → Safe w r t → P (server.apply w t))
    (h : Consistent J I P s readings) (hall : CommitsSafely Safe (s, readings) (.go i))
    (hs : s.step server (.go i) = some s') : Consistent J I P s' (note s (.go i) s' readings) := by
  have hi := h.follows i
  unfold Tables.step at hs
  unfold note
  unfold CommitsSafely at hall
  simp only at hs hall ⊢
  rcases hsession : s.session i with work | ⟨w, rest⟩
  · rw [hsession] at hs hi
    cases work with
    | reply a => cases hs
    | read next =>
      cases hs
      dsimp only
      refine ⟨follows_setSession h.follows (fun j hj => by rw [Function.update_of_ne hj]) ?_, fun j => ?_, h.committed⟩
      · rw [Function.update_self]
        exact hi s.committed
      · rw [setSession_committed]
        by_cases hj : j = i
        · rw [hj, Function.update_self]
          exact hread s.committed h.committed
        · rw [Function.update_of_ne hj]
          exact h.readings j
    | write w next =>
      simp only at hs
      split_ifs at hs
      split at hs <;> cases hs
      · exact h.setSession (i :: s.locks) ⟨hi.1, hi.2 .done⟩
      · exact h.setSession s.locks (hi.2 .missed)
      · exact h.setSession s.locks (hi.2 .refused)
  · rw [hsession] at hs hi hall
    cases hs
    refine ⟨follows_setSession h.follows (fun _ _ => rfl) hi.2, ?_, ?_⟩
    · exact fun j => hcommit w (readings j) s.committed (h.readings j)
    · exact hsafe w (readings i) s.committed h.committed (h.readings i) hi.1 hall

theorem drop_consistent (h : Consistent J I P s readings) {a : A} (hs : s.step server (.drop i a) = some s') :
    Consistent J I P s' readings := by
  unfold Tables.step at hs
  simp only at hs
  split at hs <;> cases hs
  exact h.setSession (s.locks.erase i) trivial

/-- Where each statement that its session's last read allows keeps `P` as long as it is safe, a
run whose COMMITs are all safe keeps `P` in all its states. -/
theorem throughout_of_commitsSafely {t : T} {work : ι → Work T W A} (hread : ∀ t, P t → I (.initial t) t)
    (hcommit : ∀ w r t, I r t → I ⟨r.table, (w, t) :: r.since⟩ (server.apply w t))
    (hsafe : ∀ w r t, P t → I r t → J r.table w → Safe w r t → P (server.apply w t))
    (hwork : ∀ i, (work i).Outline J t) (ht : P t) {acts : List (Act ι A)}
    (hall : Along (logged (Tables.step server) note) (CommitsSafely Safe)
      (Tables.initial t work, fun _ => .initial t) acts) :
    Throughout (Tables.step server) (fun s => P s.committed) (Tables.initial t work) acts := by
  refine throughout_of_logged (I := Consistent J I P) ?_ (fun _ _ h => h.committed) hall ?_
  · intro s readings a s' h hg hs
    cases a with
    | go i => exact go_consistent hread hcommit hsafe h hg hs
    | drop i a => exact drop_consistent h hs
  · exact ⟨hwork, fun _ => hread t ht, ht⟩

end

/-! ## One unit of work after another -/

section

variable [DecidableEq ι] {s s₁ s' : Tables ι T W A} {i : ι}

omit [DecidableEq ι] in
theorem blocked_of_unlocked (w : W) (h : s.locks = []) : s.blocked server w = false := by
  unfold Tables.blocked
  rw [h]
  rfl

/-- The steps of `i` alone, which leave every other session where it is. -/
def Undisturbed (server : Server T W) (i : ι) (s s' : Tables ι T W A) : Prop :=
  (∃ n, run (Tables.step server) s (List.replicate n (.go i)) = some s') ∧ ∀ j ≠ i, s'.session j = s.session j

theorem Undisturbed.cons (h₁ : s.step server (.go i) = some s₁) (hj : ∀ j ≠ i, s₁.session j = s.session j)
    (h : Undisturbed server i s₁ s') : Undisturbed server i s s' := by
  obtain ⟨⟨n, hrun⟩, hrest⟩ := h
  refine ⟨⟨n + 1, run_cons_eq_some.mpr ⟨s₁, h₁, hrun⟩⟩, ?_⟩
  intro j hne
  rw [hrest j hne, hj j hne]

theorem step_done {w : W} {next : Verdict → Work T W A} (hs : s.session i = .working (.write w next))
    (hl : s.locks = []) (hv : server.verdict w s.committed = .done) :
    s.step server (.go i) = some { s.setSession i (.sent w (next .done)) with locks := [i] } := by
  simp only [Tables.step, hs, blocked_of_unlocked w hl, hv, hl]
  rfl

theorem step_sent {w : W} {rest : Work T W A} (hs : s.session i = .sent w rest) :
    s.step server (.go i) = some { s.setSession i (.working rest) with
      committed := server.apply w s.committed, locks := s.locks.erase i } := by
  simp only [Tables.step, hs]

theorem step_undone {w : W} {next : Verdict → Work T W A} (hs : s.session i = .working (.write w next))
    (hl : s.locks = []) (hv : server.verdict w s.committed ≠ .done) :
    s.step server (.go i) = some (s.setSession i (.working (next (server.verdict w s.committed)))) := by
  simp only [Tables.step, hs, blocked_of_unlocked w hl]
  cases h : server.verdict w s.committed with
  | done => exact absurd h hv
  | missed => rfl
  | refused => rfl

/-- A session that nobody disturbs comes to the answer and the tables of `alone`. -/
theorem undisturbed_alone {work : Work T W A} (hs : s.session i = .working work) (hl : s.locks = []) :
    ∃ s', Undisturbed server i s s' ∧ s'.session i = .working (.reply (work.alone server s.committed).1) ∧
      s'.committed = (work.alone server s.committed).2 ∧ s'.locks = [] := by
  induction work generalizing s with
  | reply a => exact ⟨s, ⟨⟨0, rfl⟩, fun _ _ => rfl⟩, hs, rfl, hl⟩
  | read next ih =>
    obtain ⟨s', hrun, hend⟩ := ih s.committed (s := s.setSession i (.working (next s.committed)))
      (setSession_self ..) hl
    refine ⟨s', hrun.cons ?_ fun j => setSession_of_ne s _, hend⟩
    simp only [Tables.step, hs]
  | write w next ih =>
    unfold Work.alone
    by_cases hv : server.verdict w s.committed = .done
    · obtain ⟨s', hrun, hend⟩ := ih .done (s := { s.setSession i (.working (next .done)) with
        committed := server.apply w s.committed, locks := [] }) (setSession_self ..) rfl
      let sent : Tables ι T W A := { s.setSession i (.sent w (next .done)) with locks := [i] }
      have hcommit : sent.step server (.go i) = some { s.setSession i (.working (next .done)) with
          committed := server.apply w s.committed, locks := [] } := by
        have hsent : sent.session i = .sent w (next .done) := setSession_self ..
        rw [step_sent hsent]
        simp [sent, Tables.setSession]
      rw [hv]
      refine ⟨s', (hrun.cons hcommit ?_).cons (step_done hs hl hv) fun j => setSession_of_ne s _, hend⟩
      intro j hne
      exact (setSession_of_ne s _ hne).trans (setSession_of_ne s _ hne).symm
    · obtain ⟨s', hrun, hend⟩ := ih (server.verdict w s.committed)
        (s := s.setSession i (.working (next (server.verdict w s.committed)))) (setSession_self ..) hl
      refine ⟨s', hrun.cons (step_undone hs hl hv) fun j => setSession_of_ne s _, ?_⟩
      cases h : server.verdict w s.committed with
      | done => exact absurd h hv
      | missed => rw [h] at hend; exact hend
      | refused => rw [h] at hend; exact hend

end

end UnitOfWork
