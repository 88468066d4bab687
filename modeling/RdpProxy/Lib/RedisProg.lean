import RdpProxy.Lib.Steps

/-!
# Programs over the counters and flags of a Redis database

A program sends one command after the other. Run alone it has the database to itself, and
side by side with others each of its commands is a step. Time is in milliseconds.
-/

open Steps

namespace RedisProg

variable {ι K E A : Type}

/-! ## The database -/

structure Entry where
  value : Int
  deadline : Option Nat
  deriving DecidableEq

abbrev Db (K : Type) := K → Option Entry

namespace Db

/-- What the server finds under the key. -/
def live (db : Db K) (now : Nat) (k : K) : Option Entry := (db k).filter fun e => e.deadline.all fun d => now < d

def has (db : Db K) (now : Nat) (k : K) : Bool := (db.live now k).isSome

/-- The number under the key, 0 where there is none. -/
def count (db : Db K) (now : Nat) (k : K) : Int := (db.live now k).elim 0 Entry.value

variable [DecidableEq K]

def put (db : Db K) (k : K) (e : Entry) : Db K := Function.update db k (some e)

def incr (db : Db K) (now : Nat) (k : K) : Db K := db.put k ⟨db.count now k + 1, (db.live now k).bind Entry.deadline⟩

def expire (db : Db K) (now : Nat) (k : K) (sec : Nat) : Db K :=
  match db.live now k with
  | none => db
  | some e => db.put k ⟨e.value, some (now + 1000 * sec)⟩

/-- `SETEX k sec 1` -/
def setex (db : Db K) (now : Nat) (k : K) (sec : Nat) : Db K := db.put k ⟨1, some (now + 1000 * sec)⟩

def delete (db : Db K) (ks : List K) : Db K := fun k => if k ∈ ks then none else db k

end Db

/-! ## Programs -/

inductive Prog (K E A : Type) where
  | reply (a : A)
  /-- An exception that the program does not handle. -/
  | raised
  | has (k : K) (next : Bool → Prog K E A)
  | incr (k : K) (next : Int → Prog K E A)
  | expire (k : K) (sec : Nat) (next : Prog K E A)
  | setex (k : K) (sec : Int) (next : Prog K E A)
  | delete (ks : List K) (next : Prog K E A)
  /-- Something outside the database takes place. -/
  | emit (e : E) (next : Prog K E A)

variable [DecidableEq K]

/-- One command: the database after it, what has taken place, and the rest of the program. -/
def Prog.next (now : Nat) (db : Db K) : Prog K E A → Option (Db K × List E × Prog K E A)
  | .reply _ => none
  | .raised => none
  | .has k next => some (db, [], next (db.has now k))
  | .incr k next => some (db.incr now k, [], next (db.count now k + 1))
  | .expire k sec next => some (db.expire now k sec, [], next)
  -- `invalid expire time in 'setex' command`
  | .setex k sec next => if sec ≤ 0 then some (db, [], .raised) else some (db.setex now k sec.toNat, [], next)
  | .delete ks next => some (db.delete ks, [], next)
  | .emit e next => some (db, [e], next)

/-- The whole program, with nobody else at the database: what has taken place, the latest first. -/
def Prog.alone (now : Nat) : Prog K E A → Db K × List E → Db K × List E
  | .reply _, s => s
  | .raised, s => s
  | .has k next, s => (next (s.1.has now k)).alone now s
  | .incr k next, s => (next (s.1.count now k + 1)).alone now (s.1.incr now k, s.2)
  | .expire k sec next, s => next.alone now (s.1.expire now k sec, s.2)
  | .setex k sec next, s => if sec ≤ 0 then s else next.alone now (s.1.setex now k sec.toNat, s.2)
  | .delete ks next, s => next.alone now (s.1.delete ks, s.2)
  | .emit e next, s => next.alone now (s.1, e :: s.2)

/-- What the whole program replies, none where it has raised. -/
def Prog.answer (now : Nat) : Prog K E A → Db K → Option A
  | .reply a, _ => some a
  | .raised, _ => none
  | .has k next, db => (next (db.has now k)).answer now db
  | .incr k next, db => (next (db.count now k + 1)).answer now (db.incr now k)
  | .expire k sec next, db => next.answer now (db.expire now k sec)
  | .setex k sec next, db => if sec ≤ 0 then none else next.answer now (db.setex now k sec.toNat)
  | .delete ks next, db => next.answer now (db.delete ks)
  | .emit _ next, db => next.answer now db

/-! ## What a command leaves of a key -/

namespace Db

variable {db : Db K} {now now' sec : Nat} {k k' : K} {ks : List K}

@[simp] theorem put_self (db : Db K) (k : K) (e : Entry) : db.put k e k = some e := by
  unfold put
  exact Function.update_self ..

theorem put_of_ne (db : Db K) (e : Entry) (h : k' ≠ k) : db.put k e k' = db k' := by
  unfold put
  exact Function.update_of_ne h ..

theorem incr_of_ne (h : k' ≠ k) : db.incr now k k' = db k' := put_of_ne db _ h

theorem expire_of_ne (h : k' ≠ k) : db.expire now k sec k' = db k' := by
  unfold expire
  rcases db.live now k with _ | e
  · rfl
  · exact put_of_ne db _ h

theorem setex_of_ne (h : k' ≠ k) : db.setex now k sec k' = db k' := put_of_ne db _ h

theorem delete_of_notMem (h : k ∉ ks) : db.delete ks k = db k := by
  unfold delete
  rw [if_neg h]

theorem delete_of_mem (h : k ∈ ks) : db.delete ks k = none := by
  unfold delete
  rw [if_pos h]

omit [DecidableEq K] in
theorem live_eq_none (h : db k = none) : db.live now k = none := by
  unfold live
  rw [h]
  rfl

omit [DecidableEq K] in
theorem live_congr {db' : Db K} (h : db k = db' k) : db.live now k = db'.live now k := by
  unfold live
  rw [h]

omit [DecidableEq K] in
theorem has_congr {db' : Db K} (h : db k = db' k) : db.has now k = db'.has now k := by
  unfold has
  rw [live_congr h]

omit [DecidableEq K] in
theorem count_congr {db' : Db K} (h : db k = db' k) : db.count now k = db'.count now k := by
  unfold count
  rw [live_congr h]

omit [DecidableEq K] in
theorem deadline_of_live {e : Entry} (h : db.live now k = some e) : (e.deadline.all fun d => now < d) = true := by
  unfold live at h
  exact (Option.filter_eq_some_iff.mp h).2

theorem live_incr (db : Db K) (now : Nat) (k : K) :
    (db.incr now k).live now k = some ⟨db.count now k + 1, (db.live now k).bind Entry.deadline⟩ := by
  have hstays : (((db.live now k).bind Entry.deadline).all fun d => now < d) = true := by
    rcases he : db.live now k with _ | e
    · rfl
    · exact deadline_of_live he
  unfold incr
  rw [live, put_self, Option.filter_some, if_pos hstays]

theorem expire_live {e : Entry} (h : db.live now k = some e) :
    db.expire now k sec k = some ⟨e.value, some (now + 1000 * sec)⟩ := by
  unfold expire
  rw [h]
  exact put_self ..

theorem has_setex (db : Db K) (now : Nat) (k : K) {sec : Nat} (h : 0 < sec) : (db.setex now k sec).has now k = true := by
  unfold has live setex
  rw [put_self, Option.filter_some, if_pos]
  · rfl
  · simpa using h

def Nonneg (db : Db K) : Prop := ∀ k e, db k = some e → 0 ≤ e.value

omit [DecidableEq K] in
theorem live_eq_some {e : Entry} (h : db.live now k = some e) : db k = some e := by
  unfold live at h
  exact (Option.filter_eq_some_iff.mp h).1

omit [DecidableEq K] in
theorem Nonneg.count (h : db.Nonneg) (now : Nat) (k : K) : 0 ≤ db.count now k := by
  unfold Db.count
  rcases he : db.live now k with _ | e
  · exact Int.le_refl 0
  · exact h k e (live_eq_some he)

theorem Nonneg.put (h : db.Nonneg) (k : K) {e : Entry} (he : 0 ≤ e.value) : (db.put k e).Nonneg := by
  intro k' e' hk
  by_cases hne : k' = k
  · rw [hne, put_self] at hk
    cases hk
    exact he
  · rw [put_of_ne db e hne] at hk
    exact h k' e' hk

theorem Nonneg.expire (h : db.Nonneg) (now : Nat) (k : K) (sec : Nat) : (db.expire now k sec).Nonneg := by
  unfold Db.expire
  rcases he : db.live now k with _ | e
  · exact h
  · exact h.put k (h k e (live_eq_some he))

theorem Nonneg.delete (h : db.Nonneg) (ks : List K) : (db.delete ks).Nonneg := by
  intro k e hk
  unfold Db.delete at hk
  split_ifs at hk
  exact h k e hk

omit [DecidableEq K] in
theorem count_later (hle : now ≤ now') (k : K) : db.count now' k = db.count now k ∨ db.count now' k = 0 := by
  unfold count live
  rcases db k with _ | e
  · exact Or.inl rfl
  · rw [Option.filter_some, Option.filter_some]
    by_cases hlate : (e.deadline.all fun d => now' < d) = true
    · have hsoon : (e.deadline.all fun d => now < d) = true := by
        rcases hd : e.deadline with _ | d
        · rfl
        · rw [hd] at hlate
          simp only [Option.all_some, decide_eq_true_eq] at hlate ⊢
          omega
      rw [if_pos hlate, if_pos hsoon]
      exact Or.inl rfl
    · rw [if_neg hlate]
      exact Or.inr rfl

theorem count_incr (db : Db K) (now : Nat) (k : K) : (db.incr now k).count now k = db.count now k + 1 := by
  unfold count
  rw [live_incr]
  rfl

theorem count_expire (db : Db K) (now : Nat) (k k' : K) (h : 0 < sec) :
    (db.expire now k sec).count now k' = db.count now k' := by
  by_cases hk : k' = k
  · subst hk
    rcases he : db.live now k' with _ | e
    · unfold expire
      rw [he]
    · have hentry : db.expire now k' sec k' = some { e with deadline := some (now + 1000 * sec) } := expire_live he
      unfold count
      rw [he, live, hentry, Option.filter_some, if_pos (by simpa using h)]
      rfl
  · exact count_congr (expire_of_ne hk)

end Db

/-! ## Programs side by side -/

structure Clients (ι K E A : Type) where
  db : Db K
  now : Nat
  prog : ι → Prog K E A
  /-- What has taken place, the latest first. -/
  log : List E

inductive Move (ι : Type) where
  | go (i : ι)
  | tick (d : Nat)

def Clients.step [DecidableEq ι] (s : Clients ι K E A) : Move ι → Option (Clients ι K E A)
  | .go i =>
    match (s.prog i).next s.now s.db with
    | none => none
    | some (db, es, p) => some { s with db := db, prog := Function.update s.prog i p, log := es ++ s.log }
  | .tick d => some { s with now := s.now + d }

end RedisProg
