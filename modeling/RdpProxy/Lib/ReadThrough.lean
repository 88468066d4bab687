import RdpProxy.Lib.Dict
import RdpProxy.Lib.Steps

/-!
# A cache that asks for what it does not have

Calls read the cache, ask elsewhere if what they find is too old, and store what they get, under the time at which they
began. Between these steps other calls may take theirs.
-/

open Steps

namespace ReadThrough

structure Stamped (V : Type) where
  value : V
  ts : Int

inductive Phase (V : Type) where
  | begun
  | asking
  | answered (v : V)
  | returned (v : V)
  | failed

structure Call (K V : Type) where
  key : K
  now : Int
  phase : Phase V

structure State (K V : Type) where
  cache : Dict K (Stamped V)
  calls : List (Call K V)

inductive Act (K V : Type) where
  | start (key : K) (now : Int)
  | look (i : Nat)
  | answer (i : Nat) (v : V)
  | store (i : Nat)
  /-- The call ends with an exception. -/
  | fail (i : Nat)

variable {K V : Type} [DecidableEq K]

def initial : State K V := ⟨Dict.empty, []⟩

/-- The value, unless it is too old. -/
def fresh (ttl now : Int) (record : Option (Stamped V)) : Option V :=
  (record.filter fun r => now - r.ts ≤ ttl).map Stamped.value

def looked : Option V → Phase V
  | some v => .returned v
  | none => .asking

/-- What the call does, with the record that it leaves in the cache. -/
def Call.next (ttl : Int) (cache : Dict K (Stamped V)) (c : Call K V) : Act K V → Option (Phase V × Option (Stamped V))
  | .look _ =>
    match c.phase with
    | .begun => some (looked (fresh ttl c.now (cache.get? c.key)), none)
    | _ => none
  | .answer _ v =>
    match c.phase with
    | .asking => some (.answered v, none)
    | _ => none
  | .store _ =>
    match c.phase with
    | .answered v => some (.returned v, some ⟨v, c.now⟩)
    | _ => none
  | .fail _ =>
    match c.phase with
    | .returned _ => none
    | .failed => none
    | _ => some (.failed, none)
  | .start _ _ => none

/-- The call that takes the step. -/
def Act.call : Act K V → Option Nat
  | .start _ _ => none
  | .look i => some i
  | .answer i _ => some i
  | .store i => some i
  | .fail i => some i

def State.put (s : State K V) (i : Nat) (c : Call K V) (next : Phase V × Option (Stamped V)) : State K V where
  cache := next.2.elim s.cache fun r => s.cache.set c.key r
  calls := s.calls.set i { c with phase := next.1 }

def step (ttl : Int) (s : State K V) (a : Act K V) : Option (State K V) :=
  match a with
  | .start key now => some { s with calls := s.calls ++ [⟨key, now, .begun⟩] }
  | a => do
    let i ← a.call
    let c ← s.calls[i]?
    let next ← c.next ttl s.cache a
    return s.put i c next

/-! ## A step -/

variable {ttl : Int} {s s' : State K V} {a : Act K V} {as : List (Act K V)} {i : Nat} {c : Call K V} {k : K} {v : V}

theorem fresh_eq_some {now : Int} {record : Option (Stamped V)} :
    fresh ttl now record = some v ↔ ∃ ts, record = some ⟨v, ts⟩ ∧ now - ts ≤ ttl := by
  simp only [fresh, Option.map_eq_some_iff, Option.filter_eq_some_iff, decide_eq_true_eq]
  constructor
  · rintro ⟨⟨v', ts⟩, ⟨hrecord, hage⟩, rfl⟩
    exact ⟨ts, hrecord, hage⟩
  · rintro ⟨ts, hrecord, hage⟩
    exact ⟨⟨v, ts⟩, ⟨hrecord, hage⟩, rfl⟩

theorem step_cases (h : step ttl s a = some s') :
    (∃ key now, a = .start key now ∧ s' = { s with calls := s.calls ++ [⟨key, now, .begun⟩] }) ∨
    ∃ i c next, a.call = some i ∧ s.calls[i]? = some c ∧ c.next ttl s.cache a = some next ∧ s' = s.put i c next := by
  unfold step at h
  split at h
  · cases h
    exact Or.inl ⟨_, _, rfl, rfl⟩
  · simp only [Option.bind_eq_bind, Option.bind_eq_some_iff, Option.pure_def, Option.some.injEq] at h
    obtain ⟨i, hi, c, hc, next, hnext, rfl⟩ := h
    exact Or.inr ⟨i, c, next, hi, hc, hnext, rfl⟩

theorem next_cases {cache : Dict K (Stamped V)} {next : Phase V × Option (Stamped V)}
    (hi : a.call = some i) (h : c.next ttl cache a = some next) :
    (a = .look i ∧ c.phase = .begun ∧ next = (looked (fresh ttl c.now (cache.get? c.key)), none)) ∨
    (∃ v, a = .answer i v ∧ c.phase = .asking ∧ next = (.answered v, none)) ∨
    (∃ v, a = .store i ∧ c.phase = .answered v ∧ next = (.returned v, some ⟨v, c.now⟩)) ∨
    (a = .fail i ∧ (∀ v, c.phase ≠ .returned v) ∧ c.phase ≠ .failed ∧ next = (.failed, none)) := by
  obtain ⟨key, now, phase⟩ := c
  cases a <;> cases phase <;> simp_all [Call.next, Act.call]

theorem put_calls_self (s : State K V) (hc : s.calls[i]? = some c) (next : Phase V × Option (Stamped V)) :
    (s.put i c next).calls[i]? = some { c with phase := next.1 } := by
  obtain ⟨hlt, _⟩ := List.getElem?_eq_some_iff.mp hc
  simp [State.put, hlt]

theorem put_calls_of_ne (s : State K V) (c : Call K V) (next : Phase V × Option (Stamped V)) {j : Nat} (h : i ≠ j) :
    (s.put i c next).calls[j]? = s.calls[j]? := by simp [State.put, h]

theorem step_returned {c : Call K V} (h : step ttl s a = some s') (hc : s.calls[i]? = some c)
    (hv : c.phase = .returned v) : s'.calls[i]? = some c := by
  obtain ⟨key, now, rfl, rfl⟩ | ⟨j, d, next, hj, hd, hnext, rfl⟩ := step_cases h
  · obtain ⟨hlt, _⟩ := List.getElem?_eq_some_iff.mp hc
    rw [List.getElem?_append_left hlt, hc]
  · rw [put_calls_of_ne]
    · exact hc
    · rintro rfl
      obtain rfl : c = d := Option.some_inj.mp (hc.symm.trans hd)
      obtain ⟨_, hp, _⟩ | ⟨_, _, hp, _⟩ | ⟨_, _, hp, _⟩ | ⟨_, hp, _⟩ := next_cases hj hnext
      · simp [hv] at hp
      · simp [hv] at hp
      · simp [hv] at hp
      · exact hp v hv

/-- What the call was made with. -/
def Call.request (c : Call K V) : K × Int := (c.key, c.now)

theorem step_requests (h : step ttl s a = some s') (ha : ∀ key now, a ≠ .start key now) :
    s'.calls.map Call.request = s.calls.map Call.request := by
  obtain ⟨key, now, hstart, _⟩ | ⟨i, c, next, _, hc, _, rfl⟩ := step_cases h
  · exact absurd hstart (ha key now)
  · obtain ⟨hlt, rfl⟩ := List.getElem?_eq_some_iff.mp hc
    rw [State.put, List.map_set]
    apply List.ext_getElem (by simp)
    intro j h₁ h₂
    by_cases hij : i = j
    · subst hij
      simp [Call.request]
    · simp [hij]

/-! ## A run -/

/-- What the values come from: `j` began at `ts`, has asked for `k`, and has stored what it got. -/
def Source (as : List (Act K V)) (s : State K V) (k : K) (v : V) (j : Nat) (ts : Int) : Prop :=
  s.calls[j]? = some ⟨k, ts, .returned v⟩ ∧ Act.answer j v ∈ as

structure Known (ttl : Int) (as : List (Act K V)) (s : State K V) : Prop where
  cached : ∀ k r, s.cache.get? k = some r → ∃ j, Source as s k r.value j r.ts
  answered : ∀ i c v, s.calls[i]? = some c → c.phase = .answered v → Act.answer i v ∈ as
  returned : ∀ i c v, s.calls[i]? = some c → c.phase = .returned v →
    ∃ j ts, Source as s c.key v j ts ∧ (j = i ∨ c.now - ts ≤ ttl)
  failed : ∀ i c, s.calls[i]? = some c → c.phase = .failed → Act.fail i ∈ as

theorem Source.step {j : Nat} {ts : Int} (h : Source as s k v j ts) (hstep : step ttl s a = some s') :
    Source (as ++ [a]) s' k v j ts := ⟨step_returned hstep h.1 rfl, List.mem_append_left _ h.2⟩

theorem known_initial (ttl : Int) : Known ttl [] (initial : State K V) := by
  constructor
  · intro k r h
    cases h
  all_goals simp [initial]

theorem call_after {c' : Call K V} (h : step ttl s a = some s') (hc : s'.calls[i]? = some c') :
    s.calls[i]? = some c' ∨ c'.phase = .begun ∨
    ∃ c next, a.call = some i ∧ s.calls[i]? = some c ∧ c.next ttl s.cache a = some next ∧
      c' = { c with phase := next.1 } := by
  obtain ⟨key, now, rfl, rfl⟩ | ⟨j, c, next, hj, hcj, hnext, rfl⟩ := step_cases h
  · rw [List.getElem?_append] at hc
    split_ifs at hc with hlt
    · exact Or.inl hc
    · have hcall := List.mem_singleton.mp (List.mem_of_getElem? hc)
      exact Or.inr (Or.inl (by rw [hcall]))
  · by_cases hij : j = i
    · subst hij
      rw [put_calls_self s hcj] at hc
      exact Or.inr (Or.inr ⟨c, next, hj, hcj, hnext, (Option.some_inj.mp hc).symm⟩)
    · rw [put_calls_of_ne s c next hij] at hc
      exact Or.inl hc

theorem cache_after {r : Stamped V} (h : step ttl s a = some s') (hget : s'.cache.get? k = some r) :
    s.cache.get? k = some r ∨
    ∃ i c, a = .store i ∧ s.calls[i]? = some c ∧ c.phase = .answered r.value ∧ c.key = k ∧ c.now = r.ts := by
  obtain ⟨key, now, rfl, rfl⟩ | ⟨i, c, next, hi, hc, hnext, rfl⟩ := step_cases h
  · exact Or.inl hget
  · obtain ⟨_, _, rfl⟩ | ⟨_, _, _, rfl⟩ | ⟨v, rfl, hphase, rfl⟩ | ⟨_, _, _, rfl⟩ := next_cases hi hnext
    · exact Or.inl hget
    · exact Or.inl hget
    · have hset : (s.cache.set c.key ⟨v, c.now⟩).get? k = some r := hget
      rw [Dict.get?_set] at hset
      split_ifs at hset with hk
      · cases hset
        exact Or.inr ⟨i, c, rfl, hc, hphase, hk.symm, rfl⟩
      · exact Or.inl hset
    · exact Or.inl hget

theorem source_of_store (hs : Known ttl as s) (h : step ttl s (.store i) = some s') (hc : s.calls[i]? = some c)
    (hphase : c.phase = .answered v) : Source (as ++ [.store i]) s' c.key v i c.now := by
  refine ⟨?_, List.mem_append_left _ (hs.answered i c v hc hphase)⟩
  simp only [step, Act.call, hc, Call.next, hphase, Option.bind_eq_bind, Option.bind_some, Option.pure_def,
    Option.some.injEq] at h
  rw [← h, put_calls_self s hc]

theorem known_step (hs : Known ttl as s) (h : step ttl s a = some s') : Known ttl (as ++ [a]) s' := by
  constructor
  · intro k r hget
    obtain hget | ⟨i, c, rfl, hc, hphase, rfl, hts⟩ := cache_after h hget
    · obtain ⟨j, hj⟩ := hs.cached k r hget
      exact ⟨j, hj.step h⟩
    · exact ⟨i, hts ▸ source_of_store hs h hc hphase⟩
  · intro i c v hc hphase
    obtain hc | hbegun | ⟨c, next, hi, hc, hnext, rfl⟩ := call_after h hc
    · exact List.mem_append_left _ (hs.answered i c v hc hphase)
    · simp [hbegun] at hphase
    · obtain ⟨_, _, rfl⟩ | ⟨v', rfl, _, rfl⟩ | ⟨_, _, _, rfl⟩ | ⟨_, _, _, rfl⟩ := next_cases hi hnext
      · cases hfresh : fresh ttl c.now (s.cache.get? c.key) <;> simp [hfresh, looked] at hphase
      · cases hphase
        simp
      · cases hphase
      · cases hphase
  · intro i c v hc' hphase
    obtain hc | hbegun | ⟨c, next, hi, hc, hnext, rfl⟩ := call_after h hc'
    · obtain ⟨j, ts, hj, hage⟩ := hs.returned i c v hc hphase
      exact ⟨j, ts, hj.step h, hage⟩
    · simp [hbegun] at hphase
    · obtain ⟨rfl, hbegun, rfl⟩ | ⟨_, _, _, rfl⟩ | ⟨v', rfl, hanswered, rfl⟩ | ⟨_, _, _, rfl⟩ := next_cases hi hnext
      · cases hfresh : fresh ttl c.now (s.cache.get? c.key) with
        | none => simp [hfresh, looked] at hphase
        | some v' =>
          obtain ⟨ts, hget, hage⟩ := fresh_eq_some.mp hfresh
          obtain ⟨j, hj⟩ := hs.cached c.key _ hget
          simp only [hfresh, looked, Phase.returned.injEq] at hphase
          exact ⟨j, ts, hphase ▸ hj.step h, Or.inr hage⟩
      · cases hphase
      · cases hphase
        exact ⟨i, c.now, source_of_store (c := c) hs h hc hanswered, Or.inl rfl⟩
      · cases hphase
  · intro i c hc hphase
    obtain hc | hbegun | ⟨c, next, hi, hc, hnext, rfl⟩ := call_after h hc
    · exact List.mem_append_left _ (hs.failed i c hc hphase)
    · simp [hbegun] at hphase
    · obtain ⟨_, _, rfl⟩ | ⟨_, _, _, rfl⟩ | ⟨_, _, _, rfl⟩ | ⟨rfl, _, _, rfl⟩ := next_cases hi hnext
      · cases hfresh : fresh ttl c.now (s.cache.get? c.key) <;> simp [hfresh, looked] at hphase
      · cases hphase
      · cases hphase
      · simp

theorem run_known (h : run (step ttl) initial as = some s) : Known ttl as s :=
  run_history (known_initial ttl) (fun _ _ _ _ _ hs hstep => known_step hs hstep) h

/-! ## What the cache holds -/

/-- The record that the step has left for `k`, where it is a store. -/
def storedBy (calls : List (Call K V)) (k : K) : Act K V → Option (Stamped V)
  | .store j =>
    match calls[j]? with
    | some ⟨key, now, .returned v⟩ => if key = k then some ⟨v, now⟩ else none
    | _ => none
  | _ => none

/-- The record of the last of the stores for `k`, whenever it began. -/
def lastStored (calls : List (Call K V)) (as : List (Act K V)) (k : K) : Option (Stamped V) :=
  (as.filterMap (storedBy calls k)).getLast?

/-- The calls that have stored have returned. -/
def Stores (as : List (Act K V)) (s : State K V) : Prop :=
  ∀ j, Act.store j ∈ as → ∃ c v, s.calls[j]? = some c ∧ c.phase = .returned v

theorem storedBy_step (hs : Stores as s) (h : step ttl s a = some s') {b : Act K V} (hb : b ∈ as) :
    storedBy s'.calls k b = storedBy s.calls k b := by
  cases b with
  | store j =>
    obtain ⟨c, v, hc, hphase⟩ := hs j hb
    rw [storedBy, storedBy, hc, step_returned h hc hphase]
  | _ => rfl

theorem get?_step (h : step ttl s a = some s') : s'.cache.get? k = (storedBy s'.calls k a).or (s.cache.get? k) := by
  obtain ⟨key, now, rfl, rfl⟩ | ⟨i, c, next, hi, hc, hnext, rfl⟩ := step_cases h
  · rfl
  · have hself := put_calls_self s hc next
    obtain ⟨rfl, _, rfl⟩ | ⟨v, rfl, _, rfl⟩ | ⟨v, rfl, _, rfl⟩ | ⟨rfl, _, _, rfl⟩ := next_cases hi hnext
    · rfl
    · rfl
    · rw [storedBy, hself]
      show (s.cache.set c.key ⟨v, c.now⟩).get? k = _
      rw [Dict.get?_set]
      by_cases hk : k = c.key
      · simp [hk]
      · simp [hk, Ne.symm hk]
    · rfl

theorem stores_step (hs : Stores as s) (h : step ttl s a = some s') : Stores (as ++ [a]) s' := by
  intro j hj
  rcases List.mem_append.mp hj with hj | hj
  · obtain ⟨c, v, hc, hphase⟩ := hs j hj
    exact ⟨c, v, step_returned h hc hphase, hphase⟩
  · obtain rfl := List.mem_singleton.mp hj
    obtain ⟨_, _, hstart, _⟩ | ⟨i, c, next, hi, hc, hnext, rfl⟩ := step_cases h
    · cases hstart
    · cases hi
      obtain ⟨ha, _⟩ | ⟨_, ha, _⟩ | ⟨v, _, _, rfl⟩ | ⟨ha, _⟩ := next_cases rfl hnext
      · cases ha
      · cases ha
      · exact ⟨_, v, put_calls_self s hc _, rfl⟩
      · cases ha

/-- Of the stores for one key the last one stands, though another call may have begun later. -/
theorem run_cache (h : run (step ttl) initial as = some s) (k : K) : s.cache.get? k = lastStored s.calls as k := by
  have hinv : Stores as s ∧ ∀ k, s.cache.get? k = lastStored s.calls as k := by
    refine run_history (I := fun as s => Stores as s ∧ ∀ k, s.cache.get? k = lastStored s.calls as k)
      ⟨by simp [Stores], fun _ => rfl⟩ ?_ h
    rintro as s a s' _ ⟨hs, hcache⟩ hstep
    refine ⟨stores_step hs hstep, fun k => ?_⟩
    have hold : as.filterMap (storedBy s'.calls k) = as.filterMap (storedBy s.calls k) :=
      List.filterMap_congr fun b hb => storedBy_step hs hstep hb
    rw [get?_step hstep, hcache k, lastStored, lastStored, List.filterMap_append, hold]
    cases hstored : storedBy s'.calls k a with
    | none => simp [hstored]
    | some r => simp [hstored]
  exact hinv.2 k

end ReadThrough
