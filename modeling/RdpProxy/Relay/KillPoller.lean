import Mathlib.Data.Nat.Find
import RdpProxy.Relay.Pipe

/-!
# The kill poller (`_kill_poller`)

Nobody awaits the task of the poller, so a check that raises ends it without a word.
-/

open Steps

namespace RdpProxy.Relay

/-! ## The checker of the handler -/

/-- What one call of `_kill_requested` meets. Without a `flag` the lookup in Redis raises. -/
structure Check where
  flag : Option (Option String)
  monitor : Option SessionMonitorPlugin
  idleNow : Rat
  durationNow : Rat

/-- `_kill_requested`, with no result where it raises. -/
def killRequested (c : Check) : Option Bool :=
  match c.flag with
  | none => none
  | some value =>
    if value.any (· ≠ "") then some true
    else
      match c.monitor with
      | none => some false
      | some monitor =>
        if monitor.isIdle c.idleNow then some true
        else if monitor.isDurationExceeded c.durationNow then some true
        else some false

/-! ## A relay whose checks end as they are told -/

/-- The relay, and the checks that have ended. -/
structure Watched (P : Type) where
  relay : RelayState P
  checks : Nat

def Act.OfPoller : Act → Prop
  | .pollTop | .checked _ | .pollWake => True
  | _ => False

namespace Watched

variable {P : Type} [RdpPlugin P] {ctx : SessionContext} {outcome : Nat → Option Bool} {w w' : Watched P} {a : Act}

/-- Check number `i` ends with `outcome i`, which is `none` where it raises. -/
def step (ctx : SessionContext) (outcome : Nat → Option Bool) (w : Watched P) : Act → Option (Watched P)
  | .checked killed =>
    if killed = outcome w.checks then (w.relay.checked killed).map (⟨·, w.checks + 1⟩) else none
  | a => (w.relay.step ctx a).map (⟨·, w.checks⟩)

/-- The kill event is set once a check has returned True and not before, and until then the poller comes to
every later check by its own steps. -/
structure PollsOn (ctx : SessionContext) (outcome : Nat → Option Bool) (w : Watched P) : Prop where
  kill : w.relay.killEvent = true ↔ ∃ i < w.checks, outcome i = some true
  next (n : Nat) : w.checks ≤ n → (∀ i < n, outcome i ≠ some true) →
    CanReach (step ctx outcome) Act.OfPoller w fun w' => w'.relay.main = .waiting ∧ w'.checks = n + 1

/-! ## One step -/

/-- What a step of a relay that still runs behind it does to the poller. -/
inductive Polled (outcome : Nat → Option Bool) (w w' : Watched P) : Prop where
  | other (kill : w'.relay.killEvent = w.relay.killEvent) (poller : w'.relay.poller = w.relay.poller)
      (checks : w'.checks = w.checks)
  | move (kill : w'.relay.killEvent = w.relay.killEvent)
      (poller : w'.relay.poller = .stopped → w.relay.killEvent = true) (moves : w.relay.poller ≠ .stopped)
      (checks : w'.checks = w.checks)
  | check (checking : w.relay.poller = .checking)
      (kill : w'.relay.killEvent = true ↔ w.relay.killEvent = true ∨ outcome w.checks = some true)
      (poller : w'.relay.poller = .stopped ↔ outcome w.checks ≠ some false) (checks : w'.checks = w.checks + 1)

omit [RdpPlugin P] in
theorem checked_polled {killed : Option Bool} {s' : RelayState P} (h : w.relay.checked killed = some s')
    (ho : killed = outcome w.checks) : s'.main = w.relay.main ∧ Polled outcome w ⟨s', w.checks + 1⟩ := by
  unfold RelayState.checked at h
  split at h
  · rename_i hchecking
    rcases killed with _ | _ | _
    · cases h
      exact ⟨rfl, .check hchecking (by simp [← ho]) (by simp [← ho]) rfl⟩
    · cases h
      exact ⟨rfl, .check hchecking (by simp [← ho]) (by simp [← ho]) rfl⟩
    · cases h
      exact ⟨rfl, .check hchecking (by simp [← ho]) (by simp [← ho]) rfl⟩
  · cases h

theorem turn_poller {s s' : RelayState P} {d : Direction} {now : Rat} {accepted : Nat}
    (h : s.turn ctx d now accepted = some s') : s'.poller = s.poller := by
  rcases RelayState.turn_cases h with ⟨_, rfl⟩ | ⟨phase, rfl⟩
  · rfl
  · rfl

theorem relay_polled {s' : RelayState P} (h : w.relay.step ctx a = some s') (hnot : ∀ killed, a ≠ .checked killed)
    (hmain : s'.main = .waiting) : w.relay.main = .waiting ∧ Polled outcome w ⟨s', w.checks⟩ := by
  rcases RelayState.step_moves h with _ | _ | _ | _ | hwait | hturn | ha | _ | _ | _
  · exact ⟨hmain, .other rfl rfl rfl⟩
  · exact ⟨hmain, .other rfl rfl rfl⟩
  · exact ⟨hmain, .other rfl rfl rfl⟩
  · exact ⟨hmain, .other rfl rfl rfl⟩
  · exact absurd hmain hwait
  · have hframe := RelayState.turn_frame hturn
    exact ⟨hframe.main.symm.trans hmain, .other hframe.killEvent (turn_poller hturn) rfl⟩
  · refine ⟨hmain, ?_⟩
    rcases ha with rfl | rfl | ⟨killed, rfl⟩
    · simp only [RelayState.step, RelayState.pollTop] at h
      split at h
      · rename_i htop
        simp only [Option.some.injEq] at h
        refine .move rfl ?_ (by simp [htop]) rfl
        rw [← h]
        simp
      · cases h
    · simp only [RelayState.step, RelayState.pollWake] at h
      split at h
      · rename_i hsleeping
        simp only [Option.some.injEq] at h
        refine .move rfl ?_ (by simp [hsleeping]) rfl
        rw [← h]
        simp
      · cases h
    · exact absurd rfl (hnot killed)
  · exact absurd rfl (hnot _)
  · cases hmain
  · cases hmain

theorem step_polled (h : step ctx outcome w a = some w') (hmain : w'.relay.main = .waiting) :
    w.relay.main = .waiting ∧ Polled outcome w w' := by
  rcases Classical.em (∃ killed, a = .checked killed) with ⟨killed, rfl⟩ | hnot
  · simp only [step] at h
    split_ifs at h with ho
    obtain ⟨s', hs, rfl⟩ := Option.map_eq_some_iff.mp h
    obtain ⟨hsame, hpolled⟩ := checked_polled hs ho
    exact ⟨hsame.symm.trans hmain, hpolled⟩
  · rw [not_exists] at hnot
    have hother : step ctx outcome w a = (w.relay.step ctx a).map (⟨·, w.checks⟩) := by
      unfold step
      split
      · exact absurd rfl (hnot _)
      · rfl
    rw [hother] at h
    obtain ⟨s', hs, rfl⟩ := Option.map_eq_some_iff.mp h
    exact relay_polled hs hnot hmain

/-! ## Runs -/

/-- While the relay runs, the kill event tells whether a check has returned True, and the poller has
stopped only at a check that returned True or raised. -/
structure Follows (outcome : Nat → Option Bool) (w : Watched P) : Prop where
  kill : w.relay.killEvent = true ↔ ∃ i < w.checks, outcome i = some true
  stopped : w.relay.poller = .stopped → ∃ i < w.checks, outcome i ≠ some false

omit [RdpPlugin P] in
theorem polled_follows (hpolled : Polled outcome w w') (h : Follows outcome w) : Follows outcome w' := by
  obtain ⟨hkill, hstopped⟩ := h
  rcases hpolled with ⟨hk, hp, hc⟩ | ⟨hk, hp, _, hc⟩ | ⟨_, hk, hp, hc⟩
  · exact ⟨by rw [hk, hc]; exact hkill, by rw [hp, hc]; exact hstopped⟩
  · refine ⟨by rw [hk, hc]; exact hkill, fun hs => ?_⟩
    obtain ⟨i, hi, htrue⟩ := hkill.mp (hp hs)
    exact ⟨i, by omega, by simp [htrue]⟩
  · constructor
    · rw [hk, hkill, hc]
      constructor
      · rintro (⟨i, hi, htrue⟩ | htrue)
        · exact ⟨i, by omega, htrue⟩
        · exact ⟨w.checks, by omega, htrue⟩
      · rintro ⟨i, hi, htrue⟩
        rcases Nat.lt_succ_iff_lt_or_eq.mp hi with hlt | rfl
        · exact Or.inl ⟨i, hlt, htrue⟩
        · exact Or.inr htrue
    · intro hs
      exact ⟨w.checks, by omega, hp.mp hs⟩

theorem reachable_follows {conn : Side → Conn} {registry : PluginRegistry P}
    (h : Reachable (step ctx outcome) ⟨.initial conn registry, 0⟩ w) (hmain : w.relay.main = .waiting) :
    Follows outcome w := by
  refine h.inv (I := fun w => w.relay.main = .waiting → Follows outcome w) ?_ ?_ hmain
  · intro w a w' hi hstep hmain'
    obtain ⟨hwaiting, hpolled⟩ := step_polled hstep hmain'
    exact polled_follows hpolled (hi hwaiting)
  · intro _
    exact ⟨by simp [RelayState.initial], fun hs => by cases hs⟩

/-! ## The next check -/

theorem reaches_checking_of_atTop (hmain : w.relay.main = .waiting) (hkill : w.relay.killEvent = false)
    (htop : w.relay.poller = .atTop) :
    CanReach (step ctx outcome) Act.OfPoller w fun w' => w'.relay.main = .waiting ∧
      w'.relay.killEvent = false ∧ w'.relay.poller = .checking ∧ w'.checks = w.checks := by
  have hstep : step ctx outcome w .pollTop = some ⟨{ w.relay with poller := .checking }, w.checks⟩ := by
    simp [step, RelayState.step, RelayState.pollTop, htop, hkill]
  exact CanReach.cons (by exact trivial) hstep (CanReach.now ⟨hmain, hkill, rfl, rfl⟩)

theorem reaches_checking (hmain : w.relay.main = .waiting) (hkill : w.relay.killEvent = false)
    (hpoller : w.relay.poller ≠ .stopped) :
    CanReach (step ctx outcome) Act.OfPoller w fun w' => w'.relay.main = .waiting ∧
      w'.relay.killEvent = false ∧ w'.relay.poller = .checking ∧ w'.checks = w.checks := by
  rcases hphase : w.relay.poller with _ | _ | _ | _
  · exact reaches_checking_of_atTop hmain hkill hphase
  · exact CanReach.now ⟨hmain, hkill, hphase, rfl⟩
  · have hstep : step ctx outcome w .pollWake = some ⟨{ w.relay with poller := .atTop }, w.checks⟩ := by
      simp [step, RelayState.step, RelayState.pollWake, hphase]
    refine CanReach.cons (by exact trivial) hstep ?_
    exact reaches_checking_of_atTop (w := ⟨{ w.relay with poller := .atTop }, w.checks⟩) hmain hkill rfl
  · exact absurd hphase hpoller

theorem reaches_checked (hmain : w.relay.main = .waiting) (hkill : w.relay.killEvent = false)
    (hpoller : w.relay.poller ≠ .stopped) :
    CanReach (step ctx outcome) Act.OfPoller w fun w' => w'.relay.main = .waiting ∧ w'.checks = w.checks + 1 ∧
      (w'.relay.killEvent = true ↔ outcome w.checks = some true) ∧
      (w'.relay.poller = .stopped ↔ outcome w.checks ≠ some false) := by
  refine (reaches_checking hmain hkill hpoller).trans ?_
  rintro w₁ ⟨hmain₁, hkill₁, hchecking, hchecks⟩
  obtain ⟨s', hs⟩ : ∃ s', w₁.relay.checked (outcome w₁.checks) = some s' := by
    unfold RelayState.checked
    rw [if_pos hchecking]
    rcases outcome w₁.checks with _ | _ | _ <;> exact ⟨_, rfl⟩
  have hstep : step ctx outcome w₁ (.checked (outcome w₁.checks)) = some ⟨s', w₁.checks + 1⟩ := by
    simp only [step, if_true]
    rw [hs]
    rfl
  refine CanReach.cons (by exact trivial) hstep (CanReach.now ?_)
  obtain ⟨hsame, hpolled⟩ := checked_polled hs rfl
  rcases hpolled with ⟨_, _, hc⟩ | ⟨_, _, _, hc⟩ | ⟨_, hk, hp, _⟩
  · simp at hc
  · simp at hc
  · rw [hkill₁, hchecks] at hk
    rw [hchecks] at hp
    exact ⟨hsame.trans hmain₁, by rw [hchecks], by simpa using hk, hp⟩

theorem reaches_check (hmain : w.relay.main = .waiting) (hkill : w.relay.killEvent = false)
    (hpoller : w.relay.poller ≠ .stopped) (m : Nat) (hfalse : ∀ i < m, outcome (w.checks + i) = some false) :
    CanReach (step ctx outcome) Act.OfPoller w fun w' => w'.relay.main = .waiting ∧ w'.checks = w.checks + m + 1 ∧
      (w'.relay.poller = .stopped ↔ outcome (w.checks + m) ≠ some false) := by
  induction m generalizing w with
  | zero =>
    refine (reaches_checked hmain hkill hpoller).trans ?_
    rintro w' ⟨hmain', hchecks, _, hp⟩
    exact CanReach.now ⟨hmain', hchecks, hp⟩
  | succ m ih =>
    refine (reaches_checked hmain hkill hpoller).trans ?_
    rintro w' ⟨hmain', hchecks, hk, hp⟩
    have hfirst : outcome w.checks = some false := hfalse 0 (by omega)
    have hkill' : w'.relay.killEvent = false := by simpa [hfirst] using hk
    have hpoller' : w'.relay.poller ≠ .stopped := by simpa [hfirst] using hp
    refine (ih hmain' hkill' hpoller' ?_).trans ?_
    · intro i hi
      have hnext := hfalse (i + 1) (by omega)
      rwa [hchecks, Nat.add_assoc, Nat.add_comm 1 i]
    · rintro w'' ⟨hmain'', hchecks', hp'⟩
      have hsum : w'.checks + m = w.checks + (m + 1) := by omega
      rw [hsum] at hchecks' hp'
      exact CanReach.now ⟨hmain'', hchecks', hp'⟩

theorem stopped_step (h : w.relay.poller = .stopped) (ha : a.OfPoller) : step ctx outcome w a = none := by
  rcases a with _ | _ | _ | _ | _ | _ | _ | _ | _ | _ | _
  case pollTop => simp [step, RelayState.step, RelayState.pollTop, h]
  case checked => simp [step, RelayState.checked, h]
  case pollWake => simp [step, RelayState.step, RelayState.pollWake, h]
  all_goals exact absurd ha id

theorem stopped_checks (h : w.relay.poller = .stopped) {n : Nat} (hn : w.checks ≠ n) :
    ¬ CanReach (step ctx outcome) Act.OfPoller w fun w' => w'.relay.main = .waiting ∧ w'.checks = n := by
  refine not_canReach_of_trap (T := fun w' => w'.relay.poller = .stopped ∧ w'.checks = w.checks) ?_ ?_ ⟨h, rfl⟩
  · rintro w₁ a w₂ ⟨hstopped, _⟩ ha hstep
    rw [stopped_step hstopped ha] at hstep
    cases hstep
  · rintro w' ⟨_, hsame⟩ ⟨_, hchecks⟩
    omega

theorem pollsOn_of_follows (h : Follows outcome w) (hmain : w.relay.main = .waiting)
    (hraised : ∀ i, outcome i = none → ∃ j < i, outcome j = some true) : PollsOn ctx outcome w := by
  refine ⟨h.kill, fun n hn htrue => ?_⟩
  have hfalse (i : Nat) (hi : i < n) : outcome i = some false := by
    rcases ho : outcome i with _ | _ | _
    · obtain ⟨j, hj, hjt⟩ := hraised i ho
      exact absurd hjt (htrue j (by omega))
    · rfl
    · exact absurd ho (htrue i hi)
  have hkill : w.relay.killEvent = false := by
    rw [← Bool.not_eq_true, h.kill]
    rintro ⟨i, hi, ho⟩
    exact htrue i (by omega) ho
  have hpoller : w.relay.poller ≠ .stopped := by
    intro hs
    obtain ⟨i, hi, ho⟩ := h.stopped hs
    exact ho (hfalse i (by omega))
  refine (reaches_check hmain hkill hpoller (n - w.checks) fun i hi => hfalse _ (by omega)).trans ?_
  rintro w' ⟨hmain', hchecks, _⟩
  exact CanReach.now ⟨hmain', by omega⟩

theorem exists_first_raise (h : ¬ ∀ i, outcome i = none → ∃ j < i, outcome j = some true) :
    ∃ i, outcome i = none ∧ ∀ j < i, outcome j = some false := by
  obtain ⟨i, hnone, htrue⟩ : ∃ i, outcome i = none ∧ ∀ j < i, outcome j ≠ some true := by
    simpa using h
  have hex : ∃ i, outcome i = none := ⟨i, hnone⟩
  have hle : Nat.find hex ≤ i := Nat.find_min' hex hnone
  refine ⟨Nat.find hex, Nat.find_spec hex, fun j hj => ?_⟩
  rcases ho : outcome j with _ | _ | _
  · exact absurd ho (Nat.find_min hex hj)
  · rfl
  · exact absurd ho (htrue j (by omega))

/-- The poller does what it is there for, in every run of the relay, exactly when no check raises before
the first one that returns True. -/
theorem pollsOn_iff (ctx : SessionContext) (conn : Side → Conn) (registry : PluginRegistry P)
    (outcome : Nat → Option Bool) :
    (∀ w, Reachable (step ctx outcome) ⟨.initial conn registry, 0⟩ w → w.relay.main = .waiting →
      PollsOn ctx outcome w) ↔ ∀ i, outcome i = none → ∃ j < i, outcome j = some true := by
  constructor
  · intro h
    by_contra hnot
    obtain ⟨i, hnone, hfalse⟩ := exists_first_raise hnot
    have hbefore (j : Nat) (hj : j < i) : outcome (0 + j) = some false := by
      rw [Nat.zero_add]
      exact hfalse j hj
    obtain ⟨acts, _, w, hrun, hmain, hchecks, hp⟩ : CanReach (step ctx outcome) Act.OfPoller
        ⟨.initial conn registry, 0⟩ fun w => w.relay.main = .waiting ∧ w.checks = 0 + i + 1 ∧
          (w.relay.poller = .stopped ↔ outcome (0 + i) ≠ some false) :=
      reaches_check rfl rfl (by simp [RelayState.initial]) i hbefore
    rw [Nat.zero_add] at hchecks hp
    have hstopped : w.relay.poller = .stopped := hp.mpr (by simp [hnone])
    have hnext := (h w ⟨acts, hrun⟩ hmain).next (i + 1) (by omega) ?_
    · exact stopped_checks hstopped (by omega) hnext
    · intro j hj
      rcases Nat.lt_succ_iff_lt_or_eq.mp hj with hlt | rfl
      · simp [hfalse j hlt]
      · simp [hnone]
  · intro hraised w hreach hmain
    exact pollsOn_of_follows (reachable_follows hreach hmain) hmain hraised

end Watched

/-! ## A lost connection to Redis -/

/-- Redis is gone at the first check, and an administrator has set the flag when it is back. -/
def lostOnce (i : Nat) : Option Bool :=
  killRequested { flag := if i = 0 then none else some (some "1"), monitor := none, idleNow := 0, durationNow := 0 }

theorem lost_redis_ends_poller : ∃ w,
    run (Watched.step idleContext lostOnce) ⟨idleRelay, 0⟩ [.pollTop, .checked none] = some w ∧
    w.relay.main = .waiting ∧ w.relay.killEvent = false ∧ lostOnce 1 = some true ∧
    ¬ Watched.PollsOn idleContext lostOnce w := by
  refine ⟨_, rfl, rfl, rfl, by decide, fun h => ?_⟩
  have hnext := h.next 1 (Nat.le_refl 1) ?_
  · exact Watched.stopped_checks rfl (by decide) hnext
  · intro i hi
    obtain rfl : i = 0 := by omega
    decide

end RdpProxy.Relay
