import RdpProxy.Lib.Steps

/-!
# The connection limit of the relay

`_limited_handler` asks a semaphore, and `_settings_listener` moves the limit while
connections come and go.
-/

open Steps

namespace RdpProxy.Relay

structure Limiter where
  /-- The counter of `conn_semaphore`. -/
  value : Nat
  /-- `conn_limit[0]` -/
  connLimit : Int
  /-- The connections that the handler is at. -/
  active : Nat
  /-- By how much the limit has been lowered so far, in all. -/
  lowered : Nat

inductive LimiterAct where
  | arrive
  | leave
  /-- A settings change with this `max_connections`. -/
  | settings (newMax : Int)

namespace Limiter

/-- `asyncio.Semaphore` takes no negative value. -/
def initial (maxConn : Nat) : Limiter := ⟨maxConn, maxConn, 0, 0⟩

/-- `conn_semaphore.locked()`. Nobody ever waits for it: a connection that does not get a
permit at once is turned away. -/
def locked (s : Limiter) : Bool := s.value = 0

def acquire (s : Limiter) : Limiter := { s with value := s.value - 1 }

def release (s : Limiter) : Limiter := { s with value := s.value + 1 }

def settingsListener (s : Limiter) (newMax : Int) : Limiter :=
  if newMax ≠ s.connLimit then
    let diff := newMax - s.connLimit
    let s' := { s with connLimit := newMax, lowered := s.lowered + (-diff).toNat }
    if diff > 0 then Nat.repeat release diff.toNat s' else s'
  else s

def step (s : Limiter) : LimiterAct → Option Limiter
  | .arrive => if s.locked then some s else some { s.acquire with active := s.active + 1 }
  | .leave => if 0 < s.active then some { s.release with active := s.active - 1 } else none
  | .settings newMax => some (s.settingsListener newMax)

/-! ## Admission -/

/-- A connection that is admitted now is within the limit. -/
def AdmitsWithin (s : Limiter) : LimiterAct → Prop
  | .arrive => s.locked = false → (s.active + 1 : Int) ≤ s.connLimit
  | _ => True

/-- No connection arrives while the active ones are as many as the limit allows, and fewer
than it would allow without the decreases so far. -/
def ArrivesClear (s : Limiter) : LimiterAct → Prop
  | .arrive => ¬ (s.connLimit ≤ s.active ∧ (s.active : Int) < s.connLimit + s.lowered)
  | _ => True

instance (s : Limiter) (a : LimiterAct) : Decidable (s.ArrivesClear a) := by
  unfold ArrivesClear
  split <;> infer_instance

/-- Free permits and active connections make up the limit and all its decreases. -/
def Balanced (s : Limiter) : Prop := (s.value + s.active : Int) = s.connLimit + s.lowered

theorem repeat_release (n : Nat) (s : Limiter) : Nat.repeat release n s = { s with value := s.value + n } := by
  induction n with
  | zero => rfl
  | succ n ih =>
    rw [Nat.repeat, ih]
    rfl

theorem settings_balanced {s : Limiter} (h : s.Balanced) (newMax : Int) : (s.settingsListener newMax).Balanced := by
  unfold Balanced at h ⊢
  unfold settingsListener
  split
  · dsimp only
    split_ifs
    · rw [repeat_release]
      dsimp only
      omega
    · dsimp only
      omega
  · exact h

theorem step_balanced (s : Limiter) (a : LimiterAct) (s' : Limiter) (hs : s.Balanced) (h : s.step a = some s') :
    s'.Balanced := by
  cases a with
  | arrive =>
    simp only [step, locked, decide_eq_true_eq] at h
    split_ifs at h with hl
    · cases h; exact hs
    · cases h
      unfold Balanced acquire at *
      simp only
      omega
  | leave =>
    simp only [step] at h
    split_ifs at h with ha
    cases h
    unfold Balanced release at *
    simp only
    omega
  | settings newMax => cases h; exact settings_balanced hs newMax

theorem admitsWithin_iff {s : Limiter} (hs : s.Balanced) (a : LimiterAct) : s.AdmitsWithin a ↔ s.ArrivesClear a := by
  unfold Balanced at hs
  cases a with
  | arrive =>
    simp only [AdmitsWithin, ArrivesClear, locked, decide_eq_false_iff_not]
    omega
  | leave => exact Iff.rfl
  | settings newMax => exact Iff.rfl

theorem admits_within_iff (maxConn : Nat) (acts : List LimiterAct) (s : Limiter)
    (hrun : run step (initial maxConn) acts = some s) :
    Along step AdmitsWithin (initial maxConn) acts ↔ Along step ArrivesClear (initial maxConn) acts := by
  apply along_congr (I := Balanced) step_balanced ?_ hrun
  · simp [Balanced, initial]
  · intro s a _ hs _
    exact admitsWithin_iff hs a

/-! ### A limit lowered below the active connections -/

/-- Two connections, a limit lowered from three to one, and a third connection. -/
def lowerThenArrive : List LimiterAct := [.arrive, .arrive, .settings 1, .arrive]

theorem admitted_above_limit :
    ∃ s, run step (initial 3) lowerThenArrive = some s ∧ s.active = 3 ∧ s.connLimit = 1 :=
  ⟨_, rfl, rfl, rfl⟩

def raiseThenArrive : List LimiterAct := [.arrive, .arrive, .settings 4, .arrive, .arrive, .arrive, .leave, .arrive]

theorem admits_within_raised :
    ∃ s, run step (initial 2) raiseThenArrive = some s ∧ Along step AdmitsWithin (initial 2) raiseThenArrive :=
  ⟨_, rfl, (admits_within_iff 2 raiseThenArrive _ rfl).mpr (by decide)⟩

end Limiter

end RdpProxy.Relay
