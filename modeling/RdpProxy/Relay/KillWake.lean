import RdpProxy.Relay.Pipe

/-!
# Waking the relay up for a kill

The kill event is looked at only at the top of a pipe's loop. Two pipes that are both
suspended in `reader.read` do not come back there by themselves.
-/

open Words Steps

namespace RdpProxy.Relay

namespace RelayState

variable {P : Type} [RdpPlugin P] {ctx : SessionContext} {s s' : RelayState P} {d : Direction}

def Returned (s : RelayState P) : Prop := ∃ result, s.main = .returned result

/-- Both pipes are suspended in a read with nothing to return, and neither has ended. -/
def Asleep (s : RelayState P) : Prop :=
  s.main = .waiting ∧ ∀ d, (s.leg d).phase = .reading ∧ (s.conn d.source).Silent

/-! ## Asleep -/

theorem turn_silent (h : (s.leg d).phase = .reading) (hs : (s.conn d.source).Silent) (now : Rat) (accepted : Nat) :
    s.turn ctx d now accepted = none := by
  obtain ⟨hbuffer, heof, herror⟩ := hs
  rw [Option.isNone_iff_eq_none] at herror
  simp only [turn, h, resumeRead, hbuffer, ne_eq, not_true, if_false, herror, heof]
  rfl

omit [RdpPlugin P] in
theorem reasonOf_reading (h : (s.leg d).phase = .reading) : s.reasonOf d = none := by rw [reasonOf, h]

theorem asleep_step (a : Act) (h : s.Asleep) (ha : a.Internal) (hstep : step ctx s a = some s') : s'.Asleep := by
  obtain ⟨hmain, hlegs⟩ := h
  cases step_moves hstep with
  | feed _ => exact absurd ha id
  | eof _ => exact absurd ha id
  | closed => exact absurd ha id
  | @flush side n _ =>
    refine ⟨hmain, fun d => ⟨(hlegs d).1, ?_⟩⟩
    have hsilent := (hlegs d).2
    by_cases hd : d.source = side
    · subst hd
      simpa [setConn, Conn.Silent, Conn.flush] using hsilent
    · simpa [setConn, hd] using hsilent
  | aborted hnot => exact absurd hmain hnot
  | @turn d _ _ _ hturn =>
    rw [turn_silent (hlegs d).1 (hlegs d).2] at hturn
    exact absurd hturn (by simp)
  | poll _ => exact ⟨hmain, hlegs⟩
  | kill => exact ⟨hmain, hlegs⟩
  | mainWake _ d hdone =>
    rw [reasonOf_reading (hlegs d).1] at hdone
    exact absurd hdone (by simp)
  | mainReturn hgather _ _ =>
    rw [hmain] at hgather
    exact absurd hgather (by simp)

theorem asleep_cannot_return (h : s.Asleep) : ¬ CanReach (step ctx) Act.Internal s Returned := by
  refine not_canReach_of_trap (T := Asleep) (fun s a s' ht ha hs => asleep_step a ht ha hs) ?_ h
  rintro s ⟨hmain, _⟩ ⟨result, hret⟩
  rw [hmain] at hret
  exact absurd hret (by simp)

/-! ## Awake -/

/-- The leg is done, and the rest of the control state is that of `s`. -/
structure Ended (d : Direction) (s s' : RelayState P) : Prop where
  frame : Frame d s s'
  done : (s'.reasonOf d).isSome = true

omit [RdpPlugin P] in
theorem Frame.trans {s'' : RelayState P} (h : Frame d s s') (h' : Frame d s' s'') : Frame d s s'' :=
  ⟨h'.killEvent.trans h.killEvent, h'.main.trans h.main, h'.checkerKilled.trans h.checkerKilled,
    h'.other.trans h.other⟩

omit [RdpPlugin P] in
theorem setConn_frame (s : RelayState P) (d : Direction) (side : Side) (c : Conn) : Frame d s (s.setConn side c) :=
  ⟨rfl, rfl, rfl, rfl⟩

theorem ended_step {a : Act} (hstep : step ctx s a = some s') (ha : a.Internal) (hf : Frame d s s')
    (h : CanReach (step ctx) Act.Internal s' (Ended d s')) : CanReach (step ctx) Act.Internal s (Ended d s) := by
  refine CanReach.cons ha hstep (CanReach.trans h ?_)
  intro s'' he
  exact CanReach.now ⟨hf.trans he.frame, he.done⟩

theorem ended_of_done {r : String} (h : (s.leg d).phase = .done r) : CanReach (step ctx) Act.Internal s (Ended d s) :=
  CanReach.now ⟨⟨rfl, rfl, rfl, rfl⟩, by rw [reasonOf, h]; rfl⟩

theorem ended_of_atTop (hk : s.killEvent = true) (h : (s.leg d).phase = .atTop) :
    CanReach (step ctx) Act.Internal s (Ended d s) := by
  have hturn : step ctx s (.turn d 0 0) = some (s.setPhase d (.done "killed")) := by
    simp only [step, turn, h, hk, if_true]
  exact ended_step hturn trivial (setPhase_frame s d _) (ended_of_done (setPhase_phase s d _))

theorem ended_of_drained (hk : s.killEvent = true) (h : (s.leg d).phase = .draining)
    (hwoken : (s.conn d.sink).paused = false ∨ (s.conn d.sink).lost = true) :
    CanReach (step ctx) Act.Internal s (Ended d s) := by
  have hturn : ∃ phase, step ctx s (.turn d 0 0) = some (s.setPhase d phase) ∧
      (phase = .atTop ∨ ∃ r, phase = .done r) := by
    simp only [step, turn, h, resumeDrain]
    by_cases hpaused : (s.conn d.sink).paused = true
    · have hlost : (s.conn d.sink).lost = true := by
        rcases hwoken with hw | hw
        · rw [hw] at hpaused; exact absurd hpaused (by simp)
        · exact hw
      rw [if_pos hpaused, if_pos hlost]
      cases (s.conn d.sink).error with
      | some e => exact ⟨_, rfl, Or.inr ⟨_, rfl⟩⟩
      | none => exact ⟨_, rfl, Or.inl rfl⟩
    · rw [if_neg hpaused]
      exact ⟨_, rfl, Or.inl rfl⟩
  obtain ⟨phase, hturn, hphase⟩ := hturn
  apply ended_step hturn trivial (setPhase_frame s d _)
  rcases hphase with rfl | ⟨r, rfl⟩
  · exact ended_of_atTop (by exact hk) (setPhase_phase s d _)
  · exact ended_of_done (setPhase_phase s d _)

theorem ended_of_draining (hk : s.killEvent = true) (h : (s.leg d).phase = .draining) :
    CanReach (step ctx) Act.Internal s (Ended d s) := by
  by_cases hlost : (s.conn d.sink).lost = true
  · exact ended_of_drained hk h (Or.inr hlost)
  · rw [Bool.not_eq_true] at hlost
    by_cases hmain : s.main = .waiting
    · -- The whole write buffer goes out.
      have hflush : step ctx s (.flush d.sink (s.conn d.sink).pending) =
          some (s.setConn d.sink ((s.conn d.sink).flush (s.conn d.sink).pending)) := by
        simp only [step, hmain, hlost, true_and, if_true]
      refine ended_step hflush trivial (setConn_frame s d _ _) (ended_of_drained hk h (Or.inl ?_))
      simp [setConn, Conn.flush]
    · -- The connection was aborted, and `connection_lost` is yet to come.
      have haborted : step ctx s (.aborted d.sink) =
          some (s.setConn d.sink ((s.conn d.sink).connectionLost none)) := by
        simp only [step, ne_eq, hmain, hlost, not_false_eq_true, true_and, if_true]
      refine ended_step haborted trivial (setConn_frame s d _ _) (ended_of_drained hk h (Or.inr ?_))
      simp [setConn, Conn.connectionLost]

theorem ended_of_reading (hk : s.killEvent = true) (h : (s.leg d).phase = .reading)
    (hs : ¬ (s.conn d.source).Silent) : CanReach (step ctx) Act.Internal s (Ended d s) := by
  by_cases hbuffer : (s.conn d.source).buffer = []
  · cases herror : (s.conn d.source).error with
    | some e =>
      have hturn : step ctx s (.turn d 0 0) = some (s.setPhase d (.done e.reason)) := by
        simp only [step, turn, h, resumeRead, hbuffer, ne_eq, not_true, if_false, herror]
      exact ended_step hturn trivial (setPhase_frame s d _) (ended_of_done (setPhase_phase s d _))
    | none =>
      have heof : (s.conn d.source).eof = true := by
        by_contra hno
        rw [Bool.not_eq_true] at hno
        exact hs ⟨hbuffer, hno, by rw [herror]; rfl⟩
      have hturn : step ctx s (.turn d 0 0) = some (s.setPhase d (.done "eof")) := by
        simp only [step, turn, h, resumeRead, hbuffer, ne_eq, not_true, if_false, herror, heof, if_true]
      exact ended_step hturn trivial (setPhase_frame s d _) (ended_of_done (setPhase_phase s d _))
  · have hturn : step ctx s (.turn d 0 0) = some (s.deliver ctx d 0 0) := by
      simp only [step, turn, h, resumeRead, ne_eq, hbuffer, not_false_eq_true, if_true]
    obtain ⟨hframe, hphase⟩ := deliver_spec ctx s d 0 0
    have hk' : (s.deliver ctx d 0 0).killEvent = true := hframe.killEvent.trans hk
    apply ended_step hturn trivial hframe
    rcases hphase with hphase | hphase | ⟨e, hphase⟩
    · exact ended_of_atTop hk' hphase
    · exact ended_of_draining hk' hphase
    · exact ended_of_done hphase

theorem ended_of_awake (hk : s.killEvent = true) (h : ¬ ((s.leg d).phase = .reading ∧ (s.conn d.source).Silent)) :
    CanReach (step ctx) Act.Internal s (Ended d s) := by
  cases hphase : (s.leg d).phase with
  | atTop => exact ended_of_atTop hk hphase
  | reading => exact ended_of_reading hk hphase fun hs => h ⟨hphase, hs⟩
  | draining => exact ended_of_draining hk hphase
  | done r => exact ended_of_done hphase

/-- Once the connections are aborted every leg does, for `connection_lost` ends its reader. -/
theorem ended_of_gathering (hmain : s.main ≠ .waiting) (hk : s.killEvent = true) (d : Direction) :
    CanReach (step ctx) Act.Internal s (Ended d s) := by
  by_cases h : (s.leg d).phase = .reading ∧ (s.conn d.source).Silent
  · obtain ⟨hphase, _, heof, herror⟩ := h
    have hlost : (s.conn d.source).lost = false := by
      by_contra hl
      rw [Bool.not_eq_false] at hl
      rcases (s.conn d.source).ends hl with he | he
      · rw [heof] at he; exact absurd he (by simp)
      · rw [Option.isNone_iff_eq_none] at herror
        rw [herror] at he
        exact absurd he (by simp)
    have haborted : step ctx s (.aborted d.source) =
        some (s.setConn d.source ((s.conn d.source).connectionLost none)) := by
      simp only [step, ne_eq, hmain, hlost, not_false_eq_true, true_and, if_true]
    refine ended_step haborted trivial (setConn_frame s d _ _) (ended_of_reading (by exact hk) hphase ?_)
    simp [setConn, Conn.connectionLost, Conn.Silent]
  · exact ended_of_awake hk h

theorem returns_of_gathering (hmain : s.main = .gathering) (hk : s.killEvent = true) :
    CanReach (step ctx) Act.Internal s Returned := by
  apply CanReach.trans (ended_of_gathering (by rw [hmain]; simp) hk .clientToBackend)
  intro s₁ h₁
  have hmain₁ : s₁.main = .gathering := h₁.frame.main.trans hmain
  apply CanReach.trans (ended_of_gathering (by rw [hmain₁]; simp) (h₁.frame.killEvent.trans hk) .backendToClient)
  intro s₂ h₂
  have hmain₂ : s₂.main = .gathering := h₂.frame.main.trans hmain₁
  have hother : s₂.leg .clientToBackend = s₁.leg .clientToBackend := h₂.frame.other
  have hdone : s₂.reasonOf .clientToBackend = s₁.reasonOf .clientToBackend := by
    unfold reasonOf
    rw [hother]
  obtain ⟨r1, hr1⟩ := Option.isSome_iff_exists.mp h₁.done
  obtain ⟨r2, hr2⟩ := Option.isSome_iff_exists.mp h₂.done
  have hreturn : ∃ s', step ctx s₂ .mainReturn = some s' ∧ s'.Returned := by
    simp only [step, mainReturn, hmain₂, if_true, hdone, hr1, hr2]
    exact ⟨_, rfl, _, rfl⟩
  obtain ⟨s', hstep, hret⟩ := hreturn
  exact CanReach.cons (by exact trivial : Act.Internal .mainReturn) hstep (CanReach.now hret)

theorem returns_of_waiting (hmain : s.main = .waiting) (hd : (s.reasonOf d).isSome = true) :
    CanReach (step ctx) Act.Internal s Returned := by
  have hdone : (s.reasonOf .clientToBackend).isSome = true ∨ (s.reasonOf .backendToClient).isSome = true := by
    cases d with
    | clientToBackend => exact Or.inl hd
    | backendToClient => exact Or.inr hd
  obtain ⟨s', hstep, hmain', hk'⟩ : ∃ s', step ctx s .mainWake = some s' ∧ s'.main = .gathering ∧
      s'.killEvent = true := by
    simp only [step, mainWake, hmain, hdone, true_and, if_true]
    exact ⟨_, rfl, rfl, rfl⟩
  exact CanReach.cons (by exact trivial : Act.Internal .mainWake) hstep (returns_of_gathering hmain' hk')

/-! ## Runs -/

theorem step_killEvent (s : RelayState P) (a : Act) (s' : RelayState P)
    (hinv : s.checkerKilled = true → s.killEvent = true) (hstep : step ctx s a = some s') :
    s'.checkerKilled = true → s'.killEvent = true := by
  cases step_moves hstep with
  | turn hturn =>
    rw [(turn_frame hturn).checkerKilled, (turn_frame hturn).killEvent]
    exact hinv
  | kill => exact fun _ => rfl
  | mainWake _ _ _ => exact fun _ => rfl
  | _ => exact hinv

/-- A kill brings the relay to return by its own steps exactly when the pipes are not both asleep. -/
theorem kill_returns_iff (ctx : SessionContext) (conn : Side → Conn) (registry : PluginRegistry P)
    (s : RelayState P) (hreach : Reachable (step ctx) (initial conn registry) s) (hkilled : s.checkerKilled = true) :
    CanReach (step ctx) Act.Internal s Returned ↔ ¬ s.Asleep := by
  have hk : s.killEvent = true :=
    hreach.inv (I := fun s => s.checkerKilled = true → s.killEvent = true) step_killEvent
      (fun h => absurd h (by simp [initial])) hkilled
  refine ⟨fun h hs => asleep_cannot_return hs h, fun hawake => ?_⟩
  cases hmain : s.main with
  | returned result => exact CanReach.now ⟨result, hmain⟩
  | gathering => exact returns_of_gathering hmain hk
  | waiting =>
    obtain ⟨d, hd⟩ : ∃ d, ¬ ((s.leg d).phase = .reading ∧ (s.conn d.source).Silent) := by
      by_contra hall
      exact hawake ⟨hmain, fun d => by_contra fun hd => hall ⟨d, hd⟩⟩
    apply CanReach.trans (ended_of_awake hk hd)
    intro s' h'
    exact returns_of_waiting (h'.frame.main.trans hmain) h'.done

end RelayState

/-! ## Two silent peers -/

/-- The checker returns True while both pipes are suspended in their reads. -/
def silentKill : List Act :=
  [.turn .clientToBackend 0 0, .turn .backendToClient 0 0, .pollTop, .checked (some true)]

def busyKill : List Act :=
  [.turn .clientToBackend 0 0, .turn .backendToClient 0 0, .feed .client [0x03], .pollTop, .checked (some true)]

theorem silent_session_survives_kill : ∃ s, run (RelayState.step idleContext) idleRelay silentKill = some s ∧
    s.checkerKilled = true ∧ ¬ CanReach (RelayState.step idleContext) Act.Internal s RelayState.Returned := by
  obtain ⟨s, hrun, hkilled, hasleep⟩ : ∃ s, run (RelayState.step idleContext) idleRelay silentKill = some s ∧
      s.checkerKilled = true ∧ s.Asleep :=
    ⟨_, rfl, rfl, rfl, fun d => by cases d <;> exact ⟨rfl, rfl, rfl, rfl⟩⟩
  exact ⟨s, hrun, hkilled, RelayState.asleep_cannot_return hasleep⟩

theorem busy_session_returns : ∃ s, run (RelayState.step idleContext) idleRelay busyKill = some s ∧
    CanReach (RelayState.step idleContext) Act.Internal s RelayState.Returned := by
  obtain ⟨s, hrun, hkilled, hbuffer⟩ : ∃ s, run (RelayState.step idleContext) idleRelay busyKill = some s ∧
      s.checkerKilled = true ∧ (s.conn .client).buffer = [0x03] := ⟨_, rfl, rfl, rfl⟩
  refine ⟨s, hrun, (RelayState.kill_returns_iff idleContext (fun _ => idleConn) (runServerPlugins 3600 0) s
    ⟨_, hrun⟩ hkilled).mpr ?_⟩
  rintro ⟨_, hlegs⟩
  have hsilent : (s.conn .client).buffer = [] := (hlegs .clientToBackend).2.1
  rw [hbuffer] at hsilent
  exact absurd hsilent (by simp)

end RdpProxy.Relay
