import Mathlib.Algebra.Order.Group.Defs
import Mathlib.Algebra.Order.Ring.Rat
import RdpProxy.Lib.Timeline
import RdpProxy.Relay.Process

/-!
# The limits of every session

`SessionMonitorPlugin` keeps one time of the latest activity and one of the latest start, for
all sessions together.
-/

open Words Steps Timeline

namespace RdpProxy.Relay

variable {S : Type}

/-! ## What the times stand for -/

/-- An event that sets back a limit: a start, and for idleness a packet. -/
def Event.resets : Limit → Event S → Bool
  | _, .start _ => true
  | .idle, .packet _ _ _ => true
  | _, _ => false

def limitsIn (idleTimeout maxSessionDuration : Int) : List (Timed S) → Int × Int
  | [] => (idleTimeout, maxSessionDuration)
  | e :: past =>
    match e.event with
    | .updateTimeouts idle duration => (idle, duration)
    | _ => limitsIn idleTimeout maxSessionDuration past

def lastReset (limit : Limit) (history : List (Timed S)) : Option Rat :=
  lastAt Timed.now (fun e => e.event.resets limit) history

structure Monitors (idleTimeout maxSessionDuration : Int) (m : SessionMonitorPlugin) (history : List (Timed S)) :
    Prop where
  timeouts : (m.idleTimeout, m.maxSessionDuration) = limitsIn idleTimeout maxSessionDuration history
  activity : m.lastActivity = (lastReset .idle history).getD 0
  started : m.startedAt = (lastReset .duration history).getD 0

theorem Monitors.after {idle duration : Int} {m : SessionMonitorPlugin} {past : List (Timed S)}
    (h : Monitors idle duration m past) (e : Timed S) : Monitors idle duration (m.after e.now e.event) (e :: past) := by
  obtain ⟨h1, h2, h3⟩ := h
  constructor
  · rw [limitsIn]
    cases e.event with
    | updateTimeouts idle' duration' => rfl
    | _ => exact h1
  · rw [lastReset, lastAt_cons]
    cases e.event with
    | start s => rfl
    | packet s d data => rfl
    | _ => exact h2
  · rw [lastReset, lastAt_cons]
    cases e.event with
    | start s => rfl
    | _ => exact h3

variable {ctx : S → SessionContext} {idle duration : Int}

def MonitorFollows (idle duration : Int) (p : Process S) : Prop :=
  Sorted Timed.now p.history ∧
    ∃ m mon q, p.plugins = relayRegistry m mon q ∧ Monitors idle duration mon p.history

theorem initial_monitorFollows : MonitorFollows idle duration (Process.initial (S := S) idle duration) :=
  ⟨List.Pairwise.nil, {}, { idleTimeout := idle, maxSessionDuration := duration }, {}, rfl, rfl, rfl, rfl⟩

variable [DecidableEq S]

theorem step_monitorFollows (p : Process S) (e : Timed S) (p' : Process S) (h : MonitorFollows idle duration p)
    (hstep : Process.step ctx p e = some p') : MonitorFollows idle duration p' := by
  obtain ⟨hs, m, mon, q, hreg, hmon⟩ := h
  obtain ⟨⟨hclock, _⟩, rfl⟩ := Process.step_eq_some.mp hstep
  refine ⟨List.pairwise_cons.mpr ⟨hclock, hs⟩, m.after ctx e.event, mon.after e.now e.event,
    q.after ctx e.event, ?_, hmon.after e⟩
  rw [← pluginsAfter_relayRegistry, ← hreg]

/-! ## Checks -/

/-- What the kill checker gets: nothing is exceeded without a monitor. -/
def Process.exceeds (p : Process S) (now : Rat) (limit : Limit) : Bool :=
  match p.plugins.getPlugin sessionMonitor with
  | none => false
  | some monitor =>
    match limit with
    | .idle => monitor.isIdle now
    | .duration => monitor.isDurationExceeded now

def limitIn (idle duration : Int) (history : List (Timed S)) : Limit → Int
  | .idle => (limitsIn idle duration history).1
  | .duration => (limitsIn idle duration history).2

def ownReset (s : S) (limit : Limit) (history : List (Timed S)) : Option Rat :=
  lastAt Timed.now (fun e => e.event.resets limit && e.event.session = some s) history

/-- The limit of `s` is on and has run out since its own latest reset. -/
def Overdue (idle duration : Int) (p : Process S) (now : Rat) (s : S) (limit : Limit) : Prop :=
  0 < limitIn idle duration p.history limit ∧
    ∃ t ∈ ownReset s limit p.history, (limitIn idle duration p.history limit : Rat) < now - t

def AnswersOwn (idle duration : Int) (p : Process S) (e : Timed S) : Prop :=
  match e.event with
  | .check s limit => p.exceeds e.now limit = true ↔ Overdue idle duration p e.now s limit
  | _ => True

/-- When the limit of the session has run out, no session has set it back within the limit. -/
def Unmasked (idle duration : Int) (p : Process S) (e : Timed S) : Prop :=
  match e.event with
  | .check s limit => Overdue idle duration p e.now s limit →
      ∀ past ∈ p.history, past.event.resets limit = true →
        (limitIn idle duration p.history limit : Rat) < e.now - past.now
  | _ => True

omit [DecidableEq S] in
theorem exceeds_iff {p : Process S} (h : MonitorFollows idle duration p) (now : Rat) (limit : Limit) :
    p.exceeds now limit = true ↔ 0 < limitIn idle duration p.history limit ∧
      (limitIn idle duration p.history limit : Rat) < now - (lastReset limit p.history).getD 0 := by
  obtain ⟨_, m, mon, q, hreg, htimeouts, hactivity, hstarted⟩ := h
  have hidle : mon.idleTimeout = limitIn idle duration p.history .idle := congrArg Prod.fst htimeouts
  have hduration : mon.maxSessionDuration = limitIn idle duration p.history .duration :=
    congrArg Prod.snd htimeouts
  rw [Process.exceeds, hreg, relayRegistry_monitor]
  cases limit with
  | idle =>
    simp only [SessionMonitorPlugin.isIdle, gt_iff_lt, Bool.and_eq_true, decide_eq_true_eq]
    rw [← hidle, ← hactivity]
  | duration =>
    rw [← hduration, ← hstarted]
    simp only [SessionMonitorPlugin.isDurationExceeded, gt_iff_lt]
    split_ifs with hoff
    · simp only [false_iff]
      rintro ⟨hon, _⟩
      omega
    · simp only [decide_eq_true_eq]
      exact ⟨fun h => ⟨by omega, h⟩, fun h => h.2⟩

theorem running_reset {p : Process S} (hs : Sorted Timed.now p.history) {s : S} (h : p.Running s) (limit : Limit) :
    ∃ t T, ownReset s limit p.history = some t ∧ lastReset limit p.history = some T ∧ t ≤ T := by
  obtain ⟨⟨e, he, hstart⟩, _⟩ := h
  have hmark : (e.event.resets limit && decide (e.event.session = some s)) = true := by
    rw [hstart]
    cases limit <;> simp [Event.resets, Event.session]
  obtain ⟨t, ht⟩ : ∃ t, ownReset s limit p.history = some t := exists_lastAt he hmark
  obtain ⟨T, hT, hle⟩ : ∃ T, lastReset limit p.history = some T ∧ t ≤ T := by
    refine lastAt_mono hs ?_ ht
    intro e he
    exact (Bool.and_eq_true_iff.mp he).1
  exact ⟨t, T, ht, hT, hle⟩

theorem answersOwn_iff {p : Process S} (h : MonitorFollows idle duration p) {e : Timed S} (hallows : p.Allows e) :
    AnswersOwn idle duration p e ↔ Unmasked idle duration p e := by
  obtain ⟨now, event⟩ := e
  cases event with
  | check s limit =>
    obtain ⟨t, T, ht, hT, hle⟩ := running_reset h.1 hallows.2 limit
    have hcode := exceeds_iff h now limit
    have hown : Overdue idle duration p now s limit ↔ 0 < limitIn idle duration p.history limit ∧
        (limitIn idle duration p.history limit : Rat) < now - t := by
      rw [Overdue, ht]
      simp
    rw [hT, Option.getD_some, lt_sub_comm] at hcode
    simp only [AnswersOwn, Unmasked]
    rw [hcode, lastAt_lt_iff h.1 hT]
    constructor
    · intro hiff hover past hpast hmark
      rw [lt_sub_comm]
      exact (hiff.mpr hover).2 past hpast hmark
    · intro hun
      constructor
      · rintro ⟨hon, hall⟩
        rw [hown]
        refine ⟨hon, ?_⟩
        rw [lt_sub_comm]
        exact lt_of_le_of_lt hle ((lastAt_lt_iff h.1 hT _).mpr hall)
      · intro hover
        refine ⟨hover.1, fun past hpast hmark => ?_⟩
        rw [lt_sub_comm]
        exact hun hover past hpast hmark
  | _ => exact Iff.rfl

theorem answers_own_iff (ctx : S → SessionContext) (idle duration : Int) (events : List (Timed S))
    (p : Process S) (hrun : run (Process.step ctx) (.initial idle duration) events = some p) :
    Along (Process.step ctx) (AnswersOwn idle duration) (.initial idle duration) events ↔
      Along (Process.step ctx) (Unmasked idle duration) (.initial idle duration) events :=
  along_congr step_monitorFollows (fun _ _ _ h hstep => answersOwn_iff h (Process.step_eq_some.mp hstep).1) hrun
    initial_monitorFollows

/-! ## Two sessions -/

instance (p : Process S) (now : Rat) (s : S) (limit : Limit) : Decidable (Overdue idle duration p now s limit) :=
  inferInstanceAs (Decidable (_ ∧ _))

instance (p : Process S) : ∀ e : Timed S, Decidable (AnswersOwn idle duration p e)
  | ⟨_, .check _ _⟩ => inferInstanceAs (Decidable (_ ↔ _))
  | ⟨_, .start _⟩ | ⟨_, .packet _ _ _⟩ | ⟨_, .finish _⟩ | ⟨_, .updateTimeouts _ _⟩ => .isTrue trivial

instance (p : Process S) : ∀ e : Timed S, Decidable (Unmasked idle duration p e)
  | ⟨_, .check _ _⟩ => inferInstanceAs (Decidable (_ → _))
  | ⟨_, .start _⟩ | ⟨_, .packet _ _ _⟩ | ⟨_, .finish _⟩ | ⟨_, .updateTimeouts _ _⟩ => .isTrue trivial

/-- One session is silent for an hour and a second, and `busy` is when the other sends a packet. -/
def silentHour (busy : Rat) : List (Timed Bool) :=
  [⟨0, .start false⟩, ⟨0, .start true⟩, ⟨busy, .packet true .clientToBackend [0x03]⟩, ⟨3601, .check false .idle⟩]

theorem idleness_masked :
    (∃ p, run (Process.step plainContext) (.initial 3600 0) (silentHour 3000) = some p) ∧
      ¬ Along (Process.step plainContext) (AnswersOwn 3600 0) (.initial 3600 0) (silentHour 3000) :=
  ⟨⟨_, rfl⟩, by decide +kernel⟩

theorem answers_own_unmasked :
    Along (Process.step plainContext) (AnswersOwn 3600 0) (.initial 3600 0) (silentHour 0) := by
  obtain ⟨p, hrun⟩ : ∃ p, run (Process.step plainContext) (.initial 3600 0) (silentHour 0) = some p := ⟨_, rfl⟩
  rw [answers_own_iff plainContext 3600 0 (silentHour 0) p hrun]
  decide +kernel

end RdpProxy.Relay
