import RdpProxy.Rdp.ConnectInitial
import RdpProxy.Relay.Process

/-!
# The first packet of every session

`McsPatchPlugin` keeps one flag for each direction, for all sessions together. A flag says
whether a packet has come since some session last started.
-/

open Words Steps RdpProxy.Rdp

namespace RdpProxy.Relay

variable {S : Type}

/-! ## What the flags stand for -/

/-- No packet of any session in this direction since the latest start of any session. -/
def fresh (d : Direction) : List (Timed S) → Bool
  | [] => true
  | e :: past =>
    match e.event with
    | .start _ => true
    | .packet _ d' _ => d' ≠ d && fresh d past
    | _ => fresh d past

def FlagsFresh (p : Process S) : Prop :=
  ∃ m mon q, p.plugins = relayRegistry m mon q ∧ ∀ d, m.first d = fresh d p.history

variable {ctx : S → SessionContext}

theorem first_after (m : McsPatchPlugin) (e : Timed S) (past : List (Timed S))
    (h : ∀ d, m.first d = fresh d past) (d : Direction) :
    (m.after ctx e.event).first d = fresh d (e :: past) := by
  rw [fresh]
  cases e.event with
  | start s => cases d <;> rfl
  | packet s d' data =>
    simp only [McsPatchPlugin.after]
    rw [McsPatchPlugin.onPacket_first, h d, Bool.and_comm]
    congr 1
    simp [eq_comm]
  | finish s => exact h d
  | check s limit => exact h d
  | updateTimeouts idle duration => exact h d

theorem initial_flagsFresh (idle duration : Int) : FlagsFresh (Process.initial (S := S) idle duration) :=
  ⟨{}, { idleTimeout := idle, maxSessionDuration := duration }, {}, rfl, fun d => by cases d <;> rfl⟩

theorem forwarded_of_flags {p : Process S} (h : FlagsFresh p) (now : Rat) (s : S) (d : Direction) (data : Bytes) :
    some (p.forwarded ctx now s d data) =
      if fresh d p.history then McsPatchPlugin.patch d data (ctx s) else some data := by
  obtain ⟨m, mon, q, hreg, hfirst⟩ := h
  obtain ⟨out, hout⟩ := McsPatchPlugin.patch_isSome d data (ctx s)
  rw [Process.forwarded, hreg, relayRegistry_packet, McsPatchPlugin.onPacket_out, hfirst d, hout]
  split_ifs <;> rfl

variable [DecidableEq S]

theorem step_flagsFresh (p : Process S) (e : Timed S) (p' : Process S) (h : FlagsFresh p)
    (hstep : Process.step ctx p e = some p') : FlagsFresh p' := by
  obtain ⟨m, mon, q, hreg, hfirst⟩ := h
  obtain ⟨_, rfl⟩ := Process.step_eq_some.mp hstep
  refine ⟨m.after ctx e.event, mon.after e.now e.event, q.after ctx e.event, ?_, first_after m e p.history hfirst⟩
  rw [← pluginsAfter_relayRegistry, ← hreg]

/-! ## Patching -/

def Event.isPacketOf (s : S) (d : Direction) : Event S → Bool
  | .packet s' d' _ => s' = s ∧ d' = d
  | _ => false

def FirstOf (s : S) (d : Direction) (history : List (Timed S)) : Prop :=
  ∀ e ∈ history, e.event.isPacketOf s d = false

instance (s : S) (d : Direction) (history : List (Timed S)) : Decidable (FirstOf s d history) :=
  inferInstanceAs (Decidable (∀ _ ∈ _, _))

/-- The patch of the direction is applied to the first packet of the session and to no other. -/
def PatchesFirst (ctx : S → SessionContext) (p : Process S) (e : Timed S) : Prop :=
  match e.event with
  | .packet s d data => some (p.forwarded ctx e.now s d data) =
      if FirstOf s d p.history then McsPatchPlugin.patch d data (ctx s) else some data
  | _ => True

/-- A packet is the first of its session just when it is the first since the latest start, or the
patch has nothing to change in it. -/
def StartsAlone (ctx : S → SessionContext) (p : Process S) (e : Timed S) : Prop :=
  match e.event with
  | .packet s d data => (FirstOf s d p.history ↔ fresh d p.history = true) ∨
      McsPatchPlugin.Untouched d data (ctx s)
  | _ => True

instance (p : Process S) : ∀ e : Timed S, Decidable (PatchesFirst ctx p e)
  | ⟨_, .packet _ _ _⟩ => inferInstanceAs (Decidable (_ = _))
  | ⟨_, .start _⟩ | ⟨_, .finish _⟩ | ⟨_, .check _ _⟩ | ⟨_, .updateTimeouts _ _⟩ => .isTrue trivial

instance (p : Process S) : ∀ e : Timed S, Decidable (StartsAlone ctx p e)
  | ⟨_, .packet _ _ _⟩ => inferInstanceAs (Decidable (_ ∨ _))
  | ⟨_, .start _⟩ | ⟨_, .finish _⟩ | ⟨_, .check _ _⟩ | ⟨_, .updateTimeouts _ _⟩ => .isTrue trivial

theorem patchesFirst_iff {p : Process S} (h : FlagsFresh p) (e : Timed S) :
    PatchesFirst ctx p e ↔ StartsAlone ctx p e := by
  unfold PatchesFirst StartsAlone
  cases e.event with
  | packet s d data =>
    simp only
    rw [forwarded_of_flags h, ← McsPatchPlugin.patch_eq_self_iff]
    by_cases hf : FirstOf s d p.history <;> by_cases hr : fresh d p.history = true <;> simp [hf, hr, eq_comm]
  | _ => exact Iff.rfl

theorem patches_first_iff (ctx : S → SessionContext) (idle duration : Int) (events : List (Timed S))
    (p : Process S) (hrun : run (Process.step ctx) (.initial idle duration) events = some p) :
    Along (Process.step ctx) (PatchesFirst ctx) (.initial idle duration) events ↔
      Along (Process.step ctx) (StartsAlone ctx) (.initial idle duration) events :=
  along_congr step_flagsFresh (fun _ e _ h _ => patchesFirst_iff h e) hrun (initial_flagsFresh idle duration)

/-! ## Two sessions -/

def oneByOne : List (Timed Bool) :=
  [⟨0, .start false⟩, ⟨1, .packet false .clientToBackend usualClient.bytes⟩, ⟨2, .start true⟩,
    ⟨3, .packet true .clientToBackend usualClient.bytes⟩]

def bothStarted : List (Timed Bool) :=
  [⟨0, .start false⟩, ⟨1, .start true⟩, ⟨2, .packet false .clientToBackend usualClient.bytes⟩,
    ⟨3, .packet true .clientToBackend usualClient.bytes⟩]

/-- The packet of the second session is the second since the latest start, so it is not patched. -/
theorem second_session_unpatched :
    (∃ p, run (Process.step plainContext) (.initial 3600 0) bothStarted = some p) ∧
      ¬ Along (Process.step plainContext) (PatchesFirst plainContext) (.initial 3600 0) bothStarted :=
  ⟨⟨_, rfl⟩, by decide +kernel⟩

theorem patches_first_one_by_one :
    Along (Process.step plainContext) (PatchesFirst plainContext) (.initial 3600 0) oneByOne := by
  obtain ⟨p, hrun⟩ : ∃ p, run (Process.step plainContext) (.initial 3600 0) oneByOne = some p := ⟨_, rfl⟩
  rw [patches_first_iff plainContext 3600 0 oneByOne p hrun]
  decide +kernel

end RdpProxy.Relay
