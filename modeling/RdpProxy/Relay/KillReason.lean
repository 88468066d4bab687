import RdpProxy.Relay.Pipe

/-!
# The reason a connection is recorded with

The relay sets the kill event itself once a leg has ended, so that the other leg ends too. A
leg that then comes back to the top of its loop takes this for a kill.
-/

open Words Steps

namespace RdpProxy.Relay

/-! ## The handler behind the relay -/

/-- The end of `RdpConnectionHandler.__call__`: the status and the reason for `tracker.finish`. The kill
flag and the duration are read only where a leg was killed. -/
def finishReason (result : RelayResult) (adminKill durationExceeded : Bool) : String × String :=
  let wasKilled := result.legs.any fun leg => leg.reason = "killed"
  if wasKilled then
    if adminKill then ("killed", "admin_kill")
    else if durationExceeded then ("closed", "max_duration")
    else ("closed", "idle_timeout")
  else ("closed", "normal")

theorem finishReason_normal {result : RelayResult} (h : ∀ leg ∈ result.legs, leg.reason ≠ "killed")
    (adminKill durationExceeded : Bool) : finishReason result adminKill durationExceeded = ("closed", "normal") := by
  have hnone : (result.legs.any fun leg => leg.reason = "killed") = false := by
    simpa [List.any_eq_false] using h
  simp only [finishReason, hnone]
  rfl

theorem append_ne {a t : String} (hne : a.toList ≠ []) (hhead : a.toList.head? ≠ t.toList.head?) (b : String) :
    a ++ b ≠ t := by
  rintro rfl
  apply hhead
  obtain ⟨c, cs, hcs⟩ := List.exists_cons_of_ne_nil hne
  rw [String.toList_append, hcs]
  rfl

/-- The reasons of the exceptions start with another letter, whatever the exception says. -/
theorem PipeError.reason_ne_killed (e : PipeError) : e.reason ≠ "killed" := by
  cases e with
  | incompleteRead => exact (by decide : "incomplete-read" ≠ "killed")
  | sslError reason => exact append_ne (by decide) (by decide) reason
  | connectionError e => exact append_ne (by decide) (by decide) e
  | timeout => exact (by decide : "ssl-shutdown-timeout" ≠ "killed")
  | other typeName e =>
    show "error:" ++ typeName ++ ":" ++ e ≠ "killed"
    rw [String.append_assoc, String.append_assoc]
    exact append_ne (by decide) (by decide) _

namespace RelayState

variable {P : Type} [RdpPlugin P] {ctx : SessionContext} {s s' : RelayState P} {d : Direction}

/-! ## Legs that are not killed -/

/-- The leg does not come back to the top of its loop: it has ended, or it is suspended in a
read without data, or in a drain that the loss of its connection ends with an exception. -/
def NoReturn (s : RelayState P) (d : Direction) : Prop :=
  (s.reasonOf d).isSome = true ∨ (s.leg d).phase = .reading ∧ (s.conn d.source).buffer = [] ∨
    (s.leg d).phase = .draining ∧ (s.conn d.sink).paused = true ∧ (s.conn d.sink).lost = true ∧
      (s.conn d.sink).error.isSome = true

instance (s : RelayState P) (d : Direction) : Decidable (s.NoReturn d) := inferInstanceAs (Decidable (_ ∨ _))

omit [RdpPlugin P] in
theorem reasonOf_eq_some {r : String} (h : s.reasonOf d = some r) : (s.leg d).phase = .done r := by
  unfold reasonOf at h
  cases hphase : (s.leg d).phase with
  | done r' => rw [hphase] at h; simp only [Option.some.injEq] at h; rw [h]
  | _ => rw [hphase] at h; exact absurd h (by simp)

/-- What does not put a leg back to the top: neither data nor room to write. -/
structure Settles (c c' : Conn) : Prop where
  buffer : c'.buffer = c.buffer
  paused : c'.paused = c.paused
  lost : c.lost = true → c'.lost = true
  error : c.error.isSome = true → c'.error.isSome = true

theorem Settles.refl (c : Conn) : Settles c c := ⟨rfl, rfl, id, id⟩

theorem settles_connectionLost (c : Conn) (error : Option PipeError) : Settles c (c.connectionLost error) := by
  cases error with
  | none => exact ⟨rfl, rfl, fun _ => rfl, id⟩
  | some e => exact ⟨rfl, rfl, fun _ => rfl, fun _ => rfl⟩

omit [RdpPlugin P] in
theorem settles_setConn (s : RelayState P) {side : Side} {c : Conn} (h : Settles (s.conn side) c) (side' : Side) :
    Settles (s.conn side') ((s.setConn side c).conn side') := by
  by_cases hs : side' = side
  · subst hs
    simpa [setConn] using h
  · simpa [setConn, hs] using Settles.refl (s.conn side')

omit [RdpPlugin P] in
theorem NoReturn.settle (h : s.NoReturn d) (hleg : s'.leg d = s.leg d)
    (hconn : ∀ side, Settles (s.conn side) (s'.conn side)) : s'.NoReturn d := by
  rcases h with hr | ⟨hr, hb⟩ | ⟨hd, hp, hl, he⟩
  · exact Or.inl (by rw [reasonOf, hleg]; exact hr)
  · exact Or.inr (Or.inl ⟨by rw [hleg]; exact hr, (hconn _).buffer.trans hb⟩)
  · exact Or.inr (Or.inr ⟨by rw [hleg]; exact hd, (hconn _).paused.trans hp, (hconn _).lost hl, (hconn _).error he⟩)

theorem turn_noReturn {now : Rat} {accepted : Nat} (h : s.NoReturn d)
    (hturn : s.turn ctx d now accepted = some s') : ∃ r, r ≠ "killed" ∧ s' = s.setPhase d (.done r) := by
  rcases h with hr | ⟨hr, hb⟩ | ⟨hd, hp, hl, he⟩
  · obtain ⟨r, hr⟩ := Option.isSome_iff_exists.mp hr
    simp only [turn, reasonOf_eq_some hr] at hturn
    exact absurd hturn (by simp)
  · simp only [turn, hr, resumeRead, hb, ne_eq, not_true, if_false] at hturn
    cases herror : (s.conn d.source).error with
    | some e =>
      rw [herror] at hturn
      cases hturn
      exact ⟨e.reason, e.reason_ne_killed, rfl⟩
    | none =>
      rw [herror] at hturn
      simp only at hturn
      split_ifs at hturn
      cases hturn
      exact ⟨"eof", by decide, rfl⟩
  · obtain ⟨e, herror⟩ := Option.isSome_iff_exists.mp he
    simp only [turn, hd, resumeDrain, hp, hl, if_true, herror] at hturn
    cases hturn
    exact ⟨e.reason, e.reason_ne_killed, rfl⟩

theorem delivered_ne_killed {phase : LegPhase} (h : Delivered phase) : phase ≠ .done "killed" := by
  rcases h with rfl | rfl | ⟨e, rfl⟩
  · simp
  · simp
  · simpa using e.reason_ne_killed

theorem turn_unkilled {now : Rat} {accepted : Nat} (hk : s.killEvent = false)
    (hturn : s.turn ctx d now accepted = some s') : (s'.leg d).phase ≠ .done "killed" := by
  have hdeliver := delivered_ne_killed (deliver_spec ctx s d now accepted).2
  cases hphase : (s.leg d).phase with
  | atTop =>
    simp only [turn, hphase, hk, Bool.false_eq_true, if_false, Option.some.injEq] at hturn
    subst hturn
    unfold read
    cases (s.conn d.source).error with
    | some e => simpa using e.reason_ne_killed
    | none =>
      simp only
      split_ifs
      · exact hdeliver
      · simp
      · simp
  | reading =>
    by_cases hb : (s.conn d.source).buffer = []
    · obtain ⟨r, hr, rfl⟩ := turn_noReturn (Or.inr (Or.inl ⟨hphase, hb⟩)) hturn
      simpa using hr
    · simp only [turn, hphase, resumeRead] at hturn
      rw [if_pos hb] at hturn
      cases hturn
      exact hdeliver
  | draining =>
    simp only [turn, hphase] at hturn
    rcases resumeDrain_spec hturn with rfl | ⟨e, _, _, _, rfl⟩
    · simp
    · simpa using e.reason_ne_killed
  | done r =>
    simp only [turn, hphase] at hturn
    exact absurd hturn (by simp)

/-! ## Runs without a kill -/

/-- When the relay sets the kill event itself, neither leg is on its way back to the top. -/
def EndsQuietly (s : RelayState P) (a : Act) : Prop :=
  match a with
  | .mainWake => ∀ d, s.NoReturn d
  | _ => True

instance (s : RelayState P) : ∀ a : Act, Decidable (s.EndsQuietly a)
  | .mainWake => inferInstanceAs (Decidable (∀ _, _))
  | .feed _ _ | .eof _ | .closed _ _ | .flush _ _ | .aborted _ | .turn _ _ _ | .pollTop | .checked _ | .pollWake
  | .mainReturn => .isTrue trivial

/-- Up to the end of the first leg nobody sets the event, and from then on no leg looks at it. -/
structure Unkilled (s : RelayState P) : Prop where
  event : s.main = .waiting → s.killEvent = false
  legs : ∀ d, (s.leg d).phase ≠ .done "killed"
  noReturn : s.main ≠ .waiting → ∀ d, s.NoReturn d
  result : ∀ result, s.main = .returned result → ∀ leg ∈ result.legs, leg.reason ≠ "killed"

omit [RdpPlugin P] in
theorem Unkilled.settle (h : s.Unkilled) (hmain : s'.main = s.main) (hevent : s'.killEvent = s.killEvent)
    (hleg : s'.leg = s.leg) (hconn : s.main ≠ .waiting → ∀ side, Settles (s.conn side) (s'.conn side)) :
    s'.Unkilled := by
  constructor
  · rw [hmain, hevent]; exact h.event
  · rw [hleg]; exact h.legs
  · intro hw d
    rw [hmain] at hw
    exact (h.noReturn hw d).settle (by rw [hleg]) (hconn hw)
  · rw [hmain]; exact h.result

theorem Unkilled.turn (h : s.Unkilled) {now : Rat} {accepted : Nat} (hturn : s.turn ctx d now accepted = some s') :
    s'.Unkilled := by
  have hframe := turn_frame hturn
  have hother : ∀ d', d' ≠ d → s'.leg d' = s.leg d' := by
    intro d' hd
    have hd' : d' = d.other := by cases d <;> cases d' <;> first | rfl | exact absurd rfl hd
    rw [hd', hframe.other]
  have hunkilled : (s'.leg d).phase ≠ .done "killed" := by
    by_cases hmain : s.main = .waiting
    · exact turn_unkilled (h.event hmain) hturn
    · obtain ⟨r, hr, rfl⟩ := turn_noReturn (h.noReturn hmain d) hturn
      simpa using hr
  constructor
  · rw [hframe.main, hframe.killEvent]; exact h.event
  · intro d'
    by_cases hd : d' = d
    · rw [hd]; exact hunkilled
    · rw [hother d' hd]; exact h.legs d'
  · intro hw d'
    rw [hframe.main] at hw
    obtain ⟨r, _, rfl⟩ := turn_noReturn (h.noReturn hw d) hturn
    by_cases hd : d' = d
    · rw [hd, NoReturn, reasonOf, setPhase_phase]; exact Or.inl rfl
    · exact (h.noReturn hw d').settle (hother d' hd) (fun side => Settles.refl _)
  · rw [hframe.main]; exact h.result

theorem step_unkilled (s : RelayState P) (a : Act) (s' : RelayState P)
    (hinv : s.checkerKilled = false → s.Unkilled) (hquiet : s.EndsQuietly a) (hstep : step ctx s a = some s') :
    s'.checkerKilled = false → s'.Unkilled := by
  cases step_moves hstep with
  | feed hmain => exact fun hk => (hinv hk).settle rfl rfl rfl fun hw => absurd hmain hw
  | eof hmain => exact fun hk => (hinv hk).settle rfl rfl rfl fun hw => absurd hmain hw
  | flush hmain => exact fun hk => (hinv hk).settle rfl rfl rfl fun hw => absurd hmain hw
  | closed =>
    exact fun hk => (hinv hk).settle rfl rfl rfl fun _ => settles_setConn s (settles_connectionLost _ _)
  | aborted _ =>
    exact fun hk => (hinv hk).settle rfl rfl rfl fun _ => settles_setConn s (settles_connectionLost _ _)
  | turn hturn =>
    rw [(turn_frame hturn).checkerKilled]
    exact fun hk => (hinv hk).turn hturn
  | poll _ => exact fun hk => (hinv hk).settle rfl rfl rfl fun _ side => Settles.refl _
  | kill => exact fun hk => absurd hk (by simp)
  | mainWake _ _ _ =>
    intro hk
    constructor
    · intro hw; exact absurd hw (by simp)
    · exact (hinv hk).legs
    · exact fun _ d => (hquiet d).settle rfl (fun side => ⟨rfl, rfl, id, id⟩)
    · intro result hret; exact absurd hret (by simp)
  | @mainReturn r1 r2 hmain h1 h2 =>
    intro hk
    have h := hinv hk
    constructor
    · intro hw; exact absurd hw (by simp)
    · exact h.legs
    · intro _ d
      exact (h.noReturn (by rw [hmain]; simp) d).settle rfl (fun side => Settles.refl _)
    · intro result hret leg hmem
      cases hret
      simp only [List.mem_cons, List.not_mem_nil, or_false] at hmem
      rcases hmem with rfl | rfl
      · exact fun he => h.legs .clientToBackend (by rw [reasonOf_eq_some h1, ← he]; rfl)
      · exact fun he => h.legs .backendToClient (by rw [reasonOf_eq_some h2, ← he]; rfl)

/-- No leg that is still open makes a relay that nobody killed look killed. -/
theorem quiet_end_recorded_normal (ctx : SessionContext) (conn : Side → Conn) (registry : PluginRegistry P)
    (acts : List Act) (s : RelayState P) (result : RelayResult)
    (hrun : run (step ctx) (initial conn registry) acts = some s)
    (hquiet : Along (step ctx) EndsQuietly (initial conn registry) acts)
    (hnokill : s.checkerKilled = false) (hret : s.main = .returned result) :
    (∀ leg ∈ result.legs, leg.reason ≠ "killed") ∧
      ∀ adminKill durationExceeded, finishReason result adminKill durationExceeded = ("closed", "normal") := by
  have hinit : (initial conn registry : RelayState P).Unkilled :=
    ⟨fun _ => rfl, fun d => by simp [initial], fun hw => absurd rfl hw, fun _ h => by simp [initial] at h⟩
  have hun := run_inv step_unkilled hrun hquiet (fun _ => hinit) hnokill
  exact ⟨hun.result result hret, finishReason_normal (hun.result result hret)⟩

end RelayState

/-! ## A client that leaves -/

def clientLeaves : List Act :=
  [.turn .clientToBackend 0 0, .turn .backendToClient 0 0, .eof .client, .turn .clientToBackend 0 0]

/-- A byte of the backend comes before the call behind `asyncio.wait` goes on. -/
def byteUnderway : List Act :=
  clientLeaves ++ [.feed .backend [0x03], .mainWake, .turn .backendToClient 0 0, .turn .backendToClient 0 0,
    .mainReturn]

def nothingUnderway : List Act :=
  clientLeaves ++ [.mainWake, .aborted .backend, .turn .backendToClient 0 0, .mainReturn]

theorem pending_byte_recorded_idle : ∃ s result,
    run (RelayState.step idleContext) idleRelay byteUnderway = some s ∧ s.checkerKilled = false ∧
      s.main = .returned result ∧ (∃ leg ∈ result.legs, leg.reason = "killed") ∧
      finishReason result false false = ("closed", "idle_timeout") :=
  ⟨_, _, rfl, rfl, rfl, by decide, by decide⟩

theorem quiet_leave_recorded_normal : ∃ s result,
    run (RelayState.step idleContext) idleRelay nothingUnderway = some s ∧ s.main = .returned result ∧
      ∀ adminKill durationExceeded, finishReason result adminKill durationExceeded = ("closed", "normal") := by
  obtain ⟨s, result, hrun, hnokill, hret⟩ : ∃ s result,
      run (RelayState.step idleContext) idleRelay nothingUnderway = some s ∧ s.checkerKilled = false ∧
        s.main = .returned result := ⟨_, _, rfl, rfl, rfl⟩
  exact ⟨s, result, hrun, hret, (RelayState.quiet_end_recorded_normal idleContext (fun _ => idleConn)
    (runServerPlugins 3600 0) nothingUnderway s result hrun (by decide) hnokill hret).2⟩

end RdpProxy.Relay
