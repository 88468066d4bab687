import RdpProxy.Relay.Handler

/-!
# How the handler leaves its connection

One call of a run may fail. What the handler has then left behind, in its row and its keys, depends
only on how far it had come, and each way it can end is listed once.
-/

open Faulty

namespace RdpProxy.Relay

open Rdp Tracker
open Store (TokenPayload)

variable {ρ : RowPhase} {tracked monitoring : Bool} {relayed : Option RelayResult} {s : HandlerState}

/-! ## The tracker -/

section

variable {φ : Option HandlerFault} {P : HandlerState → Prop}

theorem event_keeps (hP : Stable Other P) (eventType : String) : Keeps Call.Swallowed P φ (event eventType) :=
  keeps_ask hP id ()

/-- What a failed `finish` leaves behind, and which call of it failed. -/
def FinishFailed (ρ ρ' : RowPhase) (relayed : Option RelayResult) (φ : Option HandlerFault)
    (w : HandlerWorld) : Prop :=
  On Call.Swallowed (At ρ true relayed false) none w ∧
      (∃ f, φ = some f ∧ f.call = .updateHistory ∧ f.applied = false) ∨
    On Call.Swallowed (At ρ' true relayed false) none w ∧
      ∃ f, φ = some f ∧ (f.call = .updateHistory ∧ f.applied = true ∨ f.call = .deleteActiveSession)

theorem finish_on {ρ' : RowPhase} (c : Closing) (hP : Stable Other P) (hat : ∀ s, P s → At ρ true relayed false s)
    (hclose : ∀ now s, P s → ρ'.Holds (s.update (c.at now))) :
    Triple (On Call.Swallowed P φ)
      (ConnectionTracker.finish c.status c.disconnectReason c.bytesToClient c.bytesToBackend)
      (fun _ w => On Call.Swallowed (Inactive ρ' true relayed) φ w ∧
        ∀ f, φ = some f → f.call ≠ .updateHistory ∧ f.call ≠ .deleteActiveSession)
      (fun _ => FinishFailed ρ ρ' relayed φ) := by
  have hupdate : ∀ now s, P s → At ρ' true relayed false (s.update (c.at now)) :=
    fun now s hs => (hat s hs).update (hclose now s hs)
  refine Triple.bind (own_on (Q := fun _ => P) fun _ => id) fun now => ?_
  refine Triple.bind ((call_on (Q := fun _ => At ρ' true relayed false) hP id (hupdate now)).mono
    (fun _ _ => id) ?_) fun _ => Triple.assume fun hmiss => ?_
  · -- The row is closed by then only if the commit has taken effect.
    rintro _ w ⟨hw, f, s, hφ, hf, hs, hstate⟩
    rcases ha : f.applied with _ | _
    · rw [ha] at hstate
      exact Or.inl ⟨.spent (hstate ▸ hat s hs) hw, f, hφ, hf, ha⟩
    · rw [ha] at hstate
      exact Or.inr ⟨.spent (hstate ▸ hupdate now s hs) hw, f, hφ, Or.inl ⟨hf, ha⟩⟩
  · refine (call_on (Q := fun _ => Inactive ρ' true relayed) at_stable id fun s => Inactive.deleted).mono
      (fun _ _ h => ⟨h.1, fun f hφ => ⟨hmiss f hφ, h.2 f hφ⟩⟩) ?_
    intro _ w h
    obtain ⟨f, hφ, hf⟩ := h.call
    exact Or.inr ⟨h.on (fun _ => id) fun s hs => (Inactive.deleted hs).toAt, f, hφ, Or.inr hf⟩

theorem deleteConnToken_on : Triple (On Call.Swallowed (Inactive ρ tracked relayed) φ) deleteConnToken
    (fun _ w => On Call.Swallowed (Keyless ρ tracked relayed) φ w ∧ ∀ f, φ = some f → f.call ≠ .deleteConnToken)
    (fun _ w => On Call.Swallowed (Inactive ρ tracked relayed) none w ∧ ∃ f, φ = some f ∧ f.call = .deleteConnToken) :=
  (call_on inactive_stable id fun _ => Keyless.deleted).mono (fun _ _ => id)
    fun _ _ h => ⟨h.on (fun _ => id) fun _ hs => (Keyless.deleted hs).toInactive, h.call⟩

/-! ## The `except` branches -/

/-- The arguments of `finish` in the two branches. -/
def HandlerError.closing : HandlerError → Closing
  | .disconnected => ⟨"closed", "client_disconnect", 0, 0⟩
  | .other => ⟨"error", "exception", 0, 0⟩

theorem finalize_on {ρ' : RowPhase} {status reason : String} {logged : Handler Unit}
    (hlogged : Triple (On Call.Swallowed (At ρ true relayed false) none) logged
      (fun _ => On Call.Swallowed (At ρ true relayed false) none) fun _ _ => False)
    (hclose : ∀ now s, At ρ true relayed false s → ρ'.Holds (s.update (Closing.at ⟨status, reason, 0, 0⟩ now))) :
    Triple (On Call.Swallowed (At ρ true relayed false) none) (finalize status reason logged)
      (fun _ w => Keyless ρ' true relayed w.state) fun _ _ => False := by
  refine Triple.bind (own_on (Q := fun a s => At ρ true relayed false s ∧ a = true)
    fun s hs => ⟨hs, hs.tracked⟩) fun a => Triple.assume_on ?_
  rintro rfl
  have hfinish : Triple (On Call.Swallowed (At ρ true relayed false) none) (ConnectionTracker.finish status reason 0 0)
      (fun _ => On Call.Swallowed (Inactive ρ' true relayed) none) fun _ _ => False := by
    refine ((finish_on ⟨status, reason, 0, 0⟩ at_stable (fun _ => id) hclose).mono (fun _ _ => And.left)
      fun _ _ => id).of_never ?_
    rintro _ _ (⟨_, f, hφ, _⟩ | ⟨_, f, hφ, _⟩) <;> cases hφ
  have hdelete : Triple (On Call.Swallowed (Inactive ρ' true relayed) none) deleteConnToken
      (fun _ => On Call.Swallowed (Keyless ρ' true relayed) none) fun _ _ => False := by
    refine (deleteConnToken_on.mono (fun _ _ => And.left) fun _ _ => id).of_never ?_
    rintro _ _ ⟨_, f, hφ, _⟩
    cases hφ
  refine Triple.bind (Q := fun _ => On Call.Swallowed (Keyless ρ' true relayed) none) ?_ ?_
  · apply Triple.tryCatch (R := fun _ _ => False)
    · exact hlogged.bind fun _ => hfinish.bind fun _ => hdelete
    · exact fun _ _ h => h.elim
  · exact fun _ => (wait_on keyless_stable fun _ => id).mono (fun _ _ h => h.state) fun _ _ => id

theorem HandlerError.closing_ne_active (e : HandlerError) : e.closing.status ≠ "active" := by
  cases e with
  | disconnected => exact (by decide : "closed" ≠ "active")
  | other => exact (by decide : "error" ≠ "active")

theorem HandlerError.closing_ne_killed (e : HandlerError) : e.closing.status ≠ "killed" := by
  cases e with
  | disconnected => exact (by decide : "closed" ≠ "killed")
  | other => exact (by decide : "error" ≠ "killed")

theorem closed_branch (e : HandlerError) (now : Int) (h : At .running tracked relayed monitoring s) :
    (RowPhase.closed e.closing).Holds (s.update (e.closing.at now)) := by
  obtain ⟨row, hrow⟩ := h.row
  exact ⟨_, closed_update hrow e.closing_ne_active (fun hk => absurd hk e.closing_ne_killed) now⟩

theorem branch_on {ρ' : RowPhase} (e : HandlerError)
    (hclose : ∀ now s, At ρ true relayed false s → ρ'.Holds (s.update (e.closing.at now))) :
    Triple (On Call.Swallowed (At ρ true relayed false) none) e.branch
      (fun _ w => Keyless ρ' true relayed w.state) fun _ _ => False := by
  cases e with
  | disconnected => exact finalize_on (Triple.pure fun _ => id) hclose
  | other =>
    refine finalize_on (Triple.of_never ((ask_on at_stable id ()).mono (fun _ _ h => h.1.1)
      fun _ _ => id) ?_) hclose
    rintro _ _ ⟨_, f, hφ, _⟩
    cases hφ

theorem branch_untracked (hP : Stable Other P) (hun : ∀ s, P s → s.trackedCid.isSome = false) (e : HandlerError) :
    Triple (On Call.Swallowed P φ) e.branch (fun _ => On Call.Swallowed P φ) fun _ _ => False := by
  have hskip : ∀ (status reason : String) (logged : Handler Unit), Triple (On Call.Swallowed P φ)
      (finalize status reason logged) (fun _ => On Call.Swallowed P φ) fun _ _ => False := by
    intro status reason logged
    refine Triple.bind (own_on (Q := fun a s => P s ∧ a = false) fun s hs => ⟨hs, hun s hs⟩)
      fun a => Triple.assume_on ?_
    rintro rfl
    exact wait_on hP fun _ => id
  cases e <;> exact hskip _ _ _

/-! ## Which call fails -/

/-- A failure in `start` that leaves a row which the handler knows nothing of. -/
def LeavesRow (φ : Option HandlerFault) : Prop :=
  ∃ f, φ = some f ∧ (f.call = .setActiveSession ∨ f.call = .insertHistory ∧ f.applied = true)

/-- A failure after the relay, before `finish` has committed. -/
def BeforeCommit (x : Answers) (φ : Option HandlerFault) : Prop :=
  ∃ f, φ = some f ∧ (f.call = .event "relay_finished" ∨ f.call = .getKillSession ∧ x.relayResult.wasKilled = true ∨
    f.call = .updateHistory ∧ f.applied = false)

/-- A failure after `finish` has committed. -/
def AfterCommit (x : Answers) (φ : Option HandlerFault) : Prop :=
  ∃ f, φ = some f ∧ (f.call = .updateHistory ∧ f.applied = true ∨ f.call = .deleteActiveSession ∨
    f.call = .deleteSession ∧ x.deleteTokenOnDisconnect = true ∨ f.call = .deleteConnToken)

/-- What the relay's result makes of the row. -/
def regular (x : Answers) (adminKill : Bool) : Closing :=
  let fin := finishReason x.relayResult adminKill x.durationExceeded
  ⟨fin.1, fin.2, x.relayResult.bytesToClient, x.relayResult.bytesToBackend⟩

theorem regular_ne_active (x : Answers) (adminKill : Bool) : (regular x adminKill).status ≠ "active" := by
  unfold regular finishReason
  dsimp only
  split_ifs <;> decide

theorem regular_killed {x : Answers} {adminKill : Bool} (h : (regular x adminKill).status = "killed") :
    adminKill = true := by
  unfold regular finishReason at h
  dsimp only at h
  split_ifs at h with _ hk
  · exact hk
  all_goals exact absurd h (by decide)

theorem flagged_stable (adminKill : Bool) :
    Stable Other fun s => At ρ tracked relayed monitoring s ∧ (adminKill = true → s.flagged = true) := by
  rintro m s ⟨h, hflag⟩
  refine ⟨at_stable m s h, fun ha => ?_⟩
  cases m with
  | setKillSession => rfl
  | publish snapshot =>
    show (if s.monitoring then _ else s).flagged = true
    split_ifs <;> exact hflag ha
  | _ => exact hflag ha

theorem readKill_on (x : Answers) :
    Triple (On Call.Swallowed (At ρ true relayed false) φ) (readAdminKill x.relayResult)
      (fun adminKill w => On Call.Swallowed
        (fun s => At ρ true relayed false s ∧ (adminKill = true → s.flagged = true)) φ w ∧
          ∀ f, φ = some f → f.call = .getKillSession → x.relayResult.wasKilled = false)
      (fun _ w => On Call.Swallowed (At ρ true relayed false) none w ∧ BeforeCommit x φ) := by
  unfold readAdminKill
  split_ifs with hkilled
  · refine (call_on (Q := fun adminKill s => At ρ true relayed false s ∧ (adminKill = true → s.flagged = true))
      at_stable id fun s hs => ⟨hs, hs.flagged⟩).mono ?_ ?_
    · exact fun _ _ h => ⟨h.1, fun f hφ hf => absurd hf (h.2 f hφ)⟩
    · intro _ w h
      obtain ⟨f, hφ, hf⟩ := h.call
      exact ⟨h.on (fun _ => id) fun _ => id, f, hφ, Or.inr (Or.inl ⟨hf, hkilled⟩)⟩
  · exact Triple.pure fun w h => ⟨h.mono fun s hs => ⟨hs, nofun⟩, fun _ _ _ => Bool.eq_false_iff.mpr hkilled⟩

theorem deleteToken_on (x : Answers) :
    Triple (On Call.Swallowed (Inactive ρ true relayed) φ) (deleteToken x)
      (fun _ w => On Call.Swallowed (Inactive ρ true relayed) φ w ∧
        ∀ f, φ = some f → f.call = .deleteSession → x.deleteTokenOnDisconnect = false)
      (fun _ w => On Call.Swallowed (Inactive ρ true relayed) none w ∧ AfterCommit x φ) := by
  unfold deleteToken
  split_ifs with hd
  · refine (ask_on inactive_stable id ()).mono ?_ ?_
    · exact fun _ _ h => ⟨h.1.1, fun f hφ hf => absurd hf (h.1.2 f hφ)⟩
    · rintro _ w ⟨hw, f, hφ, hf⟩
      exact ⟨hw, f, hφ, Or.inr (Or.inr (Or.inl ⟨hf, hd⟩))⟩
  · exact Triple.pure fun _ h => ⟨h, fun _ _ _ => Bool.eq_false_iff.mpr hd⟩

theorem endSession_on (x : Answers) :
    Triple (On Call.Swallowed (At .running true relayed false) φ) (endSession x x.relayResult)
      (fun _ w => (∃ adminKill, Keyless (.closed (regular x adminKill)) true relayed w.state) ∧
        ¬ BeforeCommit x φ ∧ ¬ AfterCommit x φ)
      (fun _ w => On Call.Swallowed (At .running true relayed false) none w ∧ BeforeCommit x φ ∨
        (∃ adminKill, On Call.Swallowed (At (.closed (regular x adminKill)) true relayed false) none w) ∧
          AfterCommit x φ) := by
  have hclose : ∀ (adminKill : Bool) (now : Int) (s : HandlerState),
      (At .running true relayed false s ∧ (adminKill = true → s.flagged = true)) →
        (RowPhase.closed (regular x adminKill)).Holds (s.update ((regular x adminKill).at now)) := by
    rintro adminKill now s ⟨⟨⟨row, hrow⟩, _⟩, hflag⟩
    exact ⟨_, closed_update hrow (regular_ne_active x adminKill) (fun hk => hflag (regular_killed hk)) now⟩
  unfold endSession
  refine Triple.bind ((ask_on at_stable id ()).mono (fun _ _ => And.left) ?_)
    fun _ => Triple.assume fun hevent => ?_
  · rintro _ w ⟨hw, f, hφ, hf⟩
    exact Or.inl ⟨hw, f, hφ, Or.inl hf⟩
  refine Triple.bind ((readKill_on x).mono (fun _ _ => id) fun _ _ => Or.inl)
    fun adminKill => Triple.assume fun hkill => ?_
  refine Triple.bind ((finish_on (regular x adminKill) (flagged_stable adminKill) (fun _ => And.left)
    (hclose adminKill)).mono (fun _ _ => id) ?_) fun _ => Triple.assume fun hfinish => ?_
  · rintro _ w (⟨hw, f, hφ, hf⟩ | ⟨hw, f, hφ, hf⟩)
    · exact Or.inl ⟨hw, f, hφ, Or.inr (Or.inr hf)⟩
    · exact Or.inr ⟨⟨adminKill, hw⟩, f, hφ, hf.imp id Or.inl⟩
  refine Triple.bind ((deleteToken_on x).mono (fun _ _ => id) ?_)
    fun _ => Triple.assume fun htoken => ?_
  · exact fun _ _ h => Or.inr ⟨⟨adminKill, h.1.mono fun _ => Inactive.toAt⟩, h.2⟩
  refine deleteConnToken_on.mono ?_ ?_
  · rintro _ w ⟨hw, hconn⟩
    refine ⟨⟨adminKill, hw.state⟩, ?_, ?_⟩
    · rintro ⟨f, hφ, hf | ⟨hf, hk⟩ | ⟨hf, _⟩⟩
      · exact hevent f hφ hf
      · exact Bool.noConfusion ((hkill f hφ hf).symm.trans hk)
      · exact (hfinish f hφ).1 hf
    · rintro ⟨f, hφ, ⟨hf, _⟩ | hf | ⟨hf, hd⟩ | hf⟩
      · exact (hfinish f hφ).1 hf
      · exact (hfinish f hφ).2 hf
      · exact Bool.noConfusion ((htoken f hφ hf).symm.trans hd)
      · exact hconn f hφ hf
  · rintro _ w ⟨hw, f, hφ, hf⟩
    exact Or.inr ⟨⟨adminKill, hw.mono fun _ => Inactive.toAt⟩, f, hφ, Or.inr (Or.inr (Or.inr hf))⟩

/-! ## Up to the relay -/

theorem not_leavesRow {c : Call} (h : ∃ f, φ = some f ∧ f.call = c) (hset : c ≠ .setActiveSession)
    (hinsert : c ≠ .insertHistory) : ¬ LeavesRow φ := by
  obtain ⟨f, rfl, rfl⟩ := h
  rintro ⟨g, ⟨⟩, hg | ⟨hg, _⟩⟩
  · exact hset hg
  · exact hinsert hg

theorem BeforeCommit.clean {x : Answers} (h : BeforeCommit x φ) : ¬ LeavesRow φ := by
  obtain ⟨f, hφ, hf | ⟨hf, _⟩ | ⟨hf, _⟩⟩ := h
  all_goals exact not_leavesRow ⟨f, hφ, hf⟩ nofun nofun

theorem AfterCommit.clean {x : Answers} (h : AfterCommit x φ) : ¬ LeavesRow φ := by
  obtain ⟨f, hφ, ⟨hf, _⟩ | hf | ⟨hf, _⟩ | hf⟩ := h
  all_goals exact not_leavesRow ⟨f, hφ, hf⟩ nofun nofun

theorem start_on (x : Answers) (session : TokenPayload) (clientIp : String) :
    Triple (On Call.Swallowed (Keyless .absent false none) φ) (ConnectionTracker.start x session clientIp)
      (fun _ w => On Call.Swallowed (At .running false none false) φ w ∧ ¬ LeavesRow φ)
      (fun _ w => Keyless .absent false none w.state ∧ ¬ LeavesRow φ ∨
        At .running false none false w.state ∧ LeavesRow φ) := by
  have hinsert : ∀ s, Keyless .absent false none s →
      At .running false none false { s with row := some (.started x.instanceId) } := by
    rintro s ⟨⟨⟨⟨_, hkilled, hfin⟩, htracked, hrelayed, hmonitoring, hflagged⟩, _⟩, _⟩
    refine ⟨⟨_, rfl, rfl, ?_, hfin⟩, htracked, hrelayed, hmonitoring, hflagged⟩
    rw [hkilled]
    rfl
  have hset : ∀ (s : HandlerState) (value : ActiveValue), At .running false none false s →
      At .running false none false { s with active := some value } :=
    fun s value h => h.keys (some value) s.connToken
  unfold ConnectionTracker.start
  refine Triple.bind ((call_on (Q := fun _ => At .running false none false) keyless_stable id hinsert).mono
    (fun _ _ => id) ?_) fun _ => Triple.assume fun hmiss => ?_
  · rintro _ w ⟨_, f, s, hφ, hf, hs, hstate⟩
    rcases ha : f.applied with _ | _
    · rw [ha] at hstate
      refine Or.inl ⟨hstate ▸ hs, ?_⟩
      rintro ⟨g, hg, hcall⟩
      cases hφ.symm.trans hg
      rw [hf, ha] at hcall
      rcases hcall with hcall | ⟨_, hcall⟩ <;> cases hcall
    · rw [ha] at hstate
      exact Or.inr ⟨hstate ▸ hinsert s hs, f, hφ, Or.inr ⟨hf, ha⟩⟩
  refine (call_on (Q := fun _ => At .running false none false) at_stable id fun s => hset s _).mono
    ?_ ?_
  · rintro _ w ⟨hw, hmiss'⟩
    refine ⟨hw, ?_⟩
    rintro ⟨f, hφ, hf | ⟨hf, _⟩⟩
    · exact hmiss' f hφ hf
    · exact hmiss f hφ hf
  · intro _ w h
    obtain ⟨f, hφ, hf⟩ := h.call
    have hstate := h.on (S := Call.Swallowed) (fun _ => id) fun s => hset s _
    exact Or.inr ⟨hstate.state, f, hφ, Or.inl hf⟩

theorem connect_keeps (x : Answers) (token : List Char) (session : TokenPayload) :
    Keeps Call.Swallowed (At ρ true relayed false) φ (connect x token session) := by
  have hset : ∀ s, At ρ true relayed false s → At ρ true relayed false { s with connToken := some token } :=
    fun s h => h.keys s.active (some token)
  have hask : ∀ (c : Call), ¬ c.Swallowed →
      Keeps Call.Swallowed (At ρ true relayed false) φ (ask c () : Handler Unit) :=
    fun c hc => keeps_ask at_stable hc ()
  have hlog : ∀ resolvedHost, Keeps Call.Swallowed (At ρ true relayed false) φ (logResolved session resolvedHost) := by
    intro resolvedHost
    unfold logResolved
    split_ifs
    · exact event_keeps at_stable _
    · exact Keeps.pure ()
  unfold connect
  refine (keeps_call at_stable id hset).bind fun _ => (event_keeps at_stable _).bind fun _ => ?_
  refine (keeps_ask at_stable id _).bind fun _ => (hlog _).bind fun _ => ?_
  refine (hask _ id).bind fun _ => (event_keeps at_stable _).bind fun _ => ?_
  refine (hask _ id).bind fun _ => (hask _ id).bind fun _ => (event_keeps at_stable _).bind fun _ => ?_
  exact (hask _ id).bind fun _ => event_keeps at_stable _

theorem At.monitor (h : At ρ tracked relayed monitoring s) (on : Bool) :
    At ρ tracked relayed on { s with monitoring := on } :=
  ⟨h.row.congr rfl rfl rfl id, h.tracked, h.relayed, rfl, h.flagged⟩

section

variable {R : HandlerError → HandlerWorld → Prop}

theorem onSessionStart_on : Triple (On Call.Swallowed (At ρ tracked relayed false) φ) onSessionStart
    (fun _ => On Call.Swallowed (At ρ tracked relayed true) φ) R := by
  unfold onSessionStart
  refine (guarded_ask_on at_stable trivial).bind fun _ => (guarded_ask_on at_stable trivial).bind fun _ => ?_
  exact (own_on (Q := fun _ => At ρ tracked relayed true) fun _ h => h.monitor true).bind
    fun _ => guarded_ask_on at_stable trivial

theorem onSessionEnd_on : Triple (On Call.Swallowed (At ρ tracked relayed true) φ) onSessionEnd
    (fun _ => On Call.Swallowed (At ρ tracked relayed false) φ) R := by
  unfold onSessionEnd
  refine (guarded_ask_on at_stable trivial).bind fun _ => (guarded_ask_on at_stable trivial).bind fun _ => ?_
  exact (own_on (Q := fun _ => At ρ tracked relayed false) fun _ h => h.monitor false).bind
    fun _ => guarded_ask_on at_stable trivial

theorem relayBidirectional_on (x : Answers) :
    Triple (On Call.Swallowed (At ρ tracked relayed monitoring) φ) (relayBidirectional x)
      (fun result => On Call.Swallowed
        (fun s => At ρ tracked (some x.relayResult) monitoring s ∧ result = x.relayResult) φ) R :=
  wait_on at_stable fun _ h => ⟨⟨h.row.congr rfl rfl rfl id, h.tracked, rfl, h.monitoring, h.flagged⟩, rfl⟩

end

/-! ## The whole run -/

def Answers.passes (x : Answers) (session : TokenPayload) : Bool :=
  !x.tokenFingerprintEnforce || session.fingerprint.isNone || x.fingerprintMatches

/-- The token is found in the request, its session is there and the fingerprint passes. -/
def Answers.admitted (x : Answers) : Bool :=
  match extractCookieToken x.x224Request, x.session with
  | .ok _, some session => x.passes session
  | _, _ => false

theorem fingerprintPasses_on (hP : Stable Other P) (x : Answers) (session : TokenPayload) :
    Triple (On Call.Swallowed P φ) (fingerprintPasses x session)
      (fun passes w => On Call.Swallowed P φ w ∧ passes = x.passes session)
      (fun _ w => On Call.Swallowed P none w ∧ ¬ LeavesRow φ) := by
  have hfail : ∀ (c : Call), c ≠ .setActiveSession → c ≠ .insertHistory →
      ∀ w : HandlerWorld,
        (On Call.Swallowed P none w ∧ ∃ f, φ = some f ∧ f.call = c) → On Call.Swallowed P none w ∧ ¬ LeavesRow φ :=
    fun c hset hinsert w h => ⟨h.1, not_leavesRow h.2 hset hinsert⟩
  unfold fingerprintPasses Answers.passes
  split_ifs with henforce
  · rw [henforce]
    rcases session.fingerprint with _ | d
    · refine Triple.bind ((ask_on hP id ()).mono (fun _ _ h => h.1.1) fun _ => hfail _ nofun nofun)
        fun _ => ?_
      exact Triple.pure fun _ h => ⟨h, rfl⟩
    · exact (ask_on hP id _).mono (fun _ _ h => ⟨h.1.1, h.2⟩) fun _ => hfail _ nofun nofun
  · rw [Bool.eq_false_iff.mpr henforce]
    exact Triple.pure fun _ h => ⟨h, rfl⟩

/-- What an exception finds when it leaves the body. -/
inductive Raised (x : Answers) (φ : Option HandlerFault) (w : HandlerWorld) : Prop where
  | unstarted (state : Keyless .absent false none w.state) (clean : ¬ (x.admitted = true ∧ LeavesRow φ))
  | lost (state : At .running false none false w.state) (admitted : x.admitted = true) (fault : LeavesRow φ)
  | connecting (on : On Call.Swallowed (At .running true none false) none w) (clean : ¬ LeavesRow φ)
  | beforeCommit (on : On Call.Swallowed (At .running true (some x.relayResult) false) none w)
      (fault : BeforeCommit x φ)
  | afterCommit (adminKill : Bool)
      (on : On Call.Swallowed (At (.closed (regular x adminKill)) true (some x.relayResult) false) none w)
      (fault : AfterCommit x φ)

/-- What a body that returns has left behind. -/
inductive Returned (x : Answers) (φ : Option HandlerFault) (s : HandlerState) : Prop where
  | unstarted (state : Keyless .absent false none s) (refused : x.admitted = false)
  | regular (adminKill : Bool) (state : Keyless (.closed (regular x adminKill)) true (some x.relayResult) s)
      (clean : ¬ LeavesRow φ) (before : ¬ BeforeCommit x φ) (after : ¬ AfterCommit x φ)

theorem session_on (x : Answers) (token : List Char) (session : TokenPayload) (clientIp : String)
    (hx : x.admitted = true) :
    Triple (On Call.Swallowed (Keyless .absent false none) φ)
      (do ConnectionTracker.start x session clientIp
          own fun s => ((), { s with trackedCid := some x.connectionId })
          connect x token session
          onSessionStart
          let result ← relayBidirectional x
          onSessionEnd
          endSession x result)
      (fun _ w => Returned x φ w.state) fun _ w => Raised x φ w := by
  refine Triple.bind ((start_on x session clientIp).mono (fun _ _ => id) ?_)
    fun _ => Triple.assume fun hclean => ?_
  · rintro _ w (⟨hw, hφ⟩ | ⟨hw, hφ⟩)
    · exact .unstarted hw fun h => hφ h.2
    · exact .lost hw hx hφ
  refine (own_on (Q := fun _ => At .running true none false)
    fun s h => ⟨h.row.congr rfl rfl rfl id, rfl, h.relayed, h.monitoring, h.flagged⟩).bind fun _ => ?_
  refine Triple.bind ((connect_keeps x token session).mono (fun _ _ => id)
    fun _ w h => .connecting h hclean) fun _ => ?_
  refine onSessionStart_on.bind fun _ => (relayBidirectional_on x).bind fun result => Triple.assume_on ?_
  rintro rfl
  refine onSessionEnd_on.bind fun _ => (endSession_on x).mono ?_ ?_
  · rintro _ w ⟨⟨adminKill, hw⟩, hbefore, hafter⟩
    exact .regular adminKill hw hclean hbefore hafter
  · rintro _ w (⟨hw, hφ⟩ | ⟨⟨adminKill, hw⟩, hφ⟩)
    · exact .beforeCommit hw hφ
    · exact .afterCommit adminKill hw hφ

theorem serve_on (x : Answers) :
    Triple (On Call.Swallowed (Keyless .absent false none) φ) (serve x)
      (fun _ w => Returned x φ w.state) fun _ w => Raised x φ w := by
  have hearly : ∀ (c : Call), c ≠ .setActiveSession → c ≠ .insertHistory →
      ∀ w : HandlerWorld,
        (On Call.Swallowed (Keyless .absent false none) none w ∧ ∃ f, φ = some f ∧ f.call = c) → Raised x φ w :=
    fun c hset hinsert w h => .unstarted h.1.state fun hx => not_leavesRow h.2 hset hinsert hx.2
  unfold serve
  refine Triple.bind (Q := fun _ => On Call.Swallowed (Keyless .absent false none) φ) ?_ fun clientIp => ?_
  · unfold resolveClientIp
    split_ifs
    · exact caught_ask_on keyless_stable trivial _ _
    · exact Triple.pure fun _ => id
  refine Triple.bind ((ask_on keyless_stable id _).mono (fun _ _ h => ⟨h.1.1, h.2⟩)
    fun _ => hearly _ nofun nofun) fun x224Request => Triple.assume ?_
  rintro rfl
  rcases htoken : extractCookieToken x.x224Request with _ | token
  · -- `extract_cookie_token` raises before anything is stored, whether or not a fault is still to come.
    refine Triple.throw fun w h => .unstarted h.state ?_
    rintro ⟨hx, _⟩
    unfold Answers.admitted at hx
    rw [htoken] at hx
    cases hx
  refine Triple.bind ((ask_on keyless_stable id _).mono (fun _ _ h => ⟨h.1.1, h.2⟩)
    fun _ => hearly _ nofun nofun) fun answer => Triple.assume ?_
  rintro rfl
  rcases hsession : x.session with _ | session
  · refine (wait_on keyless_stable fun _ => id).mono (fun _ w h => .unstarted h.state ?_) fun _ _ => id
    unfold Answers.admitted
    rw [htoken, hsession]
  have hadmitted : x.admitted = x.passes session := by
    unfold Answers.admitted
    rw [htoken, hsession]
  refine Triple.bind ((fingerprintPasses_on keyless_stable x session).mono (fun _ _ => id)
    fun _ w h => .unstarted h.1.state fun hx => h.2 hx.2) fun passes => Triple.assume ?_
  rintro rfl
  split_ifs with hpasses
  · exact session_on x token session clientIp (hadmitted.trans hpasses)
  · exact (wait_on keyless_stable fun _ => id).mono
      (fun _ w h => .unstarted h.state (hadmitted.trans (Bool.eq_false_iff.mpr hpasses))) fun _ _ => id

/-- All the ways in which the handler can leave its row and its keys. -/
inductive Ending (x : Answers) (φ : Option HandlerFault) (s : HandlerState) : Prop where
  | unstarted (state : Keyless .absent false none s) (clean : ¬ (x.admitted = true ∧ LeavesRow φ))
  | lost (state : At .running false none false s) (admitted : x.admitted = true) (fault : LeavesRow φ)
  | connecting (e : HandlerError) (state : Keyless (.closed e.closing) true none s) (clean : ¬ LeavesRow φ)
  | regular (adminKill : Bool) (state : Keyless (.closed (regular x adminKill)) true (some x.relayResult) s)
      (clean : ¬ LeavesRow φ) (before : ¬ BeforeCommit x φ) (after : ¬ AfterCommit x φ)
  | beforeCommit (e : HandlerError) (state : Keyless (.closed e.closing) true (some x.relayResult) s)
      (fault : BeforeCommit x φ)
  | afterCommit (state : Keyless .replaced true (some x.relayResult) s) (fault : AfterCommit x φ)

theorem handle_on (x : Answers) :
    Triple (On Call.Swallowed (Keyless .absent false none) φ) (handle x)
      (fun _ w => Ending x φ w.state) fun _ _ => False := by
  unfold handle
  refine Triple.tryCatch ((serve_on x).mono ?_ fun _ _ => id) fun e => ?_
  · rintro _ w (⟨hw, hx⟩ | ⟨adminKill, hw, hclean, hbefore, hafter⟩)
    · refine .unstarted hw ?_
      rintro ⟨hx', _⟩
      exact Bool.noConfusion (hx.symm.trans hx')
    · exact .regular adminKill hw hclean hbefore hafter
  -- Where `tracked_cid` is set the fault is spent, so that the branch comes to its end.
  intro w h
  rcases h with ⟨hw, hclean⟩ | ⟨hw, hx, hφ⟩ | ⟨hw, hclean⟩ | ⟨hw, hφ⟩ | ⟨adminKill, hw, hφ⟩
  · exact (branch_untracked keyless_stable (fun _ hs => hs.tracked) e).mono
      (fun _ _ h => .unstarted h.state hclean) (fun _ _ => id) w ⟨hw, Or.inl rfl⟩
  · exact (branch_untracked at_stable (fun _ hs => hs.tracked) e).mono
      (fun _ _ h => .lost h.state hx hφ) (fun _ _ => id) w ⟨hw, Or.inl rfl⟩
  · exact (branch_on e fun now s => closed_branch e now).mono
      (fun _ _ h => .connecting e h hclean) (fun _ _ => id) w hw
  · exact (branch_on e fun now s => closed_branch e now).mono
      (fun _ _ h => .beforeCommit e h hφ) (fun _ _ => id) w hw
  · exact (branch_on e fun now s hs => replaced_update hs.row e.closing_ne_active).mono
      (fun _ _ h => .afterCommit h hφ) (fun _ _ => id) w hw

end

theorem initial_keyless (clock : Int) : Keyless .absent false none (.initial clock) :=
  ⟨⟨⟨⟨rfl, rfl, rfl⟩, rfl, rfl, rfl, nofun⟩, rfl⟩, rfl⟩

theorem handled_ending (x : Answers) (clock : Int) (others : List (List Other)) (fault : Option HandlerFault) :
    Ending x fault (handled x clock others fault) := by
  have h := handle_on (φ := fault) x ⟨.initial clock, others, fault⟩ ⟨initial_keyless clock, Or.inl rfl⟩
  unfold handled
  split at h
  · rename_i hrun
    rw [hrun]
    exact h
  · exact h.elim

theorem handle_returns (x : Answers) (clock : Int) (others : List (List Other)) (fault : Option HandlerFault) :
    (exec (handle x) ⟨.initial clock, others, fault⟩).1 = .ok () := by
  have h := handle_on (φ := fault) x ⟨.initial clock, others, fault⟩ ⟨initial_keyless clock, Or.inl rfl⟩
  split at h
  · rename_i hrun
    rw [hrun]
  · exact h.elim

end RdpProxy.Relay
