import RdpProxy.Relay.HandlerEnd

/-!
# The row and the keys behind the handler

When the row is ended and the keys are gone, and when the row says what the relay has returned.
-/

open Faulty Text

namespace RdpProxy.Relay

open Rdp Tracker

variable {ρ : RowPhase} {tracked monitoring : Bool} {relayed : Option RelayResult} {s : HandlerState}

/-! ## What is left behind -/

/-- An inserted row is ended, and the two keys of the connection are gone. -/
structure HandlerState.Finalized (s : HandlerState) : Prop where
  row : ∀ row, s.row = some row → row.status ≠ "active" ∧ row.endedAt ≠ none
  active : s.active = none
  connToken : s.connToken = none

theorem Keyless.finalized (h : Keyless ρ tracked relayed s) (hρ : ρ ≠ .running) : s.Finalized := by
  refine ⟨fun row hrow => ?_, h.active, h.connToken⟩
  have hholds := h.row
  have hended : ∀ {row'}, Ended s row' → row.status ≠ "active" ∧ row.endedAt ≠ none := by
    intro row' h
    cases hrow.symm.trans h.held
    exact ⟨h.status, h.endedAt⟩
  cases ρ with
  | absent =>
    rw [hholds.1] at hrow
    cases hrow
  | running => exact absurd rfl hρ
  | closed c =>
    obtain ⟨row', h⟩ := hholds
    exact hended h.toEnded
  | replaced =>
    obtain ⟨⟨row', h⟩, _⟩ := hholds
    exact hended h

theorem At.not_finalized (h : At .running tracked relayed monitoring s) : ¬ s.Finalized := by
  intro hfin
  obtain ⟨row, hrow⟩ := h.row
  exact (hfin.row row hrow.held).2 hrow.endedAt

theorem finalized_iff (x : Answers) (clock : Int) (others : List (List Other)) (fault : Option HandlerFault) :
    (handled x clock others fault).Finalized ↔ ¬ (x.admitted = true ∧ LeavesRow fault) := by
  rcases handled_ending x clock others fault with
    ⟨h, hclean⟩ | ⟨h, hx, hφ⟩ | ⟨e, h, hclean⟩ | ⟨_, h, hclean, _, _⟩ | ⟨e, h, hφ⟩ | ⟨h, hφ⟩
  · exact iff_of_true (h.finalized nofun) hclean
  · exact iff_of_false h.not_finalized fun hn => hn ⟨hx, hφ⟩
  · exact iff_of_true (h.finalized nofun) fun hn => hclean hn.2
  · exact iff_of_true (h.finalized nofun) fun hn => hclean hn.2
  · exact iff_of_true (h.finalized nofun) fun hn => hφ.clean hn.2
  · exact iff_of_true (h.finalized nofun) fun hn => hφ.clean hn.2

def sampleAnswers : Answers where
  instanceId := "relay-1"
  connectionId := "7b0c2f0e-5d1f-4f0a-9a56-3d1f8a2c9e11"
  proxyProtocol := false
  peerIp := "192.0.2.7"
  srcAddr := ""
  x224Request := [0x0E, 0xE0, 0, 0, 0, 0, 0] ++ msts ++ ascii "q3Jx-8mZt2Vb" ++ crlf
  session := some ⟨"alice", "", "10.0.0.5", 3389, none, none, none⟩
  tokenFingerprintEnforce := true
  fingerprintMatches := true
  startedAt := "2023-11-14T22:13:20+00:00"
  resolvedHost := "10.0.0.5"
  relayResult := ⟨7, 5, [⟨.clientToBackend, 5, "eof"⟩, ⟨.backendToClient, 7, "eof"⟩]⟩
  durationExceeded := false
  deleteTokenOnDisconnect := false

/-- The Redis SET of `start` fails, and the row that it has just inserted stays active. -/
theorem active_row_left_behind :
    ¬ (handled sampleAnswers 1700000000 [] (some ⟨.setActiveSession, false, .other⟩)).Finalized := by
  intro h
  exact (h.row _ rfl).1 rfl

/-! ## The last word on the row -/

/-- The row has the numbers of the relay's result and, unless an admin has killed it, the status and the
reason that follow from the legs. Only one finalisation has been committed. -/
structure HandlerState.Kept (s : HandlerState) (result : RelayResult) (durationExceeded : Bool) : Prop where
  row : ∃ row, s.row = some row ∧ row.bytesToClient = result.bytesToClient ∧
    row.bytesToBackend = result.bytesToBackend ∧
      (row.status = "killed" ∧ (s.rowKilled = true ∨ s.flagged = true) ∨
        row.status = (finishReason result false durationExceeded).1 ∧
          row.disconnectReason = some (finishReason result false durationExceeded).2)
  once : s.finishes.length ≤ 1

theorem finishReason_unkilled {result : RelayResult} {adminKill durationExceeded : Bool}
    (h : (finishReason result adminKill durationExceeded).1 ≠ "killed") :
    finishReason result adminKill durationExceeded = finishReason result false durationExceeded := by
  rcases hkilled : result.wasKilled with _ | _
  · unfold RelayResult.wasKilled at hkilled
    unfold finishReason
    rw [hkilled]
    rfl
  · unfold RelayResult.wasKilled at hkilled
    unfold finishReason at h
    rw [hkilled] at h
    rcases adminKill with _ | _
    · rfl
    · exact absurd rfl h

theorem regular_kept {x : Answers} {adminKill : Bool} (h : Keyless (.closed (regular x adminKill)) tracked relayed s) :
    s.Kept x.relayResult x.durationExceeded := by
  obtain ⟨row, hrow⟩ := h.row
  refine ⟨⟨row, hrow.held, hrow.toClient, hrow.toBackend, ?_⟩, hrow.once.le⟩
  rcases hk : s.rowKilled with _ | _
  · obtain ⟨hstatus, hreason⟩ := hrow.closed hk
    by_cases hkilled : (regular x adminKill).status = "killed"
    · exact Or.inl ⟨hstatus.trans hkilled, Or.inr (hrow.flagged hkilled)⟩
    · have hfin := finishReason_unkilled hkilled
      rw [← hfin]
      exact Or.inr ⟨hstatus, hreason⟩
  · exact Or.inl ⟨hrow.killed hk, Or.inl rfl⟩

theorem HandlerError.closing_ne_regular (e : HandlerError) (result : RelayResult) (durationExceeded : Bool) :
    e.closing.disconnectReason ≠ (finishReason result false durationExceeded).2 := by
  unfold finishReason
  dsimp only
  cases e <;> split_ifs <;> decide

theorem branch_kept_iff {e : HandlerError} {result : RelayResult} {durationExceeded : Bool}
    (h : Keyless (.closed e.closing) tracked relayed s) :
    s.Kept result durationExceeded ↔ s.rowKilled = true ∧ result.bytesToClient = 0 ∧ result.bytesToBackend = 0 := by
  obtain ⟨row, hrow⟩ := h.row
  have hbytes : e.closing.bytesToClient = 0 ∧ e.closing.bytesToBackend = 0 := by
    cases e <;> exact ⟨rfl, rfl⟩
  constructor
  · rintro ⟨⟨row', hheld, hclient, hbackend, hstatus⟩, _⟩
    cases hheld.symm.trans hrow.held
    refine ⟨?_, ?_, ?_⟩
    · by_contra hk
      obtain ⟨hs, hr⟩ := hrow.closed (Bool.eq_false_iff.mpr hk)
      rcases hstatus with ⟨hkilled, _⟩ | ⟨_, hreason⟩
      · exact e.closing_ne_killed (hs.symm.trans hkilled)
      · exact e.closing_ne_regular result durationExceeded (Option.some.inj (hr.symm.trans hreason))
    · exact Int.ofNat_eq_zero.mp (hclient.symm.trans (hrow.toClient.trans hbytes.1))
    · exact Int.ofNat_eq_zero.mp (hbackend.symm.trans (hrow.toBackend.trans hbytes.2))
  · rintro ⟨hk, hclient, hbackend⟩
    refine ⟨⟨row, hrow.held, ?_, ?_, Or.inl ⟨hrow.killed hk, Or.inl hk⟩⟩, hrow.once.le⟩
    · rw [hrow.toClient, hbytes.1, hclient, Int.natCast_zero]
    · rw [hrow.toBackend, hbytes.2, hbackend, Int.natCast_zero]

theorem AfterCommit.not_before {x : Answers} {φ : Option HandlerFault} (h : AfterCommit x φ) : ¬ BeforeCommit x φ := by
  obtain ⟨f, rfl, hf⟩ := h
  rintro ⟨g, ⟨⟩, hg⟩
  rcases hf with ⟨hf, ha⟩ | hf | ⟨hf, _⟩ | hf <;> rw [hf] at hg <;>
    rcases hg with hg | ⟨hg, _⟩ | ⟨hg, hn⟩ <;> cases hg
  exact Bool.noConfusion (ha.symm.trans hn)

theorem final_row_kept_iff (x : Answers) (clock : Int) (others : List (List Other)) (fault : Option HandlerFault)
    (result : RelayResult) (hrelay : (handled x clock others fault).relayed = some result) :
    (handled x clock others fault).Kept result x.durationExceeded ↔
      ¬ BeforeCommit x fault ∧ ¬ AfterCommit x fault ∨
        BeforeCommit x fault ∧ (handled x clock others fault).rowKilled = true ∧
          result.bytesToClient = 0 ∧ result.bytesToBackend = 0 := by
  rcases handled_ending x clock others fault with
    ⟨h, hclean⟩ | ⟨h, hx, hφ⟩ | ⟨e, h, hclean⟩ | ⟨adminKill, h, _, hbefore, hafter⟩ | ⟨e, h, hφ⟩ | ⟨h, hφ⟩
  · cases h.relayed.symm.trans hrelay
  · cases h.relayed.symm.trans hrelay
  · cases h.relayed.symm.trans hrelay
  · cases h.relayed.symm.trans hrelay
    exact iff_of_true (regular_kept h) (Or.inl ⟨hbefore, hafter⟩)
  · cases h.relayed.symm.trans hrelay
    rw [branch_kept_iff h]
    exact ⟨fun hk => Or.inr ⟨hφ, hk⟩, fun hk => (hk.resolve_left fun hn => hn.1 hφ).2⟩
  · refine iff_of_false (fun hk => absurd h.row.2 (Nat.not_lt.mpr hk.once)) ?_
    rintro (⟨_, hn⟩ | ⟨hb, _⟩)
    · exact hn hφ
    · exact hφ.not_before hb

theorem final_row_kept_hook :
    ∃ result,
      (handled sampleAnswers 1700000000 [] (some ⟨.onSessionEnd "session_monitor", false, .other⟩)).relayed =
        some result ∧
      (handled sampleAnswers 1700000000 [] (some ⟨.onSessionEnd "session_monitor", false, .other⟩)).Kept result
        sampleAnswers.durationExceeded := by
  refine ⟨_, rfl, (final_row_kept_iff sampleAnswers 1700000000 [] _ _ rfl).mpr (Or.inl ⟨?_, ?_⟩)⟩
  · rintro ⟨f, ⟨⟩, hf | ⟨hf, _⟩ | ⟨hf, _⟩⟩ <;> cases hf
  · rintro ⟨f, ⟨⟩, ⟨hf, _⟩ | hf | ⟨hf, _⟩ | hf⟩ <;> cases hf

/-- The DEL of the active key fails behind the commit of `finish`, and the row is closed again, as an error
without a byte. -/
theorem result_overwritten :
    ∃ result,
      (handled sampleAnswers 1700000000 [] (some ⟨.deleteActiveSession, false, .other⟩)).relayed = some result ∧
      ¬ (handled sampleAnswers 1700000000 [] (some ⟨.deleteActiveSession, false, .other⟩)).Kept result
        sampleAnswers.durationExceeded := by
  refine ⟨_, rfl, fun h => ?_⟩
  obtain ⟨row, hrow, hclient, _⟩ := h.row
  cases hrow
  exact absurd hclient (by decide)

end RdpProxy.Relay
