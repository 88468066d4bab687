import RdpProxy.Lib.Faulty
import RdpProxy.Relay.Pipe
import RdpProxy.Tracker.ActiveKey
import RdpProxy.Tracker.History

/-!
# The row and the keys of one connection

What the handler works on, what others do to it meanwhile, and how far the row can have come. Admins kill
the connection, its keys expire, and the quality monitor rewrites the active key while it runs.
-/

open Faulty RowTxn

namespace RdpProxy.Relay

open Tracker

/-! ## The source -/

structure HandlerState where
  trackedCid : Option String
  row : Option ConnectionHistory
  active : Option ActiveValue
  connToken : Option (List Char)
  killSession : Bool
  /-- The quality monitor runs. -/
  monitoring : Bool
  clock : Int
  /-- What the relay has returned. -/
  relayed : Option RelayResult
  /-- The finalisations that have been committed. -/
  finishes : List Finish
  /-- An UPDATE of an admin has matched the row. -/
  rowKilled : Bool
  /-- An admin has set the kill flag. -/
  flagged : Bool

/-- A new connection has a fresh id, and so no row and no keys. -/
def HandlerState.initial (clock : Int) : HandlerState where
  trackedCid := none
  row := none
  active := none
  connToken := none
  killSession := false
  monitoring := false
  clock := clock
  relayed := none
  finishes := []
  rowKilled := false
  flagged := false

/-! ## The others -/

/-- `reconcile_stale_active_on_startup` is not one of them: it runs before the relay accepts a connection. -/
inductive Other where
  | tick (ms : Nat)
  | killSession
  | killAllSessions
  | setKillSession
  | expireKillSession
  /-- A kill or the expiry, as for the mapping. -/
  | deleteActiveSession
  | deleteConnToken
  | publish (snapshot : QualitySnapshot)

namespace HandlerState

def kill (s : HandlerState) (op : RowOp) : HandlerState :=
  { s with row := s.row.map op.apply, rowKilled := s.rowKilled || s.row.any fun row => row.status = "active" }

def act : Other → HandlerState → HandlerState
  | .tick ms, s => { s with clock := s.clock + ms }
  | .killSession, s => s.kill .killSession
  | .killAllSessions, s => s.kill .killAllSessions
  | .setKillSession, s => { s with killSession := true, flagged := true }
  | .expireKillSession, s => { s with killSession := false }
  | .deleteActiveSession, s => { s with active := none }
  | .deleteConnToken, s => { s with connToken := none }
  | .publish snapshot, s =>
    if s.monitoring then { s with active := some (.object (publishData s.active snapshot)) } else s

/-- The transaction of `finish`, which is atomic (`commit_atomic`). -/
def update (s : HandlerState) (f : Finish) : HandlerState :=
  { s with row := s.row.map (RowOp.finish f).apply, finishes := s.finishes ++ [f] }

end HandlerState

instance : Acts Other HandlerState := ⟨HandlerState.act⟩

/-! ## The row -/

/-- What `finish` is called with. -/
structure Closing where
  status : String
  disconnectReason : String
  bytesToClient : Int
  bytesToBackend : Int

/-- How far the row has come. -/
inductive RowPhase where
  | absent
  | running
  | closed (c : Closing)
  /-- Closed, and then closed again. -/
  | replaced

structure Running (s : HandlerState) (row : ConnectionHistory) : Prop where
  held : s.row = some row
  endedAt : row.endedAt = none
  status : row.status = if s.rowKilled then "killed" else "active"
  finishes : s.finishes = []

structure Ended (s : HandlerState) (row : ConnectionHistory) : Prop where
  held : s.row = some row
  endedAt : row.endedAt ≠ none
  status : row.status ≠ "active"

structure Closed (c : Closing) (s : HandlerState) (row : ConnectionHistory) : Prop extends Ended s row where
  toClient : row.bytesToClient = c.bytesToClient
  toBackend : row.bytesToBackend = c.bytesToBackend
  killed : s.rowKilled = true → row.status = "killed"
  closed : s.rowKilled = false → row.status = c.status ∧ row.disconnectReason = some c.disconnectReason
  once : s.finishes.length = 1
  flagged : c.status = "killed" → s.flagged = true

def RowPhase.Holds (s : HandlerState) : RowPhase → Prop
  | .absent => s.row = none ∧ s.rowKilled = false ∧ s.finishes = []
  | .running => ∃ row, Running s row
  | .closed c => ∃ row, Closed c s row
  | .replaced => (∃ row, Ended s row) ∧ 1 < s.finishes.length

theorem kill_txn {op : RowOp} (hop : op.IsKill) : ∃ reason, op.txn = once (killUpdate reason) := by
  cases op with
  | killSession => exact ⟨_, rfl⟩
  | killAllSessions => exact ⟨_, rfl⟩
  | finish f => exact hop.elim
  | reconcileStaleActiveOnStartup instanceId now => exact hop.elim

theorem kill_apply_active {op : RowOp} (hop : op.IsKill) {row : ConnectionHistory} (ha : row.status = "active") :
    (op.apply row).status = "killed" ∧ (op.apply row).endedAt = row.endedAt := by
  obtain ⟨reason, htxn⟩ := kill_txn hop
  unfold RowOp.apply once Txn.apply killUpdate at *
  rw [htxn]
  simp only [if_pos ha]
  exact ⟨rfl, rfl⟩

theorem kill_apply_inactive {op : RowOp} (hop : op.IsKill) {row : ConnectionHistory} (ha : row.status ≠ "active") :
    op.apply row = row := by
  obtain ⟨reason, htxn⟩ := kill_txn hop
  unfold RowOp.apply
  rw [htxn, once, Txn.apply, killUpdate_none.mpr ha]
  rfl

theorem kill_inactive {op : RowOp} (hop : op.IsKill) {s : HandlerState} {row : ConnectionHistory}
    (hrow : s.row = some row) (ha : row.status ≠ "active") : s.kill op = s := by
  unfold HandlerState.kill
  rw [hrow, Option.map_some, kill_apply_inactive hop ha, Option.any_some, decide_eq_false ha, Bool.or_false, ← hrow]

theorem RowPhase.Holds.kill {s : HandlerState} {ρ : RowPhase} (h : ρ.Holds s) (op : RowOp) (hop : op.IsKill) :
    ρ.Holds (s.kill op) := by
  cases ρ with
  | absent =>
    obtain ⟨hrow, hkilled, hfin⟩ := h
    unfold HandlerState.kill
    rw [hrow]
    exact ⟨rfl, by rw [hkilled]; rfl, hfin⟩
  | running =>
    obtain ⟨row, h⟩ := h
    by_cases ha : row.status = "active"
    · obtain ⟨hs, he⟩ := kill_apply_active hop ha
      refine ⟨op.apply row, ?_, he.trans h.endedAt, ?_, h.finishes⟩
      · unfold HandlerState.kill
        rw [h.held]
        rfl
      · unfold HandlerState.kill
        rw [hs, h.held, Option.any_some, decide_eq_true ha, Bool.or_true, if_pos rfl]
    · rw [kill_inactive hop h.held ha]
      exact ⟨row, h⟩
  | closed =>
    obtain ⟨row, h⟩ := h
    rw [kill_inactive hop h.held h.status]
    exact ⟨row, h⟩
  | replaced =>
    obtain ⟨⟨row, h⟩, hfin⟩ := h
    rw [kill_inactive hop h.held h.status]
    exact ⟨⟨row, h⟩, hfin⟩

/-! ### `finish` -/

theorem finish_apply_killed (f : Finish) {row : ConnectionHistory} (hk : row.status = "killed") :
    (RowOp.finish f).apply row =
      { row with endedAt := some f.now, bytesToClient := f.bytesToClient, bytesToBackend := f.bytesToBackend } := by
  show f.txn.apply row = _
  rw [Finish.txn, Txn.apply, finish_update_none.mpr hk]
  show (once f.updateKilled).apply row = _
  rw [once, Txn.apply, Finish.updateKilled, if_pos hk]
  rfl

theorem finish_apply_live (f : Finish) {row : ConnectionHistory} (hk : row.status ≠ "killed") :
    (RowOp.finish f).apply row =
      { row with endedAt := some f.now, status := f.status, disconnectReason := f.disconnectReason,
                 bytesToClient := f.bytesToClient, bytesToBackend := f.bytesToBackend } := by
  show f.txn.apply row = _
  rw [Finish.txn, Txn.apply, Finish.update, if_pos hk]
  rfl

/-- The finish that `c` calls for, at the time `now`. -/
def Closing.at (c : Closing) (now : Int) : Finish :=
  ⟨now, c.status, some c.disconnectReason, c.bytesToClient, c.bytesToBackend⟩

theorem ended_update {s : HandlerState} {row : ConnectionHistory} (hrow : s.row = some row) {f : Finish}
    (hf : f.status ≠ "active") : Ended (s.update f) ((RowOp.finish f).apply row) := by
  obtain ⟨ha, he⟩ := finish_apply_ended hf row
  refine ⟨?_, he, ha⟩
  unfold HandlerState.update
  rw [hrow]
  rfl

theorem closed_update {s : HandlerState} {row : ConnectionHistory} (h : Running s row) {c : Closing}
    (hc : c.status ≠ "active") (hflag : c.status = "killed" → s.flagged = true) (now : Int) :
    Closed c (s.update (c.at now)) ((RowOp.finish (c.at now)).apply row) := by
  have hended := ended_update h.held (f := c.at now) hc
  have honce : (s.update (c.at now)).finishes.length = 1 := by
    unfold HandlerState.update
    rw [h.finishes]
    rfl
  have hstatus := h.status
  rcases hk : s.rowKilled with _ | _
  · rw [hk] at hstatus
    have hlive : row.status ≠ "killed" := active_ne_killed hstatus
    rw [finish_apply_live _ hlive] at hended ⊢
    exact ⟨hended, rfl, rfl, fun hy => Bool.noConfusion (hk.symm.trans hy), fun _ => ⟨rfl, rfl⟩, honce, hflag⟩
  · rw [hk] at hstatus
    have hkilled : row.status = "killed" := hstatus
    rw [finish_apply_killed _ hkilled] at hended ⊢
    exact ⟨hended, rfl, rfl, fun _ => hkilled, fun hn => Bool.noConfusion (hk.symm.trans hn), honce, hflag⟩

theorem replaced_update {s : HandlerState} {c : Closing} (h : (RowPhase.closed c).Holds s) {f : Finish}
    (hf : f.status ≠ "active") : RowPhase.replaced.Holds (s.update f) := by
  obtain ⟨row, h⟩ := h
  refine ⟨⟨_, ended_update h.held hf⟩, ?_⟩
  unfold HandlerState.update
  rw [List.length_append, h.once]
  exact Nat.lt_succ_self 1

/-! ## The handler's state -/

/-- The row is in the phase `ρ`. The kill flag is only ever set by an admin. -/
structure At (ρ : RowPhase) (tracked : Bool) (relayed : Option RelayResult) (monitoring : Bool) (s : HandlerState) :
    Prop where
  row : ρ.Holds s
  tracked : s.trackedCid.isSome = tracked
  relayed : s.relayed = relayed
  monitoring : s.monitoring = monitoring
  flagged : s.killSession = true → s.flagged = true

/-- The active key is gone, and no monitor runs that could write it again. -/
structure Inactive (ρ : RowPhase) (tracked : Bool) (relayed : Option RelayResult) (s : HandlerState) : Prop extends
    At ρ tracked relayed false s where
  active : s.active = none

/-- Both keys are gone. -/
structure Keyless (ρ : RowPhase) (tracked : Bool) (relayed : Option RelayResult) (s : HandlerState) : Prop extends
    Inactive ρ tracked relayed s where
  connToken : s.connToken = none

variable {ρ : RowPhase} {tracked monitoring : Bool} {relayed : Option RelayResult} {s : HandlerState}

theorem RowPhase.Holds.congr {s' : HandlerState} (h : ρ.Holds s) (hrow : s'.row = s.row)
    (hkilled : s'.rowKilled = s.rowKilled) (hfin : s'.finishes = s.finishes)
    (hflag : s.flagged = true → s'.flagged = true) : ρ.Holds s' := by
  cases ρ with
  | absent =>
    obtain ⟨hr, hk, hf⟩ := h
    exact ⟨hrow.trans hr, hkilled.trans hk, hfin.trans hf⟩
  | running =>
    obtain ⟨row, h⟩ := h
    exact ⟨row, hrow.trans h.held, h.endedAt, by rw [hkilled]; exact h.status, hfin.trans h.finishes⟩
  | closed c =>
    obtain ⟨row, h⟩ := h
    refine ⟨row, ⟨hrow.trans h.held, h.endedAt, h.status⟩, h.toClient, h.toBackend, ?_, ?_, ?_, ?_⟩
    · rw [hkilled]
      exact h.killed
    · rw [hkilled]
      exact h.closed
    · rw [hfin]
      exact h.once
    · exact fun hc => hflag (h.flagged hc)
  | replaced =>
    obtain ⟨⟨row, h⟩, hlen⟩ := h
    exact ⟨⟨row, hrow.trans h.held, h.endedAt, h.status⟩, by rw [hfin]; exact hlen⟩

theorem At.keys (h : At ρ tracked relayed monitoring s) (active : Option ActiveValue) (connToken : Option (List Char)) :
    At ρ tracked relayed monitoring { s with active := active, connToken := connToken } :=
  ⟨h.row.congr rfl rfl rfl id, h.tracked, h.relayed, h.monitoring, h.flagged⟩

theorem at_stable : Stable Other (At ρ tracked relayed monitoring) := by
  intro m s h
  have ⟨hrow, htracked, hrelayed, hmonitoring, hflagged⟩ := h
  cases m with
  | killSession => exact ⟨hrow.kill .killSession trivial, htracked, hrelayed, hmonitoring, hflagged⟩
  | killAllSessions => exact ⟨hrow.kill .killAllSessions trivial, htracked, hrelayed, hmonitoring, hflagged⟩
  | setKillSession => exact ⟨hrow.congr rfl rfl rfl fun _ => rfl, htracked, hrelayed, hmonitoring, fun _ => rfl⟩
  | expireKillSession => exact ⟨hrow.congr rfl rfl rfl id, htracked, hrelayed, hmonitoring, nofun⟩
  | publish snapshot =>
    show At ρ tracked relayed monitoring (if s.monitoring then _ else s)
    split_ifs
    · exact h.keys _ s.connToken
    · exact h
  | deleteActiveSession => exact h.keys none s.connToken
  | deleteConnToken => exact h.keys s.active none
  | tick => exact ⟨hrow.congr rfl rfl rfl id, htracked, hrelayed, hmonitoring, hflagged⟩

theorem inactive_stable : Stable Other (Inactive ρ tracked relayed) := by
  rintro m s ⟨h, hactive⟩
  refine ⟨at_stable m s h, ?_⟩
  cases m with
  | publish snapshot =>
    show (if s.monitoring then _ else s).active = none
    rw [h.monitoring]
    exact hactive
  | deleteActiveSession => rfl
  | _ => exact hactive

theorem keyless_stable : Stable Other (Keyless ρ tracked relayed) := by
  rintro m s ⟨h, hconn⟩
  refine ⟨inactive_stable m s h, ?_⟩
  cases m with
  | publish snapshot =>
    show (if s.monitoring then _ else s).connToken = none
    rw [h.monitoring]
    exact hconn
  | deleteConnToken => rfl
  | _ => exact hconn

theorem At.update {ρ' : RowPhase} (h : At ρ tracked relayed monitoring s) {f : Finish} (hrow : ρ'.Holds (s.update f)) :
    At ρ' tracked relayed monitoring (s.update f) :=
  ⟨hrow, h.tracked, h.relayed, h.monitoring, h.flagged⟩

theorem Inactive.deleted (h : At ρ tracked relayed false s) : Inactive ρ tracked relayed { s with active := none } :=
  ⟨h.keys none s.connToken, rfl⟩

theorem Keyless.deleted (h : Inactive ρ tracked relayed s) : Keyless ρ tracked relayed { s with connToken := none } :=
  ⟨⟨h.keys s.active none, h.active⟩, rfl⟩

end RdpProxy.Relay
