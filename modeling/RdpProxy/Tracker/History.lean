import RdpProxy.Lib.RowTxn

/-!
# The history row of a connection

The UPDATE statements of `ConnectionTracker` and of the two kills on one row of
`connection_history`, and what they do to it in any order.
-/

open Steps RowTxn

namespace RdpProxy.Tracker

/-- The columns that the statements read or write. -/
structure ConnectionHistory where
  instanceId : String
  endedAt : Option Int
  bytesToClient : Int
  bytesToBackend : Int
  disconnectReason : Option String
  status : String
  deriving DecidableEq

/-- The row that `start` inserts. -/
def ConnectionHistory.started (instanceId : String) : ConnectionHistory where
  instanceId := instanceId
  endedAt := none
  bytesToClient := 0
  bytesToBackend := 0
  disconnectReason := none
  status := "active"

/-! ## The statements -/

/-- The arguments of `finish`, and the time that it takes. -/
structure Finish where
  now : Int
  status : String
  disconnectReason : Option String
  bytesToClient : Int
  bytesToBackend : Int

def Finish.update (f : Finish) (row : ConnectionHistory) : Option ConnectionHistory :=
  if row.status ≠ "killed" then
    some { row with endedAt := some f.now, status := f.status, disconnectReason := f.disconnectReason,
                    bytesToClient := f.bytesToClient, bytesToBackend := f.bytesToBackend }
  else none

def Finish.updateKilled (f : Finish) (row : ConnectionHistory) : Option ConnectionHistory :=
  if row.status = "killed" then
    some { row with endedAt := some f.now, bytesToClient := f.bytesToClient, bytesToBackend := f.bytesToBackend }
  else none

def killUpdate (reason : String) (row : ConnectionHistory) : Option ConnectionHistory :=
  if row.status = "active" then some { row with status := "killed", disconnectReason := some reason } else none

def reconcileUpdate (instanceId : String) (now : Int) (row : ConnectionHistory) : Option ConnectionHistory :=
  if row.instanceId = instanceId ∧ row.status = "active" ∧ row.endedAt = none then
    some { row with endedAt := some now, status := "error", disconnectReason := some "relay-restart" }
  else none

/-! ## The transactions -/

inductive RowOp where
  | finish (f : Finish)
  | killSession
  | killAllSessions
  | reconcileStaleActiveOnStartup (instanceId : String) (now : Int)

def once (update : ConnectionHistory → Option ConnectionHistory) : Txn ConnectionHistory := .exec update fun _ => .done

def Finish.txn (f : Finish) : Txn ConnectionHistory :=
  .exec f.update fun matched => if matched then .done else once f.updateKilled

/-- What the operation does to one row. A kill of all rows and a reconcile commit theirs together. -/
def RowOp.txn : RowOp → Txn ConnectionHistory
  | .finish f => f.txn
  | .killSession => once (killUpdate "admin_kill")
  | .killAllSessions => once (killUpdate "admin_kill_all")
  | .reconcileStaleActiveOnStartup instanceId now => once (reconcileUpdate instanceId now)

def RowOp.apply (op : RowOp) (row : ConnectionHistory) : ConnectionHistory := op.txn.apply row

def RowOp.IsKill : RowOp → Prop
  | .killSession | .killAllSessions => True
  | _ => False

def RowOp.IsFinish : RowOp → Prop
  | .finish _ => True
  | _ => False

/-- A `finish` gets a status other than `active`, as all its callers give it. -/
def RowOp.Ends : RowOp → Prop
  | .finish f => f.status ≠ "active"
  | _ => True

/-! ## What a row may become -/

/-- The pairs of `status` and `ended_at` that occur. -/
structure ConnectionHistory.Wf (row : ConnectionHistory) : Prop where
  running : row.endedAt = none → row.status = "active" ∨ row.status = "killed"
  ended : row.endedAt ≠ none → row.status ≠ "active"

theorem started_wf (instanceId : String) : (ConnectionHistory.started instanceId).Wf :=
  ⟨fun _ => Or.inl rfl, fun h => absurd rfl h⟩

theorem ConnectionHistory.Wf.not_ended {row : ConnectionHistory} (h : row.Wf) (ha : row.status = "active") :
    row.endedAt = none := by
  by_contra he
  exact h.ended he ha

/-- `row'` is `row` or a later state of it. -/
structure Follows (row row' : ConnectionHistory) : Prop where
  instanceId : row'.instanceId = row.instanceId
  killed : row.status = "killed" → row'.status = "killed" ∧ row'.disconnectReason = row.disconnectReason
  inactive : row.status ≠ "active" → row'.status ≠ "active"
  ended : row.endedAt ≠ none → row'.endedAt ≠ none
  wf : row.Wf → row'.Wf

theorem follows_order : Order Follows := by
  constructor
  · intro r
    exact ⟨rfl, fun h => ⟨h, rfl⟩, id, id, id⟩
  · intro r r' r'' h h'
    refine ⟨h'.instanceId.trans h.instanceId, ?_, fun hi => h'.inactive (h.inactive hi),
      fun he => h'.ended (h.ended he), fun hw => h'.wf (h.wf hw)⟩
    intro hk
    obtain ⟨hs, hr⟩ := h.killed hk
    obtain ⟨hs', hr'⟩ := h'.killed hs
    exact ⟨hs', hr'.trans hr⟩

theorem active_ne_killed {row : ConnectionHistory} (ha : row.status = "active") : row.status ≠ "killed" := by
  rw [ha]
  decide

theorem finish_update_follows {f : Finish} (hf : f.status ≠ "active") {row row' : ConnectionHistory}
    (h : f.update row = some row') : Follows row row' := by
  unfold Finish.update at h
  split_ifs at h with hs
  cases h
  exact ⟨rfl, fun hk => absurd hk hs, fun _ => hf, fun _ => Option.some_ne_none _,
    fun _ => ⟨fun he => absurd he (Option.some_ne_none _), fun _ => hf⟩⟩

theorem finish_updateKilled_follows {f : Finish} {row row' : ConnectionHistory}
    (h : f.updateKilled row = some row') : Follows row row' := by
  unfold Finish.updateKilled at h
  split_ifs at h with hs
  cases h
  refine ⟨rfl, fun hk => ⟨hk, rfl⟩, id, fun _ => Option.some_ne_none _, fun _ => ⟨fun _ => Or.inr hs, ?_⟩⟩
  intro _ ha
  exact active_ne_killed ha hs

theorem kill_update_follows {reason : String} {row row' : ConnectionHistory}
    (h : killUpdate reason row = some row') : Follows row row' := by
  unfold killUpdate at h
  split_ifs at h with hs
  cases h
  refine ⟨rfl, fun hk => absurd hk (active_ne_killed hs), fun hi => absurd hs hi, id, ?_⟩
  intro hw
  exact ⟨fun _ => Or.inr rfl, fun he => absurd (hw.not_ended hs) he⟩

theorem reconcile_update_follows {instanceId : String} {now : Int} {row row' : ConnectionHistory}
    (h : reconcileUpdate instanceId now row = some row') : Follows row row' := by
  unfold reconcileUpdate at h
  split_ifs at h with hs
  cases h
  have herror : "error" ≠ "active" := by decide
  exact ⟨rfl, fun hk => absurd hk (active_ne_killed hs.2.1), fun _ => herror, fun _ => Option.some_ne_none _,
    fun _ => ⟨fun he => absurd he (Option.some_ne_none _), fun _ => herror⟩⟩

theorem txn_leads {op : RowOp} (h : op.Ends) : op.txn.Leads Follows := by
  cases op with
  | finish f =>
    refine ⟨fun _ _ => finish_update_follows h, ?_⟩
    rintro (_ | _)
    · exact ⟨fun _ _ => finish_updateKilled_follows, fun _ => trivial⟩
    · trivial
  | killSession => exact ⟨fun _ _ => kill_update_follows, fun _ => trivial⟩
  | killAllSessions => exact ⟨fun _ _ => kill_update_follows, fun _ => trivial⟩
  | reconcileStaleActiveOnStartup instanceId now => exact ⟨fun _ _ => reconcile_update_follows, fun _ => trivial⟩

/-! ## A statement without a match -/

theorem finish_update_none {f : Finish} {row : ConnectionHistory} : f.update row = none ↔ row.status = "killed" := by
  unfold Finish.update
  split_ifs with hs
  · exact iff_of_false id hs
  · exact iff_of_true rfl (not_not.mp hs)

theorem killUpdate_none {reason : String} {row : ConnectionHistory} :
    killUpdate reason row = none ↔ row.status ≠ "active" := by
  unfold killUpdate
  split_ifs with hs
  · exact iff_of_false id (not_not.mpr hs)
  · exact iff_of_true rfl hs

theorem reconcileUpdate_none {instanceId : String} {now : Int} {row : ConnectionHistory} :
    reconcileUpdate instanceId now row = none ↔
      ¬ (row.instanceId = instanceId ∧ row.status = "active" ∧ row.endedAt = none) := by
  unfold reconcileUpdate
  split_ifs with hs
  · exact iff_of_false id (not_not.mpr hs)
  · exact iff_of_true rfl hs

theorem once_stays {update : ConnectionHistory → Option ConnectionHistory}
    (h : ∀ row row', update row = none → Follows row row' → update row' = none) :
    (once update).Stays Follows fun _ => True :=
  ⟨fun row row' _ hu hf => ⟨trivial, h row row' hu hf⟩, trivial⟩

theorem kill_stays (reason : String) : (once (killUpdate reason)).Stays Follows fun _ => True := by
  apply once_stays
  intro row row' hu hf
  rw [killUpdate_none] at hu ⊢
  exact hf.inactive hu

theorem finish_stays (f : Finish) : f.txn.Stays Follows fun _ => True := by
  refine ⟨?_, ?_, trivial⟩
  · intro row row' _ hu hf
    rw [finish_update_none] at hu ⊢
    exact ⟨trivial, (hf.killed hu).1⟩
  · rintro row row' ⟨_, hu⟩ hnone _
    rw [finish_update_none] at hu
    unfold Finish.updateKilled at hnone
    rw [if_pos hu] at hnone
    cases hnone

theorem txn_stays (op : RowOp) : op.txn.Stays Follows fun _ => True := by
  cases op with
  | finish f => exact finish_stays f
  | killSession => exact kill_stays _
  | killAllSessions => exact kill_stays _
  | reconcileStaleActiveOnStartup instanceId now =>
    apply once_stays
    intro row row' hu hf
    rw [reconcileUpdate_none] at hu ⊢
    rintro ⟨hi, hs, he⟩
    have hstatus : row.status = "active" := by
      by_contra hne
      exact hf.inactive hne hs
    have hended : row.endedAt = none := by
      by_contra hne
      exact hf.ended hne he
    exact hu ⟨hf.instanceId ▸ hi, hstatus, hended⟩

/-! ## What an operation does in one go -/

theorem finish_apply_ended {f : Finish} (hf : f.status ≠ "active") (row : ConnectionHistory) :
    (f.txn.apply row).status ≠ "active" ∧ (f.txn.apply row).endedAt ≠ none := by
  unfold Finish.txn Txn.apply Finish.update
  split_ifs with hs
  · exact ⟨hf, Option.some_ne_none _⟩
  · have hk := not_not.mp hs
    simp only [once, Txn.apply, Finish.updateKilled, if_pos hk, Bool.false_eq_true, if_false]
    exact ⟨fun ha => active_ne_killed ha hk, Option.some_ne_none _⟩

theorem kill_apply_ended {op : RowOp} (hop : op.IsKill) {row : ConnectionHistory} (hw : row.Wf)
    (he : row.endedAt ≠ none) : op.apply row = row := by
  have hmiss : ∀ reason, (once (killUpdate reason)).apply row = row := by
    intro reason
    rw [once, Txn.apply, killUpdate_none.mpr (hw.ended he)]
    rfl
  cases op with
  | killSession => exact hmiss _
  | killAllSessions => exact hmiss _
  | finish f => exact hop.elim
  | reconcileStaleActiveOnStartup instanceId now => exact hop.elim

/-! ## Any operations on one row -/

section

variable {ι : Type} [DecidableEq ι] {ops : ι → RowOp}

abbrev HistoryRow (ι : Type) := Row ι ConnectionHistory

def HistoryRow.started (instanceId : String) (ops : ι → RowOp) : HistoryRow ι :=
  .initial (.started instanceId) fun i => (ops i).txn

/-- Each commit is its whole operation in one go, on the row that the commits before it left. -/
theorem commit_atomic (hops : ∀ i, (ops i).Ends) {instanceId : String} {acts : List (Act ι)} {s s' : HistoryRow ι}
    {i : ι} (hrun : run Row.step (HistoryRow.started instanceId ops) acts = some s)
    (h : s.step (.commit i) = some s') : s'.committed = (ops i).apply s.committed :=
  commit_apply follows_order
    (run_serial follows_order (fun i => txn_leads (hops i)) (fun i => txn_stays (ops i)) hrun).1 h

/-- The three promises of the row, from `s` on to `s'`. -/
structure Keeps (ops : ι → RowOp) (s s' : HistoryRow ι) : Prop where
  killed : s.committed.status = "killed" → s'.committed.status = "killed" ∧
    s'.committed.disconnectReason = s.committed.disconnectReason
  kill : ∀ i s'', (ops i).IsKill → s.committed.endedAt ≠ none → s.step (.commit i) = some s'' →
    s''.committed = s.committed
  finished : ∀ i, (ops i).IsFinish → s.status i = .committed →
    s'.committed.status ≠ "active" ∧ s'.committed.endedAt ≠ none

theorem row_keeps (hops : ∀ i, (ops i).Ends) (instanceId : String) (acts acts' : List (Act ι)) (s s' : HistoryRow ι)
    (hrun : run Row.step (HistoryRow.started instanceId ops) acts = some s) (hrun' : run Row.step s acts' = some s') :
    Keeps ops s s' := by
  have hleads := fun i => txn_leads (hops i)
  have hs := run_serial follows_order hleads (fun i => txn_stays (ops i)) hrun
  have hstart := initial_serial hleads (fun i => txn_stays (ops i)) (ConnectionHistory.started instanceId)
  have hwf : s.committed.Wf := (run_rel follows_order hleads hstart hrun).wf (started_wf instanceId)
  have hlater := run_rel follows_order hleads hs hrun'
  refine ⟨hlater.killed, ?_, ?_⟩
  · intro i s'' hkill he h
    rw [commit_atomic hops hrun h]
    exact kill_apply_ended hkill hwf he
  · intro i hfin hc
    obtain ⟨r, (hr : Follows ((ops i).apply r) s.committed)⟩ := hs.2 i hc
    have hf := hops i
    cases hop : ops i with
    | finish f =>
      rw [hop] at hr hf
      obtain ⟨ha, he⟩ := finish_apply_ended hf r
      exact ⟨hlater.inactive (hr.inactive ha), hlater.ended (hr.ended he)⟩
    | killSession => rw [hop] at hfin; exact hfin.elim
    | killAllSessions => rw [hop] at hfin; exact hfin.elim
    | reconcileStaleActiveOnStartup instanceId now => rw [hop] at hfin; exact hfin.elim

end

/-! ### A kill during a `finish` -/

def finishAndKill : Bool → RowOp
  | true => .finish ⟨1700000100, "closed", some "normal", 5, 7⟩
  | false => .killSession

/-- The kill comes before the first UPDATE of `finish` and commits before the second. -/
def killFirst : List (Act Bool) := [.exec false, .commit false, .exec true]

theorem row_keeps_killFirst :
    ∃ s s', run Row.step (HistoryRow.started "relay-1" finishAndKill) killFirst = some s ∧
      run Row.step s [.exec true, .commit true] = some s' ∧ Keeps finishAndKill s s' := by
  obtain ⟨s, hs, s', hs'⟩ : ∃ s, run Row.step (HistoryRow.started "relay-1" finishAndKill) killFirst = some s ∧
      ∃ s', run Row.step s [.exec true, .commit true] = some s' := ⟨_, rfl, _, rfl⟩
  refine ⟨s, s', hs, hs', row_keeps ?_ "relay-1" killFirst _ s s' hs hs'⟩
  rintro (_ | _)
  · trivial
  · exact (by decide : "closed" ≠ "active")

end RdpProxy.Tracker
