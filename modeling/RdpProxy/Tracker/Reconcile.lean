import RdpProxy.Tracker.History

/-!
# Crash, restart and `reconcile_stale_active_on_startup`

The rows of all connections, the relay instances that come and go, and the admins. An
operation commits as a whole, as `commit_atomic` allows.
-/

open Steps

namespace RdpProxy.Tracker

structure Db (C : Type) where
  row : C → Option ConnectionHistory
  /-- Whether the instance is at work: it has reconciled and has not crashed since. -/
  up : String → Bool

inductive DbAct (C : Type) where
  | start (c : C) (instanceId : String)
  | event (c : C)
  | finish (c : C) (f : Finish)
  | killSession (c : C)
  | killAllSessions (cs : List C)
  | crash (instanceId : String)
  /-- `reconcile_stale_active_on_startup` returns. -/
  | restart (instanceId : String) (now : Int)

def Db.initial {C : Type} : Db C := ⟨fun _ => none, fun _ => false⟩

variable {C : Type} [DecidableEq C]

def Db.apply (d : Db C) (op : RowOp) (p : C → Bool) : Db C :=
  { d with row := fun c => if p c then (d.row c).map op.apply else d.row c }

def Db.running (d : Db C) (c : C) : Bool :=
  match d.row c with
  | some row => d.up row.instanceId
  | none => false

def Db.step (d : Db C) : DbAct C → Option (Db C)
  | .start c instanceId =>
    if d.up instanceId = true ∧ d.row c = none then
      some { d with row := Function.update d.row c (some (.started instanceId)) }
    else none
  | .event c => if d.running c then some d else none
  -- The statuses that the handler passes are `closed`, `killed` and `error`.
  | .finish c f => if d.running c = true ∧ f.status ≠ "active" then some (d.apply (.finish f) (· = c)) else none
  | .killSession c => some (d.apply .killSession (· = c))
  | .killAllSessions cs => some (d.apply .killAllSessions (· ∈ cs))
  | .crash instanceId => some { d with up := Function.update d.up instanceId false }
  | .restart instanceId now =>
    if d.up instanceId = true then none
    else
      let d' := d.apply (.reconcileStaleActiveOnStartup instanceId now) fun _ => true
      some { d' with up := Function.update d.up instanceId true }

/-! ## The rows of a crashed instance -/

def Db.Wf (d : Db C) : Prop := ∀ c row, d.row c = some row → row.Wf

omit [DecidableEq C] in
theorem apply_wf {d : Db C} (op : RowOp) (hop : op.Ends) (p : C → Bool) (hd : d.Wf) : (d.apply op p).Wf := by
  intro c row hc
  unfold Db.apply at hc
  simp only at hc
  split_ifs at hc with hp
  · obtain ⟨old, hold, rfl⟩ := Option.map_eq_some_iff.mp hc
    exact (RowTxn.Txn.apply_rel follows_order (txn_leads hop) old).wf (hd c old hold)
  · exact hd c row hc

theorem step_wf (d : Db C) (a : DbAct C) (d' : Db C) (hd : d.Wf) (h : d.step a = some d') : d'.Wf := by
  cases a with
  | start c instanceId =>
    simp only [Db.step] at h
    split_ifs at h
    cases h
    intro c' row hrow
    simp only [Function.update_apply] at hrow
    split_ifs at hrow with hc
    · cases hrow; exact started_wf instanceId
    · exact hd c' row hrow
  | event c =>
    simp only [Db.step] at h
    split_ifs at h
    cases h; exact hd
  | finish c f =>
    simp only [Db.step] at h
    split_ifs at h with hf
    cases h; exact apply_wf (.finish f) hf.2 _ hd
  | killSession c => cases h; exact apply_wf .killSession trivial _ hd
  | killAllSessions cs => cases h; exact apply_wf .killAllSessions trivial _ hd
  | crash instanceId => cases h; exact hd
  | restart instanceId now =>
    simp only [Db.step] at h
    split_ifs at h
    cases h
    exact apply_wf (.reconcileStaleActiveOnStartup instanceId now) trivial (fun _ => true) hd

/-- Every row of the instance has ended, and none is active. -/
def Db.Settled (d : Db C) (instanceId : String) : Prop :=
  ∀ c row, d.row c = some row → row.instanceId = instanceId → row.endedAt ≠ none ∧ row.status ≠ "active"

/-- No row of the instance has been killed and not finished since. -/
def Db.KillsFinished (d : Db C) (instanceId : String) : Prop :=
  ∀ c row, d.row c = some row → row.instanceId = instanceId → row.status = "killed" → row.endedAt ≠ none

theorem reconcile_apply (instanceId : String) (now : Int) (row : ConnectionHistory) :
    (RowOp.reconcileStaleActiveOnStartup instanceId now).apply row =
      (reconcileUpdate instanceId now row).getD row := by
  unfold RowOp.apply RowOp.txn once RowTxn.Txn.apply
  cases reconcileUpdate instanceId now row <;> rfl

theorem reconcile_settles {row : ConnectionHistory} (hw : row.Wf) (now : Int) :
    (((RowOp.reconcileStaleActiveOnStartup row.instanceId now).apply row).endedAt ≠ none ∧
      ((RowOp.reconcileStaleActiveOnStartup row.instanceId now).apply row).status ≠ "active") ↔
    (row.status = "killed" → row.endedAt ≠ none) := by
  rw [reconcile_apply]
  by_cases he : row.endedAt = none
  · rcases hw.running he with ha | hk
    · have hupdate : reconcileUpdate row.instanceId now row =
          some { row with endedAt := some now, status := "error", disconnectReason := some "relay-restart" } :=
        if_pos ⟨rfl, ha, he⟩
      rw [hupdate]
      exact iff_of_true ⟨Option.some_ne_none _, (by decide : "error" ≠ "active")⟩ fun hk => absurd hk (active_ne_killed ha)
    · have hupdate : reconcileUpdate row.instanceId now row = none :=
        reconcileUpdate_none.mpr fun h => active_ne_killed h.2.1 hk
      rw [hupdate, Option.getD_none]
      exact iff_of_false (fun h => h.1 he) (fun h => h hk he)
  · have hupdate : reconcileUpdate row.instanceId now row = none := reconcileUpdate_none.mpr fun h => he h.2.2
    rw [hupdate, Option.getD_none]
    exact iff_of_true ⟨he, hw.ended he⟩ fun _ => he

theorem reconcile_instanceId (instanceId : String) (now : Int) (row : ConnectionHistory) :
    ((RowOp.reconcileStaleActiveOnStartup instanceId now).apply row).instanceId = row.instanceId := by
  have hop : (RowOp.reconcileStaleActiveOnStartup instanceId now).Ends := trivial
  exact (RowTxn.Txn.apply_rel follows_order (txn_leads hop) row).instanceId

theorem restart_settles_iff (acts : List (DbAct C)) (instanceId : String) (now : Int) (d d' : Db C)
    (hrun : run Db.step .initial acts = some d) (h : d.step (.restart instanceId now) = some d') :
    d'.Settled instanceId ↔ d.KillsFinished instanceId := by
  have hwf : d.Wf := run_keeps step_wf hrun (by intro c row hrow; cases hrow)
  simp only [Db.step] at h
  split_ifs at h
  cases h
  constructor
  · intro hs c row hrow hi
    subst hi
    apply (reconcile_settles (hwf c row hrow) now).mp
    apply hs c
    · simp only [Db.apply, hrow]; rfl
    · exact reconcile_instanceId ..
  · intro hk c row' hrow' hi
    simp only [Db.apply, if_true] at hrow'
    obtain ⟨row, hrow, rfl⟩ := Option.map_eq_some_iff.mp hrow'
    rw [reconcile_instanceId] at hi
    subst hi
    exact (reconcile_settles (hwf c row hrow) now).mpr (hk c row hrow rfl)

/-! ## A kill just before the crash -/

def crashAfter (acts : List (DbAct Unit)) : List (DbAct Unit) :=
  [.restart "relay-1" 1700000000, .start () "relay-1", .killSession ()] ++ acts ++ [.crash "relay-1"]

theorem killed_row_never_ends :
    ∃ d d', run Db.step .initial (crashAfter []) = some d ∧ d.step (.restart "relay-1" 1700000200) = some d' ∧
      ∃ row, d'.row () = some row ∧ row.instanceId = "relay-1" ∧ row.endedAt = none :=
  ⟨_, _, rfl, rfl, _, rfl, rfl, rfl⟩

def killedFinish : DbAct Unit := .finish () ⟨1700000100, "killed", some "admin_kill", 5, 7⟩

theorem restart_settles_finished :
    ∃ d d', run Db.step .initial (crashAfter [killedFinish]) = some d ∧
      d.step (.restart "relay-1" 1700000200) = some d' ∧ d'.Settled "relay-1" := by
  refine ⟨_, _, rfl, rfl, ?_⟩
  apply (restart_settles_iff (crashAfter [killedFinish]) "relay-1" 1700000200 _ _ rfl rfl).mpr
  rintro c row ⟨⟩ _ _
  exact Option.some_ne_none _

end RdpProxy.Tracker
