import RdpProxy.Admin.SessionRow
import RdpProxy.Lib.UnitOfWork

/-!
# Requests for the admin users, side by side

Each request of `admin_users.py` has a database session of its own: the SELECT of the row,
the COUNT of the active ones, the statement that the commit sends, and the COMMIT.
-/

open Steps UnitOfWork

namespace RdpProxy.Admin

open Store

/-! ## The source -/

inductive AdminWrite where
  | insert (u : AdminUser)
  /-- The columns that the request has changed. -/
  | update (uid : String) (isActive : Option Bool) (allowedIps : Option (List String))
  | delete (uid : String)
  deriving DecidableEq

namespace AdminWrite

def columns (isActive : Option Bool) (allowedIps : Option (List String)) (u : AdminUser) : AdminTable.Columns :=
  ⟨u.passwordHash, isActive.getD u.isActive, u.mustChangePassword, allowedIps.getD u.allowedIps⟩

def apply : AdminWrite → AdminTable → AdminTable
  | .insert u, t => if h : u.id ∈ t.rows.map AdminUser.id then t else t.insert u h
  | .update uid isActive allowedIps, t => t.modify uid (columns isActive allowedIps)
  | .delete uid, t => t.delete uid

/-- `id` is the primary key and `username` is unique. -/
def verdict : AdminWrite → AdminTable → Verdict
  | .insert u, t => if t.rows.any fun v => v.id = u.id ∨ v.username = u.username then .refused else .done
  | .update uid _ _, t => if (t.get uid).isSome then .done else .missed
  | .delete uid, t => if (t.get uid).isSome then .done else .missed

/-- The row that the statement locks. -/
def locked : AdminWrite → Option String
  | .insert _ => none
  | .update uid _ _ => some uid
  | .delete uid => some uid

def conflicts : AdminWrite → AdminWrite → Bool
  | .insert u, .insert v => u.id = v.id ∨ u.username = v.username
  | w, w' => w.locked.isSome ∧ w.locked = w'.locked

end AdminWrite

def adminServer : Server AdminTable AdminWrite := ⟨AdminWrite.verdict, AdminWrite.apply, AdminWrite.conflicts⟩

@[simp] theorem adminServer_verdict (w : AdminWrite) (t : AdminTable) : adminServer.verdict w t = w.verdict t := rfl

@[simp] theorem adminServer_apply (w : AdminWrite) (t : AdminTable) : adminServer.apply w t = w.apply t := rfl

/-- The row that the answer shows, and none for a 204. -/
abbrev AdminReply := Except HttpError (Option AdminUser)

abbrev AdminWork := Work AdminTable AdminWrite AdminReply

def serverError : AdminReply := .error ⟨500, "Internal Server Error"⟩

/-- `session.refresh(u)`, and the answer. -/
def refresh (uid : String) : AdminWork := .read fun t =>
  match t.get uid with
  | some u => .reply (.ok (some u))
  | none => .reply serverError

variable {Addr Net : Type}

def createWork (env : AdminEnv Addr Net) (uid username password : String) (isActive : Bool)
    (allowedIps : List String) : AdminWork := .read fun t =>
  if t.rows.any fun u => env.sqlLower u.username = env.lower (strip username) then
    .reply (.error ⟨409, "Пользователь с таким логином уже есть"⟩)
  else
    .write (.insert ⟨uid, strip username, env.hashPassword password, isActive, false, allowedIps⟩) fun v =>
      match v with
      | .done => refresh uid
      | _ => .reply serverError

/-- The value to write, where it is not the one that was read. -/
def changed {α : Type} [DecidableEq α] (old : α) (new : Option α) : Option α := new.filter fun x => x ≠ old

/-- The assignments to `u`, and `session.commit()`. An UPDATE that meets no row is a `StaleDataError`. -/
def commitUpdate (u : AdminUser) (isActive : Option Bool) (allowedIps : Option (List String)) : AdminWork :=
  if changed u.isActive isActive = none ∧ changed u.allowedIps allowedIps = none then refresh u.id
  else
    .write (.update u.id (changed u.isActive isActive) (changed u.allowedIps allowedIps)) fun v =>
      match v with
      | .done => refresh u.id
      | _ => .reply serverError

def updateWork (admin : AdminFields) (userId : Option String) (isActive : Option Bool)
    (allowedIps : Option (List String)) : AdminWork :=
  match userId with
  | none => .reply (.error ⟨400, "Invalid user id"⟩)
  | some uid => .read fun t =>
    match t.get uid with
    | none => .reply (.error ⟨404, "Not found"⟩)
    | some u =>
      if isActive = some false ∧ u.isActive = true then
        if uid = admin.adminUserId then .reply (.error ⟨400, "Нельзя отключить свою учётную запись"⟩)
        else .read fun t =>
          if t.activeCount ≤ 1 then
            .reply (.error ⟨400, "Нельзя отключить последнего активного администратора"⟩)
          else commitUpdate u isActive allowedIps
      else commitUpdate u isActive allowedIps

/-- `session.delete(u)` and `session.commit()`. A DELETE that meets no row only warns. -/
def commitDelete (uid : String) : AdminWork := .write (.delete uid) fun _ => .reply (.ok none)

def deleteWork (admin : AdminFields) (userId : Option String) : AdminWork :=
  match userId with
  | none => .reply (.error ⟨400, "Invalid user id"⟩)
  | some uid =>
    if uid = admin.adminUserId then .reply (.error ⟨400, "Нельзя удалить свою учётную запись"⟩)
    else .read fun t =>
      match t.get uid with
      | none => .reply (.error ⟨404, "Not found"⟩)
      | some u =>
        if u.isActive = true then .read fun t =>
          if t.activeCount ≤ 1 then
            .reply (.error ⟨400, "Нельзя удалить последнего активного администратора"⟩)
          else commitDelete uid
        else commitDelete uid

inductive AdminUsersRequest where
  | create (uid username password : String) (isActive : Bool) (allowedIps : List String)
  | update (admin : AdminFields) (userId : Option String) (isActive : Option Bool)
      (allowedIps : Option (List String))
  | delete (admin : AdminFields) (userId : Option String)

def AdminUsersRequest.work (env : AdminEnv Addr Net) : AdminUsersRequest → AdminWork
  | .create uid username password isActive ips => createWork env uid username password isActive ips
  | .update admin userId isActive ips => updateWork admin userId isActive ips
  | .delete admin userId => deleteWork admin userId

/-! ## What a statement does to the number of active admins -/

namespace AdminWrite

/-- The statement makes an active row inactive, or deletes it. -/
def takesActive : AdminWrite → AdminTable → Bool
  | .insert _, _ => false
  | .update uid isActive _, t => isActive = some false ∧ t.activeAt uid
  | .delete uid, t => t.activeAt uid

/-- The guard of the routes, `active_cnt <= 1`, would let the statement through again. -/
def CountHolds (w : AdminWrite) (t : AdminTable) : Prop := w.takesActive t = true → ¬ t.activeCount ≤ 1

theorem activeCount_apply (w : AdminWrite) (t : AdminTable) :
    t.activeCount ≤ (w.apply t).activeCount + (w.takesActive t).toNat := by
  cases w with
  | insert u =>
    simp only [apply]
    split_ifs
    · exact Nat.le_add_right ..
    · unfold AdminTable.activeCount AdminTable.insert
      exact Nat.le_add_right_of_le (List.Sublist.countP_le (List.sublist_cons_self u t.rows))
  | update uid isActive allowedIps =>
    simp only [apply, takesActive]
    obtain hu | ⟨u, hu⟩ := Option.eq_none_or_eq_some (t.get uid)
    · have hrows := AdminTable.modify_of_get_none hu (columns isActive allowedIps)
      have hsame : (t.modify uid (columns isActive allowedIps)).activeCount = t.activeCount :=
        congrArg (List.countP AdminUser.isActive) hrows
      omega
    · have hcount := AdminTable.activeCount_modify hu (columns isActive allowedIps)
      simp only [columns] at hcount
      rw [AdminTable.activeAt_of_get hu]
      rcases isActive with _ | _ | _ <;> cases hb : u.isActive <;> simp [hb] at hcount ⊢ <;> omega
  | delete uid =>
    simp only [apply, takesActive]
    rw [AdminTable.activeAt_of_get rfl]
    cases hu : t.get uid with
    | none =>
      have hrows := AdminTable.delete_of_get_none hu
      have hsame : (t.delete uid).activeCount = t.activeCount := congrArg (List.countP AdminUser.isActive) hrows
      omega
    | some u =>
      have hcount := AdminTable.activeCount_delete hu
      simp only [Option.any_some]
      omega

theorem apply_active (w : AdminWrite) {t : AdminTable} (h : 0 < t.activeCount) (hcount : w.CountHolds t) :
    0 < (w.apply t).activeCount := by
  have hless := activeCount_apply w t
  unfold CountHolds at hcount
  cases htakes : w.takesActive t with
  | false =>
    rw [htakes] at hless
    exact Nat.lt_of_lt_of_le h hless
  | true =>
    have := hcount htakes
    rw [htakes] at hless
    have hone : Bool.toNat true = 1 := rfl
    omega

end AdminWrite

/-! ## Requests one after the other -/

theorem changed_getD {α : Type} [DecidableEq α] (old : α) (new : Option α) :
    (changed old new).getD old = new.getD old := by
  unfold changed
  cases new with
  | none => rfl
  | some x =>
    rw [Option.filter_some]
    split_ifs with hx
    · rfl
    · have hsame : x = old := by simpa using hx
      exact hsame.symm

section

variable {S : Type}

/-- What the answer says, without the row that it shows. -/
def AdminReply.outcome (r : AdminReply) : Except HttpError Unit := r.map fun _ => ()

theorem refresh_alone {t : AdminTable} {uid : String} {u : AdminUser} (h : t.get uid = some u) :
    (refresh uid).alone adminServer t = (.ok (some u), t) := by
  unfold refresh
  simp only [Work.alone, h]

theorem commitUpdate_alone {t : AdminTable} {u : AdminUser} (isActive : Option Bool)
    (allowedIps : Option (List String)) (h : t.get u.id = some u) :
    ∃ v, (commitUpdate u isActive allowedIps).alone adminServer t =
      (.ok (some v), t.modify u.id (AdminWrite.columns isActive allowedIps)) := by
  have hmodify : t.modify u.id (AdminWrite.columns (changed u.isActive isActive) (changed u.allowedIps allowedIps)) =
      t.modify u.id (AdminWrite.columns isActive allowedIps) := by
    apply AdminTable.modify_congr h
    unfold AdminWrite.columns
    rw [changed_getD, changed_getD]
  unfold commitUpdate
  split_ifs with hsame
  · refine ⟨u, ?_⟩
    rw [hsame.1, hsame.2] at hmodify
    rw [refresh_alone h, ← hmodify]
    exact congrArg _ (AdminTable.modify_self t u.id).symm
  · have hget := AdminTable.get_modify t u.id (AdminWrite.columns isActive allowedIps) u.id
    rw [h] at hget
    refine ⟨AdminTable.modifyRow u.id (AdminWrite.columns isActive allowedIps) u, ?_⟩
    simp only [Work.alone, adminServer_verdict, adminServer_apply, AdminWrite.verdict, h, AdminWrite.apply, hmodify]
    exact refresh_alone hget

theorem updateWork_alone (s : AdminState S) (admin : AdminFields) (userId : Option String) (isActive : Option Bool)
    (allowedIps : Option (List String)) [DecidableEq S] :
    let r := (updateWork admin userId isActive allowedIps).alone adminServer s.users
    r.1.outcome = (updateAdminUser s admin userId isActive allowedIps).1 ∧
      r.2 = (updateAdminUser s admin userId isActive allowedIps).2.users := by
  unfold updateWork updateAdminUser
  cases userId with
  | none => exact ⟨rfl, rfl⟩
  | some uid =>
    simp only [Work.alone]
    cases hu : s.users.get uid with
    | none => exact ⟨rfl, rfl⟩
    | some u =>
      have hid := AdminTable.get_id hu
      rw [← hid] at hu
      obtain ⟨v, hv⟩ := commitUpdate_alone isActive allowedIps hu
      simp only [← hid]
      by_cases hoff : isActive = some false ∧ u.isActive = true
      · by_cases hself : u.id = admin.adminUserId
        · simp only [hoff, hself]
          exact ⟨rfl, rfl⟩
        · by_cases hcount : s.users.activeCount ≤ 1
          · simp [hoff, hself, hcount, Work.alone, AdminReply.outcome, Except.map]
          · simp only [hoff.1] at hv
            simp [hoff, hself, hcount, Work.alone, hv, AdminReply.outcome, Except.map]
            rfl
      · rw [if_neg hoff, hv]
        simp [← and_assoc, hoff]
        exact ⟨rfl, rfl⟩

theorem deleteWork_alone (s : AdminState S) (admin : AdminFields) (userId : Option String) [DecidableEq S] :
    let r := (deleteWork admin userId).alone adminServer s.users
    r.1.outcome = (deleteAdminUser s admin userId).1 ∧ r.2 = (deleteAdminUser s admin userId).2.users := by
  unfold deleteWork deleteAdminUser
  cases userId with
  | none => exact ⟨rfl, rfl⟩
  | some uid =>
    by_cases hself : uid = admin.adminUserId
    · simp only [hself]
      exact ⟨rfl, rfl⟩
    · simp only [hself, if_false, Work.alone]
      cases hu : s.users.get uid with
      | none => exact ⟨rfl, rfl⟩
      | some u =>
        have hcommit : (commitDelete uid).alone adminServer s.users = (.ok none, s.users.delete uid) := by
          unfold commitDelete
          simp [Work.alone, AdminWrite.verdict, AdminWrite.apply, hu]
        cases hb : u.isActive
        · simp [hb, hcommit, AdminReply.outcome, Except.map]
          rfl
        · by_cases hcount : s.users.activeCount ≤ 1
          · simp [hb, hcount, Work.alone, AdminReply.outcome, Except.map]
          · simp [hb, hcount, Work.alone, hcommit, AdminReply.outcome, Except.map]
            rfl

end

theorem updateWork_alone_active {t : AdminTable} (h : 0 < t.activeCount) (admin : AdminFields)
    (userId : Option String) (isActive : Option Bool) (allowedIps : Option (List String)) :
    0 < ((updateWork admin userId isActive allowedIps).alone adminServer t).2.activeCount := by
  unfold updateWork
  cases userId with
  | none => exact h
  | some uid =>
    simp only [Work.alone]
    cases hu : t.get uid with
    | none => exact h
    | some u =>
      have hid := AdminTable.get_id hu
      rw [← hid] at hu
      obtain ⟨v, hv⟩ := commitUpdate_alone isActive allowedIps hu
      have hkeep := AdminWrite.apply_active (.update u.id isActive allowedIps) h
      simp only
      split_ifs with hoff hself
      · exact h
      · simp only [Work.alone]
        split_ifs with hcount
        · exact h
        · rw [hv]
          exact hkeep fun _ => hcount
      · rw [hv]
        refine hkeep ?_
        intro htakes
        simp only [AdminWrite.takesActive, AdminTable.activeAt, hu, Option.any_some, decide_eq_true_eq] at htakes
        exact absurd htakes hoff

theorem deleteWork_alone_active {t : AdminTable} (h : 0 < t.activeCount) (admin : AdminFields)
    (userId : Option String) : 0 < ((deleteWork admin userId).alone adminServer t).2.activeCount := by
  unfold deleteWork
  cases userId with
  | none => exact h
  | some uid =>
    have hkeep := AdminWrite.apply_active (.delete uid) h
    have hcommit : ((AdminWrite.delete uid).CountHolds t) →
        0 < ((commitDelete uid).alone adminServer t).2.activeCount := by
      intro hc
      unfold commitDelete
      simp only [Work.alone, adminServer_verdict]
      split
      · exact hkeep hc
      · exact h
      · exact h
    simp only
    split_ifs
    · exact h
    · simp only [Work.alone]
      cases hu : t.get uid with
      | none => exact h
      | some u =>
        simp only
        split_ifs with hactive
        · simp only [Work.alone]
          split_ifs with hcount
          · exact h
          · exact hcommit fun _ => hcount
        · refine hcommit ?_
          intro htakes
          simp only [AdminWrite.takesActive, AdminTable.activeAt, hu, Option.any_some] at htakes
          exact absurd htakes hactive

theorem createWork_alone_active (env : AdminEnv Addr Net) {t : AdminTable} (h : 0 < t.activeCount)
    (uid username password : String) (isActive : Bool) (allowedIps : List String) :
    0 < ((createWork env uid username password isActive allowedIps).alone adminServer t).2.activeCount := by
  have hrefresh : ∀ t' : AdminTable, ((refresh uid).alone adminServer t').2 = t' := by
    intro t'
    unfold refresh
    simp only [Work.alone]
    cases t'.get uid <;> rfl
  unfold createWork
  simp only [Work.alone]
  split_ifs
  · exact h
  · simp only [Work.alone, adminServer_verdict]
    split
    · rw [hrefresh]
      exact AdminWrite.apply_active (.insert _) h fun htakes => by cases htakes
    · exact h
    · exact h

/-- One request after the other never takes the last active admin away. -/
theorem work_alone_active (env : AdminEnv Addr Net) {t : AdminTable} (h : 0 < t.activeCount)
    (request : AdminUsersRequest) : 0 < ((request.work env).alone adminServer t).2.activeCount := by
  cases request with
  | create uid username password isActive ips => exact createWork_alone_active env h uid username password isActive ips
  | update admin userId isActive ips => exact updateWork_alone_active h admin userId isActive ips
  | delete admin userId => exact deleteWork_alone_active h admin userId

/-! ## What a request has counted -/

namespace AdminWrite

/-- The routes send it where the table that they have read last is this one. -/
def LetThrough (t : AdminTable) (w : AdminWrite) : Prop := 2 ≤ t.activeCount ∨ w.takesActive t = false

/-- How many of the statements have taken an active row away. -/
def takes (since : List (AdminWrite × AdminTable)) : Nat := since.countP fun e => e.1.takesActive e.2

/-- Where the statement takes an active row away: no other one has done so since the request's
last read, or so few that two of the rows that were active then would be left. -/
def Apart (w : AdminWrite) (r : Reading AdminTable AdminWrite) (t : AdminTable) : Prop :=
  w.takesActive t = true → takes r.since = 0 ∨ takes r.since + 2 ≤ r.table.activeCount

instance (w : AdminWrite) (r : Reading AdminTable AdminWrite) (t : AdminTable) : Decidable (w.Apart r t) :=
  inferInstanceAs (Decidable (_ → _))

/-- What is left of the rows that were active at the last read. -/
structure Kept (r : Reading AdminTable AdminWrite) (t : AdminTable) : Prop where
  active : 0 < r.table.activeCount
  count : r.table.activeCount ≤ t.activeCount + takes r.since
  rows : takes r.since = 0 → ∀ uid, r.table.activeAt uid = true → t.activeAt uid = true

theorem kept_initial {t : AdminTable} (h : 0 < t.activeCount) : Kept (.initial t) t :=
  ⟨h, Nat.le_refl _, fun _ _ hactive => hactive⟩

theorem takes_cons (w : AdminWrite) (t : AdminTable) (since : List (AdminWrite × AdminTable)) :
    takes ((w, t) :: since) = takes since + (w.takesActive t).toNat := by
  unfold takes
  rw [List.countP_cons]
  cases w.takesActive t <;> rfl

theorem activeAt_apply {w : AdminWrite} {t : AdminTable} (h : w.takesActive t = false) {v : String}
    (hv : t.activeAt v = true) : (w.apply t).activeAt v = true := by
  obtain ⟨u, hu, hactive⟩ := (Option.any_eq_true _ _).mp hv
  unfold AdminTable.activeAt
  cases w with
  | insert u' =>
    simp only [apply]
    split_ifs with hnew
    · exact hv
    · have hne : u'.id ≠ v := by
        rintro rfl
        refine hnew (List.mem_map.mpr ⟨u, List.mem_of_find?_eq_some hu, AdminTable.get_id hu⟩)
      rw [AdminTable.get_insert hnew, if_neg hne, hu]
      exact hactive
  | update uid isActive allowedIps =>
    simp only [apply, AdminTable.get_modify, hu, Option.map_some, Option.any_some]
    unfold AdminTable.modifyRow
    split_ifs with hid
    · have huid : uid = v := hid.symm.trans (AdminTable.get_id hu)
      simp only [takesActive, huid, hv, and_true, decide_eq_false_iff_not] at h
      show isActive.getD u.isActive = true
      rcases isActive with _ | _ | _
      · exact hactive
      · exact absurd rfl h
      · rfl
    · exact hactive
  | delete uid =>
    have hne : v ≠ uid := by
      rintro rfl
      rw [takesActive, hv] at h
      cases h
    simp only [apply, AdminTable.get_delete, if_neg hne, hu, Option.any_some]
    exact hactive

theorem kept_apply (w : AdminWrite) {r : Reading AdminTable AdminWrite} {t : AdminTable} (h : Kept r t) :
    Kept ⟨r.table, (w, t) :: r.since⟩ (w.apply t) := by
  have hcount := activeCount_apply w t
  refine ⟨h.active, ?_, ?_⟩
  · have := h.count
    simp only [takes_cons]
    omega
  · intro hnone uid hactive
    simp only [takes_cons] at hnone
    have hquiet : w.takesActive t = false := by
      cases ht : w.takesActive t
      · rfl
      · rw [ht] at hnone
        cases hnone
    exact activeAt_apply hquiet (h.rows (by omega) uid hactive)

theorem uncounted_two {w : AdminWrite} {r : Reading AdminTable AdminWrite} {t : AdminTable} (h : Kept r t)
    (hnone : takes r.since = 0) (hread : w.takesActive r.table = false) (htakes : w.takesActive t = true) :
    2 ≤ t.activeCount := by
  obtain ⟨uid, hactive⟩ := AdminTable.activeCount_pos.mp h.active
  have hstill := h.rows hnone uid hactive
  cases w with
  | insert u => cases htakes
  | update v isActive allowedIps =>
    simp only [takesActive, decide_eq_true_eq, decide_eq_false_iff_not, not_and] at htakes hread
    refine AdminTable.two_active ?_ htakes.2 hstill
    rintro rfl
    exact hread htakes.1 hactive
  | delete v =>
    simp only [takesActive] at htakes hread
    refine AdminTable.two_active ?_ htakes hstill
    rintro rfl
    rw [hactive] at hread
    cases hread

theorem apart_active {w : AdminWrite} {r : Reading AdminTable AdminWrite} {t : AdminTable} (hkept : Kept r t)
    (hlet : w.LetThrough r.table) (hapart : w.Apart r t) : w.CountHolds t := by
  intro htakes
  have hcount := hkept.count
  rcases hapart htakes with hnone | hfew
  · rcases hlet with htwo | hread
    · omega
    · have := uncounted_two hkept hnone hread htakes
      omega
  · omega

end AdminWrite

/-! ## What the routes send -/

theorem refresh_outline (J : AdminTable → AdminWrite → Prop) (uid : String) (t : AdminTable) :
    (refresh uid).Outline J t := by
  unfold refresh
  intro t'
  simp only
  split <;> trivial

theorem commitUpdate_outline {t : AdminTable} {u : AdminUser} {isActive : Option Bool}
    {allowedIps : Option (List String)} (h : 2 ≤ t.activeCount ∨ isActive ≠ some false ∨ u.isActive = false) :
    (commitUpdate u isActive allowedIps).Outline (fun t w => w.LetThrough t) t := by
  unfold commitUpdate
  split_ifs
  · exact refresh_outline _ _ _
  · refine ⟨h.imp_right fun hstays => ?_, fun v => ?_⟩
    · have hwrite : changed u.isActive isActive ≠ some false := by
        unfold changed
        rw [ne_eq, Option.filter_eq_some_iff]
        rintro ⟨rfl, hdiffers⟩
        rcases hstays with hne | hinactive
        · exact hne rfl
        · rw [hinactive] at hdiffers
          simp at hdiffers
      simp only [AdminWrite.takesActive, hwrite, false_and, decide_false]
    · cases v with
      | done => exact refresh_outline _ _ _
      | missed => trivial
      | refused => trivial

theorem updateWork_outline (admin : AdminFields) (userId : Option String) (isActive : Option Bool)
    (allowedIps : Option (List String)) (t : AdminTable) :
    (updateWork admin userId isActive allowedIps).Outline (fun t w => w.LetThrough t) t := by
  unfold updateWork
  cases userId with
  | none => trivial
  | some uid =>
    intro t₀
    simp only
    split
    · trivial
    · split_ifs with hoff hself
      · trivial
      · intro t₁
        simp only
        split_ifs with hfew
        · trivial
        · exact commitUpdate_outline (.inl (by omega))
      · refine commitUpdate_outline (.inr ?_)
        by_cases hfalse : isActive = some false
        · exact .inr (eq_false_of_ne_true fun hactive => hoff ⟨hfalse, hactive⟩)
        · exact .inl hfalse

theorem deleteWork_outline (admin : AdminFields) (userId : Option String) (t : AdminTable) :
    (deleteWork admin userId).Outline (fun t w => w.LetThrough t) t := by
  unfold deleteWork commitDelete
  cases userId with
  | none => trivial
  | some uid =>
    simp only
    split_ifs
    · trivial
    · intro t₀
      simp only
      rcases hu : t₀.get uid with _ | u
      · trivial
      · simp only
        split_ifs with hactive
        · intro t₁
          simp only
          split_ifs with hfew
          · trivial
          · exact ⟨.inl (by omega), fun _ => trivial⟩
        · refine ⟨.inr ?_, fun _ => trivial⟩
          simp only [AdminWrite.takesActive, AdminTable.activeAt, hu, Option.any_some]
          exact eq_false_of_ne_true hactive

theorem createWork_outline (env : AdminEnv Addr Net) (uid username password : String) (isActive : Bool)
    (allowedIps : List String) (t : AdminTable) :
    (createWork env uid username password isActive allowedIps).Outline (fun t w => w.LetThrough t) t := by
  unfold createWork
  intro t₀
  simp only
  split_ifs
  · trivial
  · refine ⟨.inr rfl, fun v => ?_⟩
    cases v with
    | done => exact refresh_outline _ _ _
    | missed => trivial
    | refused => trivial

theorem work_outline (env : AdminEnv Addr Net) (request : AdminUsersRequest) (t : AdminTable) :
    (request.work env).Outline (fun t w => w.LetThrough t) t := by
  cases request with
  | create uid username password isActive ips => exact createWork_outline env uid username password isActive ips t
  | update admin userId isActive ips => exact updateWork_outline admin userId isActive ips t
  | delete admin userId => exact deleteWork_outline admin userId t

/-! ## Requests at the same time -/

section

variable {ι : Type} [DecidableEq ι]

theorem undisturbed_request_active (env : AdminEnv Addr Net) {s : Tables ι AdminTable AdminWrite AdminReply} {i : ι}
    {request : AdminUsersRequest} (hs : s.session i = .working (request.work env)) (hl : s.locks = [])
    (h : 0 < s.committed.activeCount) :
    ∃ s', Undisturbed adminServer i s s' ∧ (∃ a, s'.session i = .working (.reply a)) ∧ 0 < s'.committed.activeCount := by
  obtain ⟨s', hrun, hanswer, hcommitted, _⟩ := undisturbed_alone hs hl
  refine ⟨s', hrun, ⟨_, hanswer⟩, ?_⟩
  rw [hcommitted]
  exact work_alone_active env h request

/-- Some admin stays active all through a run where between the COUNT and the COMMIT of each
request the others leave enough of the admins that it has counted. -/
theorem active_admin_stays (env : AdminEnv Addr Net) (requests : ι → AdminUsersRequest) (t : AdminTable)
    (acts : List (Act ι AdminReply)) (ht : 0 < t.activeCount)
    (hall : Along (logged (Tables.step adminServer) note) (CommitsSafely AdminWrite.Apart)
      (Tables.initial t fun i => (requests i).work env, fun _ => .initial t) acts) :
    Throughout (Tables.step adminServer) (fun s => 0 < s.committed.activeCount)
      (Tables.initial t fun i => (requests i).work env) acts := by
  refine throughout_of_commitsSafely (P := fun t : AdminTable => 0 < t.activeCount)
    (fun t => AdminWrite.kept_initial) (fun w r t => AdminWrite.kept_apply w) ?_ (fun i => work_outline env (requests i) t)
    ht hall
  intro w r t hactive hkept hlet hapart
  exact AdminWrite.apply_active w hactive (AdminWrite.apart_active hkept hlet hapart)

end

def root : AdminFields := ⟨"1", "root", false, []⟩

def eve : AdminFields := ⟨"2", "eve", false, []⟩

/-- Two admins, and a request of each of them against the other. -/
def eachOther (b : Bool) : AdminUsersRequest :=
  if b then .update root (some "2") (some false) none else .delete eve (some "1")

/-- Both have counted before the first one commits. -/
def bothCount : List (Act Bool AdminReply) :=
  [.go true, .go true, .go false, .go false, .go true, .go true, .go false, .go false]

theorem no_admin_left :
    ∃ s, run (Tables.step adminServer) (Tables.initial sampleUsers fun b => (eachOther b).work sampleEnv) bothCount = some s ∧
      sampleUsers.activeCount = 2 ∧ s.committed.activeCount = 0 := by
  refine ⟨_, rfl, rfl, rfl⟩

def threeUsers : AdminTable := sampleUsers.insert ⟨"3", "ops", "hash of ops", true, false, []⟩ (by decide)

/-- Beside a third admin the two requests may overlap. -/
theorem third_admin_left :
    ∃ s, run (Tables.step adminServer) (Tables.initial threeUsers fun b => (eachOther b).work sampleEnv) bothCount = some s ∧
      s.committed.activeCount = 1 ∧
      Throughout (Tables.step adminServer) (fun s => 0 < s.committed.activeCount)
        (Tables.initial threeUsers fun b => (eachOther b).work sampleEnv) bothCount := by
  refine ⟨_, rfl, rfl, ?_⟩
  exact active_admin_stays sampleEnv eachOther threeUsers bothCount (by decide) (by decide)

end RdpProxy.Admin
