import Mathlib.Data.List.Nodup

/-!
# The table of admin users

The rows of `admin_users`, and what has been done to one of them since some moment.
-/

namespace RdpProxy.Admin

structure AdminUser where
  id : String
  username : String
  passwordHash : String
  isActive : Bool
  mustChangePassword : Bool
  allowedIps : List String
  deriving DecidableEq

/-- The primary key keeps the ids apart. -/
structure AdminTable where
  rows : List AdminUser
  primaryKey : (rows.map AdminUser.id).Nodup

namespace AdminTable

/-- `session.get(AdminUser, uid)` -/
def get (t : AdminTable) (uid : String) : Option AdminUser := t.rows.find? fun u => u.id = uid

def activeCount (t : AdminTable) : Nat := t.rows.countP AdminUser.isActive

/-- The columns of a row that an UPDATE of the admin pages may write. -/
structure Columns where
  passwordHash : String
  isActive : Bool
  mustChangePassword : Bool
  allowedIps : List String

def write (u : AdminUser) (c : Columns) : AdminUser := ⟨u.id, u.username, c.passwordHash, c.isActive, c.mustChangePassword, c.allowedIps⟩

def modifyRow (uid : String) (f : AdminUser → Columns) (u : AdminUser) : AdminUser :=
  if u.id = uid then write u (f u) else u

theorem modifyRow_id (uid : String) (f : AdminUser → Columns) (u : AdminUser) : (modifyRow uid f u).id = u.id := by
  unfold modifyRow
  split
  · rfl
  · rfl

def modify (t : AdminTable) (uid : String) (f : AdminUser → Columns) : AdminTable where
  rows := t.rows.map (modifyRow uid f)
  primaryKey := by
    rw [List.map_map, show AdminUser.id ∘ modifyRow uid f = AdminUser.id from funext (modifyRow_id uid f)]
    exact t.primaryKey

def delete (t : AdminTable) (uid : String) : AdminTable where
  rows := t.rows.filter fun u => u.id ≠ uid
  primaryKey := t.primaryKey.sublist (List.filter_sublist.map _)

def insert (t : AdminTable) (u : AdminUser) (h : u.id ∉ t.rows.map AdminUser.id) : AdminTable where
  rows := u :: t.rows
  primaryKey := List.nodup_cons.mpr ⟨h, t.primaryKey⟩

theorem modify_rows (t : AdminTable) (uid : String) (f : AdminUser → Columns) :
    (t.modify uid f).rows = t.rows.map (modifyRow uid f) := rfl

theorem delete_rows (t : AdminTable) (uid : String) : (t.delete uid).rows = t.rows.filter fun u => u.id ≠ uid := rfl

/-! ## What `get` finds -/

theorem get_id {t : AdminTable} {uid : String} {u : AdminUser} (h : t.get uid = some u) : u.id = uid := by
  have := List.find?_some h
  simpa using this

theorem get_of_mem {t : AdminTable} {u : AdminUser} (h : u ∈ t.rows) : t.get u.id = some u := by
  unfold get
  cases hf : t.rows.find? (fun v => v.id = u.id) with
  | none =>
    have := List.find?_eq_none.mp hf u h
    simp at this
  | some v =>
    have hid : v.id = u.id := by simpa using List.find?_some hf
    rw [List.inj_on_of_nodup_map t.primaryKey (List.mem_of_find?_eq_some hf) h hid]

theorem get_modify (t : AdminTable) (uid : String) (f : AdminUser → Columns) (v : String) :
    (t.modify uid f).get v = (t.get v).map (modifyRow uid f) := by
  unfold get modify
  rw [List.find?_map]
  congr 2
  funext u
  simp [modifyRow_id]

theorem get_delete (t : AdminTable) (uid v : String) : (t.delete uid).get v = if v = uid then none else t.get v := by
  unfold get delete
  rw [List.find?_filter]
  split_ifs with hv
  · rw [List.find?_eq_none]
    intro u _ hu
    simp only [ne_eq, decide_not, Bool.not_eq_eq_eq_not, Bool.not_true, decide_eq_false_iff_not,
      decide_eq_true_eq] at hu
    exact hu.1 (hu.2.trans hv)
  · congr 1
    funext u
    by_cases hu : u.id = v
    · simp [hu, hv]
    · simp [hu]

theorem get_insert {t : AdminTable} {u : AdminUser} (h : u.id ∉ t.rows.map AdminUser.id) (v : String) :
    (t.insert u h).get v = if u.id = v then some u else t.get v := by
  unfold get insert
  rw [List.find?_cons]
  split_ifs with hv
  · simp [hv]
  · simp [hv]

/-! ## How many rows are active -/

theorem rows_split {t : AdminTable} {uid : String} {u : AdminUser} (h : t.get uid = some u) :
    ∃ before after, t.rows = before ++ u :: after ∧ ∀ v ∈ before ++ after, v.id ≠ uid := by
  obtain ⟨_, before, after, hrows, hbefore⟩ := List.find?_eq_some_iff_append.mp h
  refine ⟨before, after, hrows, ?_⟩
  have hkey := t.primaryKey
  rw [hrows, List.map_append, List.map_cons] at hkey
  have hafter := (List.nodup_cons.mp (List.nodup_append.mp hkey).2.1).1
  intro v hv hid
  rcases List.mem_append.mp hv with hv | hv
  · simpa [hid] using hbefore v hv
  · exact hafter (List.mem_map.mpr ⟨v, hv, hid.trans (get_id h).symm⟩)

theorem modifyRow_of_ne {uid : String} {f : AdminUser → Columns} {u : AdminUser} (h : u.id ≠ uid) :
    modifyRow uid f u = u := by
  rw [modifyRow, if_neg h]

theorem activeCount_modify {t : AdminTable} {uid : String} {u : AdminUser} (h : t.get uid = some u)
    (f : AdminUser → Columns) :
    (t.modify uid f).activeCount + u.isActive.toNat = t.activeCount + (f u).isActive.toNat := by
  obtain ⟨before, after, hrows, hother⟩ := rows_split h
  have hsame : ∀ l : List AdminUser, (∀ v ∈ l, v.id ≠ uid) → l.map (modifyRow uid f) = l := by
    intro l hl
    exact (List.map_congr_left fun v hv => modifyRow_of_ne (hl v hv)).trans l.map_id
  have hu : (modifyRow uid f u).isActive = (f u).isActive := by rw [modifyRow, if_pos (get_id h)]; rfl
  unfold activeCount
  rw [modify_rows, hrows]
  simp only [List.map_append, List.map_cons, hsame before fun v hv => hother v (List.mem_append_left _ hv),
    hsame after fun v hv => hother v (List.mem_append_right _ hv), List.countP_append, List.countP_cons, hu]
  cases u.isActive <;> cases (f u).isActive <;> simp <;> omega

theorem eq_of_rows {t t' : AdminTable} (h : t.rows = t'.rows) : t = t' := by
  cases t
  cases t'
  congr

theorem modify_congr {t : AdminTable} {uid : String} {u : AdminUser} (h : t.get uid = some u)
    {f g : AdminUser → Columns} (hfg : f u = g u) : t.modify uid f = t.modify uid g := by
  apply eq_of_rows
  rw [modify_rows, modify_rows]
  refine List.map_congr_left fun v hv => ?_
  by_cases hv' : v.id = uid
  · have : v = u := Option.some.inj ((get_of_mem hv).symm.trans (hv' ▸ h))
    rw [this]
    unfold modifyRow
    rw [hfg]
  · rw [modifyRow_of_ne hv', modifyRow_of_ne hv']

theorem modify_self (t : AdminTable) (uid : String) :
    (t.modify uid fun u => ⟨u.passwordHash, u.isActive, u.mustChangePassword, u.allowedIps⟩) = t := by
  apply eq_of_rows
  rw [modify_rows]
  refine (List.map_congr_left fun v _ => ?_).trans t.rows.map_id
  unfold modifyRow
  split
  · rfl
  · rfl

theorem modify_of_get_none {t : AdminTable} {uid : String} (h : t.get uid = none) (f : AdminUser → Columns) :
    (t.modify uid f).rows = t.rows := by
  unfold modify
  refine (List.map_congr_left fun v hv => modifyRow_of_ne ?_).trans t.rows.map_id
  simpa using List.find?_eq_none.mp h v hv

theorem activeCount_delete {t : AdminTable} {uid : String} {u : AdminUser} (h : t.get uid = some u) :
    (t.delete uid).activeCount + u.isActive.toNat = t.activeCount := by
  obtain ⟨before, after, hrows, hother⟩ := rows_split h
  have hsame : ∀ l : List AdminUser, (∀ v ∈ l, v.id ≠ uid) → l.filter (fun v => v.id ≠ uid) = l := by
    intro l hl
    exact List.filter_eq_self.mpr fun v hv => by simpa using hl v hv
  unfold activeCount
  rw [delete_rows, hrows]
  simp only [List.filter_append, List.filter_cons, hsame before fun v hv => hother v (List.mem_append_left _ hv),
    hsame after fun v hv => hother v (List.mem_append_right _ hv), get_id h, List.countP_append, List.countP_cons]
  cases u.isActive
  · simp
  · simp; omega

theorem delete_of_get_none {t : AdminTable} {uid : String} (h : t.get uid = none) : (t.delete uid).rows = t.rows := by
  unfold delete
  refine List.filter_eq_self.mpr fun v hv => ?_
  simpa using List.find?_eq_none.mp h v hv

def activeAt (t : AdminTable) (uid : String) : Bool := (t.get uid).any AdminUser.isActive

theorem activeAt_of_get {t : AdminTable} {uid : String} {u : Option AdminUser} (h : t.get uid = u) :
    t.activeAt uid = u.any AdminUser.isActive := congrArg (Option.any AdminUser.isActive) h

theorem activeCount_pos {t : AdminTable} : 0 < t.activeCount ↔ ∃ uid, t.activeAt uid = true := by
  unfold activeCount activeAt
  rw [List.countP_pos_iff]
  constructor
  · rintro ⟨u, hu, hactive⟩
    refine ⟨u.id, ?_⟩
    rw [get_of_mem hu]
    exact hactive
  · rintro ⟨uid, hactive⟩
    obtain ⟨u, hu, hactive⟩ := (Option.any_eq_true _ _).mp hactive
    exact ⟨u, List.mem_of_find?_eq_some hu, hactive⟩

theorem two_active {t : AdminTable} {uid uid' : String} (hne : uid' ≠ uid) (h : t.activeAt uid = true)
    (h' : t.activeAt uid' = true) : 2 ≤ t.activeCount := by
  obtain ⟨u, hu, hactive⟩ := (Option.any_eq_true _ _).mp h
  have hcount := activeCount_delete hu
  have hrest : 0 < (t.delete uid).activeCount := by
    refine activeCount_pos.mpr ⟨uid', ?_⟩
    unfold activeAt
    rw [get_delete, if_neg hne]
    exact h'
  rw [hactive] at hcount
  have hone : Bool.toNat true = 1 := rfl
  omega

end AdminTable

end RdpProxy.Admin
