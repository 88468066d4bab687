import RdpProxy.Admin.AdminAccess

/-!
# The row behind an admin session

What `require_admin` lets through is right as long as nothing has been done to the row of
the session since its login that the session does not know of.
-/

open Steps

namespace RdpProxy.Admin

open Store

variable {Addr Net S : Type} [DecidableEq S]

/-! ## Allowed by the row, allowed by what was done to it -/

/-- The row as it is now lets the request through. -/
def RowAllows (env : AdminEnv Addr Net) (users : AdminTable) (uid clientIp : String) : Prop :=
  ∃ u, users.get uid = some u ∧ u.isActive = true ∧ u.mustChangePassword = false ∧
    (u.allowedIps ≠ [] → ipInNetworks env clientIp u.allowedIps = true)

def AcceptedAreAllowed (env : AdminEnv Addr Net) (s : AdminState S) : AdminAct S → Prop
  | .request r _ => ∀ admin, (requireAdmin env s r).1 = .ok admin → RowAllows env s.users admin.adminUserId r.clientIp
  | _ => True

def Change.isActive? : Change → Option Bool
  | .isActive b => some b
  | _ => none

def Change.mustChangePassword? : Change → Option Bool
  | .mustChangePassword b => some b
  | _ => none

def Change.allowedIps? : Change → Option (List String)
  | .allowedIps ips => some ips
  | _ => none

/-- What has been done to the admin of the session since its login leaves the request allowed:
no deletion; no deactivation that was not taken back; a change of password after the last
reset, and after a login that asks for one; no list of addresses without the client's. -/
def StillGood (env : AdminEnv Addr Net) (admin : AdminFields) (clientIp : String) (since : List Change) : Prop :=
  .deleted ∉ since ∧ (∀ b ∈ since.findSome? Change.isActive?, b = true) ∧
    (since.findSome? Change.mustChangePassword?).getD admin.mustChangePassword = false ∧
    ∀ ips ∈ since.findSome? Change.allowedIps?, ips ≠ [] → ipInNetworks env clientIp ips = true

def AcceptedAreUnchanged (env : AdminEnv Addr Net) (s : AdminState S) : AdminAct S → Prop
  | .request r _ => ∀ sid admin, r.cookie = some sid → (requireAdmin env s r).1 = .ok admin →
    StillGood env admin r.clientIp (s.since sid)
  | _ => True

/-! ## A session and its row -/

/-- The row is what the session saw at its login, with the changes since. -/
def Tracks (row : Option AdminUser) (p : AdminFields) (since : List Change) : Prop :=
  (.deleted ∈ since → row = none) ∧
    (.deleted ∉ since → ∃ u, row = some u ∧ u.isActive = (since.findSome? Change.isActive?).getD true ∧
      u.mustChangePassword = (since.findSome? Change.mustChangePassword?).getD p.mustChangePassword ∧
      u.allowedIps = (since.findSome? Change.allowedIps?).getD p.allowedIps)

omit [DecidableEq S] in
theorem rowAllows_iff {env : AdminEnv Addr Net} {users : AdminTable} {uid clientIp : String} {p : AdminFields}
    {since : List Change} (h : Tracks (users.get uid) p since)
    (hip : p.allowedIps ≠ [] → ipInNetworks env clientIp p.allowedIps = true) :
    RowAllows env users uid clientIp ↔ StillGood env p clientIp since := by
  by_cases hd : .deleted ∈ since
  · refine iff_of_false ?_ (fun hs => hs.1 hd)
    rintro ⟨u, hu, _⟩
    rw [h.1 hd] at hu
    cases hu
  · obtain ⟨u, hu, ha, hm, hi⟩ := h.2 hd
    have hactive : u.isActive = true ↔ ∀ b ∈ since.findSome? Change.isActive?, b = true := by
      rw [ha]
      cases since.findSome? Change.isActive? <;> simp
    have hips : (u.allowedIps ≠ [] → ipInNetworks env clientIp u.allowedIps = true) ↔
        ∀ ips ∈ since.findSome? Change.allowedIps?, ips ≠ [] → ipInNetworks env clientIp ips = true := by
      rw [hi]
      cases since.findSome? Change.allowedIps? with
      | none => exact iff_of_true hip (by simp)
      | some ips => simp
    constructor
    · rintro ⟨v, hv, hva, hvm, hvi⟩
      rw [hu] at hv
      cases hv
      exact ⟨hd, hactive.mp hva, hm ▸ hvm, hips.mp hvi⟩
    · rintro ⟨_, hsa, hsm, hsi⟩
      exact ⟨u, hu, hactive.mpr hsa, hm.trans hsm, hips.mpr hsi⟩

omit [DecidableEq S] in
theorem tracks_write {u : AdminUser} {c : AdminTable.Columns} {p : AdminFields} {since changes : List Change}
    (hd : .deleted ∉ changes) (ha : c.isActive = (changes.findSome? Change.isActive?).getD u.isActive)
    (hm : c.mustChangePassword = (changes.findSome? Change.mustChangePassword?).getD u.mustChangePassword)
    (hi : c.allowedIps = (changes.findSome? Change.allowedIps?).getD u.allowedIps) (h : Tracks (some u) p since) :
    Tracks (some (AdminTable.write u c)) p (changes ++ since) := by
  have hsince : .deleted ∉ since := fun hs => Option.some_ne_none u (h.1 hs)
  obtain ⟨v, hv, hva, hvm, hvi⟩ := h.2 hsince
  cases hv
  refine ⟨fun hmem => absurd (List.mem_append.mp hmem) (not_or.mpr ⟨hd, hsince⟩), fun _ => ⟨_, rfl, ?_, ?_, ?_⟩⟩
  · rw [List.findSome?_append, Option.getD_or, ← hva]
    exact ha
  · rw [List.findSome?_append, Option.getD_or, ← hvm]
    exact hm
  · rw [List.findSome?_append, Option.getD_or, ← hvi]
    exact hi

structure AdminState.Wf (s : AdminState S) : Prop where
  tracks : ∀ sid p, s.sessions sid = some p → Tracks (s.users.get p.fields.adminUserId) p.fields (s.since sid)
  sessions : ∀ sid p, s.sessions sid = some p → p.fields.adminUserId ∈ s.drawn
  users : ∀ uid ∈ s.users.rows.map AdminUser.id, uid ∈ s.drawn

/-- `s'` is `s` with some sessions gone, or seen again. -/
structure Forgets (s s' : AdminState S) : Prop where
  users : s'.users = s.users
  drawn : s'.drawn = s.drawn
  since : s'.since = s.since
  sessions : ∀ sid p', s'.sessions sid = some p' → ∃ p, s.sessions sid = some p ∧ p'.fields = p.fields

omit [DecidableEq S] in
theorem Forgets.refl (s : AdminState S) : Forgets s s := ⟨rfl, rfl, rfl, fun _ p' h => ⟨p', h, rfl⟩⟩

omit [DecidableEq S] in
theorem AdminState.Wf.forgets {s s' : AdminState S} (hs : s.Wf) (h : Forgets s s') : s'.Wf := by
  refine ⟨?_, ?_, ?_⟩
  · intro sid p' hp'
    obtain ⟨p, hp, hf⟩ := h.sessions sid p' hp'
    rw [h.users, h.since, hf]
    exact hs.tracks sid p hp
  · intro sid p' hp'
    obtain ⟨p, hp, hf⟩ := h.sessions sid p' hp'
    rw [h.drawn, hf]
    exact hs.sessions sid p hp
  · rw [h.users, h.drawn]
    exact hs.users

theorem setSession_forgets (s : AdminState S) (sid : S) : Forgets s (s.setSession sid none) := by
  refine ⟨rfl, rfl, rfl, ?_⟩
  intro sid' p' h
  simp only [AdminState.setSession, Function.update_apply] at h
  split_ifs at h
  exact ⟨p', h, rfl⟩

theorem touch_forgets {s : AdminState S} {sid : S} {p : Payload AdminFields} (hp : s.sessions sid = some p)
    (now : Int) : Forgets s (s.setSession sid (some (p.touch now))) := by
  refine ⟨rfl, rfl, rfl, ?_⟩
  intro sid' p' h
  simp only [AdminState.setSession, Function.update_apply] at h
  split_ifs at h with hs
  · cases h
    exact ⟨p, hs ▸ hp, rfl⟩
  · exact ⟨p', h, rfl⟩

theorem getAdminWebSession_spec {s s' : AdminState S} {store : SessionStore} {sid : S} {fp : String} {now : Int}
    {r : Option AdminFields} (h : s.getAdminWebSession store sid fp now = (r, s')) :
    Forgets s s' ∧ ∀ admin, r = some admin → ∃ p, s.sessions sid = some p ∧ p.fields = admin := by
  unfold AdminState.getAdminWebSession at h
  split at h
  · cases h
    exact ⟨Forgets.refl s, by simp⟩
  · rename_i p hp
    split_ifs at h
    · cases h
      exact ⟨setSession_forgets s sid, by simp⟩
    · cases h
      exact ⟨setSession_forgets s sid, by simp⟩
    · cases h
      refine ⟨touch_forgets hp now, ?_⟩
      rintro admin ⟨⟩
      exact ⟨p, hp, rfl⟩

theorem requireAdmin_spec (env : AdminEnv Addr Net) (s : AdminState S) (r : AdminRequest S) :
    Forgets s (requireAdmin env s r).2 ∧ ∀ admin, (requireAdmin env s r).1 = .ok admin →
      ∃ sid p, r.cookie = some sid ∧ s.sessions sid = some p ∧ p.fields = admin ∧
        (admin.allowedIps ≠ [] → ipInNetworks env r.clientIp admin.allowedIps = true) := by
  unfold requireAdmin
  split
  · exact ⟨Forgets.refl s, by simp⟩
  · rename_i sid hcookie
    split
    · rename_i s' hget
      exact ⟨(getAdminWebSession_spec hget).1, by simp⟩
    · rename_i sess s' hget
      obtain ⟨hforgets, hsession⟩ := getAdminWebSession_spec hget
      obtain ⟨p, hp, hfields⟩ := hsession sess rfl
      split_ifs with hnets hips
      · exact ⟨hforgets, by simp⟩
      · exact ⟨hforgets, by simp⟩
      · refine ⟨hforgets, ?_⟩
        rintro admin ⟨⟩
        refine ⟨sid, p, hcookie, hp, hfields, ?_⟩
        intro hne
        simpa using not_and.mp hips hne

/-! ## Changes to a row -/

omit [DecidableEq S] in
theorem AdminState.Wf.setRow {s : AdminState S} (hs : s.Wf) {users : AdminTable} {uid : String} {changes : List Change}
    (hother : ∀ v, v ≠ uid → users.get v = s.users.get v)
    (hrow : ∀ p since, Tracks (s.users.get uid) p since → Tracks (users.get uid) p (changes ++ since))
    (hids : ∀ v ∈ users.rows.map AdminUser.id, v ∈ s.users.rows.map AdminUser.id) :
    (s.setRow users uid changes).Wf := by
  refine ⟨?_, hs.sessions, fun v hv => hs.users v (hids v hv)⟩
  intro sid p hp
  have htracks := hs.tracks sid p hp
  have hsince : (s.setRow users uid changes).since sid =
      if p.fields.adminUserId = uid then changes ++ s.since sid else s.since sid := by
    simp only [AdminState.setRow, show s.sessions sid = some p from hp]
  rw [hsince]
  split_ifs with hid
  · rw [hid] at htracks ⊢
    exact hrow p.fields _ htracks
  · have := hother p.fields.adminUserId hid
    rw [show (s.setRow users uid changes).users = users from rfl, this]
    exact htracks

theorem ids_modify (t : AdminTable) (uid : String) (f : AdminUser → AdminTable.Columns) :
    (t.modify uid f).rows.map AdminUser.id = t.rows.map AdminUser.id := by
  rw [AdminTable.modify, List.map_map]
  congr 1
  funext u
  exact AdminTable.modifyRow_id uid f u

omit [DecidableEq S] in
theorem AdminState.Wf.modify {s : AdminState S} (hs : s.Wf) {uid : String} {f : AdminUser → AdminTable.Columns}
    {changes : List Change} (hd : .deleted ∉ changes)
    (ha : ∀ u, (f u).isActive = (changes.findSome? Change.isActive?).getD u.isActive)
    (hm : ∀ u, (f u).mustChangePassword = (changes.findSome? Change.mustChangePassword?).getD u.mustChangePassword)
    (hi : ∀ u, (f u).allowedIps = (changes.findSome? Change.allowedIps?).getD u.allowedIps)
    {u : AdminUser} (hu : s.users.get uid = some u) : (s.setRow (s.users.modify uid f) uid changes).Wf := by
  apply hs.setRow
  · intro v hv
    rw [AdminTable.get_modify]
    cases hg : s.users.get v with
    | none => rfl
    | some w =>
      have hid := AdminTable.get_id hg
      simp [AdminTable.modifyRow, hid, hv]
  · intro p since h
    rw [AdminTable.get_modify, hu, Option.map_some, AdminTable.modifyRow, if_pos (AdminTable.get_id hu)]
    rw [hu] at h
    exact tracks_write hd (ha u) (hm u) (hi u) h
  · intro v hv
    rw [ids_modify] at hv
    exact hv

omit [DecidableEq S] in
theorem AdminState.Wf.delete {s : AdminState S} (hs : s.Wf) (uid : String) :
    (s.setRow (s.users.delete uid) uid [.deleted]).Wf := by
  apply hs.setRow
  · intro v hv
    rw [AdminTable.get_delete, if_neg hv]
  · intro p since _
    rw [AdminTable.get_delete, if_pos rfl]
    exact ⟨fun _ => rfl, fun hd => absurd (by simp) hd⟩
  · intro v hv
    obtain ⟨u, hu, rfl⟩ := List.mem_map.mp hv
    exact List.mem_map_of_mem (List.mem_of_mem_filter hu)

omit [DecidableEq S] in
theorem createAdminUser_wf {env : AdminEnv Addr Net} {s : AdminState S} (hs : s.Wf) {uid username password : String}
    {isActive : Bool} {ips : List String} (hfresh : uid ∉ s.drawn) :
    (createAdminUser env s uid username password isActive ips).2.Wf := by
  unfold createAdminUser
  split_ifs with htaken hkey
  · exact hs
  · exact hs
  · refine ⟨?_, ?_, ?_⟩
    · intro sid p hp
      have hne : uid ≠ p.fields.adminUserId := by
        rintro rfl
        exact hfresh (hs.sessions sid p hp)
      simp only
      rw [AdminTable.get_insert, if_neg hne]
      exact hs.tracks sid p hp
    · intro sid p hp
      exact List.mem_cons_of_mem _ (hs.sessions sid p hp)
    · intro v hv
      rcases List.mem_cons.mp hv with rfl | hv
      · exact List.mem_cons_self
      · exact List.mem_cons_of_mem _ (hs.users v hv)

omit [DecidableEq S] in
theorem updateAdminUser_wf {s : AdminState S} (hs : s.Wf) (admin : AdminFields) (userId : Option String)
    (isActive : Option Bool) (ips : Option (List String)) : (updateAdminUser s admin userId isActive ips).2.Wf := by
  unfold updateAdminUser
  split
  · exact hs
  · split
    · exact hs
    · rename_i u hu
      split_ifs
      · exact hs
      · exact hs
      · apply hs.modify _ _ _ _ hu
        · cases isActive <;> cases ips <;> simp
        · intro u; cases isActive <;> cases ips <;> rfl
        · intro u; cases isActive <;> cases ips <;> rfl
        · intro u; cases isActive <;> cases ips <;> rfl

omit [DecidableEq S] in
theorem resetAdminPassword_wf {env : AdminEnv Addr Net} {s : AdminState S} (hs : s.Wf) (userId : Option String)
    (newPassword : String) : (resetAdminPassword env s userId newPassword).2.Wf := by
  unfold resetAdminPassword
  split
  · exact hs
  · split
    · exact hs
    · rename_i u hu
      exact hs.modify (by simp) (fun _ => rfl) (fun _ => rfl) (fun _ => rfl) hu

omit [DecidableEq S] in
theorem deleteAdminUser_wf {s : AdminState S} (hs : s.Wf) (admin : AdminFields) (userId : Option String) :
    (deleteAdminUser s admin userId).2.Wf := by
  unfold deleteAdminUser
  split
  · exact hs
  · split_ifs
    · exact hs
    · split
      · exact hs
      · split_ifs
        · exact hs
        · exact hs.delete _

omit [DecidableEq S] in
theorem handle_wf {env : AdminEnv Addr Net} {s : AdminState S} (hs : s.Wf) (admin : AdminFields) {route : Route}
    (hfresh : route.Fresh s.drawn) : (s.handle env admin route).2.Wf := by
  cases route with
  | other => exact hs
  | createAdminUser uid username password isActive ips => exact createAdminUser_wf hs hfresh
  | updateAdminUser userId isActive ips => exact updateAdminUser_wf hs admin userId isActive ips
  | resetAdminPassword userId newPassword => exact resetAdminPassword_wf hs userId newPassword
  | deleteAdminUser userId => exact deleteAdminUser_wf hs admin userId

/-! ## Logins and changes of the own password -/

theorem loginSubmit_wf {env : AdminEnv Addr Net} {s : AdminState S} (hs : s.Wf) (form : LoginForm) (locked : Bool)
    (sid : S) (fingerprint : String) (now : Int) : (loginSubmit env s form locked sid fingerprint now).2.Wf := by
  unfold loginSubmit
  split_ifs
  · exact hs
  · exact hs
  · split
    · exact hs
    · rename_i user hfind
      have hmem := List.mem_of_find?_eq_some hfind
      split_ifs with hrefused
      · exact hs
      · have hactive : user.isActive = true := by simpa using (not_or.mp hrefused).1
        refine ⟨?_, ?_, hs.users⟩
        · intro sid' p hp
          simp only [AdminState.setSession, Function.update_apply] at hp ⊢
          split_ifs at hp ⊢ with hsid
          · cases hp
            exact ⟨fun h => absurd h List.not_mem_nil,
              fun _ => ⟨user, AdminTable.get_of_mem hmem, hactive, rfl, rfl⟩⟩
          · exact hs.tracks sid' p hp
        · intro sid' p hp
          simp only [AdminState.setSession, Function.update_apply] at hp
          split_ifs at hp with hsid
          · cases hp
            exact hs.users user.id (List.mem_map_of_mem hmem)
          · exact hs.sessions sid' p hp

theorem updateAdminMustChange_wf {s : AdminState S} (hs : s.Wf) {sid : S}
    (hlatest : ∀ p, s.sessions sid = some p → (s.since sid).findSome? Change.mustChangePassword? ≠ none)
    (b : Bool) : (s.updateAdminMustChange sid b).Wf := by
  unfold AdminState.updateAdminMustChange
  split
  · exact hs
  · rename_i p hp
    refine ⟨?_, ?_, hs.users⟩
    · intro sid' p' hp'
      simp only [AdminState.setSession, Function.update_apply] at hp' ⊢
      split_ifs at hp' with hsid
      · cases hp'
        rw [hsid]
        obtain ⟨hdel, hlive⟩ := hs.tracks sid p hp
        refine ⟨hdel, fun hd => ?_⟩
        obtain ⟨u, hu, ha, hm, hi⟩ := hlive hd
        refine ⟨u, hu, ha, ?_, hi⟩
        obtain ⟨c, hc⟩ := Option.ne_none_iff_exists'.mp (hlatest p hp)
        rw [hm, hc]
        rfl
      · exact hs.tracks sid' p' hp'
    · intro sid' p' hp'
      simp only [AdminState.setSession, Function.update_apply] at hp'
      split_ifs at hp' with hsid
      · cases hp'
        exact hs.sessions sid p hp
      · exact hs.sessions sid' p' hp'

theorem changePasswordSubmit_wf {env : AdminEnv Addr Net} {s : AdminState S} (hs : s.Wf) {sid : S} {admin : AdminFields}
    (hsession : ∀ p, s.sessions sid = some p → p.fields.adminUserId = admin.adminUserId) (form : PasswordForm) :
    (changePasswordSubmit env s sid admin form).2.Wf := by
  unfold changePasswordSubmit
  split_ifs
  · exact hs
  · exact hs
  · exact hs
  · split
    · exact hs
    · rename_i user hu
      split_ifs
      · exact hs
      · apply updateAdminMustChange_wf
        · exact hs.modify (by simp) (fun _ => rfl) (fun _ => rfl) (fun _ => rfl) hu
        · intro p hp
          simp only [AdminState.setRow, show s.sessions sid = some p from hp, hsession p hp, if_true]
          exact Option.some_ne_none false

/-! ## Runs -/

theorem step_wf {env : AdminEnv Addr Net} (s : AdminState S) (a : AdminAct S) (s' : AdminState S) (hs : s.Wf)
    (h : s.step env a = some s') : s'.Wf := by
  cases a with
  | login sid form locked fingerprint now =>
    simp only [AdminState.step] at h
    split_ifs at h
    cases h
    exact loginSubmit_wf hs form locked sid fingerprint now
  | logout sid => cases h; exact hs.forgets (setSession_forgets s sid)
  | expire sid => cases h; exact hs.forgets (setSession_forgets s sid)
  | request r route =>
    simp only [AdminState.step] at h
    split_ifs at h with hfresh
    obtain ⟨hforgets, _⟩ := requireAdmin_spec env s r
    split at h
    · rename_i s₁ hreq
      cases h
      rw [hreq] at hforgets
      exact hs.forgets hforgets
    · rename_i admin s₁ hreq
      cases h
      rw [hreq] at hforgets
      exact handle_wf (hs.forgets hforgets) admin (by rw [hforgets.drawn]; exact hfresh)
  | changePasswordPage r => cases h; exact hs.forgets (requireAdmin_spec env s r).1
  | changePassword r form =>
    simp only [AdminState.step] at h
    obtain ⟨hforgets, hsession⟩ := requireAdmin_spec env s r
    split at h
    · rename_i sid admin s₁ hcookie hreq
      cases h
      rw [hreq] at hforgets hsession
      obtain ⟨sid', p, hc, hp, hfields, _⟩ := hsession admin rfl
      rw [hcookie] at hc
      cases hc
      apply changePasswordSubmit_wf (hs.forgets hforgets)
      intro p' hp'
      obtain ⟨p₀, hp₀, hf⟩ := hforgets.sessions sid p' hp'
      rw [hp] at hp₀
      cases hp₀
      rw [hf, hfields]
    · rename_i s₁ hreq _
      cases h
      rw [hreq] at hforgets
      exact hs.forgets hforgets

theorem accepted_iff {env : AdminEnv Addr Net} {s : AdminState S} (hs : s.Wf) (a : AdminAct S) :
    AcceptedAreAllowed env s a ↔ AcceptedAreUnchanged env s a := by
  cases a with
  | request r route =>
    obtain ⟨_, hsession⟩ := requireAdmin_spec env s r
    constructor
    · intro h sid admin hcookie hok
      obtain ⟨sid', p, hc, hp, hfields, hip⟩ := hsession admin hok
      rw [hcookie] at hc
      cases hc
      have htracks := hs.tracks sid p hp
      rw [hfields] at htracks
      exact (rowAllows_iff htracks hip).mp (h admin hok)
    · intro h admin hok
      obtain ⟨sid, p, hc, hp, hfields, hip⟩ := hsession admin hok
      have htracks := hs.tracks sid p hp
      rw [hfields] at htracks
      exact (rowAllows_iff htracks hip).mpr (h sid admin hc hok)
  | _ => exact Iff.rfl

/-- The requests that get through are allowed by their rows exactly when nothing done to the
rows since the logins speaks against it. -/
theorem accepted_allowed_iff (env : AdminEnv Addr Net) (users : AdminTable) (acts : List (AdminAct S))
    (s : AdminState S) (hrun : run (AdminState.step env) (.initial users) acts = some s) :
    Along (AdminState.step env) (AcceptedAreAllowed env) (.initial users) acts ↔
      Along (AdminState.step env) (AcceptedAreUnchanged env) (.initial users) acts := by
  have hstart : (AdminState.initial users : AdminState S).Wf := by
    refine ⟨?_, ?_, fun _ h => h⟩
    · intro sid p h
      cases h
    · intro sid p h
      cases h
  exact along_congr step_wf (fun s a _ hs _ => accepted_iff hs a) hrun hstart

/-! ## An admin who has been deactivated -/

def sampleEnv : AdminEnv Nat Nat where
  store := ⟨1800, fun _ => ⟨"f6d0a2adf004a8ddfe0de31834f821a7da3ed15f9b7c7005a04f9179c5b83ac5", by decide⟩⟩
  allowedNetworks := []
  ipAddress ip := if ip = "192.0.2.7" then some 3221225991 else none
  ipNetwork _ := none
  contains _ _ := false
  hashPassword password := "hash of " ++ password
  verifyPassword hash password := hash = "hash of " ++ password
  lower name := name
  sqlLower name := name

def sampleUsers : AdminTable where
  rows := [⟨"1", "root", "hash of rootrootroot", true, false, []⟩, ⟨"2", "eve", "hash of eveeveeve", true, false, []⟩]
  primaryKey := by decide

def loginOf (sid : Bool) (username password : String) : AdminAct Bool :=
  .login sid ⟨username, password, "csrf", "csrf"⟩ false "Mozilla/5.0||||||" 100

def requestOf (sid : Bool) (route : Route) : AdminAct Bool :=
  .request ⟨some sid, "Mozilla/5.0||||||", "192.0.2.7", 200⟩ route

def bothLogIn : List (AdminAct Bool) := [loginOf true "root" "rootrootroot", loginOf false "eve" "eveeveeve"]

/-- The first admin deactivates the second, whose session goes on. -/
theorem deactivated_admin_accepted :
    ∃ s, run (AdminState.step sampleEnv) (.initial sampleUsers)
        (bothLogIn ++ [requestOf true (.updateAdminUser (some "2") (some false) none)]) = some s ∧
      ¬ AcceptedAreAllowed sampleEnv s (requestOf false .other) := by
  refine ⟨_, rfl, ?_⟩
  intro h
  obtain ⟨u, hu, ha, _⟩ := h _ rfl
  cases hu
  cases ha

def resetAndChange : List (AdminAct Bool) :=
  bothLogIn ++ [requestOf true (.resetAdminPassword (some "2") "eve-eve-eve"),
    .changePassword ⟨some false, "Mozilla/5.0||||||", "192.0.2.7", 300⟩
      ⟨"eve-eve-eve", "long-enough", "long-enough", "csrf", "csrf"⟩,
    requestOf false .other]

theorem accepted_allowed_after_change :
    ∃ s, run (AdminState.step sampleEnv) (.initial sampleUsers) resetAndChange = some s ∧
      Along (AdminState.step sampleEnv) (AcceptedAreAllowed sampleEnv) (.initial sampleUsers) resetAndChange := by
  refine ⟨_, rfl, ?_⟩
  apply (accepted_allowed_iff sampleEnv sampleUsers resetAndChange _ rfl).mpr
  refine ⟨trivial, trivial, ?_, trivial, ?_, trivial⟩
  · rintro sid admin ⟨⟩ ⟨⟩
    refine ⟨by decide, ?_, rfl, ?_⟩
    · rintro _ ⟨⟩
    · rintro _ ⟨⟩
  · rintro sid admin ⟨⟩ ⟨⟩
    refine ⟨by decide, ?_, rfl, ?_⟩
    · rintro _ ⟨⟩
    · rintro _ ⟨⟩

end RdpProxy.Admin
