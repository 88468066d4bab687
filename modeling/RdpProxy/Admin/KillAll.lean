import RdpProxy.Admin.KillRoutes

/-!
# Killing all connections, and killing each of them

The keys and the rows that `kill_all_sessions` leaves, beside those of one `kill_session`
after the other.
-/

open Faulty RedisKey

namespace RdpProxy.Admin

open Tracker

/-! ## The keys after some connections have been killed -/

namespace KillState

variable {s s' : KillState} {k c q : List Char}

@[simp] theorem touch_clock (s : KillState) (k c : List Char) : (s.touch k c).clock = s.clock := by
  unfold touch dropToken
  split
  · rfl
  · split_ifs <;> rfl

@[simp] theorem touch_rows (s : KillState) (k c : List Char) : (s.touch k c).rows = s.rows := by
  unfold touch dropToken
  split
  · rfl
  · split_ifs <;> rfl

@[simp] theorem touch_sent (s : KillState) (k c : List Char) : (s.touch k c).sent = s.sent := by
  unfold touch dropToken
  split
  · rfl
  · split_ifs <;> rfl

theorem setKill_redis (s : KillState) (c q : List Char) : (s.setKill c).redis q =
    if q = killFlag c then (s.redis (killFlag c)).setex s.clock killTtl ['1'] else s.redis q :=
  Function.update_apply ..

theorem delete_redis (s : KillState) (k q : List Char) :
    (s.delete k).redis q = if q = k then (s.redis k).delete else s.redis q := Function.update_apply ..

theorem delete_delete_redis (s : KillState) (k k' q : List Char) :
    (((s.delete k).delete k').redis q).entry = if q = k ∨ q = k' then none else (s.redis q).entry := by
  rw [delete_redis]
  split_ifs with h h' h'
  · exact entry_delete _
  · exact absurd (Or.inr h) h'
  · rcases h' with rfl | h'
    · rw [delete_redis, if_pos rfl, entry_delete]
    · exact absurd h' h
  · rw [delete_redis, if_neg fun hk => h' (Or.inl hk)]

theorem setKill_delete_entry (hk : kind k = some 'a') (s : KillState) (c q : List Char) :
    (((s.setKill c).delete k).redis q).entry =
      if q = killFlag c then some (['1'], s.clock + 1000 * killTtl) else if q = k then none else (s.redis q).entry := by
  have hflag : killFlag c ≠ k := ne_of_kind (by rw [hk]; simp)
  rw [delete_redis]
  split_ifs with h h' h'
  · exact absurd (h'.symm.trans h) hflag
  · exact entry_delete _
  · rw [setKill_redis, if_pos h', entry_setex]
  · rw [setKill_redis, if_neg h']

theorem touch_entry (hk : kind k = some 'a') (s : KillState) (c q : List Char) :
    ((s.touch k c).redis q).entry = if q = killFlag c then some (['1'], s.clock + 1000 * killTtl)
      else if q = k then none else (s.dropToken c |>.redis q).entry := by
  have hmap : connToken c ≠ k := ne_of_kind (by rw [hk]; simp)
  have hget : (((s.setKill c).delete k).redis (connToken c)).get = (s.redis (connToken c)).get := by
    have hentry := setKill_delete_entry hk s c (connToken c)
    rw [if_neg (ne_of_kind (by simp)), if_neg hmap] at hentry
    exact congrArg (Option.map Prod.fst) hentry
  unfold touch dropToken
  rw [hget]
  rcases hm : (s.redis (connToken c)).get with _ | token
  · exact setKill_delete_entry hk s c q
  · simp only
    split_ifs with hempty hflag hq hflag hq
    · rw [setKill_delete_entry hk, if_pos hflag]
    · rw [setKill_delete_entry hk, if_neg hflag, if_pos hq]
    · rw [setKill_delete_entry hk, if_neg hflag, if_neg hq]
    · have hne : ¬ (q = tokenKey token ∨ q = connToken c) := by
        rw [hflag]
        rintro (h | h)
        · exact absurd h (ne_of_kind (by simp))
        · exact absurd h (ne_of_kind (by simp))
      rw [delete_delete_redis, if_neg hne, setKill_delete_entry hk, if_pos hflag]
    · rw [delete_delete_redis, setKill_delete_entry hk, if_neg hflag, if_pos hq, ite_self]
    · rw [delete_delete_redis, delete_delete_redis, setKill_delete_entry hk, if_neg hflag, if_neg hq]

/-- The key goes with the token that the mapping of the connection names. -/
def Dropped (redis : List Char → Key (List Char)) (c q : List Char) : Prop :=
  ∃ token, token ≠ [] ∧ (redis (connToken c)).get = some token ∧ (q = tokenKey token ∨ q = connToken c)

theorem dropToken_entry (s : KillState) (c q : List Char) :
    (Dropped s.redis c q → ((s.dropToken c).redis q).entry = none) ∧
      (¬ Dropped s.redis c q → ((s.dropToken c).redis q).entry = (s.redis q).entry) := by
  unfold dropToken Dropped
  rcases hm : (s.redis (connToken c)).get with _ | token
  · simp
  · by_cases hempty : token = []
    · simp [hempty]
    · simp only [hempty, if_false, Option.some.injEq, delete_delete_redis]
      constructor
      · rintro ⟨_, _, rfl, h⟩
        exact if_pos h
      · intro h
        exact if_neg fun hq => h ⟨token, hempty, rfl, hq⟩

/-! ### A list of connections -/

/-- The active key and the connection id of one turn. -/
abbrev Target := List Char × List Char

/-- The key is an active key of the list, or goes with a token of it. -/
def Gone (redis : List Char → Key (List Char)) (ts : List Target) (q : List Char) : Prop :=
  ∃ t ∈ ts, q = t.1 ∨ Dropped redis t.2 q

/-- What has become of the keys when the connections of the list have been killed. -/
structure Killed (before : List Char → Key (List Char)) (clock : Nat) (redis : List Char → Key (List Char))
    (ts : List Target) : Prop where
  flag : ∀ q, (∃ t ∈ ts, q = killFlag t.2) → (redis q).entry = some (['1'], clock + 1000 * killTtl)
  gone : ∀ q, (¬ ∃ t ∈ ts, q = killFlag t.2) → Gone before ts q → (redis q).entry = none
  kept : ∀ q, (¬ ∃ t ∈ ts, q = killFlag t.2) → ¬ Gone before ts q → (redis q).entry = (before q).entry

theorem killed_nil (redis : List Char → Key (List Char)) (clock : Nat) : Killed redis clock redis [] where
  flag := by
    rintro q ⟨t, ht, _⟩
    cases ht
  gone := by
    rintro q _ ⟨t, ht, _⟩
    cases ht
  kept := fun _ _ _ => rfl

theorem get_connToken_touch (hk : kind k = some 'a') (s : KillState) (c c' : List Char) :
    ((s.touch k c).redis (connToken c')).get = (s.redis (connToken c')).get ∨
      c' = c ∧ ((s.touch k c).redis (connToken c')).get = none := by
  have hentry := touch_entry hk s c (connToken c')
  rw [if_neg (ne_of_kind (by simp)), if_neg (ne_of_kind (by rw [hk]; simp))] at hentry
  have hget : ((s.touch k c).redis (connToken c')).get = ((s.dropToken c).redis (connToken c')).get :=
    congrArg (Option.map Prod.fst) hentry
  rw [hget]
  by_cases hd : Dropped s.redis c (connToken c')
  · have hnone := (dropToken_entry s c (connToken c')).1 hd
    obtain ⟨token, _, _, h | h⟩ := hd
    · exact absurd h (ne_of_kind (by simp))
    · exact Or.inr ⟨connToken_inj.mp h, congrArg (Option.map Prod.fst) hnone⟩
  · exact Or.inl (congrArg (Option.map Prod.fst) ((dropToken_entry s c (connToken c')).2 hd))

theorem gone_cons (hk : kind k = some 'a') (s : KillState) (c : List Char) (ts : List Target) (q : List Char) :
    Gone s.redis ((k, c) :: ts) q ↔ (q = k ∨ Dropped s.redis c q) ∨ Gone (s.touch k c).redis ts q := by
  unfold Gone
  constructor
  · rintro ⟨t, ht, hq⟩
    rcases List.mem_cons.mp ht with rfl | ht
    · exact Or.inl hq
    · rcases hq with hq | ⟨token, hne, hget, hq⟩
      · exact Or.inr ⟨t, ht, Or.inl hq⟩
      · rcases get_connToken_touch hk s c t.2 with hsame | ⟨hc, _⟩
        · exact Or.inr ⟨t, ht, Or.inr ⟨token, hne, hsame.trans hget, hq⟩⟩
        · rw [hc] at hget hq
          exact Or.inl (Or.inr ⟨token, hne, hget, hq⟩)
  · rintro (hq | ⟨t, ht, hq⟩)
    · exact ⟨(k, c), List.mem_cons_self .., hq⟩
    · refine ⟨t, List.mem_cons_of_mem _ ht, ?_⟩
      rcases hq with hq | ⟨token, hne, hget, hq⟩
      · exact Or.inl hq
      · rcases get_connToken_touch hk s c t.2 with hsame | ⟨_, hnone⟩
        · exact Or.inr ⟨token, hne, hsame.symm.trans hget, hq⟩
        · rw [hnone] at hget
          cases hget

theorem Gone.kind_ne {redis : List Char → Key (List Char)} {ts : List Target} (h : Gone redis ts q)
    (hts : ∀ t ∈ ts, kind t.1 = some 'a') : kind q ≠ some 'k' := by
  obtain ⟨t, ht, rfl | ⟨token, _, _, rfl | rfl⟩⟩ := h
  · rw [hts t ht]
    simp
  · simp
  · simp

theorem killed_cons (hk : kind k = some 'a') {redis : List Char → Key (List Char)} {ts : List Target}
    (hts : ∀ t ∈ ts, kind t.1 = some 'a') (h : Killed (s.touch k c).redis s.clock redis ts) :
    Killed s.redis s.clock redis ((k, c) :: ts) where
  flag := by
    rintro q ⟨t, ht, hq⟩
    by_cases hrest : ∃ t ∈ ts, q = killFlag t.2
    · exact h.flag q hrest
    · have hqc : q = killFlag c := by
        rcases List.mem_cons.mp ht with rfl | ht
        · exact hq
        · exact absurd ⟨t, ht, hq⟩ hrest
      have hgone : ¬ Gone (s.touch k c).redis ts q := by
        intro hg
        refine hg.kind_ne hts ?_
        rw [hqc]
        simp
      rw [h.kept q hrest hgone, touch_entry hk, if_pos hqc]
  gone := by
    intro q hflag hq
    have hrest : ¬ ∃ t ∈ ts, q = killFlag t.2 := fun ⟨t, ht, h⟩ => hflag ⟨t, List.mem_cons_of_mem _ ht, h⟩
    have hqc : ¬ q = killFlag c := fun h => hflag ⟨(k, c), List.mem_cons_self .., h⟩
    by_cases hg : Gone (s.touch k c).redis ts q
    · exact h.gone q hrest hg
    · rw [h.kept q hrest hg, touch_entry hk, if_neg hqc]
      rcases (gone_cons hk s c ts q).mp hq with (hqk | hd) | hg'
      · exact if_pos hqk
      · split_ifs
        · rfl
        · exact (dropToken_entry s c q).1 hd
      · exact absurd hg' hg
  kept := by
    intro q hflag hq
    have hrest : ¬ ∃ t ∈ ts, q = killFlag t.2 := fun ⟨t, ht, h⟩ => hflag ⟨t, List.mem_cons_of_mem _ ht, h⟩
    have hqc : ¬ q = killFlag c := fun h => hflag ⟨(k, c), List.mem_cons_self .., h⟩
    rw [gone_cons hk, not_or, not_or] at hq
    obtain ⟨⟨hqk, hd⟩, hg⟩ := hq
    rw [h.kept q hrest hg, touch_entry hk, if_neg hqc, if_neg hqk]
    exact (dropToken_entry s c q).2 hd

theorem Killed.entry_eq {redis redis' : List Char → Key (List Char)} {ts ts' : List Target}
    (h : Killed s.redis s.clock redis ts) (h' : Killed s.redis s.clock redis' ts') (hts : ∀ t, t ∈ ts ↔ t ∈ ts')
    (q : List Char) : (redis q).entry = (redis' q).entry := by
  have hflag : (∃ t ∈ ts, q = killFlag t.2) ↔ ∃ t ∈ ts', q = killFlag t.2 := by simp only [hts]
  have hgone : Gone s.redis ts q ↔ Gone s.redis ts' q := by
    unfold Gone
    simp only [hts]
  by_cases hf : ∃ t ∈ ts, q = killFlag t.2
  · rw [h.flag q hf, h'.flag q (hflag.mp hf)]
  · have hf' := fun hx => hf (hflag.mpr hx)
    by_cases hg : Gone s.redis ts q
    · rw [h.gone q hf hg, h'.gone q hf' (hgone.mp hg)]
    · rw [h.kept q hf hg, h'.kept q hf' fun hx => hg (hgone.mpr hx)]

/-! ### What the routes leave -/

/-- The connections that the loop works on. -/
def targets (ks : List (List Char)) : List Target := ks.filterMap fun k => (keyParts k).map fun parts => (k, parts.2)

theorem mem_targets {ks : List (List Char)} {t : Target} :
    t ∈ targets ks ↔ t.1 ∈ ks ∧ ∃ i, keyParts t.1 = some (i, t.2) := by
  obtain ⟨k, c⟩ := t
  unfold targets
  simp only [List.mem_filterMap, Option.map_eq_some_iff, Prod.mk.injEq, Prod.exists]
  constructor
  · rintro ⟨k', hk, i, c', hparts, rfl, rfl⟩
    exact ⟨hk, i, hparts⟩
  · rintro ⟨hk, i, hparts⟩
    exact ⟨k, hk, i, c, hparts, rfl, rfl⟩

theorem targets_kind {ks : List (List Char)} (hks : ∀ k ∈ ks, kind k = some 'a') :
    ∀ t ∈ targets ks, kind t.1 = some 'a' := fun t ht => hks t.1 (mem_targets.mp ht).1

theorem killKeys_spec {ks : List (List Char)} (hall : AllParse ks) (hks : ∀ k ∈ ks, kind k = some 'a') (s : KillState) :
    Killed s.redis s.clock (s.killKeys ks).1.redis (targets ks) ∧
      ∀ u, u ∈ (s.killKeys ks).1.sent ↔ u ∈ s.sent ∨ ∃ t ∈ targets ks, Uuid.parse t.2 = some u := by
  induction ks generalizing s with
  | nil =>
    refine ⟨killed_nil _ _, fun u => ⟨Or.inl, ?_⟩⟩
    rintro (h | ⟨t, ht, _⟩)
    · exact h
    · cases ht
  | cons k ks ih =>
    have hrest : ∀ k ∈ ks, kind k = some 'a' := fun k' hk => hks k' (List.mem_cons_of_mem k hk)
    unfold KillState.killKeys targets
    rw [List.filterMap_cons]
    rcases hk : keyParts k with _ | ⟨i, c⟩
    · exact ih (allParse_cons hall) hrest s
    · obtain ⟨cid, hc⟩ := Option.ne_none_iff_exists'.mp (hall k (List.mem_cons_self ..) i c hk)
      obtain ⟨hkilled, hsent⟩ := ih (allParse_cons hall) hrest ((s.touch k c).execute cid)
      have hclock : ((s.touch k c).execute cid).clock = s.clock := touch_clock s k c
      rw [hclock] at hkilled
      simp only [hc]
      refine ⟨killed_cons (hks k (List.mem_cons_self ..)) (targets_kind hrest) hkilled, ?_⟩
      intro u
      rw [hsent u]
      unfold execute
      simp only [touch_sent, List.mem_append, List.mem_cons, List.not_mem_nil, or_false, Option.map_some]
      constructor
      · rintro ((h | rfl) | ⟨t, ht, hu⟩)
        · exact Or.inl h
        · exact Or.inr ⟨(k, c), Or.inl rfl, hc⟩
        · exact Or.inr ⟨t, Or.inr ht, hu⟩
      · rintro (h | ⟨t, rfl | ht, hu⟩)
        · exact Or.inl (Or.inl h)
        · rw [hc] at hu
          cases hu
          exact Or.inl (Or.inr rfl)
        · exact Or.inr ⟨t, ht, hu⟩

theorem killKeys_rows (ks : List (List Char)) (s : KillState) : (s.killKeys ks).1.rows = s.rows := by
  induction ks generalizing s with
  | nil => rfl
  | cons k ks ih =>
    unfold KillState.killKeys
    split
    · exact ih s
    · split
      · exact touch_rows ..
      · exact (ih _).trans (touch_rows ..)

theorem killRow_killRow (reason : String) (row : ConnectionHistory) :
    killRow reason (killRow reason row) = killRow reason row := by
  unfold killRow killUpdate
  by_cases h : row.status = "active"
  · rw [if_pos h]
    exact congrArg (Option.getD · _) (if_neg (by decide : ¬ "killed" = "active"))
  · rw [if_neg h]
    exact congrArg (Option.getD · _) (if_neg h)

theorem killSession_rows (s : KillState) (i : List Char) (cid u : Uuid) (hs : s.sent = []) :
    (s.killSession i cid).rows u = if u = cid then (s.rows u).map (killRow "admin_kill") else s.rows u := by
  unfold KillState.killSession execute commit
  simp only [touch_rows, touch_sent, hs, List.nil_append, List.mem_singleton]

theorem killEach_spec (i : List Char) (cids : List Uuid) (s : KillState) (hs : s.sent = []) :
    Killed s.redis s.clock (s.killEach i cids).redis (cids.map fun cid => (activeSession i cid.str, cid.str)) ∧
      ∀ u, (s.killEach i cids).rows u = if u ∈ cids then (s.rows u).map (killRow "admin_kill") else s.rows u := by
  induction cids generalizing s with
  | nil => exact ⟨killed_nil _ _, fun u => rfl⟩
  | cons cid cids ih =>
    obtain ⟨hkilled, hrows⟩ := ih (s.killSession i cid) rfl
    have hclock : (s.killSession i cid).clock = s.clock := touch_clock s _ _
    rw [hclock] at hkilled
    refine ⟨killed_cons rfl ?_ hkilled, ?_⟩
    · intro t ht
      obtain ⟨cid', _, rfl⟩ := List.mem_map.mp ht
      rfl
    · intro u
      refine (hrows u).trans ?_
      rw [killSession_rows s i cid u hs]
      by_cases hu : u = cid
      · subst hu
        rw [if_pos rfl, if_pos (List.mem_cons_self ..), Option.map_map]
        split_ifs
        · congr 1
          funext row
          exact killRow_killRow "admin_kill" row
        · rfl
      · rw [if_neg hu]
        simp only [List.mem_cons, hu, false_or]

end KillState

/-! ## The two routes on the connections of some instances -/

/-- A connection that `ConnectionTracker.start` has recorded. -/
structure Connection where
  instanceId : List Char
  id : Uuid

def Connection.key (c : Connection) : List Char := activeSession c.instanceId c.id.str

/-- SCAN answers the active keys of the connections, in any order and maybe more than once. -/
structure Scanned (s : KillState) (conns : List Connection) (activeKeys : List (List Char)) : Prop where
  keys : ∀ k, k ∈ activeKeys ↔ ∃ c ∈ conns, k = c.key
  held : ∀ c ∈ conns, (s.redis c.key).get ≠ none
  /-- No transaction is open. -/
  unsent : s.sent = []

/-- The connection is active: its row says so, and nobody has set its kill flag. -/
structure Connection.Active (s : KillState) (c : Connection) : Prop where
  row : ∃ row, s.rows c.id = some row ∧ row.status = "active"
  unflagged : (s.redis (killFlag c.id.str)).entry = none

/-- The same keys and the same rows, up to the reason of a disconnect. -/
def SameStores (s s' : KillState) : Prop :=
  (∀ q, (s.redis q).entry = (s'.redis q).entry) ∧
    ∀ u, (s.rows u).map (fun row => { row with disconnectReason := none }) =
      (s'.rows u).map fun row => { row with disconnectReason := none }

/-- The connection belongs to the instance of the admin service, and its key splits into its parts. -/
def Connection.OwnedBy (adminId : List Char) (c : Connection) : Prop :=
  c.instanceId = adminId ∧ (keyParts c.key).map Prod.snd = some c.id.str

section

variable {s : KillState} {conns : List Connection} {activeKeys : List (List Char)} {adminId : List Char}

theorem Scanned.kind (h : Scanned s conns activeKeys) : ∀ k ∈ activeKeys, kind k = some 'a' := by
  intro k hk
  obtain ⟨c, _, rfl⟩ := (h.keys k).mp hk
  rfl

theorem killKeys_stores (h : Scanned s conns activeKeys) (hall : AllParse activeKeys) :
    KillState.Killed s.redis s.clock (s.killKeys activeKeys).1.redis (KillState.targets activeKeys) ∧
      ∀ u, ((s.killKeys activeKeys).1.commit "admin_kill_all").rows u =
        if ∃ t ∈ KillState.targets activeKeys, Uuid.parse t.2 = some u
          then (s.rows u).map (KillState.killRow "admin_kill_all") else s.rows u := by
  obtain ⟨hkilled, hsent⟩ := KillState.killKeys_spec hall h.kind s
  refine ⟨hkilled, ?_⟩
  intro u
  unfold KillState.commit
  simp only [hsent, h.unsent, List.not_mem_nil, false_or, KillState.killKeys_rows]

theorem killAll_stores (h : Scanned s conns activeKeys) (hall : AllParse activeKeys) :
    KillState.Killed s.redis s.clock (runRoute (killAllSessions activeKeys) s none).2.redis
        (KillState.targets activeKeys) ∧
      ∀ u, (runRoute (killAllSessions activeKeys) s none).2.rows u =
        if ∃ t ∈ KillState.targets activeKeys, Uuid.parse t.2 = some u
          then (s.rows u).map (KillState.killRow "admin_kill_all") else s.rows u := by
  obtain ⟨n, hmakes⟩ := killAll_makes hall s
  rw [runRoute_quiet hmakes]
  exact killKeys_stores h hall

theorem killAll_rows_of_error (hall : ¬ AllParse activeKeys) :
    (runRoute (killAllSessions activeKeys) s none).2.rows = s.rows := by
  obtain ⟨calls, e, hmakes⟩ := killAll_makes_error hall s
  rw [runRoute_quiet hmakes]
  exact KillState.killKeys_rows activeKeys s

theorem killEach_stores (adminId : List Char) (h : Scanned s conns activeKeys) :
    KillState.Killed s.redis s.clock (runRoute (killEach adminId (conns.map Connection.id)) s none).2.redis
        (conns.map fun c => (activeSession adminId c.id.str, c.id.str)) ∧
      ∀ u, (runRoute (killEach adminId (conns.map Connection.id)) s none).2.rows u =
        if u ∈ conns.map Connection.id then (s.rows u).map (KillState.killRow "admin_kill") else s.rows u := by
  obtain ⟨calls, hmakes⟩ := killEach_makes adminId (conns.map Connection.id) s
  rw [runRoute_quiet hmakes]
  have hspec := KillState.killEach_spec adminId (conns.map Connection.id) s h.unsent
  rw [List.map_map] at hspec
  exact hspec

theorem owned_parts {c : Connection} (h : c.OwnedBy adminId) : ∃ i, keyParts c.key = some (i, c.id.str) := by
  obtain ⟨⟨i, part⟩, hparts, hpart⟩ := Option.map_eq_some_iff.mp h.2
  exact ⟨i, by rw [hparts, ← hpart]⟩

theorem allParse_of_parts (h : Scanned s conns activeKeys)
    (hparts : ∀ c ∈ conns, ∃ i, keyParts c.key = some (i, c.id.str)) : AllParse activeKeys := by
  intro k hk i part hsplit
  obtain ⟨c, hc, rfl⟩ := (h.keys k).mp hk
  obtain ⟨i', hi⟩ := hparts c hc
  rw [hi] at hsplit
  cases hsplit
  rw [Uuid.parse_str]
  nofun

theorem mem_targets_of_parts (h : Scanned s conns activeKeys)
    (hparts : ∀ c ∈ conns, ∃ i, keyParts c.key = some (i, c.id.str)) (t : KillState.Target) :
    t ∈ KillState.targets activeKeys ↔ ∃ c ∈ conns, t = (c.key, c.id.str) := by
  rw [KillState.mem_targets]
  constructor
  · rintro ⟨hk, i, hsplit⟩
    obtain ⟨c, hc, hkey⟩ := (h.keys t.1).mp hk
    obtain ⟨i', hi⟩ := hparts c hc
    rw [hkey, hi] at hsplit
    exact ⟨c, hc, Prod.ext hkey (Prod.mk.inj (Option.some.inj hsplit)).2.symm⟩
  · rintro ⟨c, hc, rfl⟩
    exact ⟨(h.keys c.key).mpr ⟨c, hc, rfl⟩, hparts c hc⟩

theorem allParse_of_owned (h : Scanned s conns activeKeys) (howned : ∀ c ∈ conns, c.OwnedBy adminId) :
    AllParse activeKeys := allParse_of_parts h fun c hc => owned_parts (howned c hc)

theorem mem_targets_of_owned (h : Scanned s conns activeKeys) (howned : ∀ c ∈ conns, c.OwnedBy adminId)
    (t : KillState.Target) : t ∈ KillState.targets activeKeys ↔
      t ∈ conns.map fun c => (activeSession adminId c.id.str, c.id.str) := by
  have hkey : ∀ c ∈ conns, c.key = activeSession adminId c.id.str := by
    intro c hc
    rw [← (howned c hc).1]
    rfl
  rw [mem_targets_of_parts h fun c hc => owned_parts (howned c hc), List.mem_map]
  constructor
  · rintro ⟨c, hc, rfl⟩
    exact ⟨c, hc, by rw [hkey c hc]⟩
  · rintro ⟨c, hc, rfl⟩
    exact ⟨c, hc, by rw [hkey c hc]⟩

theorem forget_killRow (reason reason' : String) (row : ConnectionHistory) :
    ({ KillState.killRow reason row with disconnectReason := none } : ConnectionHistory) =
      { KillState.killRow reason' row with disconnectReason := none } := by
  unfold KillState.killRow killUpdate
  split_ifs <;> rfl

theorem same_of_owned (h : Scanned s conns activeKeys) (howned : ∀ c ∈ conns, c.OwnedBy adminId) :
    SameStores (runRoute (killAllSessions activeKeys) s none).2
      (runRoute (killEach adminId (conns.map Connection.id)) s none).2 := by
  obtain ⟨hkeys, hrows⟩ := killAll_stores h (allParse_of_owned h howned)
  obtain ⟨hkeys', hrows'⟩ := killEach_stores adminId h
  have hmem := mem_targets_of_owned h howned
  refine ⟨hkeys.entry_eq hkeys' hmem, ?_⟩
  intro u
  have hu : (∃ t ∈ KillState.targets activeKeys, Uuid.parse t.2 = some u) ↔ u ∈ conns.map Connection.id := by
    simp only [hmem, List.mem_map]
    constructor
    · rintro ⟨_, ⟨c, hc, rfl⟩, hparse⟩
      rw [Uuid.parse_str] at hparse
      exact ⟨c, hc, Option.some.inj hparse⟩
    · rintro ⟨c, hc, rfl⟩
      exact ⟨_, ⟨c, hc, rfl⟩, Uuid.parse_str c.id⟩
  rw [hrows, hrows']
  simp only [hu]
  split_ifs
  · rw [Option.map_map, Option.map_map]
    congr 1
    funext row
    exact forget_killRow _ _ row
  · rfl

theorem instance_of_same (h : Scanned s conns activeKeys) (hall : AllParse activeKeys)
    (hsame : SameStores (runRoute (killAllSessions activeKeys) s none).2
      (runRoute (killEach adminId (conns.map Connection.id)) s none).2) {c : Connection} (hc : c ∈ conns) :
    c.instanceId = adminId := by
  obtain ⟨hkeys, _⟩ := killAll_stores h hall
  obtain ⟨hkeys', _⟩ := killEach_stores adminId h
  have hflag : ∀ ts : List KillState.Target, ¬ ∃ t ∈ ts, c.key = killFlag t.2 := by
    rintro ts ⟨t, _, ht⟩
    exact absurd ht (ne_of_kind (by simp [Connection.key]))
  have hgone : KillState.Gone s.redis (KillState.targets activeKeys) c.key := by
    obtain ⟨⟨i, part⟩, hparts⟩ := keyParts_isSome c.instanceId (Uuid.colon_notMem_str c.id)
    exact ⟨(c.key, part), KillState.mem_targets.mpr ⟨(h.keys _).mpr ⟨c, hc, rfl⟩, i, hparts⟩, Or.inl rfl⟩
  have hnone := (hsame.1 c.key).symm.trans (hkeys.gone c.key (hflag _) hgone)
  by_cases hg : KillState.Gone s.redis (conns.map fun c => (activeSession adminId c.id.str, c.id.str)) c.key
  · obtain ⟨t, ht, hq | ⟨token, _, _, hq | hq⟩⟩ := hg
    · obtain ⟨c', _, rfl⟩ := List.mem_map.mp ht
      exact ((activeSession_inj (Uuid.colon_notMem_str _) (Uuid.colon_notMem_str _)).mp hq).1
    · exact absurd hq (ne_of_kind (by simp [Connection.key]))
    · exact absurd hq (ne_of_kind (by simp [Connection.key]))
  · rw [hkeys'.kept c.key (hflag _) hg] at hnone
    exact absurd (congrArg (Option.map Prod.fst) hnone) (h.held c hc)

theorem parts_of_same (h : Scanned s conns activeKeys) (hall : AllParse activeKeys)
    (hsame : SameStores (runRoute (killAllSessions activeKeys) s none).2
      (runRoute (killEach adminId (conns.map Connection.id)) s none).2) {c : Connection} (hc : c ∈ conns)
    (hactive : c.Active s) : ∃ c' ∈ conns, ∃ i, keyParts c'.key = some (i, c.id.str) := by
  obtain ⟨hkeys, _⟩ := killAll_stores h hall
  obtain ⟨hkeys', _⟩ := killEach_stores adminId h
  have hset := hkeys'.flag (killFlag c.id.str) ⟨_, List.mem_map.mpr ⟨c, hc, rfl⟩, rfl⟩
  rw [← hsame.1] at hset
  by_cases hf : ∃ t ∈ KillState.targets activeKeys, killFlag c.id.str = killFlag t.2
  · obtain ⟨t, ht, hq⟩ := hf
    obtain ⟨hk, i, hparts⟩ := KillState.mem_targets.mp ht
    obtain ⟨c', hc', hkey⟩ := (h.keys t.1).mp hk
    rw [hkey, ← killFlag_inj.mp hq] at hparts
    exact ⟨c', hc', i, hparts⟩
  · have hg : ¬ KillState.Gone s.redis (KillState.targets activeKeys) (killFlag c.id.str) := fun hg =>
      hg.kind_ne (KillState.targets_kind h.kind) (by simp)
    rw [hkeys.kept _ hf hg, hactive.unflagged] at hset
    cases hset

theorem allParse_of_same (h : Scanned s conns activeKeys) (hactive : ∀ c ∈ conns, c.Active s)
    (hsame : SameStores (runRoute (killAllSessions activeKeys) s none).2
      (runRoute (killEach adminId (conns.map Connection.id)) s none).2) : AllParse activeKeys := by
  by_contra hall
  have hkeys : ¬ ∀ k, k ∉ activeKeys := fun hno => hall fun k hk => absurd hk (hno k)
  obtain ⟨k, hk⟩ := not_forall_not.mp hkeys
  obtain ⟨c, hc, _⟩ := (h.keys k).mp hk
  obtain ⟨row, hrow, hstatus⟩ := (hactive c hc).row
  have hsame := hsame.2 c.id
  rw [killAll_rows_of_error hall, (killEach_stores adminId h).2, if_pos (List.mem_map.mpr ⟨c, hc, rfl⟩), hrow] at hsame
  have hkilled := congrArg ConnectionHistory.status (Option.some.inj hsame)
  unfold KillState.killRow killUpdate at hkilled
  rw [if_pos hstatus] at hkilled
  exact absurd (hstatus.symm.trans hkilled) (by decide : ¬ "active" = "killed")

/-- The two routes leave the same stores exactly when every active connection belongs to the
instance of the admin service and is named by its key. -/
theorem killAll_same_iff (s : KillState) (conns : List Connection) (activeKeys : List (List Char))
    (adminId : List Char) (h : Scanned s conns activeKeys) :
    ((∀ c ∈ conns, c.OwnedBy adminId) → SameStores (runRoute (killAllSessions activeKeys) s none).2
        (runRoute (killEach adminId (conns.map Connection.id)) s none).2) ∧
      ((∀ c ∈ conns, c.Active s) → SameStores (runRoute (killAllSessions activeKeys) s none).2
          (runRoute (killEach adminId (conns.map Connection.id)) s none).2 →
        ∀ c ∈ conns, c.OwnedBy adminId) := by
  refine ⟨same_of_owned h, ?_⟩
  intro hactive hsame c hc
  have hall := allParse_of_same h hactive hsame
  have hinstance : ∀ c ∈ conns, c.instanceId = adminId := fun c hc => instance_of_same h hall hsame hc
  obtain ⟨c', hc', i, hparts⟩ := parts_of_same h hall hsame hc (hactive c hc)
  refine ⟨hinstance c hc, ?_⟩
  by_cases hcolon : ':' ∈ adminId
  · obtain ⟨a, _, part, _, hsplit⟩ := keyParts_of_colon hcolon
    have hpart : keyParts c'.key = some (a, part) := by
      unfold Connection.key
      rw [hinstance c' hc']
      exact hsplit _
    rw [hparts] at hpart
    cases hpart
    unfold Connection.key
    rw [hinstance c hc, hsplit]
    rfl
  · unfold Connection.key
    rw [hinstance c hc, keyParts_activeSession hcolon (Uuid.colon_notMem_str c.id)]
    rfl

end

/-! ### A connection of another instance -/

def sampleConnection (instanceId : String) : Connection := ⟨instanceId.toList, ⟨List.replicate 32 7, by decide⟩⟩

/-- The stores with that connection alone. -/
def sampleStores (instanceId : String) : KillState where
  redis k := if k = (sampleConnection instanceId).key then ⟨some (['{', '}'], 86400000), 1⟩ else ⟨none, 0⟩
  clock := 0
  rows u := if u = (sampleConnection instanceId).id then some (.started instanceId) else none
  sent := []

theorem sample_scanned (instanceId : String) : Scanned (sampleStores instanceId) [sampleConnection instanceId]
    [(sampleConnection instanceId).key] where
  keys := by
    intro k
    simp
  held := by
    intro c hc
    rw [List.mem_singleton.mp hc]
    unfold sampleStores
    simp [Key.get]
  unsent := rfl

theorem sample_active (instanceId : String) : (sampleConnection instanceId).Active (sampleStores instanceId) where
  row := by
    refine ⟨.started instanceId, ?_, rfl⟩
    simp [sampleStores]
  unflagged := by
    have hne : killFlag (sampleConnection instanceId).id.str ≠ (sampleConnection instanceId).key :=
      ne_of_kind (by simp [Connection.key])
    simp [sampleStores, hne]

theorem active_key_left :
    (∀ c ∈ [sampleConnection "relay-1"], c.Active (sampleStores "relay-1")) ∧
      ¬ SameStores (runRoute (killAllSessions [(sampleConnection "relay-1").key]) (sampleStores "relay-1") none).2
        (runRoute (killEach "node-1".toList [(sampleConnection "relay-1").id]) (sampleStores "relay-1") none).2 := by
  constructor
  · intro c hc
    rw [List.mem_singleton.mp hc]
    exact sample_active "relay-1"
  · intro h
    have hkey := h.1 (sampleConnection "relay-1").key
    revert hkey
    decide

theorem same_stores_of_own_instance :
    SameStores (runRoute (killAllSessions [(sampleConnection "node-1").key]) (sampleStores "node-1") none).2
      (runRoute (killEach "node-1".toList [(sampleConnection "node-1").id]) (sampleStores "node-1") none).2 := by
  apply (killAll_same_iff (sampleStores "node-1") [sampleConnection "node-1"] [(sampleConnection "node-1").key]
    "node-1".toList (sample_scanned "node-1")).1
  intro c hc
  rw [List.mem_singleton.mp hc]
  exact ⟨rfl, rfl⟩

end RdpProxy.Admin
