import RdpProxy.Admin.KillAll

/-!
# Stopping halfway

`kill_all_sessions` where an id does not parse, or where one of its calls fails.
-/

open Faulty RedisKey

namespace RdpProxy.Admin

open Tracker

/-! ## What the keys say -/

/-- The parts of the key are what it was built from. -/
def Connection.ParsedBack (c : Connection) : Prop := keyParts c.key = some (c.instanceId, c.id.str)

theorem parsedBack_iff (c : Connection) : c.ParsedBack ↔ ':' ∉ c.instanceId := by
  unfold Connection.ParsedBack Connection.key
  constructor
  · intro h hcolon
    obtain ⟨a, b, part, hsplit, hparts⟩ := keyParts_of_colon hcolon
    rw [hparts] at h
    have hlength := congrArg List.length (Prod.mk.inj (Option.some.inj h)).1
    rw [hsplit] at hlength
    simp only [List.length_append, List.length_cons] at hlength
    omega
  · intro h
    exact keyParts_activeSession h (Uuid.colon_notMem_str c.id)

/-! ## All or nothing -/

/-- All that the route has to do about the connection is done. -/
structure Connection.Finished (s s' : KillState) (c : Connection) : Prop where
  flag : (s'.redis (killFlag c.id.str)).entry = some (['1'], s.clock + 1000 * killTtl)
  key : (s'.redis c.key).entry = none
  token : ∀ q, KillState.Dropped s.redis c.id.str q → (s'.redis q).entry = none
  row : s'.rows c.id = (s.rows c.id).map (KillState.killRow "admin_kill_all")

structure Unchanged (s s' : KillState) : Prop where
  redis : ∀ q, (s'.redis q).entry = (s.redis q).entry
  rows : s'.rows = s.rows

def AllOrNothing (s : KillState) (conns : List Connection) (s' : KillState) : Prop :=
  (∀ c ∈ conns, c.Finished s s') ∨ Unchanged s s'

/-- The call comes before anything has changed, and changes nothing itself. -/
def BeforeChanges (activeKeys : List (List Char)) (f : Fault KillCall KillError) : Prop :=
  f.call = .scan ∨ f.call = .getDbSession ∨ activeKeys = [] ∨
    f.applied = false ∧ ∃ k i c, activeKeys.head? = some k ∧ keyParts k = some (i, c) ∧ f.call = .setex (killFlag c)

/-- The fault is at no call of the route, or before its changes, or at a COMMIT that takes effect. -/
def Harmless (s : KillState) (activeKeys : List (List Char)) (fault : Option (Fault KillCall KillError)) : Prop :=
  ∀ f, fault = some f → f.call ∈ killAllCalls s activeKeys →
    BeforeChanges activeKeys f ∨ f.call = .commit ∧ f.applied = true

section

variable {s : KillState} {conns : List Connection} {activeKeys : List (List Char)}

/-! ## The route with its fault -/

/-- What stands inside the `try`. -/
def killBody (activeKeys : List (List Char)) : KillRoute Nat := do
  let killed ← killKeys activeKeys
  commitKills "admin_kill_all"
  pure killed

theorem ask_makes (c : KillCall) : Makes (ask c () : KillRoute Unit) s [c] (.ok ()) s := Makes.call c _

theorem exec_killAll {w : World KillCall KillError Empty KillState} (ho : w.others = [])
    (hf : ∀ f, w.fault = some f → f.call ≠ .scan ∧ f.call ≠ .getDbSession) :
    exec (killAllSessions activeKeys) w = exec (closing (killBody activeKeys)) w := by
  unfold killAllSessions
  rw [(ask_makes .scan).exec_bind _ rfl ho fun f h => by simpa using (hf f h).1,
    (ask_makes .getDbSession).exec_bind _ rfl ho fun f h => by simpa using (hf f h).2]
  rfl

theorem run_of_early {f : Fault KillCall KillError} (hf : f.call = .scan ∨ f.call = .getDbSession) :
    (runRoute (killAllSessions activeKeys) s (some f)).2 = s := by
  unfold runRoute killAllSessions
  by_cases hscan : f.call = .scan
  · have hcall := exec_call_hit (fun s => ((), s)) (w := ⟨s, [], some f⟩) (M := Empty) rfl rfl
    rw [hscan] at hcall
    unfold ask
    rw [exec_bind, hcall]
    simp
  · have hdb := hf.resolve_left hscan
    have hcall := exec_call_hit (fun s => ((), s)) (w := ⟨s, [], some f⟩) (M := Empty) rfl rfl
    rw [hdb] at hcall
    rw [(ask_makes .scan).exec_bind _ rfl rfl fun g hg => by
      cases hg
      simpa using hscan]
    unfold ask
    rw [exec_bind, hcall]
    simp

theorem mem_killKeys_calls (ks : List (List Char)) (s : KillState) :
    ∀ c ∈ (s.killKeys ks).2, c ≠ .scan ∧ c ≠ .getDbSession ∧ c ≠ .commit := by
  have htouch : ∀ (s : KillState) (k c : List Char), ∀ call ∈ s.touchCalls k c,
      call ≠ .scan ∧ call ≠ .getDbSession ∧ call ≠ .commit := by
    intro s k c call hcall
    unfold KillState.touchCalls KillState.dropCalls at hcall
    rcases hget : (((s.setKill c).delete k).redis (connToken c)).get with _ | token
    · rw [hget] at hcall
      simp only [List.mem_cons, List.not_mem_nil, or_false] at hcall
      rcases hcall with rfl | rfl | rfl <;> simp
    · rw [hget] at hcall
      simp only [List.mem_cons] at hcall
      split_ifs at hcall
      · rcases hcall with rfl | rfl | rfl | hcall <;> simp at *
      · rcases hcall with rfl | rfl | rfl | hcall
        · simp
        · simp
        · simp
        · simp only [List.mem_cons, List.not_mem_nil, or_false] at hcall
          rcases hcall with rfl | rfl <;> simp
  induction ks generalizing s with
  | nil => nofun
  | cons k ks ih =>
    unfold KillState.killKeys
    split
    · exact ih s
    · split
      · exact htouch s k _
      · intro call hcall
        rcases List.mem_append.mp hcall with hcall | hcall
        · exact htouch s k _ call hcall
        · rcases List.mem_cons.mp hcall with rfl | hcall
          · simp
          · exact ih _ call hcall

theorem run_of_commit {f : Fault KillCall KillError} (hf : f.call = .commit) (hall : AllParse activeKeys) :
    (runRoute (killAllSessions activeKeys) s (some f)).2 =
      (if f.applied then (s.killKeys activeKeys).1.commit "admin_kill_all" else (s.killKeys activeKeys).1).rollback := by
  obtain ⟨r, hloop, hr⟩ := killKeys_makes activeKeys s
  obtain ⟨n, rfl⟩ := hr.mpr hall
  have hmiss : ∀ g, some f = some g → g.call ∉ (s.killKeys activeKeys).2 := by
    rintro g ⟨⟩ hmem
    exact (mem_killKeys_calls activeKeys s _ hmem).2.2 hf
  have hbody : exec (killBody activeKeys) ⟨s, [], some f⟩ = (.error f.error,
      ⟨if f.applied then (s.killKeys activeKeys).1.commit "admin_kill_all" else (s.killKeys activeKeys).1, [], none⟩) := by
    have hcall := exec_call_hit (fun s => ((), KillState.commit s "admin_kill_all")) (M := Empty)
      (w := ⟨(s.killKeys activeKeys).1, [], some f⟩) rfl rfl
    rw [hf] at hcall
    unfold killBody commitKills
    rw [hloop.exec_bind _ rfl rfl hmiss, exec_bind, hcall]
  unfold runRoute
  rw [exec_killAll rfl (by rintro g ⟨⟩; simp [hf]), exec_closing_error hbody]

theorem run_of_first {f : Fault KillCall KillError} {k i c : List Char} {ks : List (List Char)}
    (hk : keyParts k = some (i, c)) (hf : f.call = .setex (killFlag c)) :
    (runRoute (killAllSessions (k :: ks)) s (some f)).2 = (if f.applied then s.setKill c else s).rollback := by
  have hbody : exec (killBody (k :: ks)) ⟨s, [], some f⟩ =
      (.error f.error, ⟨if f.applied then s.setKill c else s, [], none⟩) := by
    have hcall := exec_call_hit (fun s => ((), KillState.setKill s c)) (M := Empty) (w := ⟨s, [], some f⟩) rfl rfl
    rw [hf] at hcall
    unfold killBody killKeys killKey setKill
    rw [hk]
    rw [exec_bind, exec_bind, exec_bind, hcall]
  unfold runRoute
  rw [exec_killAll rfl (by rintro g ⟨⟩; simp [hf]), exec_closing_error hbody]

/-! ## What a stop leaves behind -/

/-- Nothing is committed, and the kill flag of `c` is set. -/
def Marked (rows : Uuid → Option ConnectionHistory) (c : List Char) (s : KillState) : Prop :=
  s.rows = rows ∧ (s.redis (killFlag c)).entry ≠ none

variable {rows : Uuid → Option ConnectionHistory} {c : List Char}

theorem stable_of_nobody (P : KillState → Prop) : Stable Empty P := nofun

theorem setKill_marked (c' : List Char) : Preserves (Marked rows c) (setKill c') := by
  refine Preserves.call (stable_of_nobody _) ?_
  rintro s ⟨hrows, hflag⟩
  refine ⟨hrows, ?_⟩
  show ((s.setKill c').redis (killFlag c)).entry ≠ none
  rw [KillState.setKill_redis]
  split_ifs
  · rw [entry_setex]
    simp
  · exact hflag

theorem delete_marked {k : List Char} (hk : kind k ≠ some 'k') : Preserves (Marked rows c) (delete k) := by
  refine Preserves.call (stable_of_nobody _) ?_
  rintro s ⟨hrows, hflag⟩
  refine ⟨hrows, ?_⟩
  show ((s.delete k).redis (killFlag c)).entry ≠ none
  rw [KillState.delete_redis, if_neg (ne_of_kind (Ne.symm hk))]
  exact hflag

theorem dropToken_marked (c' : List Char) : Preserves (Marked rows c) (dropToken c') := by
  unfold dropToken
  refine Preserves.bind (Preserves.call (stable_of_nobody _) fun _ => id) ?_
  rintro (_ | token)
  · exact Preserves.pure ()
  · simp only
    split_ifs
    · exact Preserves.pure ()
    · exact (delete_marked (by simp)).bind fun _ => delete_marked (by simp)

theorem killRest_marked {k : List Char} (hk : kind k = some 'a') (c' : List Char) :
    Preserves (Marked rows c) (do
      delete k
      dropToken c'
      match Uuid.parse c' with
      | some cid => executeKill cid
      | none => throw .badlyFormed) := by
  refine (delete_marked (by simp [hk])).bind fun _ => (dropToken_marked c').bind fun _ => ?_
  rcases Uuid.parse c' with _ | cid
  · exact Preserves.throw _
  · exact Preserves.call (stable_of_nobody _) fun _ => id

theorem killKeys_marked {ks : List (List Char)} (hks : ∀ k ∈ ks, kind k = some 'a') :
    Preserves (Marked rows c) (killKeys ks) := by
  induction ks with
  | nil => exact Preserves.pure 0
  | cons k ks ih =>
    have hrest := ih fun k' hk => hks k' (List.mem_cons_of_mem k hk)
    unfold killKeys
    rcases keyParts k with _ | ⟨i, c'⟩
    · exact hrest
    · have hturn : Preserves (Marked rows c) (killKey k c') :=
        (setKill_marked c').bind fun _ => killRest_marked (hks k (List.mem_cons_self ..)) c'
      exact Preserves.bind hturn fun _ => Preserves.bind hrest fun n => Preserves.pure (n + 1)

/-- Once the first SETEX has taken effect, no fault takes it back. -/
theorem killKeys_leaves_mark {f : Fault KillCall KillError} {k i : List Char} {ks : List (List Char)}
    (hks : ∀ k' ∈ k :: ks, kind k' = some 'a') (hk : keyParts k = some (i, c))
    (hf : f.call = .setex (killFlag c) → f.applied = true) :
    Triple (fun w => w.state.rows = rows ∧ w.fault = some f) (killKeys (k :: ks)) (fun _ w => Marked rows c w.state)
      fun _ w => Marked rows c w.state := by
  have hset : ∀ s : KillState, s.rows = rows → Marked rows c (s.setKill c) := by
    intro s hs
    refine ⟨hs, ?_⟩
    rw [KillState.setKill_redis, if_pos rfl, entry_setex]
    simp
  have hfirst : Triple (fun w => w.state.rows = rows ∧ w.fault = some f) (setKill c)
      (fun _ w => Marked rows c w.state) fun _ w => Marked rows c w.state := by
    rintro w ⟨hrows, hw⟩
    have hturn : w.turn.state.rows = rows := Stable.turn (stable_of_nobody fun s => s.rows = rows) hrows
    unfold setKill
    rcases exec_call_cases (.setex (killFlag c)) (fun s => ((), KillState.setKill s c)) w with
      ⟨g, hg, hcall, hrun⟩ | ⟨_, hrun⟩
    · rw [hw] at hg
      cases hg
      rw [hrun, hf hcall]
      exact hset _ hturn
    · rw [hrun]
      exact hset _ hturn
  have hkind := hks k (List.mem_cons_self ..)
  unfold killKeys
  rw [hk]
  have hturn := hfirst.bind fun _ => killRest_marked hkind c
  exact hturn.bind fun _ => Preserves.bind (killKeys_marked fun k' hk' => hks k' (List.mem_cons_of_mem k hk'))
    fun n => Preserves.pure (n + 1)

theorem run_of_loop {f : Fault KillCall KillError} {k i : List Char} {ks : List (List Char)}
    (hks : ∀ k' ∈ k :: ks, kind k' = some 'a') (hk : keyParts k = some (i, c))
    (hmem : f.call ∈ (s.killKeys (k :: ks)).2) (hf : f.call = .setex (killFlag c) → f.applied = true) :
    Marked s.rows c (runRoute (killAllSessions (k :: ks)) s (some f)).2 := by
  obtain ⟨r, hloop, _⟩ := killKeys_makes (k :: ks) s
  obtain ⟨s', hrun⟩ := hloop.hit ⟨s, [], some f⟩ f rfl rfl rfl hmem
  have hmark := killKeys_leaves_mark hks hk hf ⟨s, [], some f⟩ ⟨rfl, rfl⟩
  rw [hrun] at hmark
  have hbody : exec (killBody (k :: ks)) ⟨s, [], some f⟩ = (.error f.error, ⟨s', [], none⟩) := by
    unfold killBody
    rw [exec_bind, hrun]
  have hcalls := mem_killKeys_calls (k :: ks) s f.call hmem
  unfold runRoute
  rw [exec_killAll rfl (by rintro g ⟨⟩; exact ⟨hcalls.1, hcalls.2.1⟩), exec_closing_error hbody]
  exact hmark

/-! ## All or nothing, and when -/

theorem Unchanged.refl (s : KillState) : Unchanged s s := ⟨fun _ => rfl, rfl⟩

theorem Scanned.rollback (h : Scanned s conns activeKeys) : s.rollback = s := by
  unfold KillState.rollback
  rw [← h.unsent]

theorem Marked.not_unchanged {s' : KillState} (h : Marked s.rows c s') (hflag : (s.redis (killFlag c)).entry = none) :
    ¬ Unchanged s s' := by
  intro hsame
  exact h.2 ((hsame.redis _).trans hflag)

theorem Connection.Active.not_finished {s' : KillState} {conn : Connection} (h : conn.Active s) (hrows : s'.rows = s.rows) :
    ¬ conn.Finished s s' := by
  intro hfinished
  obtain ⟨row, hrow, hstatus⟩ := h.row
  have hkilled := hfinished.row
  rw [hrows, hrow] at hkilled
  have hsame := congrArg ConnectionHistory.status (Option.some.inj hkilled)
  unfold KillState.killRow killUpdate at hsame
  rw [if_pos hstatus, hstatus] at hsame
  simp at hsame

theorem parts_of_parsedBack (hparsed : ∀ c ∈ conns, c.ParsedBack) :
    ∀ c ∈ conns, ∃ i, keyParts c.key = some (i, c.id.str) := fun c hc => ⟨c.instanceId, hparsed c hc⟩

theorem all_finished (h : Scanned s conns activeKeys) (hparsed : ∀ c ∈ conns, c.ParsedBack) :
    ∀ c ∈ conns, c.Finished s ((s.killKeys activeKeys).1.commit "admin_kill_all") := by
  intro c hc
  have hparts := parts_of_parsedBack hparsed
  obtain ⟨hkilled, hrows⟩ := killKeys_stores h (allParse_of_parts h hparts)
  have hmem := mem_targets_of_parts h hparts
  have ht := (hmem (c.key, c.id.str)).mpr ⟨c, hc, rfl⟩
  have hflag : ∀ q, kind q ≠ some 'k' → ¬ ∃ t ∈ KillState.targets activeKeys, q = killFlag t.2 := by
    rintro q hq ⟨t, _, rfl⟩
    exact hq (kind_killFlag t.2)
  constructor
  · exact hkilled.flag _ ⟨_, ht, rfl⟩
  · exact hkilled.gone _ (hflag _ (by simp [Connection.key])) ⟨_, ht, Or.inl rfl⟩
  · intro q hq
    refine hkilled.gone q (hflag q ?_) ⟨_, ht, Or.inr hq⟩
    obtain ⟨token, _, _, rfl | rfl⟩ := hq <;> simp
  · rw [hrows c.id, if_pos ⟨_, ht, Uuid.parse_str c.id⟩]

theorem allOrNothing_of_harmless {fault : Option (Fault KillCall KillError)} (h : Scanned s conns activeKeys)
    (hparsed : ∀ c ∈ conns, c.ParsedBack) (hfault : Harmless s activeKeys fault) :
    AllOrNothing s conns (runRoute (killAllSessions activeKeys) s fault).2 := by
  have hall := allParse_of_parts h (parts_of_parsedBack hparsed)
  by_cases hmiss : ∀ f, fault = some f → f.call ∉ killAllCalls s activeKeys
  · obtain ⟨n, hmakes⟩ := killAll_makes hall s
    rw [runRoute_of_makes hmakes hmiss]
    exact Or.inl (all_finished h hparsed)
  · simp only [not_forall, not_not] at hmiss
    obtain ⟨f, rfl, hmem⟩ := hmiss
    rcases hfault f rfl hmem with (hcall | hcall | rfl | ⟨hnot, k, i, c, hhead, hk, hcall⟩) | ⟨hcall, happlied⟩
    · rw [run_of_early (Or.inl hcall)]
      exact Or.inr (Unchanged.refl s)
    · rw [run_of_early (Or.inr hcall)]
      exact Or.inr (Unchanged.refl s)
    · -- With no key there is no connection.
      refine Or.inl fun c hc => ?_
      cases (h.keys c.key).mpr ⟨c, hc, rfl⟩
    · obtain ⟨ks, rfl⟩ := List.head?_eq_some_iff.mp hhead
      rw [run_of_first hk hcall, hnot]
      show AllOrNothing s conns s.rollback
      rw [h.rollback]
      exact Or.inr (Unchanged.refl s)
    · rw [run_of_commit hcall hall, happlied]
      exact Or.inl (all_finished h hparsed)

theorem harmless_of_allOrNothing {fault : Option (Fault KillCall KillError)} (h : Scanned s conns activeKeys)
    (hparsed : ∀ c ∈ conns, c.ParsedBack) (hactive : ∀ c ∈ conns, c.Active s)
    (hwhole : AllOrNothing s conns (runRoute (killAllSessions activeKeys) s fault).2) : Harmless s activeKeys fault := by
  rintro f rfl hmem
  by_contra hharm
  unfold BeforeChanges at hharm
  simp only [not_or, not_and] at hharm
  obtain ⟨⟨hscan, hdb, hkeys, hfirst⟩, hcommit⟩ := hharm
  obtain ⟨k, ks, rfl⟩ := List.exists_cons_of_ne_nil hkeys
  obtain ⟨c, hc, hkey⟩ := (h.keys k).mp (List.mem_cons_self ..)
  have hk : keyParts k = some (c.instanceId, c.id.str) := by
    rw [hkey]
    exact hparsed c hc
  have hmark : Marked s.rows c.id.str (runRoute (killAllSessions (k :: ks)) s (some f)).2 := by
    unfold killAllCalls at hmem
    simp only [List.mem_cons, List.mem_append, List.not_mem_nil, or_false] at hmem
    rcases hmem with hcall | hcall | hcall | hcall
    · exact absurd hcall hscan
    · exact absurd hcall hdb
    · refine run_of_loop h.kind hk hcall ?_
      intro hset
      by_contra hnot
      exact hfirst (Bool.not_eq_true _ ▸ hnot) ⟨k, _, _, rfl, hk, hset⟩
    · rw [run_of_commit hcall (allParse_of_parts h (parts_of_parsedBack hparsed)),
        if_neg (by simpa using hcommit hcall)]
      refine ⟨KillState.killKeys_rows _ s, ?_⟩
      have hflag := (all_finished h hparsed c hc).flag
      show ((s.killKeys (k :: ks)).1.redis (killFlag c.id.str)).entry ≠ none
      rw [show ((s.killKeys (k :: ks)).1.redis (killFlag c.id.str)).entry = _ from hflag]
      simp
  rcases hwhole with hfinished | hsame
  · exact (hactive c hc).not_finished hmark.1 (hfinished c hc)
  · exact hmark.not_unchanged (hactive c hc).unflagged hsame

/-- The keys give back what they were built from and the route does all or nothing, exactly when no
instance id has a colon and no call fails once a flag is set, or a COMMIT that takes effect. -/
theorem killAll_whole_iff (s : KillState) (conns : List Connection) (activeKeys : List (List Char))
    (fault : Option (Fault KillCall KillError)) (h : Scanned s conns activeKeys) :
    ((∀ c ∈ conns, ':' ∉ c.instanceId) → Harmless s activeKeys fault →
        (∀ c ∈ conns, c.ParsedBack) ∧ AllOrNothing s conns (runRoute (killAllSessions activeKeys) s fault).2) ∧
      ((∀ c ∈ conns, c.Active s) →
        (∀ c ∈ conns, c.ParsedBack) ∧ AllOrNothing s conns (runRoute (killAllSessions activeKeys) s fault).2 →
          (∀ c ∈ conns, ':' ∉ c.instanceId) ∧ Harmless s activeKeys fault) := by
  constructor
  · intro hcolon hfault
    have hparsed : ∀ c ∈ conns, c.ParsedBack := fun c hc => (parsedBack_iff c).mpr (hcolon c hc)
    exact ⟨hparsed, allOrNothing_of_harmless h hparsed hfault⟩
  · rintro hactive ⟨hparsed, hwhole⟩
    exact ⟨fun c hc => (parsedBack_iff c).mp (hparsed c hc), harmless_of_allOrNothing h hparsed hactive hwhole⟩

end

/-! ### An instance id with a colon -/

theorem killed_halfway :
    (∀ c ∈ [sampleConnection "dc1:relay-1"], c.Active (sampleStores "dc1:relay-1")) ∧
      ¬ (sampleConnection "dc1:relay-1").ParsedBack ∧
      ¬ AllOrNothing (sampleStores "dc1:relay-1") [sampleConnection "dc1:relay-1"]
        (runRoute (killAllSessions [(sampleConnection "dc1:relay-1").key]) (sampleStores "dc1:relay-1") none).2 := by
  refine ⟨?_, ?_, ?_⟩
  · intro c hc
    rw [List.mem_singleton.mp hc]
    exact sample_active "dc1:relay-1"
  · rw [parsedBack_iff]
    decide
  · rintro (hfinished | hsame)
    · have hrow := (hfinished _ (List.mem_singleton_self _)).row
      revert hrow
      decide
    · have hkey := hsame.redis (sampleConnection "dc1:relay-1").key
      revert hkey
      decide

theorem whole_of_plain_id :
    (∀ c ∈ [sampleConnection "relay-1"], c.ParsedBack) ∧
      AllOrNothing (sampleStores "relay-1") [sampleConnection "relay-1"]
        (runRoute (killAllSessions [(sampleConnection "relay-1").key]) (sampleStores "relay-1")
          (some ⟨.getDbSession, false, .failed⟩)).2 := by
  apply (killAll_whole_iff (sampleStores "relay-1") [sampleConnection "relay-1"] [(sampleConnection "relay-1").key]
    (some ⟨.getDbSession, false, .failed⟩) (sample_scanned "relay-1")).1
  · intro c hc
    rw [List.mem_singleton.mp hc]
    decide
  · rintro f ⟨⟩ _
    exact Or.inl (Or.inr (Or.inl rfl))

end RdpProxy.Admin
