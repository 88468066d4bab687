import RdpProxy.Lib.Faulty
import RdpProxy.Lib.RedisKey
import RdpProxy.Lib.Uuid
import RdpProxy.Tracker.History

/-!
# The two kill routes

`kill_session` and `kill_all_sessions` of `sessions.py`. A Redis command takes effect at
once, the UPDATEs with the COMMIT. A `str` is its list of characters.
-/

open Faulty RedisKey

namespace RdpProxy.Admin

open Tracker

/-! ## Keys -/

def activeSession (instanceId connectionId : List Char) : List Char :=
  "rdp:active:".toList ++ (instanceId ++ ':' :: connectionId)

def killFlag (connectionId : List Char) : List Char := "rdp:kill:".toList ++ connectionId

def connToken (connectionId : List Char) : List Char := "rdp:conn-token:".toList ++ connectionId

def tokenKey (token : List Char) : List Char := "rdp:token:".toList ++ token

def killTtl : Nat := 60

/-- `parts[2]` and `parts[3]` of `str(k).split(":")`, where there are as many. -/
def keyParts (k : List Char) : Option (List Char × List Char) :=
  match k.splitOn ':' with
  | _ :: _ :: instanceId :: connectionId :: _ => some (instanceId, connectionId)
  | _ => none

/-! ## The stores -/

structure KillState where
  redis : List Char → Key (List Char)
  clock : Nat
  rows : Uuid → Option ConnectionHistory
  /-- The rows that the open transaction has asked to update. -/
  sent : List Uuid

/-- The calls that may raise. -/
inductive KillCall where
  | scan
  | getDbSession
  | setex (key : List Char)
  | delete (key : List Char)
  | get (key : List Char)
  | execute (cid : Uuid)
  | commit
  deriving DecidableEq

inductive KillError where
  /-- The 400 of a connection id that is no UUID. -/
  | invalidConnectionId
  /-- The `ValueError` of `uuid.UUID` inside the loop. -/
  | badlyFormed
  | failed
  deriving DecidableEq

namespace KillState

def set (s : KillState) (k : List Char) (key : Key (List Char)) : KillState :=
  { s with redis := Function.update s.redis k key }

def setKill (s : KillState) (connectionId : List Char) : KillState :=
  s.set (killFlag connectionId) ((s.redis (killFlag connectionId)).setex s.clock killTtl ['1'])

def delete (s : KillState) (k : List Char) : KillState := s.set k (s.redis k).delete

def execute (s : KillState) (cid : Uuid) : KillState := { s with sent := s.sent ++ [cid] }

def killRow (reason : String) (row : ConnectionHistory) : ConnectionHistory := (killUpdate reason row).getD row

def commit (s : KillState) (reason : String) : KillState :=
  { s with rows := fun u => if u ∈ s.sent then (s.rows u).map (killRow reason) else s.rows u, sent := [] }

/-- `session.close()` of a session that has not committed. -/
def rollback (s : KillState) : KillState := { s with sent := [] }

end KillState

/-- Nobody else is at work on the stores. -/
instance : Acts Empty KillState := ⟨nofun⟩

abbrev KillRoute (α : Type) := Prog KillCall KillError Empty KillState α

/-! ## The routes -/

def setKill (connectionId : List Char) : KillRoute Unit :=
  call (.setex (killFlag connectionId)) fun s => ((), s.setKill connectionId)

def delete (k : List Char) : KillRoute Unit := call (.delete k) fun s => ((), s.delete k)

def executeKill (cid : Uuid) : KillRoute Unit := call (.execute cid) fun s => ((), s.execute cid)

/-- The token that the mapping of the connection names, and the mapping. -/
def dropToken (connectionId : List Char) : KillRoute Unit := do
  match ← call (.get (connToken connectionId)) fun s => ((s.redis (connToken connectionId)).get, s) with
  | none => pure ()
  | some rawToken =>
    if rawToken = [] then pure ()
    else
      delete (tokenKey rawToken)
      delete (connToken connectionId)

/-- `try: ... finally: await session.close()` -/
def closing {α : Type} (x : KillRoute α) : KillRoute α :=
  tryCatch x fun e => do
    own fun s => ((), s.rollback)
    throw e

/-- One turn of the loop, for a key with a fourth part. -/
def killKey (k connectionId : List Char) : KillRoute Unit := do
  setKill connectionId
  delete k
  dropToken connectionId
  match Uuid.parse connectionId with
  | some cid => executeKill cid
  | none => throw .badlyFormed

/-- The loop, with the number of its full turns. -/
def killKeys : List (List Char) → KillRoute Nat
  | [] => pure 0
  | k :: rest =>
    match keyParts k with
    | none => killKeys rest
    | some (_, connectionId) => do
      killKey k connectionId
      let killed ← killKeys rest
      pure (killed + 1)

def commitKills (reason : String) : KillRoute Unit := call .commit fun s => ((), s.commit reason)

/-- `kill_all_sessions`, where SCAN answers `activeKeys`. -/
def killAllSessions (activeKeys : List (List Char)) : KillRoute Nat := do
  ask .scan ()
  ask .getDbSession ()
  closing do
    let killed ← killKeys activeKeys
    commitKills "admin_kill_all"
    pure killed

/-- `kill_session` in an admin service whose own `instance.id` is `instanceId`. -/
def killSession (instanceId connectionId : List Char) : KillRoute Unit :=
  match Uuid.parse connectionId with
  | none => throw .invalidConnectionId
  | some cid => do
    setKill connectionId
    delete (activeSession instanceId connectionId)
    dropToken connectionId
    ask .getDbSession ()
    closing do
      executeKill cid
      commitKills "admin_kill"

/-- A route by itself. -/
def runRoute {α : Type} (x : KillRoute α) (s : KillState) (fault : Option (Fault KillCall KillError)) :
    Except KillError α × KillState :=
  let (r, w) := exec x ⟨s, [], fault⟩
  (r, w.state)

/-! ## The kinds of keys -/

/-- The letter behind `rdp:`, which tells the keys of the routes apart. -/
def kind (k : List Char) : Option Char := k[4]?

@[simp] theorem kind_activeSession (i c : List Char) : kind (activeSession i c) = some 'a' := rfl

@[simp] theorem kind_killFlag (c : List Char) : kind (killFlag c) = some 'k' := rfl

@[simp] theorem kind_connToken (c : List Char) : kind (connToken c) = some 'c' := rfl

@[simp] theorem kind_tokenKey (t : List Char) : kind (tokenKey t) = some 't' := rfl

theorem ne_of_kind {k k' : List Char} (h : kind k ≠ kind k') : k ≠ k' := fun he => h (congrArg kind he)

theorem killFlag_inj {c c' : List Char} : killFlag c = killFlag c' ↔ c = c' := List.append_right_inj _

theorem connToken_inj {c c' : List Char} : connToken c = connToken c' ↔ c = c' := List.append_right_inj _

theorem activeSession_inj {i c i' c' : List Char} (hc : ':' ∉ c) (hc' : ':' ∉ c') :
    activeSession i c = activeSession i' c' ↔ i = i' ∧ c = c' := by
  constructor
  · intro h
    have htail : i ++ ':' :: c = i' ++ ':' :: c' := (List.append_right_inj _).mp h
    rcases List.append_eq_append_iff.mp htail with ⟨l, hi, hl⟩ | ⟨l, hi, hl⟩
    · cases l with
      | nil =>
        rw [List.append_nil] at hi
        exact ⟨hi.symm, (List.cons.inj hl).2⟩
      | cons x l =>
        have := (List.cons.inj hl).2
        rw [this] at hc
        simp at hc
    · cases l with
      | nil =>
        rw [List.append_nil] at hi
        exact ⟨hi, (List.cons.inj hl).2.symm⟩
      | cons x l =>
        have := (List.cons.inj hl).2
        rw [this] at hc'
        simp at hc'
  · rintro ⟨rfl, rfl⟩
    rfl

theorem keyParts_activeSession {i c : List Char} (hi : ':' ∉ i) (hc : ':' ∉ c) :
    keyParts (activeSession i c) = some (i, c) := by
  have hsplit : (activeSession i c).splitOn ':' = ["rdp".toList, "active".toList, i, c] := by
    have h₁ : activeSession i c = "rdp".toList ++ ':' :: ("active".toList ++ ':' :: (i ++ ':' :: c)) := rfl
    rw [h₁, List.splitOn_append_cons_self_of_not_mem (by decide), List.splitOn_append_cons_self_of_not_mem (by decide),
      List.splitOn_append_cons_self_of_not_mem hi, List.splitOn_eq_singleton hc]
  unfold keyParts
  rw [hsplit]

theorem splitOn_head (b : List Char) : ∃ part, ∀ c, ∃ rest, (b ++ ':' :: c).splitOn ':' = part :: rest := by
  by_cases hb : ':' ∈ b
  · obtain ⟨x, y, rfl, hx⟩ := List.eq_append_cons_of_mem hb
    refine ⟨x, fun c => ⟨(y ++ ':' :: c).splitOn ':', ?_⟩⟩
    rw [List.append_assoc, List.cons_append, List.splitOn_append_cons_self_of_not_mem hx]
  · exact ⟨b, fun c => ⟨_, List.splitOn_append_cons_self_of_not_mem hb c⟩⟩

theorem keyParts_of_colon {i : List Char} (hi : ':' ∈ i) :
    ∃ a b part, i = a ++ ':' :: b ∧ ∀ c, keyParts (activeSession i c) = some (a, part) := by
  obtain ⟨a, b, rfl, ha⟩ := List.eq_append_cons_of_mem hi
  obtain ⟨part, hpart⟩ := splitOn_head b
  refine ⟨a, b, part, rfl, ?_⟩
  intro c
  obtain ⟨rest, hrest⟩ := hpart c
  have hkey : activeSession (a ++ ':' :: b) c =
      "rdp".toList ++ ':' :: ("active".toList ++ ':' :: (a ++ ':' :: (b ++ ':' :: c))) := by
    unfold activeSession
    rw [List.append_assoc, List.cons_append]
    rfl
  unfold keyParts
  rw [hkey, List.splitOn_append_cons_self_of_not_mem (by decide), List.splitOn_append_cons_self_of_not_mem (by decide),
    List.splitOn_append_cons_self_of_not_mem ha, hrest]

theorem keyParts_isSome (i : List Char) {c : List Char} (hc : ':' ∉ c) : ∃ parts, keyParts (activeSession i c) = some parts := by
  by_cases hi : ':' ∈ i
  · obtain ⟨a, _, part, _, hparts⟩ := keyParts_of_colon hi
    exact ⟨(a, part), hparts c⟩
  · exact ⟨(i, c), keyParts_activeSession hi hc⟩

/-! ## What the routes do when no call fails -/

namespace KillState

def dropToken (s : KillState) (connectionId : List Char) : KillState :=
  match (s.redis (connToken connectionId)).get with
  | none => s
  | some rawToken => if rawToken = [] then s else (s.delete (tokenKey rawToken)).delete (connToken connectionId)

/-- What both routes do to the keys of one connection. -/
def touch (s : KillState) (k connectionId : List Char) : KillState :=
  ((s.setKill connectionId).delete k).dropToken connectionId

def dropCalls (s : KillState) (connectionId : List Char) : List KillCall :=
  .get (connToken connectionId) ::
    match (s.redis (connToken connectionId)).get with
    | none => []
    | some rawToken => if rawToken = [] then [] else [.delete (tokenKey rawToken), .delete (connToken connectionId)]

def touchCalls (s : KillState) (k connectionId : List Char) : List KillCall :=
  .setex (killFlag connectionId) :: .delete k :: ((s.setKill connectionId).delete k).dropCalls connectionId

/-- The state and the calls of the loop, as far as its ids are UUIDs. -/
def killKeys (s : KillState) : List (List Char) → KillState × List KillCall
  | [] => (s, [])
  | k :: rest =>
    match keyParts k with
    | none => s.killKeys rest
    | some (_, connectionId) =>
      match Uuid.parse connectionId with
      | none => (s.touch k connectionId, s.touchCalls k connectionId)
      | some cid =>
        let (s', calls) := ((s.touch k connectionId).execute cid).killKeys rest
        (s', s.touchCalls k connectionId ++ .execute cid :: calls)

end KillState

/-- Every connection id that the loop meets is a UUID. -/
def AllParse (activeKeys : List (List Char)) : Prop :=
  ∀ k ∈ activeKeys, ∀ i c, keyParts k = some (i, c) → Uuid.parse c ≠ none

section

variable {s : KillState} {c k i : List Char}

theorem dropToken_makes : Makes (dropToken c) s (s.dropCalls c) (.ok ()) (s.dropToken c) := by
  unfold dropToken KillState.dropCalls KillState.dropToken
  refine (Makes.call (KillCall.get (connToken c)) _).bind ?_
  cases (s.redis (connToken c)).get with
  | none => exact Makes.pure ()
  | some rawToken =>
    simp only
    split_ifs
    · exact Makes.pure ()
    · exact (Makes.call _ _).bind (Makes.call _ _)

theorem touch_makes {α : Type} {x : KillRoute α} {calls : List KillCall} {r : Except KillError α} {s' : KillState}
    (hx : Makes x (s.touch k c) calls r s') :
    Makes (setKill c >>= fun _ => delete k >>= fun _ => dropToken c >>= fun _ => x) s (s.touchCalls k c ++ calls)
      r s' :=
  (Makes.call _ _).bind ((Makes.call _ _).bind (dropToken_makes.bind hx))

theorem killKey_makes {cid : Uuid} (hc : Uuid.parse c = some cid) :
    Makes (killKey k c) s (s.touchCalls k c ++ [.execute cid]) (.ok ()) ((s.touch k c).execute cid) := by
  unfold killKey
  refine touch_makes ?_
  rw [hc]
  exact Makes.call _ _

theorem killKey_makes_error (hc : Uuid.parse c = none) :
    Makes (killKey k c) s (s.touchCalls k c ++ []) (.error .badlyFormed) (s.touch k c) := by
  unfold killKey
  refine touch_makes ?_
  rw [hc]
  exact Makes.throw _

theorem allParse_cons {ks : List (List Char)} (h : AllParse (k :: ks)) : AllParse ks :=
  fun k' hk => h k' (List.mem_cons_of_mem k hk)

theorem killKeys_makes (ks : List (List Char)) (s : KillState) :
    ∃ r, Makes (killKeys ks) s (s.killKeys ks).2 r (s.killKeys ks).1 ∧ ((∃ n, r = .ok n) ↔ AllParse ks) := by
  induction ks generalizing s with
  | nil => exact ⟨.ok 0, Makes.pure 0, iff_of_true ⟨0, rfl⟩ nofun⟩
  | cons k ks ih =>
    unfold killKeys KillState.killKeys
    rcases hk : keyParts k with _ | ⟨i, c⟩
    · obtain ⟨r, hr, hiff⟩ := ih s
      refine ⟨r, hr, hiff.trans ⟨?_, allParse_cons⟩⟩
      intro h k' hk' i c hparts
      rcases List.mem_cons.mp hk' with rfl | hk'
      · rw [hk] at hparts
        cases hparts
      · exact h k' hk' i c hparts
    · simp only
      rcases hc : Uuid.parse c with _ | cid
      · refine ⟨.error .badlyFormed, ?_, iff_of_false ?_ ?_⟩
        · have herror := killKey_makes_error (s := s) (k := k) hc
          rw [List.append_nil] at herror
          exact herror.bind_error
        · rintro ⟨n, hn⟩
          cases hn
        · exact fun h => h k (List.mem_cons_self ..) i c hk hc
      · obtain ⟨r, hr, hiff⟩ := ih ((s.touch k c).execute cid)
        have hcons : AllParse (k :: ks) ↔ AllParse ks := by
          refine ⟨allParse_cons, ?_⟩
          intro h k' hk' i' c' hparts
          rcases List.mem_cons.mp hk' with rfl | hk'
          · rw [hk] at hparts
            cases hparts
            rw [hc]
            nofun
          · exact h k' hk' i' c' hparts
        rw [hcons, ← hiff]
        have hfirst := killKey_makes (s := s) (k := k) hc
        rcases r with e | n
        · refine ⟨.error e, ?_, iff_of_false ?_ ?_⟩
          · have := hfirst.bind hr.bind_error (f := fun _ => do
              let killed ← killKeys ks
              pure (killed + 1))
            rw [List.append_assoc] at this
            exact this
          · rintro ⟨n, hn⟩
            cases hn
          · rintro ⟨n, hn⟩
            cases hn
        · refine ⟨.ok (n + 1), ?_, iff_of_true ⟨_, rfl⟩ ⟨_, rfl⟩⟩
          have := hfirst.bind (hr.bind (Makes.pure (n + 1))) (f := fun _ => do
            let killed ← killKeys ks
            pure (killed + 1))
          rw [List.append_nil, List.append_assoc] at this
          exact this

theorem exec_closing_error {α : Type} {x : KillRoute α} {w w' : World KillCall KillError Empty KillState} {e : KillError}
    (h : exec x w = (.error e, w')) : exec (closing x) w = (.error e, { w' with state := w'.state.rollback }) := by
  unfold closing
  rw [exec_tryCatch, h]
  rfl

theorem closing_makes {α : Type} {x : KillRoute α} {calls : List KillCall} {r : Except KillError α} {s' : KillState}
    (hx : Makes x s calls r s') :
    Makes (closing x) s calls r (match r with | .ok _ => s' | .error _ => s'.rollback) where
  quiet := by
    intro w hs ho hfault
    unfold closing
    rw [exec_tryCatch, hx.quiet w hs ho hfault]
    cases r <;> rfl
  hit := by
    intro w f hs ho hf hmem
    obtain ⟨s'', hrun⟩ := hx.hit w f hs ho hf hmem
    exact ⟨s''.rollback, exec_closing_error hrun⟩

theorem runRoute_of_makes {α : Type} {x : KillRoute α} {calls : List KillCall} {r : Except KillError α} {s' : KillState}
    {fault : Option (Fault KillCall KillError)} (hx : Makes x s calls r s')
    (hf : ∀ f, fault = some f → f.call ∉ calls) : runRoute x s fault = (r, s') := by
  unfold runRoute
  rw [hx.quiet ⟨s, [], fault⟩ rfl rfl hf]

theorem runRoute_quiet {α : Type} {x : KillRoute α} {calls : List KillCall} {r : Except KillError α} {s' : KillState}
    (hx : Makes x s calls r s') : runRoute x s none = (r, s') := by
  apply runRoute_of_makes hx
  rintro f ⟨⟩

/-- The calls of `kill_all_sessions`. -/
def killAllCalls (s : KillState) (ks : List (List Char)) : List KillCall :=
  .scan :: .getDbSession :: ((s.killKeys ks).2 ++ [.commit])

theorem killAll_makes {ks : List (List Char)} (h : AllParse ks) (s : KillState) :
    ∃ n, Makes (killAllSessions ks) s (killAllCalls s ks) (.ok n) ((s.killKeys ks).1.commit "admin_kill_all") := by
  obtain ⟨r, hloop, hr⟩ := killKeys_makes ks s
  obtain ⟨n, rfl⟩ := hr.mpr h
  have hbody : Makes (killKeys ks >>= fun killed => commitKills "admin_kill_all" >>= fun _ => pure killed) s
      ((s.killKeys ks).2 ++ [.commit]) (.ok n) ((s.killKeys ks).1.commit "admin_kill_all") :=
    hloop.bind ((Makes.call _ _).bind (Makes.pure n))
  exact ⟨n, (Makes.call KillCall.scan _).bind ((Makes.call KillCall.getDbSession _).bind (closing_makes hbody))⟩

theorem killAll_makes_error {ks : List (List Char)} (h : ¬ AllParse ks) (s : KillState) :
    ∃ calls e, Makes (killAllSessions ks) s calls (.error e) (s.killKeys ks).1.rollback := by
  obtain ⟨r, hloop, hr⟩ := killKeys_makes ks s
  rcases r with e | n
  · have hbody : Makes (killKeys ks >>= fun killed => commitKills "admin_kill_all" >>= fun _ => pure killed) s
        (s.killKeys ks).2 (.error e) (s.killKeys ks).1 := hloop.bind_error
    exact ⟨_, e, (Makes.call KillCall.scan _).bind
      ((Makes.call KillCall.getDbSession _).bind (closing_makes hbody))⟩
  · exact absurd (hr.mp ⟨n, rfl⟩) h

/-- What `kill_session` leaves of a connection. -/
def KillState.killSession (s : KillState) (instanceId : List Char) (cid : Uuid) : KillState :=
  ((s.touch (activeSession instanceId cid.str) cid.str).execute cid).commit "admin_kill"

theorem killSession_makes (instanceId : List Char) (cid : Uuid) (s : KillState) :
    ∃ calls, Makes (killSession instanceId cid.str) s calls (.ok ()) (s.killSession instanceId cid) := by
  unfold killSession
  rw [Uuid.parse_str]
  have hbody : Makes (executeKill cid >>= fun _ => commitKills "admin_kill")
      (s.touch (activeSession instanceId cid.str) cid.str) [.execute cid, .commit] (.ok ())
      (s.killSession instanceId cid) := (Makes.call _ _).bind (Makes.call _ _)
  exact ⟨_, touch_makes ((Makes.call KillCall.getDbSession _).bind (closing_makes hbody))⟩

/-- One `kill_session` after the other. -/
def killEach (instanceId : List Char) : List Uuid → KillRoute Unit
  | [] => pure ()
  | cid :: rest => do
    killSession instanceId cid.str
    killEach instanceId rest

def KillState.killEach (s : KillState) (instanceId : List Char) (cids : List Uuid) : KillState :=
  cids.foldl (fun s cid => s.killSession instanceId cid) s

theorem killEach_makes (instanceId : List Char) (cids : List Uuid) (s : KillState) :
    ∃ calls, Makes (killEach instanceId cids) s calls (.ok ()) (s.killEach instanceId cids) := by
  induction cids generalizing s with
  | nil => exact ⟨[], Makes.pure ()⟩
  | cons cid rest ih =>
    obtain ⟨calls, hfirst⟩ := killSession_makes instanceId cid s
    obtain ⟨calls', hrest⟩ := ih (s.killSession instanceId cid)
    exact ⟨calls ++ calls', hfirst.bind hrest⟩

end

end RdpProxy.Admin
