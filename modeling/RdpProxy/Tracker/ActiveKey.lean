import RdpProxy.Lib.RedisKey
import RdpProxy.Lib.Steps

/-!
# The `ACTIVE_SESSION` key of a connection

`start` writes it, the quality monitor rewrites it every few seconds, and a kill or the
`finish` of the handler deletes it, each a Redis command at a time.
-/

open RedisKey Steps

namespace RdpProxy.Tracker

/-! ## JSON objects -/

inductive Json where
  | null
  | str (s : String)
  | int (n : Int)
  | float (q : Rat)
  | object (fields : List (String × Json))

/-- A `dict`, in the order of insertion. -/
abbrev JsonObject := List (String × Json)

/-- `data[name] = value` -/
def setField (name : String) (value : Json) : JsonObject → JsonObject
  | [] => [(name, value)]
  | (n, v) :: rest => if n = name then (n, value) :: rest else (n, v) :: setField name value rest

theorem lookup_setField (name : String) (value : Json) (data : JsonObject) (n : String) :
    (setField name value data).lookup n = if n = name then some value else data.lookup n := by
  have hcons : ∀ (m : String) (v : Json) (rest : JsonObject),
      ((m, v) :: rest).lookup n = if n = m then some v else rest.lookup n := by
    intro m v rest
    rw [List.lookup_cons]
    split_ifs with hn
    · rw [hn, beq_self_eq_true]
    · rw [beq_false_of_ne hn]
  induction data with
  | nil => exact hcons name value []
  | cons p rest ih =>
    obtain ⟨m, v⟩ := p
    unfold setField
    split_ifs with hm hn hn
    · rw [hcons, hm, if_pos hn]
    · rw [hcons, hcons, hm, if_neg hn, if_neg hn]
    · rw [hcons, ih, if_pos hn, if_neg (by rintro rfl; exact hm hn)]
    · rw [hcons, hcons, ih, if_neg hn]

/-! ## The source -/

structure ActivePayload where
  username : String
  serverDisplay : Option String
  serverAddress : String
  serverPort : Int
  clientIp : String
  startedAt : String
  instanceId : String

def ActivePayload.json (p : ActivePayload) : JsonObject :=
  [("username", .str p.username), ("server_display", (p.serverDisplay.map Json.str).getD .null),
    ("server_address", .str p.serverAddress), ("server_port", .int p.serverPort),
    ("client_ip", .str p.clientIp), ("started_at", .str p.startedAt), ("instance_id", .str p.instanceId)]

structure QualitySnapshot where
  rttMs : Rat
  rttVarMs : Rat
  jitterMs : Rat
  retransmits : Int
  totalRetrans : Int
  lost : Int
  cwnd : Int
  rating : String

/-- `asdict(snapshot)` -/
def QualitySnapshot.asdict (q : QualitySnapshot) : JsonObject :=
  [("rtt_ms", .float q.rttMs), ("rtt_var_ms", .float q.rttVarMs), ("jitter_ms", .float q.jitterMs),
    ("retransmits", .int q.retransmits), ("total_retrans", .int q.totalRetrans), ("lost", .int q.lost),
    ("cwnd", .int q.cwnd), ("rating", .str q.rating)]

/-- What the key may hold: the bare `1` of older relays, or an object. -/
inductive ActiveValue where
  | one
  | object (data : JsonObject)

/-- `data` before the snapshot goes into it. -/
def publishBase : Option ActiveValue → JsonObject
  | none => []
  | some .one => []
  | some (.object data) => data

def publishData (raw : Option ActiveValue) (snapshot : QualitySnapshot) : JsonObject :=
  setField "quality_detail" (.object snapshot.asdict)
    (setField "connection_quality" (.str snapshot.rating) (publishBase raw))

def activeTtl : Nat := 24 * 3600

/-! ## The connection -/

inductive PublishPhase where
  | idle
  | watched (ver : Nat)
  | queued (ver : Nat) (raw : Option ActiveValue) (snapshot : QualitySnapshot)

structure ActiveSession where
  clock : Nat
  key : Key ActiveValue
  publish : PublishPhase
  /-- What `start` has written. -/
  started : Option ActivePayload
  /-- A kill or a `finish` has deleted the key. -/
  deleted : Bool

inductive ActiveAct where
  | start (payload : ActivePayload)
  /-- The next command of `_publish`, with the snapshot that the loop has sampled. -/
  | publish (snapshot : QualitySnapshot)
  | killSession
  | killAllSessions
  | finish
  | tick (ms : Nat)

namespace ActiveSession

def initial (clock : Nat) : ActiveSession := ⟨clock, ⟨none, 0⟩, .idle, none, false⟩

def delete (s : ActiveSession) : ActiveSession :=
  { s with key := s.key.delete, deleted := s.deleted || s.key.get.isSome }

def step (s : ActiveSession) : ActiveAct → Option ActiveSession
  | .start payload =>
    match s.started with
    | none => some { s with key := s.key.setex s.clock activeTtl (.object payload.json), started := some payload }
    | some _ => none
  | .publish snapshot =>
    match s.publish, s.started with
    | _, none => none
    | .idle, some _ => some { s with publish := .watched s.key.version }
    | .watched ver, some _ => some { s with publish := .queued ver s.key.get snapshot }
    | .queued ver raw snapshot, some _ =>
      -- A `WatchError` is logged like any other exception.
      if s.key.version = ver then
        some { s with key := s.key.setex s.clock activeTtl (.object (publishData raw snapshot)), publish := .idle }
      else some { s with publish := .idle }
  | .killSession => some s.delete
  | .killAllSessions => some s.delete
  | .finish => match s.started with
    | none => none
    | some _ => some s.delete
  | .tick ms => some { s with clock := s.clock + ms, key := s.key.expire (s.clock + ms) }

/-! ## What the key is to hold -/

/-- `data` has every field that `start` wrote. -/
def Carries (payload : ActivePayload) : ActiveValue → Prop
  | .one => False
  | .object data => ∀ p ∈ payload.json, data.lookup p.1 = some p.2

/-- Once deleted the key is gone, and where it is there its fields are. -/
def Good (s : ActiveSession) : Prop :=
  (s.deleted = true → s.key.get = none) ∧
    ∀ v, s.key.get = some v → ∃ payload, s.started = some payload ∧ Carries payload v

/-- The command is not the EXEC of a `_publish` that had found no key and finds none now. -/
def FindsKey (s : ActiveSession) : ActiveAct → Prop
  | .publish _ => match s.publish with
    | .queued ver raw _ => raw = none → s.key.version ≠ ver
    | _ => True
  | _ => True

theorem json_carries (payload : ActivePayload) : Carries payload (.object payload.json) := by
  intro p hp
  simp only [ActivePayload.json, List.mem_cons, List.not_mem_nil, or_false] at hp
  rcases hp with rfl | rfl | rfl | rfl | rfl | rfl | rfl <;> rfl

def payloadNames : List String :=
  ["username", "server_display", "server_address", "server_port", "client_ip", "started_at", "instance_id"]

theorem json_names (payload : ActivePayload) : payload.json.map Prod.fst = payloadNames := rfl

theorem names_fresh : ∀ n ∈ payloadNames, n ≠ "quality_detail" ∧ n ≠ "connection_quality" := by decide

theorem publishData_carries {payload : ActivePayload} {v : ActiveValue} (snapshot : QualitySnapshot)
    (h : Carries payload v) : Carries payload (.object (publishData (some v) snapshot)) := by
  cases v with
  | one => exact h.elim
  | object data =>
    intro p hp
    have hname := names_fresh p.1 (json_names payload ▸ List.mem_map_of_mem hp)
    rw [publishData, lookup_setField, if_neg hname.1, lookup_setField, if_neg hname.2]
    exact h p hp

theorem publishData_bare (payload : ActivePayload) (snapshot : QualitySnapshot) :
    ¬ Carries payload (.object (publishData none snapshot)) := by
  intro h
  have hname : (publishData none snapshot).lookup "username" = some (.str payload.username) :=
    h ("username", .str payload.username) (by simp [ActivePayload.json])
  rw [publishData, lookup_setField, if_neg (by decide), lookup_setField, if_neg (by decide), publishBase,
    List.lookup_nil] at hname
  cases hname

/-! ## Steps -/

/-- What a `_publish` can rely on: where the counter has not moved the key holds what was read. -/
def Relies (key : Key ActiveValue) : PublishPhase → Prop
  | .idle => True
  | .watched ver => ver ≤ key.version
  | .queued ver raw _ => ver ≤ key.version ∧ (key.version = ver → key.get = raw)

theorem Relies.later {key key' : Key ActiveValue} {phase : PublishPhase} (h : Relies key phase) (hl : Later key key') :
    Relies key' phase := by
  cases phase with
  | idle => trivial
  | watched ver => exact Nat.le_trans h hl.version_le
  | queued ver raw snapshot =>
    refine ⟨Nat.le_trans h.1 hl.version_le, ?_⟩
    intro hv
    have hk : key' = key := hl.eq_of_version (by have := h.1; have := hl.version_le; omega)
    rw [hk] at hv ⊢
    exact h.2 hv

structure Ok (s : ActiveSession) : Prop where
  relies : Relies s.key s.publish
  deleted : s.deleted = true → s.started ≠ none

theorem good_of_absent {s : ActiveSession} (h : s.key.get = none) : s.Good := by
  refine ⟨fun _ => h, ?_⟩
  intro v hv
  rw [h] at hv
  cases hv

theorem delete_good (s : ActiveSession) : s.delete.Good := good_of_absent (get_delete _)

theorem delete_ok {s : ActiveSession} (hs : s.Ok) (hg : s.Good) : s.delete.Ok := by
  refine ⟨hs.relies.later (delete_later _), ?_⟩
  intro hd
  simp only [delete, Bool.or_eq_true] at hd
  rcases hd with hd | hd
  · exact hs.deleted hd
  · obtain ⟨v, hv⟩ := Option.isSome_iff_exists.mp hd
    obtain ⟨payload, hp, _⟩ := hg.2 v hv
    simp [delete, hp]

theorem start_good {s : ActiveSession} {payload : ActivePayload} (hs : s.Ok) (hn : s.started = none) :
    Good { s with key := s.key.setex s.clock activeTtl (.object payload.json), started := some payload } := by
  refine ⟨fun hd => absurd hn (hs.deleted hd), ?_⟩
  rintro v ⟨⟩
  exact ⟨payload, rfl, json_carries payload⟩

theorem exec_good_iff {s : ActiveSession} {raw : Option ActiveValue} (snapshot : QualitySnapshot) (hg : s.Good)
    (hraw : s.key.get = raw) :
    Good { s with key := s.key.setex s.clock activeTtl (.object (publishData raw snapshot)), publish := .idle } ↔
      raw ≠ none := by
  cases raw with
  | none =>
    refine iff_of_false ?_ (fun hne => hne rfl)
    rintro ⟨_, hcarries⟩
    obtain ⟨payload, _, hp⟩ := hcarries _ rfl
    exact publishData_bare payload snapshot hp
  | some v =>
    obtain ⟨payload, hstart, hcarries⟩ := hg.2 v hraw
    refine iff_of_true ⟨?_, ?_⟩ (Option.some_ne_none v)
    · intro hd
      rw [hg.1 hd] at hraw
      cases hraw
    · rintro _ ⟨⟩
      exact ⟨payload, hstart, publishData_carries snapshot hcarries⟩

theorem publish_good_iff {s s' : ActiveSession} {snapshot : QualitySnapshot} (hs : s.Ok) (hg : s.Good)
    (h : s.step (.publish snapshot) = some s') : (s'.Good ↔ s.FindsKey (.publish snapshot)) ∧ s'.Ok := by
  have hrelies := hs.relies
  simp only [step] at h
  unfold FindsKey
  split at h
  · cases h
  · rename_i hp hstart
    cases h
    rw [hp]
    exact ⟨iff_of_true hg trivial, Nat.le_refl _, hs.deleted⟩
  · rename_i ver payload hp hstart
    cases h
    rw [hp] at hrelies ⊢
    exact ⟨iff_of_true hg trivial, ⟨hrelies, fun _ => rfl⟩, hs.deleted⟩
  · rename_i ver raw shot payload hp hstart
    rw [hp] at hrelies ⊢
    split_ifs at h with hv
    · cases h
      refine ⟨?_, trivial, hs.deleted⟩
      rw [exec_good_iff shot hg (hrelies.2 hv)]
      exact ⟨fun hraw hn => absurd hn hraw, fun hfinds hn => hfinds hn hv⟩
    · cases h
      exact ⟨iff_of_true hg (fun _ => hv), trivial, hs.deleted⟩

theorem step_good_iff (s : ActiveSession) (a : ActiveAct) (s' : ActiveSession) (hs : s.Ok) (hg : s.Good)
    (h : s.step a = some s') : (s'.Good ↔ s.FindsKey a) ∧ (s'.Good → s'.Ok) := by
  cases a with
  | start payload =>
    simp only [step] at h
    split at h
    · rename_i hn
      cases h
      exact ⟨iff_of_true (start_good hs hn) trivial,
        fun _ => ⟨hs.relies.later (setex_later ..), fun _ => Option.some_ne_none _⟩⟩
    · cases h
  | publish snapshot =>
    obtain ⟨hiff, hok⟩ := publish_good_iff hs hg h
    exact ⟨hiff, fun _ => hok⟩
  | killSession => cases h; exact ⟨iff_of_true (delete_good s) trivial, fun _ => delete_ok hs hg⟩
  | killAllSessions => cases h; exact ⟨iff_of_true (delete_good s) trivial, fun _ => delete_ok hs hg⟩
  | finish =>
    simp only [step] at h
    split at h
    · cases h
    · cases h; exact ⟨iff_of_true (delete_good s) trivial, fun _ => delete_ok hs hg⟩
  | tick ms =>
    cases h
    refine ⟨iff_of_true ?_ trivial, fun _ => ⟨hs.relies.later (expire_later ..), hs.deleted⟩⟩
    rcases get_expire s.key (s.clock + ms) with hn | he
    · exact good_of_absent hn
    · exact ⟨fun hd => by rw [he]; exact hg.1 hd, fun v hv => hg.2 v (he ▸ hv)⟩

/-! ## The active list -/

theorem good_throughout_iff (clock : Nat) (acts : List ActiveAct) (s : ActiveSession)
    (hrun : run step (initial clock) acts = some s) :
    Throughout step Good (initial clock) acts ↔ Along step FindsKey (initial clock) acts := by
  have hok : (initial clock).Ok := ⟨trivial, fun hd => Bool.noConfusion hd⟩
  exact throughout_iff_along step_good_iff hrun hok (good_of_absent rfl)

/-! ### A session that reappears -/

def samplePayload : ActivePayload :=
  ⟨"alice", none, "10.0.0.5", 3389, "192.0.2.7", "2026-01-15T09:30:00+00:00", "relay-1"⟩

def sampleSnapshot : QualitySnapshot := ⟨12, 3, 1, 0, 0, 0, 10, "excellent"⟩

/-- The handler has not finished yet when the quality loop comes round. -/
def publishAfterKill : List ActiveAct :=
  [.start samplePayload, .killSession, .publish sampleSnapshot, .publish sampleSnapshot, .publish sampleSnapshot]

theorem killed_session_reappears :
    ∃ s, run step (initial 0) publishAfterKill = some s ∧ s.deleted = true ∧
      s.key.get = some (.object (publishData none sampleSnapshot)) :=
  ⟨_, rfl, rfl, rfl⟩

def publishBeforeKill : List ActiveAct :=
  [.start samplePayload, .publish sampleSnapshot, .publish sampleSnapshot, .publish sampleSnapshot, .killSession]

theorem good_throughout_publishBeforeKill :
    ∃ s, run step (initial 0) publishBeforeKill = some s ∧ Throughout step Good (initial 0) publishBeforeKill := by
  refine ⟨_, rfl, ?_⟩
  apply (good_throughout_iff 0 publishBeforeKill _ rfl).mpr
  refine ⟨trivial, trivial, trivial, ?_, trivial, trivial⟩
  intro hn
  cases hn

end ActiveSession

end RdpProxy.Tracker
