import RdpProxy.Admin.KillRoutes
import RdpProxy.Lib.KeyScan
import RdpProxy.Lib.Text
import RdpProxy.Tracker.ActiveKey

/-!
# The page of active sessions (`admin/routes/sessions.py`)

The page lists the keys and then reads each of them, while relays start and end connections and publish their quality.
-/

open Steps

namespace RdpProxy.Admin.ActivePage

open Tracker Tracker.ActiveSession

/-! ## The source -/

structure QualityDetail where
  rttMs : Option Rat
  rttVarMs : Option Rat
  jitterMs : Option Rat
  retransmits : Option Int
  totalRetrans : Option Int
  lost : Option Int
  cwnd : Option Int
  rating : Option String

def detailOf (q : QualitySnapshot) : QualityDetail :=
  ⟨some q.rttMs, some q.rttVarMs, some q.jitterMs, some q.retransmits, some q.totalRetrans, some q.lost, some q.cwnd,
    some q.rating⟩

/-- `QualityDetail(**fields)`, and none where it raises. Fields of the declared types are taken as they are. -/
structure Validator where
  qualityDetail : JsonObject → Option QualityDetail
  asdict : ∀ q : QualitySnapshot, qualityDetail q.asdict = some (detailOf q)

structure ActiveSessionOut where
  connectionId : List Char
  instanceId : String
  username : Option String
  serverDisplay : Option String
  serverAddress : Option String
  serverPort : Option Int
  clientIp : Option String
  startedAt : Option String
  connectionQuality : Option String
  qualityDetail : Option QualityDetail

/-- `data.get(name)` for a field of type `str | None` -/
def optionalStr (data : JsonObject) (name : String) : Option (Option String) :=
  match data.lookup name with
  | none => some none
  | some .null => some none
  | some (.str s) => some (some s)
  | some _ => none

/-- `int(data["server_port"]) if data.get("server_port") is not None else None` -/
def serverPort (data : JsonObject) : Option (Option Int) :=
  match data.lookup "server_port" with
  | none => some none
  | some .null => some none
  | some (.int n) => some (some n)
  | some (.float q) => some (some (q.num.tdiv q.den))
  | some (.str s) => (Text.int s.toList).map some
  | some (.object _) => none

/-- `data.get("instance_id") or instance_id` for a field of type `str` -/
def instanceIdOf (data : JsonObject) (part : List Char) : Option String :=
  match data.lookup "instance_id" with
  | some (.str s) => some (if s = "" then String.ofList part else s)
  | some (.int n) => if n = 0 then some (String.ofList part) else none
  | some (.float q) => if q = 0 then some (String.ofList part) else none
  | some (.object fields) => if fields.isEmpty then some (String.ofList part) else none
  | some .null => some (String.ofList part)
  | none => some (String.ofList part)

/-- `QualityDetail(**qd_raw) if isinstance(qd_raw, dict) else None` -/
def qualityOf (v : Validator) (data : JsonObject) : Option (Option QualityDetail) :=
  match data.lookup "quality_detail" with
  | some (.object fields) => (v.qualityDetail fields).map some
  | _ => some none

/-- The session of a key, with what `get` gives for it. The outer option is none where the code raises. -/
def activeRow (v : Validator) (row : List Char × Option ActiveValue) : Option (Option ActiveSessionOut) :=
  match keyParts row.1 with
  | none => some none
  | some (instancePart, connectionId) => do
    let data := publishBase row.2
    let qualityDetail ← qualityOf v data
    let instanceId ← instanceIdOf data instancePart
    let username ← optionalStr data "username"
    let serverDisplay ← optionalStr data "server_display"
    let serverAddress ← optionalStr data "server_address"
    let port ← serverPort data
    let clientIp ← optionalStr data "client_ip"
    let startedAt ← optionalStr data "started_at"
    let connectionQuality ← optionalStr data "connection_quality"
    return some ⟨connectionId, instanceId, username, serverDisplay, serverAddress, port, clientIp, startedAt,
      connectionQuality, qualityDetail⟩

def activeSessions (v : Validator) (rows : List (List Char × Option ActiveValue)) : Option (List ActiveSessionOut) :=
  (rows.mapM (activeRow v)).map fun sessions => sessions.filterMap id

/-! ## The relays and the page -/

def sessionKey (cid : Uuid) (payload : ActivePayload) : List Char := activeSession payload.instanceId.toList cid.str

structure World where
  /-- The keys of `ACTIVE_SCAN`, and the page. -/
  page : KeyScan.State (List Char) ActiveValue
  started : List (Uuid × ActivePayload)

inductive Act where
  | start (cid : Uuid) (payload : ActivePayload)
  /-- The transaction of `_publish`, where nothing came between. -/
  | publish (cid : Uuid) (snapshot : QualitySnapshot)
  /-- A kill, a `finish`, a restart of the relay, or the expiry. -/
  | delete (key : List Char)
  | request
  | scan (page : List (List Char)) (last : Bool)
  | get

def initial : World := ⟨⟨.empty, none⟩, []⟩

/-- What an action is to the keys. A connection id is a new `uuid4`. -/
def Act.onKeys (w : World) : Act → Option (KeyScan.Act (List Char) ActiveValue)
  | .start cid payload =>
    if (w.started.lookup cid).isNone then some (.set (sessionKey cid payload) (.object payload.json)) else none
  | .publish cid snapshot =>
    (w.started.lookup cid).map fun payload =>
      .set (sessionKey cid payload) (.object (publishData (w.page.store.get? (sessionKey cid payload)) snapshot))
  | .delete key => some (.drop key)
  | .request => some .start
  | .scan page last => some (.scan page last)
  | .get => some .read

def Act.starts : Act → List (Uuid × ActivePayload)
  | .start cid payload => [(cid, payload)]
  | _ => []

def step (w : World) (a : Act) : Option World :=
  (a.onKeys w).bind fun k => (KeyScan.step w.page k).map fun page => ⟨page, a.starts ++ w.started⟩

/-! ## The values -/

/-- Where there is a snapshot, its rating and its fields are in the data. -/
def Rated (data : JsonObject) (quality : Option QualitySnapshot) : Prop :=
  data.lookup "connection_quality" = quality.map (fun q => Tracker.Json.str q.rating) ∧
    data.lookup "quality_detail" = quality.map fun q => Tracker.Json.object q.asdict

/-- The data has none of the fields that `start` writes. -/
def Bare (payload : ActivePayload) (data : JsonObject) : Prop := ∀ p ∈ payload.json, data.lookup p.1 = none

/-- The value has all fields of the payload or none, and a snapshot or none. -/
def Fits (payload : ActivePayload) : ActiveValue → Prop
  | .one => False
  | .object data => (Carries payload (.object data) ∨ Bare payload data) ∧ ∃ quality, Rated data quality

variable {payload : ActivePayload} {value : ActiveValue} {cid : Uuid} {w w' : World} {a : Act} {es : List Act}
  {key : List Char} {data : JsonObject}

theorem start_fits (payload : ActivePayload) : Fits payload (.object payload.json) :=
  ⟨.inl (json_carries payload), none, rfl, rfl⟩

theorem publishData_rated (raw : Option ActiveValue) (snapshot : QualitySnapshot) :
    Rated (publishData raw snapshot) (some snapshot) := by
  constructor <;> simp [publishData, lookup_setField]

theorem publish_bare {raw : Option ActiveValue} (h : Bare payload (publishBase raw)) (snapshot : QualitySnapshot) :
    Bare payload (publishData raw snapshot) := by
  intro p hp
  have hname := names_fresh p.1 (json_names payload ▸ List.mem_map_of_mem hp)
  rw [publishData, lookup_setField, if_neg hname.1, lookup_setField, if_neg hname.2]
  exact h p hp

theorem publish_fits {raw : Option ActiveValue} (h : ∀ value, raw = some value → Fits payload value)
    (snapshot : QualitySnapshot) : Fits payload (.object (publishData raw snapshot)) := by
  refine ⟨?_, some snapshot, publishData_rated raw snapshot⟩
  cases raw with
  | none => exact .inr (publish_bare (fun _ _ => rfl) snapshot)
  | some value =>
    cases value with
    | one => exact (h .one rfl).elim
    | object data =>
      rcases (h _ rfl).1 with hcarries | hbare
      · exact .inl (publishData_carries snapshot hcarries)
      · exact .inr (publish_bare hbare snapshot)

/-! ## A row -/

/-- The row with the fields of a payload, or with none of them, and with a snapshot or none. -/
def shown (cid : Uuid) (instanceId : String) (payload : Option ActivePayload) (quality : Option QualitySnapshot) :
    ActiveSessionOut where
  connectionId := cid.str
  instanceId := instanceId
  username := payload.map ActivePayload.username
  serverDisplay := payload.bind ActivePayload.serverDisplay
  serverAddress := payload.map ActivePayload.serverAddress
  serverPort := payload.map ActivePayload.serverPort
  clientIp := payload.map ActivePayload.clientIp
  startedAt := payload.map ActivePayload.startedAt
  connectionQuality := quality.map QualitySnapshot.rating
  qualityDetail := quality.map detailOf

variable {v : Validator} {quality : Option QualitySnapshot}

theorem qualityOf_rated (h : Rated data quality) : qualityOf v data = some (quality.map detailOf) := by
  cases quality with
  | none => simp [qualityOf, h.2]
  | some q => simp [qualityOf, h.2, v.asdict]

theorem optionalStr_rated (h : Rated data quality) :
    optionalStr data "connection_quality" = some (quality.map QualitySnapshot.rating) := by
  cases quality <;> simp [optionalStr, h.1]

theorem optionalStr_str {name text : String} (h : data.lookup name = some (.str text)) :
    optionalStr data name = some (some text) := by
  simp [optionalStr, h]

theorem optionalStr_none {name : String} (h : data.lookup name = none) : optionalStr data name = some none := by
  simp [optionalStr, h]

theorem instanceIdOf_part (h : data.lookup "instance_id" = none) (instanceId : String) :
    instanceIdOf data instanceId.toList = some instanceId := by
  simp [instanceIdOf, h]

theorem instanceIdOf_str (instanceId : String) (h : data.lookup "instance_id" = some (.str instanceId)) :
    instanceIdOf data instanceId.toList = some instanceId := by
  by_cases hempty : instanceId = ""
  · subst hempty
    simp [instanceIdOf, h]
  · simp [instanceIdOf, h, hempty]

theorem activeRow_carries (hid : ':' ∉ payload.instanceId.toList) (h : Carries payload (.object data))
    (hrated : Rated data quality) : activeRow v (sessionKey cid payload, some (.object data)) =
      some (some (shown cid payload.instanceId (some payload) quality)) := by
  have hparts := keyParts_activeSession hid cid.colon_notMem_str
  have hfield : ∀ p ∈ payload.json, data.lookup p.1 = some p.2 := h
  simp only [ActivePayload.json, List.forall_mem_cons] at hfield
  obtain ⟨husername, hdisplay, haddress, hport, hclient, hstarted, hinstance, -⟩ := hfield
  have hdisplay' : optionalStr data "server_display" = some payload.serverDisplay := by
    cases hd : payload.serverDisplay <;> simp [optionalStr, hdisplay, hd]
  simp [activeRow, sessionKey, hparts, publishBase, qualityOf_rated hrated, optionalStr_rated hrated,
    instanceIdOf_str _ hinstance, hdisplay', serverPort, hport, optionalStr_str husername, optionalStr_str haddress,
    optionalStr_str hclient, optionalStr_str hstarted, shown]

theorem activeRow_bare (hid : ':' ∉ payload.instanceId.toList) {raw : Option ActiveValue}
    (h : Bare payload (publishBase raw)) (hrated : Rated (publishBase raw) quality) :
    activeRow v (sessionKey cid payload, raw) = some (some (shown cid payload.instanceId none quality)) := by
  have hparts := keyParts_activeSession hid cid.colon_notMem_str
  simp only [Bare, ActivePayload.json, List.forall_mem_cons] at h
  obtain ⟨husername, hdisplay, haddress, hport, hclient, hstarted, hinstance, -⟩ := h
  simp [activeRow, sessionKey, hparts, qualityOf_rated hrated, optionalStr_rated hrated,
    instanceIdOf_part hinstance, serverPort, hport, optionalStr_none husername, optionalStr_none hdisplay,
    optionalStr_none haddress, optionalStr_none hclient, optionalStr_none hstarted, shown]

/-! ## Runs -/

theorem sessionKey_cid {cid cid' : Uuid} {payload payload' : ActivePayload}
    (h : sessionKey cid payload = sessionKey cid' payload') : cid = cid' := by
  have hstr := ((activeSession_inj cid.colon_notMem_str cid'.colon_notMem_str).mp h).2
  have hparse := congrArg Uuid.parse hstr
  rw [Uuid.parse_str, Uuid.parse_str] at hparse
  exact Option.some_inj.mp hparse

/-- The value is one of the connection that has the key. -/
def Belongs (started : List (Uuid × ActivePayload)) (key : List Char) (value : ActiveValue) : Prop :=
  ∃ cid payload, started.lookup cid = some payload ∧ key = sessionKey cid payload ∧ Fits payload value

theorem step_eq_some (h : step w a = some w') : ∃ k, a.onKeys w = some k ∧ KeyScan.step w.page k = some w'.page ∧
    w'.started = a.starts ++ w.started := by
  obtain ⟨k, hk, hstep⟩ := Option.bind_eq_some_iff.mp h
  obtain ⟨page, hpage, rfl⟩ := Option.map_eq_some_iff.mp hstep
  exact ⟨k, hk, hpage, rfl⟩

theorem lookup_starts (h : step w a = some w') {cid : Uuid} {payload : ActivePayload}
    (hstarted : w.started.lookup cid = some payload) : w'.started.lookup cid = some payload := by
  obtain ⟨k, hk, -, hstarts⟩ := step_eq_some h
  rw [hstarts]
  cases a with
  | start cid' payload' =>
    simp only [Act.onKeys, Option.ite_none_right_eq_some, Option.isNone_iff_eq_none] at hk
    have hne : cid ≠ cid' := by
      rintro rfl
      rw [hk.1] at hstarted
      cases hstarted
    show List.lookup cid ((cid', payload') :: w.started) = some payload
    rw [List.lookup_cons, beq_false_of_ne hne]
    exact hstarted
  | _ => exact hstarted

theorem found_fits (hw : KeyScan.Holds (Belongs w.started) w.page) (hstarted : w.started.lookup cid = some payload) :
    ∀ value, w.page.store.get? (sessionKey cid payload) = some value → Fits payload value := by
  intro value hvalue
  obtain ⟨cid', payload', hlookup, hkey, hfits⟩ := hw.store _ _ hvalue
  have hcid := sessionKey_cid hkey
  subst hcid
  rw [hstarted] at hlookup
  cases hlookup
  exact hfits

theorem step_holds (hw : KeyScan.Holds (Belongs w.started) w.page) (h : step w a = some w') :
    KeyScan.Holds (Belongs w'.started) w'.page := by
  obtain ⟨k, hk, hstep, hstarts⟩ := step_eq_some h
  have hmono : ∀ key value, Belongs w.started key value → Belongs w'.started key value := by
    rintro key value ⟨cid, payload, hlookup, hkey, hfits⟩
    exact ⟨cid, payload, lookup_starts h hlookup, hkey, hfits⟩
  refine (hw.mono hmono).step ?_ hstep
  intro key value hset
  subst hset
  cases a with
  | start cid payload =>
    simp only [Act.onKeys, Option.ite_none_right_eq_some, Option.some.injEq, KeyScan.Act.set.injEq] at hk
    obtain ⟨-, rfl, rfl⟩ := hk
    exact ⟨cid, payload, by simp [hstarts, Act.starts], rfl, start_fits payload⟩
  | publish cid snapshot =>
    obtain ⟨payload, hlookup, hk⟩ := Option.map_eq_some_iff.mp hk
    simp only [KeyScan.Act.set.injEq] at hk
    obtain ⟨rfl, rfl⟩ := hk
    exact ⟨cid, payload, lookup_starts h hlookup, rfl, publish_fits (found_fits hw hlookup) snapshot⟩
  | _ => cases hk

theorem run_holds (hrun : run step initial es = some w) : KeyScan.Holds (Belongs w.started) w.page := by
  refine run_keeps (I := fun w => KeyScan.Holds (Belongs w.started) w.page) ?_ hrun ?_
  · intro w a w' hw h
    exact step_holds hw h
  · refine ⟨?_, ?_, ?_⟩
    · intro key value hvalue
      simp [initial] at hvalue
    · rintro l ⟨⟩
    · rintro l ⟨⟩

theorem run_starts (hrun : run step initial es = some w) (h : (cid, payload) ∈ w.started) : .start cid payload ∈ es := by
  revert cid payload
  refine run_history (I := fun es w => ∀ {cid payload}, (cid, payload) ∈ w.started → .start cid payload ∈ es) ?_ ?_ hrun
  · intro cid payload hmem
    cases hmem
  · intro done w₁ a w₂ _ ih hstep cid payload hmem
    obtain ⟨k, -, -, hstarts⟩ := step_eq_some hstep
    rw [hstarts, List.mem_append] at hmem
    rcases hmem with hmem | hmem
    · cases a with
      | start cid' payload' =>
        simp only [Act.starts, List.mem_singleton, Prod.mk.injEq] at hmem
        obtain ⟨rfl, rfl⟩ := hmem
        exact List.mem_append_right _ (List.mem_singleton_self _)
      | _ => cases hmem
    · exact List.mem_append_left _ (ih hmem)

theorem run_lookup (hrun : run step initial es = some w) (h : .start cid payload ∈ es) :
    w.started.lookup cid = some payload := by
  revert h
  refine run_history (I := fun es w => .start cid payload ∈ es → w.started.lookup cid = some payload) ?_ ?_ hrun
  · intro hmem
    cases hmem
  · intro done w₁ a w₂ _ ih hstep hmem
    rcases List.mem_append.mp hmem with hmem | hmem
    · exact lookup_starts hstep (ih hmem)
    · rw [List.mem_singleton] at hmem
      subst hmem
      obtain ⟨k, -, -, hstarts⟩ := step_eq_some hstep
      simp [hstarts, Act.starts]

theorem step_kept (hkept : KeyScan.Kept (Carries payload) (sessionKey cid payload) w.page)
    (hstarted : w.started.lookup cid = some payload) (hnot : a ≠ .delete (sessionKey cid payload))
    (h : step w a = some w') : KeyScan.Kept (Carries payload) (sessionKey cid payload) w'.page := by
  obtain ⟨k, hk, hstep, -⟩ := step_eq_some h
  refine hkept.step ?_ hstep
  cases a with
  | start cid' payload' =>
    simp only [Act.onKeys, Option.ite_none_right_eq_some, Option.isNone_iff_eq_none, Option.some.injEq] at hk
    obtain ⟨hnew, rfl⟩ := hk
    intro hkey
    rw [sessionKey_cid hkey, hstarted] at hnew
    cases hnew
  | publish cid' snapshot =>
    obtain ⟨payload', -, rfl⟩ := Option.map_eq_some_iff.mp hk
    intro hkey
    obtain ⟨value, hvalue, hcarries⟩ := hkept.value
    rw [hkey, hvalue]
    exact publishData_carries snapshot hcarries
  | delete key =>
    cases hk
    rintro rfl
    exact hnot rfl
  | request =>
    cases hk
    trivial
  | scan page last =>
    cases hk
    trivial
  | get =>
    cases hk
    trivial

/-! ## The page -/

theorem mapM_shown {α β : Type} {f : α → Option (Option β)} {rows : List α}
    (h : ∀ row ∈ rows, ∃ s, f row = some (some s)) :
    ∃ sessions, (rows.mapM f).map (List.filterMap id) = some sessions ∧
      ∀ s, s ∈ sessions ↔ ∃ row ∈ rows, f row = some (some s) := by
  induction rows with
  | nil => exact ⟨[], rfl, by simp⟩
  | cons row rows ih =>
    obtain ⟨s, hs⟩ := h row List.mem_cons_self
    obtain ⟨sessions, hsessions, hmem⟩ := ih fun row' hrow => h row' (List.mem_cons_of_mem row hrow)
    obtain ⟨found, hfound, rfl⟩ := Option.map_eq_some_iff.mp hsessions
    refine ⟨s :: found.filterMap id, by simp [hs, hfound], ?_⟩
    intro s'
    have hhead : f row = some (some s') ↔ s' = s := by
      rw [hs]
      simp [eq_comm]
    rw [List.mem_cons, hmem, List.exists_mem_cons_iff, hhead]

/-- The row of a connection. -/
def RowOf (started : List (Uuid × ActivePayload)) (s : ActiveSessionOut) : Prop :=
  ∃ cid payload quality, started.lookup cid = some payload ∧
    (s = shown cid payload.instanceId (some payload) quality ∨ s = shown cid payload.instanceId none quality)

theorem activeRow_belongs {started : List (Uuid × ActivePayload)} (v : Validator)
    (hids : ∀ cid payload, started.lookup cid = some payload → ':' ∉ payload.instanceId.toList)
    {row : List Char × Option ActiveValue} (hkey : ∃ value, Belongs started row.1 value)
    (hvalue : ∀ value, row.2 = some value → Belongs started row.1 value) :
    ∃ s, activeRow v row = some (some s) ∧ RowOf started s := by
  obtain ⟨key, raw⟩ := row
  cases raw with
  | none =>
    obtain ⟨-, cid, payload, hlookup, rfl, -⟩ := hkey
    have hrow : activeRow v (sessionKey cid payload, none) = some (some (shown cid payload.instanceId none none)) :=
      activeRow_bare (hids cid payload hlookup) (fun _ _ => rfl) ⟨rfl, rfl⟩
    exact ⟨_, hrow, cid, payload, none, hlookup, .inr rfl⟩
  | some value =>
    obtain ⟨cid, payload, hlookup, hkey, hfits⟩ := hvalue value rfl
    dsimp only at hkey
    subst hkey
    cases value with
    | one => exact hfits.elim
    | object data =>
      obtain ⟨hcarries | hbare, quality, hrated⟩ := hfits
      · have hrow : activeRow v (sessionKey cid payload, some (.object data)) =
            some (some (shown cid payload.instanceId (some payload) quality)) :=
          activeRow_carries (hids cid payload hlookup) hcarries hrated
        exact ⟨_, hrow, cid, payload, quality, hlookup, .inl rfl⟩
      · have hrow : activeRow v (sessionKey cid payload, some (.object data)) =
            some (some (shown cid payload.instanceId none quality)) :=
          activeRow_bare (hids cid payload hlookup) hbare hrated
        exact ⟨_, hrow, cid, payload, quality, hlookup, .inr rfl⟩

theorem mem_of_lookup {started : List (Uuid × ActivePayload)} (h : started.lookup cid = some payload) :
    (cid, payload) ∈ started := by
  obtain ⟨l₁, l₂, rfl, -⟩ := List.lookup_eq_some_iff.mp h
  simp

theorem kept_row {before after : List Act} {w₀ : World} {l : KeyScan.Listing (List Char) ActiveValue}
    (hbefore : run step initial before = some w₀) (hrun : run step w₀ (.request :: after) = some w)
    (hlisting : w.page.listing = some l) (hdone : l.Done) (hstart : .start cid payload ∈ before)
    (hvalue : w₀.page.store.get? (sessionKey cid payload) = some value) (hcarries : Carries payload value)
    (hnot : .delete (sessionKey cid payload) ∉ after) :
    ∃ data quality, (sessionKey cid payload, some (.object data)) ∈ l.rows ∧ Carries payload (.object data) ∧
      Rated data quality := by
  obtain ⟨w₁, hrequest, hafter⟩ := run_cons_eq_some.mp hrun
  have hlookup := run_lookup hbefore hstart
  have hnone : w₀.page.listing = none := by
    obtain ⟨k, hk, hstep, -⟩ := step_eq_some hrequest
    cases hk
    simp only [KeyScan.step, Option.ite_none_right_eq_some, Option.isNone_iff_eq_none] at hstep
    exact hstep.1
  have hkept₀ : KeyScan.Kept (Carries payload) (sessionKey cid payload) w₀.page := by
    refine ⟨⟨value, hvalue, hcarries⟩, ?_⟩
    intro l hl
    rw [hnone] at hl
    cases hl
  have hkept : KeyScan.Kept (Carries payload) (sessionKey cid payload) w.page := by
    have hboth := run_history
      (I := fun done w => .delete (sessionKey cid payload) ∉ done →
        KeyScan.Kept (Carries payload) (sessionKey cid payload) w.page ∧ w.started.lookup cid = some payload) ?_ ?_ hafter
    · exact (hboth hnot).1
    · exact fun _ => ⟨step_kept hkept₀ hlookup (by simp) hrequest, lookup_starts hrequest hlookup⟩
    · intro done w₂ a w₃ _ ih hstep hall
      rw [List.mem_append, not_or] at hall
      obtain ⟨hkept, hstarted⟩ := ih hall.1
      have ha : a ≠ .delete (sessionKey cid payload) := fun heq => hall.2 (by simp [heq])
      exact ⟨step_kept hkept hstarted ha hstep, lookup_starts hstep hstarted⟩
  obtain ⟨read, hrow, hread⟩ := (hkept.covered l hlisting).row hdone
  have hwhole : run step initial (before ++ .request :: after) = some w :=
    run_append_eq_some.mpr ⟨w₀, hbefore, hrun⟩
  obtain ⟨cid', payload', -, -, hfits⟩ := ((run_holds hwhole).rows l hlisting _ hrow).2 read rfl
  cases read with
  | one => exact hread.elim
  | object data =>
    obtain ⟨-, quality, hrated⟩ := hfits
    exact ⟨data, quality, hrow, hread, hrated⟩

/-- The page never fails. It shows every connection whose key is there, with its fields, when the page is asked for and
is not deleted before the page is done; and it shows nothing but connections that were started, each with all the fields
of its start or with none. -/
theorem page_shows (v : Validator) {before after : List Act} {w₀ : World}
    {l : KeyScan.Listing (List Char) ActiveValue} (hbefore : run step initial before = some w₀)
    (hrun : run step w₀ (.request :: after) = some w) (hlisting : w.page.listing = some l) (hdone : l.Done)
    (hids : ∀ cid payload, .start cid payload ∈ before ++ .request :: after → ':' ∉ payload.instanceId.toList) :
    ∃ sessions, activeSessions v l.rows = some sessions ∧ (∀ s ∈ sessions, RowOf w.started s) ∧
      ∀ cid payload value, .start cid payload ∈ before →
        w₀.page.store.get? (sessionKey cid payload) = some value → Carries payload value →
        .delete (sessionKey cid payload) ∉ after →
        ∃ quality, shown cid payload.instanceId (some payload) quality ∈ sessions := by
  have hwhole : run step initial (before ++ .request :: after) = some w :=
    run_append_eq_some.mpr ⟨w₀, hbefore, hrun⟩
  have hholds := run_holds hwhole
  have hids' : ∀ cid payload, w.started.lookup cid = some payload → ':' ∉ payload.instanceId.toList := by
    intro cid payload hlookup
    exact hids cid payload (run_starts hwhole (mem_of_lookup hlookup))
  have hrows : ∀ row ∈ l.rows, ∃ s, activeRow v row = some (some s) ∧ RowOf w.started s := by
    intro row hrow
    obtain ⟨hkey, hvalue⟩ := hholds.rows l hlisting row hrow
    exact activeRow_belongs v hids' hkey hvalue
  obtain ⟨sessions, hsessions, hmem⟩ := mapM_shown fun row hrow => (hrows row hrow).imp fun s hs => hs.1
  refine ⟨sessions, hsessions, ?_, ?_⟩
  · intro s hs
    obtain ⟨row, hrow, hshown⟩ := (hmem s).mp hs
    obtain ⟨s', hs', hof⟩ := hrows row hrow
    rw [hshown] at hs'
    cases hs'
    exact hof
  · intro cid payload value hstart hvalue hcarries hnot
    obtain ⟨data, quality, hrow, hdata, hrated⟩ := kept_row hbefore hrun hlisting hdone hstart hvalue hcarries hnot
    have hlookup : w.started.lookup cid = some payload := run_lookup hwhole (List.mem_append_left _ hstart)
    exact ⟨quality, (hmem _).mpr ⟨_, hrow, activeRow_carries (hids' cid payload hlookup) hdata hrated⟩⟩

/-! ### One connection -/

def floatField (fields : JsonObject) (name : String) : Option Rat :=
  match fields.lookup name with
  | some (.float q) => some q
  | _ => none

def intField (fields : JsonObject) (name : String) : Option Int :=
  match fields.lookup name with
  | some (.int n) => some n
  | _ => none

def strField (fields : JsonObject) (name : String) : Option String :=
  match fields.lookup name with
  | some (.str s) => some s
  | _ => none

def byType : Validator where
  qualityDetail fields := some
    ⟨floatField fields "rtt_ms", floatField fields "rtt_var_ms", floatField fields "jitter_ms",
      intField fields "retransmits", intField fields "total_retrans", intField fields "lost", intField fields "cwnd",
      strField fields "rating"⟩
  asdict _ := rfl

def sampleCid : Uuid := ⟨List.replicate 32 (Uuid.lastDigit 7), by decide⟩

def sampleStarted : List Act := [.start sampleCid samplePayload, .publish sampleCid sampleSnapshot]

def sampleListed : List Act :=
  [.scan [sessionKey sampleCid samplePayload] false, .publish sampleCid sampleSnapshot,
    .scan [sessionKey sampleCid samplePayload] true, .get, .get]

def sampleEnd : World := (run step ((run step initial sampleStarted).getD initial) (.request :: sampleListed)).getD initial

theorem sample_shown : ∃ sessions,
    activeSessions byType ((sampleEnd.page.listing.getD ⟨[], true, [], []⟩).rows) = some sessions ∧
      ∃ quality, shown sampleCid samplePayload.instanceId (some samplePayload) quality ∈ sessions := by
  have hbefore : run step initial sampleStarted = some ((run step initial sampleStarted).getD initial) := rfl
  have hrun : run step ((run step initial sampleStarted).getD initial) (.request :: sampleListed) = some sampleEnd := rfl
  have hlisting : sampleEnd.page.listing = some (sampleEnd.page.listing.getD ⟨[], true, [], []⟩) := rfl
  have hids : ∀ cid payload, .start cid payload ∈ sampleStarted ++ .request :: sampleListed →
      ':' ∉ payload.instanceId.toList := by
    intro cid payload hmem
    simp only [sampleStarted, sampleListed, List.cons_append, List.nil_append, List.mem_cons, reduceCtorEq,
      List.not_mem_nil, or_false, Act.start.injEq] at hmem
    obtain ⟨rfl, rfl⟩ := hmem
    decide
  obtain ⟨sessions, hsessions, -, hall⟩ := page_shows byType hbefore hrun hlisting ⟨rfl, rfl⟩ hids
  have hcarries : Carries samplePayload (.object (publishData (some (.object samplePayload.json)) sampleSnapshot)) :=
    publishData_carries sampleSnapshot (json_carries samplePayload)
  have hnot : .delete (sessionKey sampleCid samplePayload) ∉ sampleListed := by simp [sampleListed]
  exact ⟨sessions, hsessions, hall sampleCid samplePayload _ (by simp [sampleStarted]) rfl hcarries hnot⟩

end RdpProxy.Admin.ActivePage
