import RdpProxy.Lib.Dict
import RdpProxy.Lib.Steps

/-!
# The settings manager

`settings_manager.py`: the rows of `portal_settings`, the cache in front of them, and the
YAML values behind them. `V` is the type of the JSON values inside a setting.
-/

namespace RdpProxy.Config

variable {V : Type}

/-! ## Values -/

abbrev Setting (V : Type) := Dict String V

/-- The JSON in the column `value`. -/
inductive RowValue (V : Type) where
  | dict (d : Setting V)
  | other
  deriving DecidableEq

/-- What the manager does with single values. -/
structure Values (V : Type) where
  text : String → V
  truthy : V → Bool

/-- The sections of the YAML file that back the settings, as `model_dump()` gives them. -/
structure AppConfig (V : Type) where
  ldap : Option (Setting V)
  dns : Setting V
  publicHost : V
  publicPort : V
  security : Setting V
  webSessionTtl : V
  webIdleTtl : V
  rdpTokenTtl : V
  maxConnections : V
  idleTimeout : V
  maxSessionDuration : V

def managedKeys : List String := ["ldap", "dns", "proxy", "security", "redis_ttl", "portal", "relay"]

/-- In milliseconds. -/
def ttl : Int := 30000

def AppConfig.getFallback (base : AppConfig V) (vals : Values V) (key : String) : Option (Setting V) :=
  match key with
  | "ldap" => base.ldap
  | "dns" => some base.dns
  | "proxy" => some (.ofList [("public_host", base.publicHost), ("public_port", base.publicPort)])
  | "security" => some (base.security.pop "encryption_key")
  | "redis_ttl" =>
    some (.ofList [("web_session_ttl", base.webSessionTtl), ("web_idle_ttl", base.webIdleTtl),
      ("rdp_token_ttl", base.rdpTokenTtl)])
  | "relay" =>
    some (.ofList [("max_connections", base.maxConnections), ("idle_timeout", base.idleTimeout),
      ("max_session_duration", base.maxSessionDuration)])
  | "portal" => some (.ofList [("name", vals.text "RDP-Proxy")])
  | _ => none

/-! ## What is written where -/

/-- The value without the plain password. `cipher` is what `_encrypt_password` gives this time. -/
def storeValue (vals : Values V) (key : String) (value : Setting V) (cipher : V) : Setting V :=
  if key = "ldap" then
    match value.get? "bind_password" with
    | none => value
    | some pwd =>
      if vals.truthy pwd then (value.pop "bind_password").set "bind_password_enc" cipher
      else value.pop "bind_password"
  else value

/-- The legacy key goes where the new one is set. -/
def dropListenPort (key : String) (stored d : Setting V) : Setting V :=
  if key = "proxy" ∧ stored.has "public_port" then d.pop "listen_port" else d

/-- What `save` leaves in the row. -/
def savedRow (key : String) (stored : Setting V) : Option (RowValue V) → Setting V
  | none => dropListenPort key stored stored
  | some (.dict d) => dropListenPort key stored (d.merge stored)
  | some .other => stored

/-- What `save` leaves in the cache. -/
def savedCache (key : String) (stored : Setting V) : Option (Setting V) → Setting V
  | some cached => dropListenPort key stored (cached.merge stored)
  | none => dropListenPort key stored stored

/-- What `load` takes from a row. -/
def loadedRow (key : String) : Option (RowValue V) → Option (Setting V)
  | some (.dict d) => some (dropListenPort key d d)
  | _ => none

/-- The subkeys of the YAML value that the cache lacks. -/
def missing (key : String) (fallback cached : Setting V) : Setting V :=
  (if key = "ldap" then fallback.pop "bind_password" else fallback).filterKeys fun k => !cached.has k

/-- What `_seed_from_yaml` writes, into the row and into the cache. -/
def seedValue (base : AppConfig V) (vals : Values V) (cipher : V) (key : String) (cached : Option (Setting V))
    (row : Option (RowValue V)) : Option (Setting V) :=
  match base.getFallback vals key with
  | none => none
  | some fallback =>
    if fallback.entries.isEmpty then none
    else
      match cached, row with
      | none, none => some (storeValue vals key fallback cipher)
      | none, some _ => none
      | some cached, some (.dict d) =>
        if (missing key fallback cached).entries.isEmpty then none
        else some (d.merge (missing key fallback cached))
      | some _, _ => none

theorem seedValue_cases {base : AppConfig V} {vals : Values V} {cipher : V} {key : String} {cached : Option (Setting V)}
    {row : Option (RowValue V)} {value : Setting V} (h : seedValue base vals cipher key cached row = some value) :
    ∃ fallback, base.getFallback vals key = some fallback ∧
      (cached = none ∧ row = none ∧ value = storeValue vals key fallback cipher ∨
        ∃ cd d, cached = some cd ∧ row = some (.dict d) ∧ value = d.merge (missing key fallback cd)) := by
  unfold seedValue at h
  rcases hf : base.getFallback vals key with _ | fallback
  · rw [hf] at h
    cases h
  · rw [hf] at h
    simp only at h
    refine ⟨fallback, rfl, ?_⟩
    split_ifs at h
    rcases cached with _ | cd
    · rcases row with _ | _
      · cases h
        exact Or.inl ⟨rfl, rfl, rfl⟩
      · cases h
    · rcases row with _ | d | _
      · cases h
      · simp only at h
        split_ifs at h
        cases h
        exact Or.inr ⟨cd, d, rfl, rfl, rfl⟩
      · cases h

theorem missing_of_cached {key : String} {fallback cd : Setting V} {f : String} {x : V} (h : cd.get? f = some x) :
    (missing key fallback cd).get? f = none := by
  unfold missing
  rw [Dict.get?_filterKeys]
  simp [Dict.has, h]

/-! ## The manager -/

structure Settings (V : Type) where
  rows : String → Option (RowValue V)
  cache : String → Option (Setting V)
  loadedAt : Int
  seeded : Bool

namespace Settings

def setBoth (s : Settings V) (key : String) (d : Setting V) : Settings V :=
  { s with rows := Function.update s.rows key (some (.dict d)), cache := Function.update s.cache key (some d) }

/-- One turn of the loop in `_seed_from_yaml`. -/
def seedKey (base : AppConfig V) (vals : Values V) (cipher : V) (s : Settings V) (key : String) : Settings V :=
  match seedValue base vals cipher key (s.cache key) (s.rows key) with
  | none => s
  | some d => s.setBoth key d

def seedFromYaml (base : AppConfig V) (vals : Values V) (cipher : V) (s : Settings V) : Settings V :=
  { managedKeys.foldl (seedKey base vals cipher) s with seeded := true }

def refresh (s : Settings V) (now : Int) : Settings V :=
  { s with cache := fun key => loadedRow key (s.rows key), loadedAt := now }

def load (base : AppConfig V) (vals : Values V) (now : Int) (cipher : V) (s : Settings V) : Settings V :=
  if s.seeded then s.refresh now else (s.refresh now).seedFromYaml base vals cipher

/-- `load` where the database has answered for some of the keys only while they are seeded. -/
def loadReaching (base : AppConfig V) (vals : Values V) (reached : String → Bool) (now : Int) (cipher : V)
    (s : Settings V) : Settings V :=
  if s.seeded then s.refresh now
  else { (managedKeys.filter reached).foldl (seedKey base vals cipher) (s.refresh now) with seeded := true }

theorem loadReaching_all (base : AppConfig V) (vals : Values V) (now : Int) (cipher : V) (s : Settings V) :
    s.loadReaching base vals (fun _ => true) now cipher = s.load base vals now cipher := by
  unfold loadReaching load seedFromYaml
  rw [List.filter_true]

/-- The part of `get` that may change something. -/
def refreshIfStale (base : AppConfig V) (vals : Values V) (now : Int) (cipher : V) (s : Settings V) : Settings V :=
  if now - s.loadedAt > ttl then s.load base vals now cipher else s

def save (vals : Values V) (key : String) (value : Setting V) (now : Int) (cipher : V) (s : Settings V) :
    Settings V :=
  let stored := storeValue vals key value cipher
  { s with
    rows := Function.update s.rows key (some (.dict (savedRow key stored (s.rows key))))
    cache := Function.update s.cache key (some (savedCache key stored (s.cache key)))
    loadedAt := now }

structure ProxyParams (V : Type) where
  publicHost : V
  publicPort : V

def proxyParams (base : AppConfig V) (s : Settings V) : ProxyParams V :=
  match s.cache "proxy" with
  | none => ⟨base.publicHost, base.publicPort⟩
  | some raw =>
    ⟨(raw.get? "public_host").getD base.publicHost,
      (raw.get? "public_port").getD ((raw.get? "listen_port").getD base.publicPort)⟩

/-- A manager that has just been made. -/
def initial (rows : String → Option (RowValue V)) : Settings V := ⟨rows, fun _ => none, 0, false⟩

/-! ## What a call leaves in the rows and the cache -/

theorem seedKey_rows (base : AppConfig V) (vals : Values V) (cipher : V) (s : Settings V) (key k : String) :
    (seedKey base vals cipher s key).rows k =
      if k = key then ((seedValue base vals cipher key (s.cache key) (s.rows key)).map RowValue.dict).or (s.rows key)
      else s.rows k := by
  unfold seedKey
  cases seedValue base vals cipher key (s.cache key) (s.rows key) with
  | none =>
    split_ifs with h
    · rw [h]; rfl
    · rfl
  | some d =>
    unfold setBoth
    simp only [Function.update_apply]
    rfl

theorem seedKey_cache (base : AppConfig V) (vals : Values V) (cipher : V) (s : Settings V) (key k : String) :
    (seedKey base vals cipher s key).cache k =
      if k = key then (seedValue base vals cipher key (s.cache key) (s.rows key)).or (s.cache key)
      else s.cache k := by
  unfold seedKey
  cases seedValue base vals cipher key (s.cache key) (s.rows key) with
  | none =>
    split_ifs with h
    · rw [h]; rfl
    · rfl
  | some d =>
    unfold setBoth
    simp only [Function.update_apply]
    rfl

theorem save_rows (vals : Values V) (key : String) (value : Setting V) (now : Int) (cipher : V) (s : Settings V)
    (k : String) : (s.save vals key value now cipher).rows k =
      if k = key then some (.dict (savedRow key (storeValue vals key value cipher) (s.rows key))) else s.rows k :=
  Function.update_apply ..

theorem save_cache (vals : Values V) (key : String) (value : Setting V) (now : Int) (cipher : V) (s : Settings V)
    (k : String) : (s.save vals key value now cipher).cache k =
      if k = key then some (savedCache key (storeValue vals key value cipher) (s.cache key)) else s.cache k :=
  Function.update_apply ..

theorem foldl_seedKey_of_notMem (base : AppConfig V) (vals : Values V) (cipher : V) {k : String} {keys : List String}
    (s : Settings V) (h : k ∉ keys) :
    (keys.foldl (seedKey base vals cipher) s).rows k = s.rows k ∧
      (keys.foldl (seedKey base vals cipher) s).cache k = s.cache k := by
  induction keys generalizing s with
  | nil => exact ⟨rfl, rfl⟩
  | cons key rest ih =>
    rw [List.mem_cons, not_or] at h
    obtain ⟨hrows, hcache⟩ := ih (seedKey base vals cipher s key) h.2
    rw [seedKey_rows, if_neg h.1] at hrows
    rw [seedKey_cache, if_neg h.1] at hcache
    exact ⟨hrows, hcache⟩

theorem foldl_seedKey (base : AppConfig V) (vals : Values V) (cipher : V) (k : String)
    (keys : List String) (hkeys : keys.Nodup) (s : Settings V) (hk : k ∈ keys) :
    (keys.foldl (seedKey base vals cipher) s).rows k =
        ((seedValue base vals cipher k (s.cache k) (s.rows k)).map RowValue.dict).or (s.rows k) ∧
      (keys.foldl (seedKey base vals cipher) s).cache k =
        (seedValue base vals cipher k (s.cache k) (s.rows k)).or (s.cache k) := by
  induction keys generalizing s with
  | nil => cases hk
  | cons key rest ih =>
    obtain ⟨hhead, hrest⟩ := List.nodup_cons.mp hkeys
    rw [List.foldl_cons]
    rcases List.mem_cons.mp hk with rfl | hmem
    · obtain ⟨hrows, hcache⟩ := foldl_seedKey_of_notMem base vals cipher (seedKey base vals cipher s k) hhead
      rw [hrows, hcache, seedKey_rows, seedKey_cache, if_pos rfl, if_pos rfl]
      exact ⟨rfl, rfl⟩
    · have hne : k ≠ key := by
        rintro rfl
        exact hhead hmem
      have hstep := ih hrest (seedKey base vals cipher s key) hmem
      rw [seedKey_rows, seedKey_cache, if_neg hne, if_neg hne] at hstep
      exact hstep

theorem loadReaching_cases (base : AppConfig V) (vals : Values V) (reached : String → Bool) (now : Int) (cipher : V)
    (s : Settings V) {k : String} (hk : k ∈ managedKeys) :
    let s' := s.loadReaching base vals reached now cipher
    s'.rows k = s.rows k ∧ s'.cache k = loadedRow k (s.rows k) ∨
      s'.rows k = ((seedValue base vals cipher k (loadedRow k (s.rows k)) (s.rows k)).map RowValue.dict).or (s.rows k) ∧
        s'.cache k = (seedValue base vals cipher k (loadedRow k (s.rows k)) (s.rows k)).or (loadedRow k (s.rows k)) := by
  intro s'
  have hs' : s' = s.loadReaching base vals reached now cipher := rfl
  unfold loadReaching at hs'
  split_ifs at hs'
  · rw [hs']
    exact Or.inl ⟨rfl, rfl⟩
  · rcases hreached : reached k with _ | _
    · have hnot : k ∉ managedKeys.filter reached := by simp [hreached]
      obtain ⟨hrows, hcache⟩ := foldl_seedKey_of_notMem base vals cipher (s.refresh now) hnot
      rw [hs']
      exact Or.inl ⟨hrows, hcache⟩
    · have hmem : k ∈ managedKeys.filter reached := List.mem_filter.mpr ⟨hk, hreached⟩
      obtain ⟨hrows, hcache⟩ := foldl_seedKey base vals cipher k _ (List.Nodup.filter _ (by decide)) (s.refresh now) hmem
      rw [hs']
      exact Or.inr ⟨hrows, hcache⟩

end Settings

end RdpProxy.Config
