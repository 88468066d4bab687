import RdpProxy.Config.PutSettings
import RdpProxy.Lib.Steps

/-!
# The lifetimes of sessions, from the settings page to the session stores

A saved `redis_ttl` reaches the store of the admin service by the hook as it is, and every
store by `SettingsManager.redis_ttl`, which makes integers of the numbers and passes over the rest.
-/

open Steps

namespace RdpProxy.Config

variable {N : Type}

/-! ## The source -/

/-- What the services share: the YAML file and the libraries. -/
structure Installation (N : Type) where
  base : AppConfig Json
  encryptor : Encryptor N Json
  ldapConfig : Setting Json → Option (Setting Json)
  dnsConfig : Setting Json → Option (Setting Json)
  /-- The longest lifetime, in seconds, that the Redis server takes. -/
  longest : Int

def Installation.backing (i : Installation N) : Backing N Json where
  base := i.base
  vals := ⟨.str, Json.truthy⟩
  encryptor := i.encryptor
  number v := v.toInt.map .int
  ldapConfig := i.ldapConfig
  dnsConfig := i.dnsConfig

structure Ttls where
  webTtl : Json
  rdpTokenTtl : Json
  webIdleTtl : Json

namespace Ttls

/-- The entries that are there replace what the store holds. -/
def update (t : Ttls) (find : String → Option Json) : Ttls :=
  ⟨(find "web_session_ttl").getD t.webTtl, (find "rdp_token_ttl").getD t.rdpTokenTtl,
    (find "web_idle_ttl").getD t.webIdleTtl⟩

/-- The lifetime that SETEX gives a key. redis-py sends the text of an `int` or a `float` and a `str` as it is,
and the server takes a positive integer in its usual spelling. -/
def setex (longest : Int) : Json → Option Int
  | .int n => if 0 < n ∧ n ≤ longest then some n else none
  | .str s => (Text.int s.toList).filter fun n => Text.intText n = s.toList ∧ 0 < n ∧ n ≤ longest
  | _ => none

variable (longest : Int) (t : Ttls)

def createSession : Option Int := setex longest t.rdpTokenTtl

def createWebSession : Option Int := setex longest t.webTtl

def createAdminWebSession : Option Int := setex longest t.webTtl

/-- `now - last_seen_ts > self.web_idle_ttl`, and `none` for a `TypeError`. -/
def idleTooLong (elapsed : Int) : Option Bool :=
  match t.webIdleTtl with
  | .bool b => some (b.toNat < elapsed)
  | .int n => some (n < elapsed)
  | .float x => some (x < elapsed)
  | _ => none

end Ttls

inductive Service where
  | admin
  | portal
  | relay
  deriving DecidableEq

/-- What a settings manager holds beside the table. -/
structure Held where
  cache : String → Option (Setting Json)
  loadedAt : Int
  seeded : Bool

/-- One `load`: the time, the ciphertext for the YAML password, and the keys for which the
database answers while they are seeded. -/
structure Load where
  now : Int
  cipher : Json
  reached : String → Bool

structure Services where
  rows : String → Option (RowValue Json)
  held : Service → Held
  store : Service → Ttls
  serving : Service → Bool

def Held.on (h : Held) (rows : String → Option (RowValue Json)) : Settings Json :=
  ⟨rows, h.cache, h.loadedAt, h.seeded⟩

def Held.fresh : Held := ⟨fun _ => none, 0, false⟩

namespace Installation

variable (i : Installation N)

def load (l : Load) : Settings Json → Settings Json :=
  Settings.loadReaching i.base i.backing.vals l.reached l.now l.cipher

/-- What `SessionStore.__init__` takes from the YAML file. -/
def yamlTtls : Ttls := ⟨i.base.webSessionTtl, i.base.rdpTokenTtl, i.base.webIdleTtl⟩

end Installation

namespace Services

variable (i : Installation N) (d : Services)

def settings (svc : Service) : Settings Json := (d.held svc).on d.rows

def setSettings (svc : Service) (s : Settings Json) : Services :=
  { d with rows := s.rows, held := Function.update d.held svc ⟨s.cache, s.loadedAt, s.seeded⟩ }

def setStore (svc : Service) (t : Ttls) : Services := { d with store := Function.update d.store svc t }

/-- What `_on_redis_ttl_change` installs for a saved value: `get` finds the cache fresh. -/
def onRedisTtlChange : Ttls := (d.store .admin).update ((d.settings .admin).get i.backing "redis_ttl").get?

/-- What a service installs behind a `load`. -/
def loadedTtls (svc : Service) (l : Load) : Ttls :=
  (d.store svc).update ((i.load l (d.settings svc)).redisTtl i.backing).get?

def loadSettings (svc : Service) (l : Load) : Services := d.setSettings svc (i.load l (d.settings svc))

def reload (svc : Service) (l : Load) : Services := (d.loadSettings i svc l).setStore svc (d.loadedTtls i svc l)

def reapplyPortalSettings : Load → Services := d.reload i .admin

def settingsListener : Service → Load → Services := d.reload i

/-- A process that has just been started, before its first `load`. -/
def restart (svc : Service) : Services :=
  { d with
    held := Function.update d.held svc .fresh
    store := Function.update d.store svc i.yamlTtls
    serving := Function.update d.serving svc true }

def startup (svc : Service) (l : Load) : Services := (d.restart i svc).reload i svc l

/-- `save`, with the hooks. -/
def save (key : String) (value : Setting Json) (now : Int) (cipher : Json) : Services :=
  let d' := d.setSettings .admin ((d.settings .admin).save i.backing.vals key value now cipher)
  if key = "redis_ttl" then d'.setStore .admin (d'.onRedisTtlChange i) else d'

def initial (rows : String → Option (RowValue Json)) : Services :=
  ⟨rows, fun _ => .fresh, fun _ => i.yamlTtls, fun _ => false⟩

end Services

inductive TtlAct where
  /-- A turn of the loop in `put_settings`. One that raises changes nothing. -/
  | put (k : String) (v : Json) (now : Int) (cipher : Json)
  /-- A `load` with nothing behind it: `get` with a stale cache, a reapply that ends early. -/
  | load (svc : Service) (l : Load)
  | reapply (l : Load)
  | listener (svc : Service) (l : Load)
  | startup (svc : Service) (l : Load)

def Services.step (i : Installation N) (d : Services) : TtlAct → Option Services
  | .put k v now cipher =>
    if d.serving .admin then
      match putEntry k v with
      | .ok (some (key, value)) => some (d.save i key value now cipher)
      | _ => some d
    else none
  | .load svc l => if d.serving svc then some (d.loadSettings i svc l) else none
  | .reapply l => if d.serving .admin then some (d.reapplyPortalSettings i l) else none
  | .listener svc l => if d.serving svc ∧ svc ≠ .admin then some (d.settingsListener i svc l) else none
  | .startup svc l => some (d.startup i svc l)

/-! ## What is asked of the stores -/

/-- The lifetimes are integers, every session can be created, and one of this second is not idle. -/
structure Ttls.Fit (longest : Int) (t : Ttls) : Prop where
  webTtl : ∃ n, t.webTtl = .int n ∧ 1 ≤ n
  rdpTokenTtl : ∃ n, t.rdpTokenTtl = .int n ∧ 1 ≤ n
  webIdleTtl : ∃ n, t.webIdleTtl = .int n ∧ 0 ≤ n
  createSession : (t.createSession longest).isSome
  createWebSession : (t.createWebSession longest).isSome
  createAdminWebSession : (t.createAdminWebSession longest).isSome
  fresh : t.idleTooLong 0 = some false

/-- The ways of the lifetimes into a store. -/
inductive Path where
  | hook
  | reapply (l : Load)
  | listener (svc : Service) (l : Load)
  | startup (svc : Service) (l : Load)

namespace Services

variable (i : Installation N)

def installs (d : Services) : Path → Ttls
  | .hook => d.onRedisTtlChange i
  | .reapply l => d.loadedTtls i .admin l
  | .listener svc l => d.loadedTtls i svc l
  | .startup svc l => (d.restart i svc).loadedTtls i svc l

structure Served (d : Services) : Prop where
  fit : ∀ svc, (d.store svc).Fit i.longest
  alike : d.serving .admin = true → ∀ p p', d.installs i p = d.installs i p'

end Services

/-- A lifetime is a positive integer that Redis takes, and an idle time is no negative one. -/
def InRange (longest : Int) (f : String) (x : Json) : Prop :=
  ∃ n, x = .int n ∧ if f = "web_idle_ttl" then 0 ≤ n else 1 ≤ n ∧ n ≤ longest

def ttlNames : List String := ["web_session_ttl", "rdp_token_ttl", "web_idle_ttl"]

def AllInRange (longest : Int) (find : String → Option Json) : Prop :=
  ∀ f ∈ ttlNames, ∀ x, find f = some x → InRange longest f x

/-- What is saved as `redis_ttl`, without its empty entries, is in range. -/
def SavedInRange (longest : Int) : TtlAct → Prop
  | .put k v _ _ => ∀ value, putEntry k v = .ok (some ("redis_ttl", value)) → AllInRange longest value.get?
  | _ => True

/-- The field of a row, none where the row is missing or no `dict`. -/
def rowGet (row : Option (RowValue Json)) (f : String) : Option Json :=
  match row with
  | some (.dict d) => d.get? f
  | _ => none

/-! ## Lifetimes in range -/

namespace Ttls

variable {longest : Int} {t : Ttls}

theorem setex_int {n : Int} : (setex longest (.int n)).isSome = true ↔ 1 ≤ n ∧ n ≤ longest := by
  unfold setex
  dsimp only
  split_ifs with h
  · exact iff_of_true rfl (by omega)
  · exact iff_of_false (by simp) (by omega)

theorem fit_iff : t.Fit longest ↔ InRange longest "web_session_ttl" t.webTtl ∧
    InRange longest "rdp_token_ttl" t.rdpTokenTtl ∧ InRange longest "web_idle_ttl" t.webIdleTtl := by
  constructor
  · intro h
    obtain ⟨web, hweb, _⟩ := h.webTtl
    obtain ⟨rdp, hrdp, _⟩ := h.rdpTokenTtl
    obtain ⟨idle, hidle, hidle₀⟩ := h.webIdleTtl
    have hwebSet := h.createWebSession
    have hrdpSet := h.createSession
    unfold createWebSession at hwebSet
    unfold createSession at hrdpSet
    rw [hweb] at hwebSet
    rw [hrdp] at hrdpSet
    exact ⟨⟨web, hweb, setex_int.mp hwebSet⟩, ⟨rdp, hrdp, setex_int.mp hrdpSet⟩, ⟨idle, hidle, hidle₀⟩⟩
  · rintro ⟨⟨web, hweb, hwebIn⟩, ⟨rdp, hrdp, hrdpIn⟩, ⟨idle, hidle, hidleIn⟩⟩
    have hwebSet : (setex longest t.webTtl).isSome = true := by
      rw [hweb]
      exact setex_int.mpr hwebIn
    refine ⟨⟨web, hweb, hwebIn.1⟩, ⟨rdp, hrdp, hrdpIn.1⟩, ⟨idle, hidle, hidleIn⟩, ?_, hwebSet, hwebSet, ?_⟩
    · unfold createSession
      rw [hrdp]
      exact setex_int.mpr hrdpIn
    · unfold idleTooLong
      have hnot : ¬ idle < 0 := by simpa using hidleIn
      simp [hidle, hnot]

theorem update_congr {find find' : String → Option Json} (h : ∀ f ∈ ttlNames, find f = find' f) :
    t.update find = t.update find' := by
  unfold update
  rw [h "web_session_ttl" (by decide), h "rdp_token_ttl" (by decide), h "web_idle_ttl" (by decide)]

theorem update_update (find find' : String → Option Json) :
    (t.update find').update find = t.update fun f => (find f).or (find' f) := by
  unfold update
  simp only [Option.getD_or]

theorem Fit.update {find : String → Option Json} (h : t.Fit longest) (hfind : AllInRange longest find) :
    (t.update find).Fit longest := by
  obtain ⟨hweb, hrdp, hidle⟩ := fit_iff.mp h
  have hget : ∀ f ∈ ttlNames, ∀ x, InRange longest f x → InRange longest f ((find f).getD x) := by
    intro f hf x hx
    rcases hfound : find f with _ | y
    · exact hx
    · exact hfind f hf y hfound
  exact fit_iff.mpr ⟨hget _ (by decide) _ hweb, hget _ (by decide) _ hrdp, hget _ (by decide) _ hidle⟩

theorem Fit.of_update {find : String → Option Json} (h : (t.update find).Fit longest) : AllInRange longest find := by
  obtain ⟨hweb, hrdp, hidle⟩ := fit_iff.mp h
  intro f hf x hx
  simp only [ttlNames, List.mem_cons, List.not_mem_nil, or_false] at hf
  unfold Ttls.update at hweb hrdp hidle
  rcases hf with rfl | rfl | rfl
  · simpa only [hx, Option.getD_some] using hweb
  · simpa only [hx, Option.getD_some] using hrdp
  · simpa only [hx, Option.getD_some] using hidle

end Ttls

/-! ## What `redis_ttl` makes of the cache -/

section

variable {i : Installation N}

theorem toInt_of_inRange {longest : Int} {f : String} {x : Json} (h : InRange longest f x) :
    i.backing.number x = some x := by
  obtain ⟨n, rfl, _⟩ := h
  rfl

theorem redisTtl_get? (s : Settings Json) (t : Ttls) :
    t.update (s.redisTtl i.backing).get? =
      i.yamlTtls.update fun f => ((s.cache "redis_ttl").bind fun raw => raw.get? f).bind i.backing.number := by
  rfl

/-! ## What a load does to the row -/

def yamlGet (i : Installation N) (f : String) : Option Json :=
  (i.base.getFallback i.backing.vals "redis_ttl").bind fun d => d.get? f

def cacheGet (cached : Option (Setting Json)) (f : String) : Option Json := cached.bind fun d => d.get? f

/-- A load adds fields of the YAML file at most, and leaves the cache as the row is. -/
structure Reloaded (i : Installation N) (before after : Option (RowValue Json)) (cached : Option (Setting Json)) :
    Prop where
  row : ∀ f, rowGet after f = rowGet before f ∨ rowGet before f = none ∧ rowGet after f = yamlGet i f
  cached : ∀ f, cacheGet cached f = rowGet after f

theorem loadedRow_reloaded (row : Option (RowValue Json)) : Reloaded i row row (loadedRow "redis_ttl" row) := by
  refine ⟨fun f => .inl rfl, fun f => ?_⟩
  rcases row with _ | (d | _) <;> rfl

theorem seedValue_reloaded (row : Option (RowValue Json)) (cipher : Json) :
    let value := seedValue i.base i.backing.vals cipher "redis_ttl" (loadedRow "redis_ttl" row) row
    Reloaded i row ((value.map RowValue.dict).or row) (value.or (loadedRow "redis_ttl" row)) := by
  intro value
  rcases hseed : value with _ | d
  · exact loadedRow_reloaded row
  · obtain ⟨fallback, hf, ⟨_, rfl, rfl⟩ | ⟨cd, r, hcd, rfl, rfl⟩⟩ := seedValue_cases hseed
    · refine ⟨fun f => .inr ⟨rfl, ?_⟩, fun f => rfl⟩
      unfold yamlGet
      rw [hf]
      rfl
    · refine ⟨fun f => ?_, fun f => rfl⟩
      have hsame : cd.get? f = r.get? f := by
        cases hcd
        rfl
      have hmissing : (missing "redis_ttl" fallback cd).get? f =
          if (r.get? f).isSome then none else fallback.get? f := by
        unfold missing
        rw [if_neg (by decide), Dict.get?_filterKeys, Dict.has, hsame]
        cases (r.get? f).isSome <;> rfl
      have hrow : rowGet (some (.dict (r.merge (missing "redis_ttl" fallback cd)))) f =
          (if (r.get? f).isSome then none else fallback.get? f).or (r.get? f) := by
        rw [← hmissing]
        exact Dict.get?_merge ..
      have hyaml : yamlGet i f = fallback.get? f := by
        unfold yamlGet
        rw [hf]
        rfl
      rw [Option.map_some, Option.some_or, hrow, hyaml]
      have hold : rowGet (some (.dict r)) f = r.get? f := rfl
      rw [hold]
      rcases r.get? f with _ | x <;> simp

theorem load_reloaded (l : Load) (s : Settings Json) : Reloaded i (s.rows "redis_ttl")
    ((i.load l s).rows "redis_ttl") ((i.load l s).cache "redis_ttl") := by
  unfold Installation.load
  rcases Settings.loadReaching_cases i.base i.backing.vals l.reached l.now l.cipher s
    (show "redis_ttl" ∈ managedKeys by decide) with ⟨hrows, hcache⟩ | ⟨hrows, hcache⟩
  · rw [hrows, hcache]
    exact loadedRow_reloaded _
  · rw [hrows, hcache]
    exact seedValue_reloaded _ _

/-- The lifetimes in force: those of the row, and of the YAML file for what the row does not have. -/
def inForce (i : Installation N) (row : Option (RowValue Json)) : Ttls := i.yamlTtls.update (rowGet row)

theorem yamlTtls_eq : i.yamlTtls.update (yamlGet i) = i.yamlTtls := rfl

theorem inForce_eq (row : Option (RowValue Json)) :
    inForce i row = i.yamlTtls.update fun f => (rowGet row f).or (yamlGet i f) := by
  unfold inForce
  conv_lhs => rw [← yamlTtls_eq, Ttls.update_update]

theorem Reloaded.inForce {before after : Option (RowValue Json)} {cached : Option (Setting Json)}
    (h : Reloaded i before after cached) : inForce i after = inForce i before := by
  rw [inForce_eq, inForce_eq]
  refine Ttls.update_congr fun f _ => ?_
  rcases h.row f with hsame | ⟨hnone, hyaml⟩
  · rw [hsame]
  · rw [hnone, hyaml]
    simp

theorem Reloaded.allInRange {before after : Option (RowValue Json)} {cached : Option (Setting Json)}
    (h : Reloaded i before after cached) (hyaml : i.yamlTtls.Fit i.longest)
    (hrow : AllInRange i.longest (rowGet before)) : AllInRange i.longest (rowGet after) := by
  have hyamlIn : AllInRange i.longest (yamlGet i) := Ttls.Fit.of_update (yamlTtls_eq ▸ hyaml)
  intro f hf x hx
  rcases h.row f with hsame | ⟨_, hadded⟩
  · exact hrow f hf x (hsame ▸ hx)
  · exact hyamlIn f hf x (hadded ▸ hx)

/-! ## The invariant -/

namespace Services

def row (d : Services) : Option (RowValue Json) := d.rows "redis_ttl"

def adminCache (d : Services) : Option (Setting Json) := (d.held .admin).cache "redis_ttl"

/-- The admin service alone changes fields of the row: its cache lacks no more than what another
service has added from the YAML file. -/
structure Follows (i : Installation N) (d : Services) : Prop where
  cached : ∀ f x, cacheGet d.adminCache f = some x → rowGet d.row f = some x
  unseen : ∀ f x, cacheGet d.adminCache f = none → rowGet d.row f = some x → yamlGet i f = some x
  store : d.store .admin = inForce i d.row

structure Inv (i : Installation N) (d : Services) : Prop where
  stores : ∀ svc, (d.store svc).Fit i.longest
  row : AllInRange i.longest (rowGet d.row)
  admin : d.serving .admin = true → d.Follows i

variable {d : Services}

theorem initial_inv {rows : String → Option (RowValue Json)} (hyaml : i.yamlTtls.Fit i.longest)
    (hrow : AllInRange i.longest (rowGet (rows "redis_ttl"))) : (initial i rows).Inv i := by
  refine ⟨fun _ => hyaml, hrow, ?_⟩
  intro h
  cases h

theorem loadedTtls_eq (hyaml : i.yamlTtls.Fit i.longest) (hrow : AllInRange i.longest (rowGet d.row)) (svc : Service)
    (l : Load) : d.loadedTtls i svc l = inForce i d.row := by
  have hload := load_reloaded (i := i) l (d.settings svc)
  unfold loadedTtls
  rw [redisTtl_get?]
  refine (Ttls.update_congr ?_).trans hload.inForce
  intro f hf
  have hcached := hload.cached f
  unfold cacheGet at hcached
  rw [hcached]
  rcases hx : rowGet ((i.load l (d.settings svc)).rows "redis_ttl") f with _ | x
  · rfl
  · exact toInt_of_inRange (hload.allInRange hyaml hrow f hf x hx)

theorem update_cacheGet (h : d.Follows i) :
    (d.store .admin).update (cacheGet d.adminCache) = inForce i d.row := by
  rw [h.store]
  unfold inForce
  rw [Ttls.update_update]
  refine Ttls.update_congr fun f _ => ?_
  rcases hx : cacheGet d.adminCache f with _ | x
  · rfl
  · rw [h.cached f x hx]
    rfl

theorem onRedisTtlChange_eq (h : d.Follows i) : d.onRedisTtlChange i = inForce i d.row := by
  rcases hcache : d.adminCache with _ | raw
  · have hget : ((d.settings .admin).get i.backing "redis_ttl").get? = yamlGet i := by
      have hnone : (d.settings .admin).cache "redis_ttl" = none := hcache
      unfold Settings.get
      rw [hnone]
      rfl
    unfold onRedisTtlChange
    rw [hget, h.store, inForce_eq, Ttls.update_update]
    refine Ttls.update_congr fun f _ => ?_
    rcases hx : rowGet d.row f with _ | x
    · simp
    · rw [h.unseen f x (by rw [hcache]; rfl) hx]
      rfl
  · have hget : ((d.settings .admin).get i.backing "redis_ttl").get? = cacheGet d.adminCache := by
      have hsome : (d.settings .admin).cache "redis_ttl" = some raw := hcache
      unfold Settings.get
      rw [hsome, hcache]
      rfl
    unfold onRedisTtlChange
    rw [hget]
    exact update_cacheGet h

theorem Inv.served (hyaml : i.yamlTtls.Fit i.longest) (h : d.Inv i) : d.Served i := by
  refine ⟨h.stores, fun hadmin => ?_⟩
  have hall : ∀ p, d.installs i p = inForce i d.row := by
    intro p
    cases p with
    | hook => exact onRedisTtlChange_eq (h.admin hadmin)
    | reapply l => exact loadedTtls_eq hyaml h.row ..
    | listener svc l => exact loadedTtls_eq hyaml h.row ..
    | startup svc l => exact loadedTtls_eq (d := d.restart i svc) hyaml h.row ..
  intro p p'
  rw [hall p, hall p']

/-! ## One step -/

theorem loadSettings_reloaded (d : Services) (svc : Service) (l : Load) :
    Reloaded i d.row (d.loadSettings i svc l).row (((d.loadSettings i svc l).held svc).cache "redis_ttl") := by
  have hheld : (d.loadSettings i svc l).held svc = ⟨(i.load l (d.settings svc)).cache,
      (i.load l (d.settings svc)).loadedAt, (i.load l (d.settings svc)).seeded⟩ := Function.update_self ..
  rw [hheld]
  exact load_reloaded l (d.settings svc)

theorem Follows.loadSettings (h : d.Follows i) (svc : Service) (l : Load) : (d.loadSettings i svc l).Follows i := by
  have hload := loadSettings_reloaded (i := i) d svc l
  have hstore : (d.loadSettings i svc l).store .admin = inForce i (d.loadSettings i svc l).row := by
    rw [hload.inForce]
    exact h.store
  rcases eq_or_ne svc .admin with rfl | hsvc
  · refine ⟨fun f x hx => ?_, fun f x hx hrow => ?_, hstore⟩
    · exact (hload.cached f).symm.trans hx
    · rw [← hload.cached f] at hrow
      rw [adminCache, hrow] at hx
      cases hx
  · have hcache : (d.loadSettings i svc l).adminCache = d.adminCache :=
      congrArg (fun h : Held => h.cache "redis_ttl") (Function.update_of_ne hsvc.symm ..)
    refine ⟨fun f x hx => ?_, fun f x hx hrow => ?_, hstore⟩
    · rw [hcache] at hx
      have hold := h.cached f x hx
      rcases hload.row f with hsame | ⟨hnone, _⟩
      · exact hsame.trans hold
      · rw [hold] at hnone
        cases hnone
    · rw [hcache] at hx
      rcases hload.row f with hsame | ⟨_, hadded⟩
      · exact h.unseen f x hx (hsame ▸ hrow)
      · exact hadded ▸ hrow

theorem Inv.loadSettings (hyaml : i.yamlTtls.Fit i.longest) (h : d.Inv i) (svc : Service) (l : Load) :
    (d.loadSettings i svc l).Inv i where
  stores := h.stores
  row := (loadSettings_reloaded d svc l).allInRange hyaml h.row
  admin hserving := (h.admin hserving).loadSettings svc l

theorem setStore_store (d : Services) (svc svc' : Service) (t : Ttls) :
    (d.setStore svc t).store svc' = if svc' = svc then t else d.store svc' := Function.update_apply ..

theorem reload_inv (hyaml : i.yamlTtls.Fit i.longest) (hstores : ∀ svc, (d.store svc).Fit i.longest)
    (hrow : AllInRange i.longest (rowGet d.row)) {svc : Service}
    (hadmin : svc ≠ .admin → d.serving .admin = true → d.Follows i) (l : Load) : (d.reload i svc l).Inv i := by
  have hload := loadSettings_reloaded (i := i) d svc l
  have hfit : (inForce i d.row).Fit i.longest := hyaml.update hrow
  have hinstalled : d.loadedTtls i svc l = inForce i (d.loadSettings i svc l).row := by
    rw [loadedTtls_eq hyaml hrow, hload.inForce]
  refine ⟨fun svc' => ?_, hload.allInRange hyaml hrow, fun hserving => ?_⟩
  · unfold reload
    rw [setStore_store, loadedTtls_eq hyaml hrow]
    split_ifs
    · exact hfit
    · exact hstores svc'
  · rcases eq_or_ne svc .admin with rfl | hsvc
    · refine ⟨fun f x hx => ?_, fun f x hx hrow => ?_, ?_⟩
      · exact (hload.cached f).symm.trans hx
      · have hcached := hload.cached f
        rw [show rowGet (d.loadSettings i .admin l).row f = some x from hrow] at hcached
        rw [show cacheGet (((d.loadSettings i .admin l).held .admin).cache "redis_ttl") f = none from hx] at hcached
        cases hcached
      · unfold reload
        rw [setStore_store, if_pos rfl]
        exact hinstalled
    · obtain ⟨hcached, hunseen, hstore⟩ := (hadmin hsvc hserving).loadSettings svc l
      refine ⟨hcached, hunseen, ?_⟩
      unfold reload
      rw [setStore_store, if_neg hsvc.symm]
      exact hstore

theorem Inv.reload (hyaml : i.yamlTtls.Fit i.longest) (h : d.Inv i) (svc : Service) (l : Load) :
    (d.reload i svc l).Inv i := reload_inv hyaml h.stores h.row (fun _ => h.admin) l

theorem Inv.startup (hyaml : i.yamlTtls.Fit i.longest) (h : d.Inv i) (svc : Service) (l : Load) :
    (d.startup i svc l).Inv i := by
  refine reload_inv (d := d.restart i svc) hyaml ?_ h.row ?_ l
  · intro svc'
    have hstore : (d.restart i svc).store svc' = if svc' = svc then i.yamlTtls else d.store svc' :=
      Function.update_apply ..
    rw [hstore]
    split_ifs
    · exact hyaml
    · exact h.stores svc'
  · intro hsvc hserving
    have hserved : d.serving .admin = true := (Function.update_of_ne hsvc.symm ..).symm.trans hserving
    have hadmin := h.admin hserved
    have hcache : (d.restart i svc).adminCache = d.adminCache :=
      congrArg (fun h : Held => h.cache "redis_ttl") (Function.update_of_ne hsvc.symm ..)
    refine ⟨fun f x hx => hadmin.cached f x (hcache ▸ hx), fun f x hx => hadmin.unseen f x (hcache ▸ hx), ?_⟩
    exact (Function.update_of_ne hsvc.symm ..).trans hadmin.store

/-! ## A save -/

theorem rowGet_save (d : Services) (value : Setting Json) (now : Int) (cipher : Json) (f : String) :
    rowGet (d.save i "redis_ttl" value now cipher).row f = (value.get? f).or (rowGet d.row f) := by
  have hrow : (d.save i "redis_ttl" value now cipher).row = some (.dict (savedRow "redis_ttl" value d.row)) := rfl
  rw [hrow]
  rcases d.row with _ | (r | _)
  · exact (Option.or_none).symm
  · exact Dict.get?_merge ..
  · exact (Option.or_none).symm

theorem cacheGet_save (d : Services) (value : Setting Json) (now : Int) (cipher : Json) (f : String) :
    cacheGet (d.save i "redis_ttl" value now cipher).adminCache f = (value.get? f).or (cacheGet d.adminCache f) := by
  have hcache : (d.save i "redis_ttl" value now cipher).adminCache =
      some (savedCache "redis_ttl" value d.adminCache) := rfl
  rw [hcache]
  rcases d.adminCache with _ | cached
  · exact (Option.or_none).symm
  · exact Dict.get?_merge ..

theorem save_store (d : Services) (value : Setting Json) (now : Int) (cipher : Json) :
    (d.save i "redis_ttl" value now cipher).store .admin =
      (d.store .admin).update (cacheGet (d.save i "redis_ttl" value now cipher).adminCache) := rfl

theorem save_of_ne (d : Services) {key : String} (h : key ≠ "redis_ttl") (value : Setting Json) (now : Int)
    (cipher : Json) : (d.save i key value now cipher).row = d.row ∧
      (d.save i key value now cipher).adminCache = d.adminCache ∧ (d.save i key value now cipher).store = d.store ∧
        (d.save i key value now cipher).serving = d.serving := by
  unfold Services.save
  rw [if_neg h]
  refine ⟨Function.update_of_ne h.symm .., ?_, rfl, rfl⟩
  exact Function.update_of_ne (β := fun _ => Option (Setting Json)) h.symm _ _

theorem Inv.save_of_ne (h : d.Inv i) {key : String} (hkey : key ≠ "redis_ttl") (value : Setting Json) (now : Int)
    (cipher : Json) : (d.save i key value now cipher).Inv i := by
  obtain ⟨hrow, hcache, hstore, hserving⟩ := Services.save_of_ne (i := i) d hkey value now cipher
  refine ⟨fun svc => hstore ▸ h.stores svc, hrow ▸ h.row, fun hadmin => ?_⟩
  obtain ⟨hcached, hunseen, hold⟩ := h.admin (hserving ▸ hadmin)
  exact ⟨hcache ▸ hrow ▸ hcached, hcache ▸ hrow ▸ hunseen, by rw [hstore, hrow, hold]⟩

theorem Inv.save (h : d.Inv i) (hserving : d.serving .admin = true) {value : Setting Json}
    (hvalue : AllInRange i.longest value.get?) (now : Int) (cipher : Json) :
    (d.save i "redis_ttl" value now cipher).Inv i := by
  have hadmin := h.admin hserving
  have hrow : AllInRange i.longest (rowGet (d.save i "redis_ttl" value now cipher).row) := by
    intro f hf x hx
    rw [rowGet_save] at hx
    rcases hv : value.get? f with _ | y
    · rw [hv, Option.none_or] at hx
      exact h.row f hf x hx
    · rw [hv, Option.some_or] at hx
      cases hx
      exact hvalue f hf _ hv
  have hcached : ∀ f x, cacheGet (d.save i "redis_ttl" value now cipher).adminCache f = some x →
      rowGet (d.save i "redis_ttl" value now cipher).row f = some x := by
    intro f x hx
    rw [rowGet_save]
    rw [cacheGet_save] at hx
    rcases hv : value.get? f with _ | y
    · rw [hv] at hx
      exact hadmin.cached f x hx
    · rw [hv] at hx
      exact hx
  have hstore : (d.save i "redis_ttl" value now cipher).store .admin =
      inForce i (d.save i "redis_ttl" value now cipher).row := by
    rw [save_store, hadmin.store]
    unfold inForce
    rw [Ttls.update_update]
    refine Ttls.update_congr fun f _ => ?_
    rw [cacheGet_save, rowGet_save]
    rcases value.get? f with _ | y
    · rcases hx : cacheGet d.adminCache f with _ | x
      · rfl
      · rw [hadmin.cached f x hx]
        rfl
    · rfl
  refine ⟨fun svc => ?_, hrow, fun _ => ⟨hcached, fun f x hx hfound => ?_, hstore⟩⟩
  · rcases eq_or_ne svc .admin with rfl | hsvc
    · rw [save_store]
      exact (h.stores .admin).update fun f hf x hx => hrow f hf x (hcached f x hx)
    · have hother : (d.save i "redis_ttl" value now cipher).store svc = d.store svc := Function.update_of_ne hsvc ..
      rw [hother]
      exact h.stores svc
  · rw [cacheGet_save] at hx
    rw [rowGet_save] at hfound
    rcases hv : value.get? f with _ | y
    · rw [hv] at hx hfound
      exact hadmin.unseen f x hx hfound
    · rw [hv] at hx
      cases hx

theorem Served.of_save {value : Setting Json} {now : Int} {cipher : Json}
    (h : (d.save i "redis_ttl" value now cipher).Served i) : AllInRange i.longest value.get? := by
  have hfit := h.fit .admin
  rw [save_store] at hfit
  have hall := hfit.of_update
  intro f hf x hx
  refine hall f hf x ?_
  rw [cacheGet_save, hx]
  rfl

theorem step_inv (hyaml : i.yamlTtls.Fit i.longest) {a : TtlAct} {d' : Services} (h : d.Inv i)
    (ha : SavedInRange i.longest a) (hs : d.step i a = some d') : d'.Inv i := by
  cases a with
  | put k v now cipher =>
    simp only [step] at hs
    split_ifs at hs with hserving
    rcases hentry : putEntry k v with _ | _ | ⟨key, value⟩
    · rw [hentry] at hs
      cases hs
      exact h
    · rw [hentry] at hs
      cases hs
      exact h
    · rw [hentry] at hs
      cases hs
      rcases eq_or_ne key "redis_ttl" with rfl | hkey
      · exact h.save hserving (ha value hentry) now cipher
      · exact h.save_of_ne hkey value now cipher
  | load svc l =>
    simp only [step] at hs
    split_ifs at hs
    cases hs
    exact h.loadSettings hyaml svc l
  | reapply l =>
    simp only [step] at hs
    split_ifs at hs
    cases hs
    exact h.reload hyaml .admin l
  | listener svc l =>
    simp only [step] at hs
    split_ifs at hs
    cases hs
    exact h.reload hyaml svc l
  | startup svc l =>
    cases hs
    exact h.startup hyaml svc l

theorem step_saved {a : TtlAct} {d' : Services} (hs : d.step i a = some d') (h : d'.Served i) :
    SavedInRange i.longest a := by
  cases a with
  | put k v now cipher =>
    intro value hentry
    simp only [step, hentry] at hs
    split_ifs at hs
    cases hs
    exact h.of_save
  | load svc l => trivial
  | reapply l => trivial
  | listener svc l => trivial
  | startup svc l => trivial

end Services

end

/-- From a YAML file and a row that are in range, the stores are served in every state exactly
when nothing out of range is ever saved. -/
theorem served_iff {i : Installation N} {rows : String → Option (RowValue Json)} (hyaml : i.yamlTtls.Fit i.longest)
    (hrow : AllInRange i.longest (rowGet (rows "redis_ttl"))) {acts : List TtlAct} {d : Services}
    (hrun : run (Services.step i) (.initial i rows) acts = some d) :
    Throughout (Services.step i) (Services.Served i) (.initial i rows) acts ↔
      Along (Services.step i) (fun _ a => SavedInRange i.longest a) (.initial i rows) acts := by
  have hstart := Services.initial_inv hyaml hrow
  refine throughout_iff_along (I := Services.Inv i) ?_ hrun hstart (hstart.served hyaml)
  intro d a d' h _ hs
  constructor
  · constructor
    · exact Services.step_saved hs
    · intro ha
      exact (Services.step_inv hyaml h ha hs).served hyaml
  · intro hserved
    exact Services.step_inv hyaml h (Services.step_saved hs hserved) hs

/-! ## The defaults, and three saved values -/

def sampleInstallation : Installation Unit where
  base :=
    { ldap := none
      dns := .empty
      publicHost := .str ""
      publicPort := .int 443
      security := .empty
      webSessionTtl := .int 28800
      webIdleTtl := .int 1800
      rdpTokenTtl := .int 300
      maxConnections := .int 100
      idleTimeout := .int 3600
      maxSessionDuration := .int 28800 }
  encryptor := ⟨fun _ p => p, fun blob => blob, fun _ _ => rfl⟩
  ldapConfig := some
  dnsConfig := some
  longest := 9223372036854775

def sampleLoad : Load := ⟨0, .null, fun _ => true⟩

/-- Both services are up, and the page saves one lifetime of web sessions. -/
def saving (webSessionTtl : Json) : List TtlAct :=
  [.startup .admin sampleLoad, .startup .portal sampleLoad,
    .put "redis_ttl" (.dict [("web_session_ttl", webSessionTtl)]) 1000 .null]

def afterRun (acts : List TtlAct) : Option Services :=
  run (Services.step sampleInstallation) (.initial sampleInstallation fun _ => none) acts

theorem sample_fit : sampleInstallation.yamlTtls.Fit sampleInstallation.longest :=
  Ttls.fit_iff.mpr ⟨⟨28800, rfl, by decide⟩, ⟨300, rfl, by decide⟩, ⟨1800, rfl, by decide⟩⟩

theorem hour_served : ∃ d, afterRun (saving (.int 3600)) = some d ∧
    Throughout (Services.step sampleInstallation) (Services.Served sampleInstallation)
      (.initial sampleInstallation fun _ => none) (saving (.int 3600)) := by
  have hsome : (afterRun (saving (.int 3600))).isSome = true := by decide +kernel
  obtain ⟨d, hd⟩ := Option.isSome_iff_exists.mp hsome
  refine ⟨d, hd, (served_iff sample_fit (fun f _ x hx => by cases hx) hd).mpr ?_⟩
  refine along_cons.mpr ⟨trivial, fun d₁ _ => along_cons.mpr ⟨trivial, fun d₂ _ => along_cons.mpr ⟨?_, ?_⟩⟩⟩
  · have hentry : putEntry "redis_ttl" (.dict [("web_session_ttl", .int 3600)]) =
        .ok (some ("redis_ttl", .ofList [("web_session_ttl", .int 3600)])) := rfl
    intro value hvalue f hf x hx
    rw [hentry] at hvalue
    cases hvalue
    simp only [ttlNames, List.mem_cons, List.not_mem_nil, or_false] at hf
    rcases hf with rfl | rfl | rfl
    · cases hx
      exact ⟨3600, rfl, by decide⟩
    · cases hx
    · cases hx
  · intro d₃ _
    trivial

/-- With no lifetime at all nobody can log in any more, and of a text the hook makes something else
than the other ways. -/
theorem zero_locks_out :
    (∃ d, afterRun (saving (.int 0) ++ [.reapply sampleLoad, .listener .portal sampleLoad]) = some d ∧
      (d.store .admin).createAdminWebSession sampleInstallation.longest = none ∧
      (d.store .portal).createWebSession sampleInstallation.longest = none ∧ ¬ d.Served sampleInstallation) ∧
    ∃ d, afterRun (saving (.str "600")) = some d ∧ (d.store .admin).webTtl = .str "600" ∧
      (d.installs sampleInstallation .hook).webTtl = .str "600" ∧
      (d.installs sampleInstallation (.reapply sampleLoad)).webTtl = .int 28800 ∧ ¬ d.Served sampleInstallation := by
  constructor
  · refine ⟨_, rfl, rfl, rfl, fun h => ?_⟩
    have hset := (h.fit .admin).createAdminWebSession
    exact absurd hset (by decide +kernel)
  · refine ⟨_, rfl, rfl, rfl, rfl, fun h => ?_⟩
    obtain ⟨n, hn, _⟩ := (h.fit .admin).webTtl
    cases hn

end RdpProxy.Config
