import RdpProxy.Config.SettingsManager

/-!
# Reading the settings

`get` and the typed accessors of the settings manager, as functions of its cache.
-/

namespace RdpProxy.Config

variable {N V : Type}

/-- `_encrypt_password` and `_decrypt_password`. Decryption undoes encryption, whatever the nonce. -/
structure Encryptor (N V : Type) where
  encrypt : N → V → V
  decrypt : V → V
  decrypt_encrypt : ∀ n p, decrypt (encrypt n p) = p

/-- What a manager works with. -/
structure Backing (N V : Type) where
  base : AppConfig V
  vals : Values V
  encryptor : Encryptor N V
  /-- `int(v)` where `v` is an `int` or a `float`. -/
  number : V → Option V
  /-- `LdapConfig(**d)`, where it does not raise. -/
  ldapConfig : Setting V → Option (Setting V)
  dnsConfig : Setting V → Option (Setting V)

namespace Settings

variable (b : Backing N V)

/-- The value with the plain password. -/
def decrypted (raw : Setting V) : Setting V :=
  match raw.get? "bind_password_enc" with
  | none => raw
  | some blob => (raw.pop "bind_password_enc").set "bind_password" (b.encryptor.decrypt blob)

/-- What `get` returns once it has refreshed the cache. -/
def get (s : Settings V) (key : String) : Setting V :=
  match s.cache key with
  | some raw => if key = "ldap" then decrypted b raw else raw
  | none => (b.base.getFallback b.vals key).getD .empty

/-- Without a password of its own, the value takes that of the YAML file. -/
def resolvedLdap (raw : Setting V) : Setting V :=
  match (decrypted b raw).get? "bind_password", b.base.ldap.bind fun yaml => yaml.get? "bind_password" with
  | none, some pwd => (decrypted b raw).set "bind_password" pwd
  | _, _ => decrypted b raw

def ldap (s : Settings V) : Option (Setting V) :=
  match s.cache "ldap" with
  | none => b.base.ldap
  | some raw => (b.ldapConfig (resolvedLdap b raw)).or b.base.ldap

def dns (s : Settings V) : Setting V :=
  match s.cache "dns" with
  | none => b.base.dns
  | some raw => (b.dnsConfig raw).getD b.base.dns

def securityNames : List String :=
  ["token_fingerprint_enforce", "login_attempts_per_minute", "login_lock_seconds", "admin_groups",
    "delete_token_on_disconnect"]

def securityParams (s : Settings V) : Setting V :=
  let defaults := b.base.security.filterKeys fun k => k ∈ securityNames
  match s.cache "security" with
  | none => defaults
  | some raw => defaults.merge (raw.pop "encryption_key")

/-- The accessors of the numbers: a subkey that holds no number keeps its default. -/
def numbers (defaults : List (String × V)) (raw : Option (Setting V)) : Setting V :=
  .ofList (defaults.map fun e => (e.1, ((raw.bind fun raw => raw.get? e.1).bind b.number).getD e.2))

def redisTtl (s : Settings V) : Setting V :=
  numbers b [("web_session_ttl", b.base.webSessionTtl), ("web_idle_ttl", b.base.webIdleTtl),
    ("rdp_token_ttl", b.base.rdpTokenTtl)] (s.cache "redis_ttl")

def relayParams (s : Settings V) : Setting V :=
  numbers b [("max_connections", b.base.maxConnections), ("idle_timeout", b.base.idleTimeout),
    ("max_session_duration", b.base.maxSessionDuration)] (s.cache "relay")

/-! ## What is read of a value that has been saved -/

variable {b}

/-- A value that the manager stores field by field: no empty password and no ciphertext in
`ldap`, and no legacy port in `proxy`. -/
def PlainValue (b : Backing N V) (key : String) (value : Setting V) : Prop :=
  (key = "ldap" → value.get? "bind_password_enc" = none ∧
      ∀ pwd, value.get? "bind_password" = some pwd → b.vals.truthy pwd = true) ∧
    (key = "proxy" → value.get? "listen_port" = none)

def cipherOf (b : Backing N V) (value : Setting V) (nonce : N) : V :=
  match value.get? "bind_password" with
  | none => b.vals.text ""
  | some pwd => b.encryptor.encrypt nonce pwd

/-- The value that `save` stores, with the nonce that it draws for a password. -/
def sealedValue (b : Backing N V) (key : String) (value : Setting V) (nonce : N) : Setting V :=
  storeValue b.vals key value (cipherOf b value nonce)

/-- Every read of the key gives every field of the value. -/
structure Reflects (b : Backing N V) (s : Settings V) (key : String) (value : Setting V) : Prop where
  get : value.Within (s.get b key)
  ldap : key = "ldap" → ∃ d, value.Within d ∧ s.ldap b = (b.ldapConfig d).or b.base.ldap
  dns : key = "dns" → ∃ d, value.Within d ∧ s.dns b = (b.dnsConfig d).getD b.base.dns
  publicHost : key = "proxy" → ∀ x, value.get? "public_host" = some x → (s.proxyParams b.base).publicHost = x
  publicPort : key = "proxy" → ∀ x, value.get? "public_port" = some x → (s.proxyParams b.base).publicPort = x
  security : key = "security" → (value.pop "encryption_key").Within (s.securityParams b)
  redisTtl : key = "redis_ttl" → ∀ f ∈ ["web_session_ttl", "web_idle_ttl", "rdp_token_ttl"], ∀ x n,
    value.get? f = some x → b.number x = some n → (s.redisTtl b).get? f = some n
  relay : key = "relay" → ∀ f ∈ ["max_connections", "idle_timeout", "max_session_duration"], ∀ x n,
    value.get? f = some x → b.number x = some n → (s.relayParams b).get? f = some n

section

variable {s : Settings V} {key : String} {value raw : Setting V} {nonce : N}

theorem sealedValue_of_ne (h : key ≠ "ldap") : sealedValue b key value nonce = value := if_neg h

theorem within_decrypted (hplain : PlainValue b "ldap" value)
    (h : (sealedValue b "ldap" value nonce).Within raw) : value.Within (decrypted b raw) := by
  obtain ⟨henc, htruthy⟩ := hplain.1 rfl
  unfold sealedValue storeValue cipherOf at h
  rw [if_pos rfl] at h
  intro f x hf
  have hne : f ≠ "bind_password_enc" := by
    rintro rfl
    rw [henc] at hf
    cases hf
  rcases hpwd : value.get? "bind_password" with _ | pwd
  · rw [hpwd] at h
    have hf' : f ≠ "bind_password" := by
      rintro rfl
      rw [hpwd] at hf
      cases hf
    unfold decrypted
    rcases raw.get? "bind_password_enc" with _ | blob
    · exact h f x hf
    · simp only [Dict.get?_set, if_neg hf', Dict.get?_pop, if_neg hne]
      exact h f x hf
  · rw [hpwd] at h
    simp only [htruthy pwd hpwd, if_true] at h
    have hblob : raw.get? "bind_password_enc" = some (b.encryptor.encrypt nonce pwd) := h _ _ (by simp)
    unfold decrypted
    rw [hblob]
    simp only [Dict.get?_set, b.encryptor.decrypt_encrypt]
    split_ifs with hname
    · rw [hname, hpwd] at hf
      exact hf
    · rw [Dict.get?_pop, if_neg hne]
      refine h f x ?_
      rw [Dict.get?_set, if_neg hne, Dict.get?_pop, if_neg hname, hf]

theorem within_resolvedLdap (h : value.Within (decrypted b raw)) : value.Within (resolvedLdap b raw) := by
  unfold resolvedLdap
  split
  · rename_i hnone _
    intro f x hf
    have hne : f ≠ "bind_password" := by
      rintro rfl
      have hsome := h _ x hf
      rw [hnone] at hsome
      cases hsome
    rw [Dict.get?_set, if_neg hne]
    exact h f x hf
  · exact h

theorem numbers_get? {defaults : List (String × V)} (hnodup : (defaults.map Prod.fst).Nodup) {f : String}
    (hf : f ∈ defaults.map Prod.fst) {x n : V} (hx : raw.get? f = some x) (hn : b.number x = some n) :
    (numbers b defaults (some raw)).get? f = some n := by
  obtain ⟨e, he, rfl⟩ := List.mem_map.mp hf
  unfold numbers Dict.ofList
  rw [Dict.get?_setAll _ (by rw [List.map_map]; exact hnodup)]
  have hfind : (defaults.map fun e =>
      (e.1, ((raw.get? e.1).bind b.number).getD e.2)).find? (fun e' => e'.1 = e.1) = some (e.1, n) := by
    rw [List.find?_map]
    have hself : defaults.find? ((fun e' : String × V => decide (e'.1 = e.1)) ∘ fun e =>
        (e.1, ((raw.get? e.1).bind b.number).getD e.2)) = some e := Dict.find?_of_mem (d := ⟨defaults, hnodup⟩) he
    rw [hself]
    simp [hx, hn]
  rw [show (some raw).bind = fun g => g raw from rfl]
  simp only [hfind]
  rfl

theorem reflects_of_cached (hplain : PlainValue b key value) (hcache : s.cache key = some raw)
    (h : (sealedValue b key value nonce).Within raw) : Reflects b s key value := by
  have hraw : key ≠ "ldap" → value.Within raw := by
    intro hne
    rw [sealedValue_of_ne hne] at h
    exact h
  constructor
  · unfold Settings.get
    rw [hcache]
    simp only
    split_ifs with hldap
    · subst hldap
      exact within_decrypted hplain h
    · exact hraw hldap
  · rintro rfl
    refine ⟨resolvedLdap b raw, within_resolvedLdap (within_decrypted hplain h), ?_⟩
    unfold Settings.ldap
    rw [hcache]
  · rintro rfl
    refine ⟨raw, hraw (by decide), ?_⟩
    unfold Settings.dns
    rw [hcache]
  · rintro rfl x hx
    unfold proxyParams
    rw [hcache]
    simp only [hraw (by decide) _ x hx, Option.getD_some]
  · rintro rfl x hx
    unfold proxyParams
    rw [hcache]
    simp only [hraw (by decide) _ x hx, Option.getD_some]
  · rintro rfl f x hf
    unfold securityParams
    rw [hcache]
    rw [Dict.get?_pop] at hf
    split_ifs at hf with hname
    refine Dict.get?_merge_of_some ?_
    rw [Dict.get?_pop, if_neg hname]
    exact hraw (by decide) f x hf
  · rintro rfl f hf x n hx hn
    unfold Settings.redisTtl
    rw [hcache]
    exact numbers_get? (by simp) hf (hraw (by decide) f x hx) hn
  · rintro rfl f hf x n hx hn
    unfold relayParams
    rw [hcache]
    exact numbers_get? (by simp) hf (hraw (by decide) f x hx) hn

end

end Settings

end RdpProxy.Config
