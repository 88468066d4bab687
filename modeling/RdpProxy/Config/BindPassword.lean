import RdpProxy.Config.Accessors
import RdpProxy.Lib.Json

/-!
# The bind password of the directory

The row and the cache hold the password encrypted or not at all; `ldap` puts it into the
config that it parses. The calls of one manager, one after the other.
-/

namespace RdpProxy.Config

variable {N V : Type}

/-! ## The source -/

/-- `AESEncryptor` with the associated data of the setting. A blob that is none of its own raises. -/
structure Secrets (N V : Type) where
  encrypt : N → V → V
  decrypt : V → Option V
  decrypt_encrypt : ∀ n p, decrypt (encrypt n p) = some p

def ldapFields : List String :=
  ["server", "mode", "port", "tls_verify", "bind_dn", "bind_password", "users_dn", "domain", "user_filter"]

/-- Some fields of an `LdapConfig`. -/
structure LdapValue (V : Type) where
  fields : Setting V
  subset : ∀ f, fields.has f = true → f ∈ ldapFields

theorem LdapValue.noCipher (v : LdapValue V) : v.fields.get? "bind_password_enc" = none := by
  rw [← Dict.has_eq_false]
  exact eq_false_of_ne_true fun h => absurd (v.subset _ h) (by decide)

structure LdapBacking (N V : Type) where
  base : AppConfig V
  vals : Values V
  secrets : Secrets N V
  /-- `model_dump()` of the section in the YAML file. -/
  yaml : ∀ d, base.ldap = some d → ∀ f, d.has f = true ↔ f ∈ ldapFields
  /-- `LdapConfig(**d)`, where it does not raise. -/
  ldapConfig : Setting V → Option (Setting V)
  /-- pydantic takes the `str` of the required field as it is. -/
  ldapConfig_password : ∀ d config, ldapConfig d = some config →
    config.get? "bind_password" = d.get? "bind_password"

namespace LdapBacking

variable (b : LdapBacking N V)

/-- What is encrypted of a value, with the nonce of the call. -/
def cipherOf (value : Setting V) (nonce : N) : V :=
  match value.get? "bind_password" with
  | none => b.vals.text ""
  | some pwd => b.secrets.encrypt nonce pwd

def yamlCipher (nonce : N) : V := b.cipherOf (b.base.ldap.getD .empty) nonce

/-- One load: the time, the nonce for the seeding, and the keys for which the database answers
while they are seeded. -/
structure Load (N : Type) where
  now : Int
  nonce : N
  reached : String → Bool

def load (l : Load N) : Settings V → Settings V :=
  Settings.loadReaching b.base b.vals l.reached l.now (b.yamlCipher l.nonce)

def save (v : LdapValue V) (now : Int) (nonce : N) : Settings V → Settings V :=
  Settings.save b.vals "ldap" v.fields now (b.cipherOf v.fields nonce)

def yamlPassword : Option V := b.base.ldap.bind fun yaml => yaml.get? "bind_password"

/-- A cached value with the password in the place of its ciphertext. -/
def resolved (raw : Setting V) : Option (Setting V) :=
  let resolved := match raw.get? "bind_password_enc" with
    | none => some raw
    | some blob => (b.secrets.decrypt blob).map fun pwd => (raw.pop "bind_password_enc").set "bind_password" pwd
  resolved.map fun d =>
    match d.get? "bind_password", b.yamlPassword with
    | none, some pwd => d.set "bind_password" pwd
    | _, _ => d

/-- The config that `ldap` parses from the cached row, where nothing raises. -/
def parsed (s : Settings V) : Option (Setting V) := ((s.cache "ldap").bind b.resolved).bind b.ldapConfig

def ldap (s : Settings V) : Option (Setting V) := (b.parsed s).or b.base.ldap

end LdapBacking

inductive ManagerCall (N V : Type) where
  | load (l : LdapBacking.Load N)
  /-- `get` of any key, which loads where the cache is stale. -/
  | get (l : LdapBacking.Load N)
  | save (v : LdapValue V) (now : Int) (nonce : N)

def ManagerCall.run (b : LdapBacking N V) (s : Settings V) : ManagerCall N V → Settings V
  | .load l => b.load l s
  | .get l => if l.now - s.loadedAt > ttl then b.load l s else s
  | .save v now nonce => b.save v now nonce s

/-! ## The passwords that have been saved -/

/-- The password of a save that brings one. -/
def ManagerCall.password (b : LdapBacking N V) : ManagerCall N V → Option V
  | .save v _ _ => (v.fields.get? "bind_password").filter fun pwd => b.vals.truthy pwd
  | _ => none

def lastSaved (b : LdapBacking N V) (calls : List (ManagerCall N V)) : Option V :=
  calls.reverse.findSome? (ManagerCall.password b)

namespace LdapBacking

variable (b : LdapBacking N V)

def rowCipher : Option (RowValue V) → Option V
  | some (.dict d) => d.get? "bind_password_enc"
  | _ => none

/-- The password that a row stands for: the one that it has encrypted, else the one in the YAML file. -/
def rowPassword (row : Option (RowValue V)) : Option V := (rowCipher row).elim b.yamlPassword b.secrets.decrypt

/-- Neither the row nor the cache has the field. -/
structure Hidden (s : Settings V) : Prop where
  row : ∀ d, s.rows "ldap" = some (.dict d) → d.get? "bind_password" = none
  cache : ∀ d, s.cache "ldap" = some d → d.get? "bind_password" = none

end LdapBacking

/-! ## What is stored -/

theorem storeValue_ldap (vals : Values V) {value : Setting V} (henc : value.get? "bind_password_enc" = none)
    (cipher : V) :
    (storeValue vals "ldap" value cipher).get? "bind_password" = none ∧
      (storeValue vals "ldap" value cipher).get? "bind_password_enc" =
        ((value.get? "bind_password").filter fun pwd => vals.truthy pwd).map fun _ => cipher := by
  unfold storeValue
  rw [if_pos rfl]
  rcases hpwd : value.get? "bind_password" with _ | pwd
  · exact ⟨hpwd, henc⟩
  · dsimp only
    rw [Option.filter_some]
    split_ifs
    · simp
    · simp [henc]

namespace LdapBacking

variable {b : LdapBacking N V} {s : Settings V} {row : Option (RowValue V)}

theorem yaml_noCipher {d : Setting V} (h : b.base.ldap = some d) : d.get? "bind_password_enc" = none := by
  rw [← Dict.has_eq_false]
  exact eq_false_of_ne_true fun henc => absurd ((b.yaml d h _).mp henc) (by decide)

theorem rowCipher_eq (row : Option (RowValue V)) :
    rowCipher row = (loadedRow "ldap" row).bind fun d => d.get? "bind_password_enc" := by
  rcases row with _ | (d | _) <;> rfl

/-- A row without the field, and the cache as the row is. -/
structure Inv (b : LdapBacking N V) (pwd : Option V) (s : Settings V) : Prop where
  row : ∀ d, s.rows "ldap" = some (.dict d) → d.get? "bind_password" = none
  agree : s.cache "ldap" = loadedRow "ldap" (s.rows "ldap")
  password : b.rowPassword (s.rows "ldap") = pwd

theorem Inv.hidden {pwd : Option V} (h : b.Inv pwd s) : Hidden s := by
  refine ⟨h.row, fun d hd => ?_⟩
  rw [h.agree] at hd
  rcases hrow : s.rows "ldap" with _ | (r | _)
  · rw [hrow] at hd
    cases hd
  · rw [hrow] at hd
    exact h.row d (by cases hd; exact hrow)
  · rw [hrow] at hd
    cases hd

theorem inv_of_dict {pwd : Option V} {d : Setting V} (hrows : s.rows "ldap" = some (.dict d))
    (hcache : s.cache "ldap" = some d) (hhidden : d.get? "bind_password" = none)
    (hpassword : b.rowPassword (some (.dict d)) = pwd) : b.Inv pwd s := by
  refine ⟨fun r hr => ?_, ?_, ?_⟩
  · rw [hrows] at hr
    cases hr
    exact hhidden
  · rw [hrows, hcache]
    rfl
  · rw [hrows]
    exact hpassword

/-! ## Seeding -/

theorem seeded_new {yaml : Setting V} (hyaml : b.base.ldap = some yaml) (nonce : N) :
    (storeValue b.vals "ldap" yaml (b.yamlCipher nonce)).get? "bind_password" = none ∧
      b.rowPassword (some (.dict (storeValue b.vals "ldap" yaml (b.yamlCipher nonce)))) = b.yamlPassword := by
  obtain ⟨hpwd, henc⟩ := storeValue_ldap b.vals (yaml_noCipher hyaml) (b.yamlCipher nonce)
  refine ⟨hpwd, ?_⟩
  rw [rowPassword, rowCipher, henc]
  rcases hplain : yaml.get? "bind_password" with _ | pwd
  · rfl
  · have hcipher : b.yamlCipher nonce = b.secrets.encrypt nonce pwd := by
      unfold yamlCipher cipherOf
      rw [hyaml, Option.getD_some, hplain]
    have hyamlPassword : b.yamlPassword = some pwd := by
      unfold yamlPassword
      rw [hyaml, Option.bind_some, hplain]
    rw [Option.filter_some, hyamlPassword, hcipher]
    split_ifs
    · exact b.secrets.decrypt_encrypt nonce pwd
    · rfl

theorem seeded_patch {yaml : Setting V} (hyaml : b.base.ldap = some yaml) (cached d : Setting V) :
    (d.merge (missing "ldap" yaml cached)).get? "bind_password" = d.get? "bind_password" ∧
      b.rowPassword (some (.dict (d.merge (missing "ldap" yaml cached)))) = b.rowPassword (some (.dict d)) := by
  have hmissing : ∀ f, f = "bind_password" ∨ f = "bind_password_enc" →
      (missing "ldap" yaml cached).get? f = none := by
    intro f hf
    unfold missing
    rw [if_pos rfl, Dict.get?_filterKeys, Dict.get?_pop]
    rcases hf with rfl | rfl
    · simp
    · simp [yaml_noCipher hyaml]
  constructor
  · rw [Dict.get?_merge, hmissing _ (Or.inl rfl), Option.none_or]
  · rw [rowPassword, rowPassword, rowCipher, rowCipher, Dict.get?_merge, hmissing _ (Or.inr rfl), Option.none_or]

/-! ## The calls -/

theorem load_inv (hrow : ∀ d, s.rows "ldap" = some (.dict d) → d.get? "bind_password" = none) (l : Load N) :
    b.Inv (b.rowPassword (s.rows "ldap")) (b.load l s) := by
  unfold load
  rcases Settings.loadReaching_cases b.base b.vals l.reached l.now (b.yamlCipher l.nonce) s
    (show "ldap" ∈ managedKeys by decide) with ⟨hrows, hcache⟩ | ⟨hrows, hcache⟩
  · exact ⟨by rwa [hrows], by rw [hrows, hcache], by rw [hrows]⟩
  · rcases hseed : seedValue b.base b.vals (b.yamlCipher l.nonce) "ldap" (loadedRow "ldap" (s.rows "ldap"))
      (s.rows "ldap") with _ | d
    · rw [hseed] at hrows hcache
      exact ⟨by rwa [hrows], by rw [hrows, hcache]; rfl, by rw [hrows]; rfl⟩
    · rw [hseed] at hrows hcache
      obtain ⟨yaml, hyaml, ⟨_, hnone, rfl⟩ | ⟨cached, r, _, hr, rfl⟩⟩ := seedValue_cases hseed
      · obtain ⟨hhidden, hpassword⟩ := seeded_new hyaml l.nonce
        refine inv_of_dict hrows hcache hhidden ?_
        rw [hpassword, hnone]
        rfl
      · obtain ⟨hhidden, hpassword⟩ := seeded_patch hyaml cached r
        refine inv_of_dict hrows hcache ?_ ?_
        · rw [hhidden, hrow r hr]
        · rw [hpassword, hr]

theorem Inv.save {pwd : Option V} (h : b.Inv pwd s) (v : LdapValue V) (now : Int) (nonce : N) :
    b.Inv (((v.fields.get? "bind_password").filter fun pwd => b.vals.truthy pwd).or pwd) (b.save v now nonce s) := by
  let stored := storeValue b.vals "ldap" v.fields (b.cipherOf v.fields nonce)
  obtain ⟨hpwd, henc⟩ : stored.get? "bind_password" = none ∧ stored.get? "bind_password_enc" = _ :=
    storeValue_ldap b.vals v.noCipher (b.cipherOf v.fields nonce)
  have hrows := Settings.save_rows b.vals "ldap" v.fields now (b.cipherOf v.fields nonce) s "ldap"
  have hcache := Settings.save_cache b.vals "ldap" v.fields now (b.cipherOf v.fields nonce) s "ldap"
  rw [if_pos rfl] at hrows hcache
  have hsame : savedCache "ldap" stored (s.cache "ldap") = savedRow "ldap" stored (s.rows "ldap") := by
    rw [h.agree]
    rcases s.rows "ldap" with _ | (r | _) <;> rfl
  have hget : ∀ f, (savedRow "ldap" stored (s.rows "ldap")).get? f =
      (stored.get? f).or ((loadedRow "ldap" (s.rows "ldap")).bind fun d => d.get? f) := by
    intro f
    rcases s.rows "ldap" with _ | (r | _)
    · exact (Option.or_none).symm
    · exact Dict.get?_merge ..
    · exact (Option.or_none).symm
  refine inv_of_dict hrows (hcache.trans (congrArg some hsame)) ?_ ?_
  · rw [hget, hpwd, Option.none_or, ← h.agree]
    rcases hc : s.cache "ldap" with _ | cached
    · rfl
    · exact h.hidden.cache cached hc
  · have hcipher : rowCipher (some (.dict (savedRow "ldap" stored (s.rows "ldap")))) =
        (stored.get? "bind_password_enc").or (rowCipher (s.rows "ldap")) := by
      rw [rowCipher_eq, rowCipher_eq]
      exact hget "bind_password_enc"
    unfold rowPassword
    rw [hcipher, henc]
    rcases hfilter : (v.fields.get? "bind_password").filter fun pwd => b.vals.truthy pwd with _ | new
    · exact h.password
    · have hnew : b.cipherOf v.fields nonce = b.secrets.encrypt nonce new := by
        unfold cipherOf
        rw [(Option.filter_eq_some_iff.mp hfilter).1]
      rw [hnew]
      exact b.secrets.decrypt_encrypt nonce new

theorem Inv.parsed {pwd : Option V} (h : b.Inv pwd s) {config : Setting V} (hparsed : b.parsed s = some config) :
    config.get? "bind_password" = pwd := by
  obtain ⟨d, hd, hconfig⟩ := Option.bind_eq_some_iff.mp hparsed
  obtain ⟨raw, hraw, hresolved⟩ := Option.bind_eq_some_iff.mp hd
  have hplain := h.hidden.cache raw hraw
  rw [b.ldapConfig_password d config hconfig, ← h.password]
  unfold rowPassword
  rw [rowCipher_eq, ← h.agree, hraw, Option.bind_some]
  unfold resolved at hresolved
  rcases hblob : raw.get? "bind_password_enc" with _ | blob
  · simp only [hblob, Option.map_some, Option.some.injEq, hplain] at hresolved
    rw [Option.elim_none, ← hresolved]
    rcases b.yamlPassword with _ | yaml
    · exact hplain
    · simp
  · rw [Option.elim_some]
    rcases hdecrypt : b.secrets.decrypt blob with _ | plain
    · simp [hblob, hdecrypt] at hresolved
    · simp only [hblob, hdecrypt, Option.map_some, Option.some.injEq, Dict.get?_set, if_true] at hresolved
      rw [← hresolved]
      simp

theorem Inv.run {pwd : Option V} (h : b.Inv pwd s) (call : ManagerCall N V) :
    b.Inv ((call.password b).or pwd) (call.run b s) := by
  have hload : ∀ l, b.Inv pwd (b.load l s) := by
    intro l
    rw [← h.password]
    exact load_inv h.row l
  cases call with
  | load l => exact hload l
  | get l =>
    simp only [ManagerCall.run]
    split_ifs
    · exact hload l
    · exact h
  | save v now nonce => exact h.save v now nonce

theorem Inv.foldl {pwd : Option V} (h : b.Inv pwd s) (calls : List (ManagerCall N V)) :
    b.Inv ((lastSaved b calls).or pwd) (calls.foldl (ManagerCall.run b) s) := by
  induction calls generalizing s pwd with
  | nil => exact h
  | cons call rest ih =>
    have hrest := ih (h.run call)
    unfold lastSaved at hrest ⊢
    rw [List.reverse_cons, List.findSome?_append, Option.or_assoc]
    rw [List.foldl_cons]
    convert hrest using 2
    simp

end LdapBacking

/-- After every run neither the row nor the cache has the password in the open, and a config that is
parsed from the cache has the last one that was saved, else that of the row or the YAML file at the start. -/
theorem bindPassword_kept (b : LdapBacking N V) {rows : String → Option (RowValue V)}
    (hrow : ∀ d, rows "ldap" = some (.dict d) → d.get? "bind_password" = none) (first : LdapBacking.Load N)
    (calls : List (ManagerCall N V)) :
    let s := calls.foldl (ManagerCall.run b) (b.load first (.initial rows))
    LdapBacking.Hidden s ∧ ∀ config, b.parsed s = some config →
      config.get? "bind_password" = (lastSaved b calls).or (b.rowPassword (rows "ldap")) := by
  intro s
  have hfirst : b.Inv (b.rowPassword (rows "ldap")) (b.load first (.initial rows)) :=
    LdapBacking.load_inv (s := .initial rows) hrow first
  have hinv : b.Inv ((lastSaved b calls).or (b.rowPassword (rows "ldap"))) s := hfirst.foldl calls
  exact ⟨hinv.hidden, fun config => hinv.parsed⟩

/-! ## A blank password -/

def defaults : Setting Json :=
  .ofList [("mode", .str "plain"), ("port", .int 389), ("tls_verify", .bool false), ("user_filter", .str "")]

def required : List String := ["server", "bind_dn", "bind_password", "users_dn", "domain"]

/-- No section in the YAML file, and ciphertexts that cannot be mistaken for texts. -/
def sampleBacking : LdapBacking Unit Json where
  base :=
    { ldap := none
      dns := .empty
      publicHost := .str ""
      publicPort := .int 443
      security := .empty
      webSessionTtl := .int 28800
      webIdleTtl := .int 1800
      rdpTokenTtl := .int 300
      maxConnections := .int 100
      idleTimeout := .int 3600
      maxSessionDuration := .int 28800 }
  vals := ⟨.str, Json.truthy⟩
  secrets :=
    { encrypt _ p := .list [p]
      decrypt blob := match blob with
        | .list [p] => some p
        | _ => none
      decrypt_encrypt _ _ := rfl }
  yaml d h := by cases h
  ldapConfig d := if required.all d.has then some (defaults.merge d) else none
  ldapConfig_password d config h := by
    split_ifs at h
    cases h
    rw [Dict.get?_merge]
    exact Option.or_none

def directory (bindPassword : String) : LdapValue Json where
  fields := .ofList [("server", .str "dc1"), ("bind_dn", .str "cn=proxy"), ("bind_password", .str bindPassword),
    ("users_dn", .str "ou=users"), ("domain", .str "corp")]
  subset f h := by
    rw [← Dict.mem_keys] at h
    have hsub : ∀ f ∈ ["server", "bind_dn", "bind_password", "users_dn", "domain"], f ∈ ldapFields := by decide
    exact hsub f h

def blanked : List (ManagerCall Unit Json) :=
  [.save (directory "s3cret") 1 (), .save (directory "") 2 (), .load ⟨3, (), fun _ => true⟩]

def blankedSettings : Settings Json :=
  blanked.foldl (ManagerCall.run sampleBacking) (sampleBacking.load ⟨0, (), fun _ => true⟩ (.initial fun _ => none))

theorem blank_keeps_password : ∃ config, sampleBacking.parsed blankedSettings = some config ∧
    config.get? "bind_password" = some (.str "s3cret") := by
  have hparsed : (sampleBacking.parsed blankedSettings).isSome = true := rfl
  obtain ⟨config, hconfig⟩ := Option.isSome_iff_exists.mp hparsed
  refine ⟨config, hconfig, ?_⟩
  exact (bindPassword_kept sampleBacking (fun d h => by cases h) ⟨0, (), fun _ => true⟩ blanked).2 config hconfig

end RdpProxy.Config
