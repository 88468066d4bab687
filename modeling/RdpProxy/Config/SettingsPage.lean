import RdpProxy.Config.BindPassword

/-!
# What the panel shows of the settings

`get_all_for_ui` takes the bind password out of the config that it shows. Two managers that differ in bind passwords
only, saved or of the YAML file, show the same at every point of their runs.
-/

namespace RdpProxy.Config

variable {N V : Type}

/-! ## The source -/

/-- What a manager works with, for all of its settings. -/
structure PageBacking (N V : Type) extends LdapBacking N V where
  dnsConfig : Setting V → Option (Setting V)
  /-- `int(v)` where `v` is an `int` or a `float`. -/
  number : V → Option V
  /-- The value is a `str`. -/
  isText : V → Prop
  /-- pydantic takes the arguments in any order, and sees of the password no more than that it is a `str`. -/
  ldapConfig_alike : ∀ d d' : Setting V, d.pop "bind_password" = d'.pop "bind_password" →
    (d.get? "bind_password" = d'.get? "bind_password" ∨ ∃ p p', d.get? "bind_password" = some p ∧
      d'.get? "bind_password" = some p' ∧ isText p ∧ isText p') →
    (ldapConfig d).map (Dict.pop · "bind_password") = (ldapConfig d').map (Dict.pop · "bind_password")

/-- The section `ldap` of a YAML file, as `model_dump()` gives it. -/
structure YamlLdap (V : Type) where
  config : Option (Setting V)
  fields : ∀ d, config = some d → ∀ f, d.has f = true ↔ f ∈ ldapFields

structure PageSettings (V : Type) where
  ldap : Option (Setting V)
  dns : Setting V
  proxy : Settings.ProxyParams V
  security : Setting V
  redisTtl : Setting V
  relay : Setting V
  portal : Setting V

namespace PageBacking

variable (b : PageBacking N V)

/-- The same, for the accessors that use no secrets. -/
def accessors : Backing N V where
  base := b.base
  vals := b.vals
  encryptor := ⟨b.secrets.encrypt, fun blob => (b.secrets.decrypt blob).getD blob, fun n p => by
    rw [b.secrets.decrypt_encrypt, Option.getD_some]⟩
  number := b.number
  ldapConfig := b.ldapConfig
  dnsConfig := b.dnsConfig

def getAllForUi (s : Settings V) : PageSettings V where
  ldap := (b.ldap s).map (Dict.pop · "bind_password")
  dns := s.dns b.accessors
  proxy := s.proxyParams b.base
  security := s.securityParams b.accessors
  redisTtl := s.redisTtl b.accessors
  relay := s.relayParams b.accessors
  portal :=
    match s.cache "portal" with
    | some raw => if raw.entries.isEmpty then .ofList [("name", b.vals.text "RDP-Proxy")] else raw
    | none => .ofList [("name", b.vals.text "RDP-Proxy")]

end PageBacking

inductive PageCall (N V : Type) where
  | load (l : LdapBacking.Load N)
  /-- `get` of any key, which loads where the cache is stale. -/
  | get (l : LdapBacking.Load N)
  | save (key : String) (value : Setting V) (now : Int) (nonce : N)

def PageCall.run (b : PageBacking N V) (s : Settings V) : PageCall N V → Settings V
  | .load l => b.load l s
  | .get l => if l.now - s.loadedAt > ttl then b.load l s else s
  | .save key value now nonce => s.save b.vals key value now (b.cipherOf value nonce)

namespace PageBacking

variable (b : PageBacking N V)

/-! ## Alike but for the password -/

/-- The same, or two texts. -/
def Alike (p p' : Option V) : Prop := p = p' ∨ ∃ x x', p = some x ∧ p' = some x' ∧ b.isText x ∧ b.isText x'

/-- Values of `ldap` before they are stored. Of their passwords both are empty or none is. -/
structure SameInput (v v' : Setting V) : Prop where
  rest : v.pop "bind_password" = v'.pop "bind_password"
  password : b.Alike (v.get? "bind_password") (v'.get? "bind_password")
  truthy : (v.get? "bind_password").map b.vals.truthy = (v'.get? "bind_password").map b.vals.truthy

def decrypted (d : Setting V) : Option V := (d.get? "bind_password_enc").bind b.secrets.decrypt

/-- Values of `ldap` as they are stored. -/
structure Same (d d' : Setting V) : Prop where
  rest : (d.pop "bind_password").pop "bind_password_enc" = (d'.pop "bind_password").pop "bind_password_enc"
  plain : b.Alike (d.get? "bind_password") (d'.get? "bind_password")
  sealed : (d.get? "bind_password_enc").isSome = (d'.get? "bind_password_enc").isSome
  password : b.Alike (b.decrypted d) (b.decrypted d')

variable {b} {d d' e e' v v' : Setting V} {n m : N}

theorem Alike.isSome {p p' : Option V} (h : b.Alike p p') : p.isSome = p'.isSome := by
  rcases h with rfl | ⟨x, x', rfl, rfl, _⟩ <;> rfl

theorem Alike.or {p p' q q' : Option V} (h : b.Alike p p') (hq : b.Alike q q') : b.Alike (p.or q) (p'.or q') := by
  rcases h with rfl | ⟨x, x', rfl, rfl, htext⟩
  · cases p with
    | none => exact hq
    | some x => exact .inl rfl
  · exact .inr ⟨x, x', rfl, rfl, htext⟩

theorem Same.refl (d : Setting V) : b.Same d d := ⟨rfl, .inl rfl, rfl, .inl rfl⟩

theorem Same.merge (h : b.Same d d') (he : b.Same e e') : b.Same (d.merge e) (d'.merge e') where
  rest := by rw [Dict.pop_merge, Dict.pop_merge, Dict.pop_merge, Dict.pop_merge, h.rest, he.rest]
  plain := by
    rw [Dict.get?_merge, Dict.get?_merge]
    exact he.plain.or h.plain
  sealed := by rw [Dict.get?_merge, Dict.get?_merge, Option.isSome_or, Option.isSome_or, h.sealed, he.sealed]
  password := by
    have hd := h.password
    have hcases := he.password
    have hsealed := he.sealed
    unfold decrypted at hd hcases ⊢
    rw [Dict.get?_merge, Dict.get?_merge]
    cases henc : e.get? "bind_password_enc" with
    | none =>
      rw [henc, Option.isSome_none] at hsealed
      rw [Option.isNone_iff_eq_none.mp (Option.isSome_eq_false_iff.mp hsealed.symm)]
      exact hd
    | some c =>
      rw [henc, Option.isSome_some] at hsealed
      obtain ⟨c', henc'⟩ := Option.isSome_iff_exists.mp hsealed.symm
      rw [henc, henc'] at hcases
      rw [henc']
      exact hcases

theorem storeValue_same (h : b.SameInput v v') :
    b.Same (storeValue b.vals "ldap" v (b.cipherOf v n)) (storeValue b.vals "ldap" v' (b.cipherOf v' m)) := by
  have htruthy := h.truthy
  have hpassword := h.password
  unfold storeValue
  rw [if_pos rfl, if_pos rfl]
  cases hp : v.get? "bind_password" with
  | none =>
    rw [hp, Option.map_none] at htruthy
    have hp' : v'.get? "bind_password" = none := Option.map_eq_none_iff.mp htruthy.symm
    have hsame : v = v' := by
      have hrest := h.rest
      rwa [Dict.pop_of_has (Dict.has_eq_false.mpr hp), Dict.pop_of_has (Dict.has_eq_false.mpr hp')] at hrest
    rw [hp', hsame]
    exact .refl v'
  | some p =>
    rw [hp, Option.map_some] at htruthy
    obtain ⟨p', hp', htt⟩ := Option.map_eq_some_iff.mp htruthy.symm
    rw [hp, hp'] at hpassword
    have hcipher : b.cipherOf v n = b.secrets.encrypt n p := by simp [LdapBacking.cipherOf, hp]
    have hcipher' : b.cipherOf v' m = b.secrets.encrypt m p' := by simp [LdapBacking.cipherOf, hp']
    rw [hp']
    dsimp only
    rw [htt, h.rest, hcipher, hcipher']
    split_ifs
    · refine ⟨?_, .inl ?_, ?_, ?_⟩
      · simp [Dict.pop_set]
      · simp
      · simp
      · simpa [decrypted, b.secrets.decrypt_encrypt] using hpassword
    · exact .refl _

/-! ## The manager with another YAML file -/

/-- The same, with the section `ldap` of another YAML file. -/
def withLdap (b : PageBacking N V) (yaml : YamlLdap V) : PageBacking N V :=
  { b with base := { b.base with ldap := yaml.config }, yaml := yaml.fields }

/-- Both files have the section or none has, and the sections differ in the password only. -/
def SameYaml (b : PageBacking N V) (yaml : YamlLdap V) : Prop :=
  match b.base.ldap, yaml.config with
  | none, none => True
  | some d, some d' => b.SameInput d d'
  | _, _ => False

variable {yaml : YamlLdap V}

theorem getFallback_withLdap {key : String} (h : key ≠ "ldap") :
    (b.withLdap yaml).base.getFallback b.vals key = b.base.getFallback b.vals key := by
  unfold AppConfig.getFallback
  split <;> first | rfl | exact absurd rfl h

/-- A cache or a row of `ldap`. -/
def SameCache (b : PageBacking N V) : Option (Setting V) → Option (Setting V) → Prop
  | none, none => True
  | some d, some d' => b.Same d d'
  | _, _ => False

def SameRow (b : PageBacking N V) : Option (RowValue V) → Option (RowValue V) → Prop
  | none, none => True
  | some .other, some .other => True
  | some (.dict d), some (.dict d') => b.Same d d'
  | _, _ => False

structure SameState (b : PageBacking N V) (s s' : Settings V) : Prop where
  rows : ∀ key, key ≠ "ldap" → s.rows key = s'.rows key
  cache : ∀ key, key ≠ "ldap" → s.cache key = s'.cache key
  row : b.SameRow (s.rows "ldap") (s'.rows "ldap")
  cached : b.SameCache (s.cache "ldap") (s'.cache "ldap")
  loadedAt : s.loadedAt = s'.loadedAt
  seeded : s.seeded = s'.seeded

variable {s s' : Settings V} {row row' : Option (RowValue V)} {c c' : Option (Setting V)}

/-! ### Saving -/

theorem dropListenPort_ldap (stored d : Setting V) : dropListenPort "ldap" stored d = d := by
  simp [dropListenPort]

theorem savedRow_same (hrow : b.SameRow row row') (h : b.Same d d') :
    b.Same (savedRow "ldap" d row) (savedRow "ldap" d' row') := by
  rcases row with _ | (x | _) <;> rcases row' with _ | (x' | _) <;> try exact hrow.elim
  · simpa [savedRow, dropListenPort_ldap] using h
  · simpa [savedRow, dropListenPort_ldap] using Same.merge hrow h
  · exact h

theorem savedCache_same (hcache : b.SameCache c c') (h : b.Same d d') :
    b.Same (savedCache "ldap" d c) (savedCache "ldap" d' c') := by
  rcases c with _ | x <;> rcases c' with _ | x' <;> try exact hcache.elim
  · simpa [savedCache, dropListenPort_ldap] using h
  · simpa [savedCache, dropListenPort_ldap] using Same.merge hcache h

theorem update_same (h : b.SameState s s') {key : String} (hd : if key = "ldap" then b.Same d d' else d = d')
    (he : if key = "ldap" then b.Same e e' else e = e') {t t' : Int} (ht : t = t') :
    b.SameState ⟨Function.update s.rows key (some (.dict d)), Function.update s.cache key (some e), t, s.seeded⟩
      ⟨Function.update s'.rows key (some (.dict d')), Function.update s'.cache key (some e'), t', s'.seeded⟩ := by
  by_cases hkey : key = "ldap"
  · subst hkey
    rw [if_pos rfl] at hd he
    refine ⟨fun k hk => ?_, fun k hk => ?_, ?_, ?_, ht, h.seeded⟩
    · simp [Function.update_of_ne hk, h.rows k hk]
    · simp [Function.update_of_ne hk, h.cache k hk]
    · simpa [SameRow] using hd
    · simpa [SameCache] using he
  · rw [if_neg hkey] at hd he
    subst hd he
    refine ⟨fun k hk => ?_, fun k hk => ?_, ?_, ?_, ht, h.seeded⟩
    · simp [Function.update_apply, h.rows k hk]
    · simp [Function.update_apply, h.cache k hk]
    · simpa [Function.update_of_ne (Ne.symm hkey)] using h.row
    · simpa [Function.update_of_ne (Ne.symm hkey)] using h.cached

theorem storeValue_ne {key : String} (h : key ≠ "ldap") (v x : _) : storeValue b.vals key v x = v := if_neg h

theorem save_same (h : b.SameState s s') {key : String} (hv : if key = "ldap" then b.SameInput v v' else v = v')
    (now : Int) :
    b.SameState (s.save b.vals key v now (b.cipherOf v n)) (s'.save b.vals key v' now (b.cipherOf v' m)) := by
  refine update_same h ?_ ?_ rfl
  · by_cases hkey : key = "ldap"
    · subst hkey
      rw [if_pos rfl] at hv ⊢
      exact savedRow_same h.row (storeValue_same hv)
    · rw [if_neg hkey] at hv ⊢
      rw [hv, storeValue_ne hkey, storeValue_ne hkey, h.rows key hkey]
  · by_cases hkey : key = "ldap"
    · subst hkey
      rw [if_pos rfl] at hv ⊢
      exact savedCache_same h.cached (storeValue_same hv)
    · rw [if_neg hkey] at hv ⊢
      rw [hv, storeValue_ne hkey, storeValue_ne hkey, h.cache key hkey]

/-! ### Loading -/

theorem Same.has (h : b.Same d d') (f : String) : d.has f = d'.has f := by
  by_cases hplain : f = "bind_password"
  · subst hplain
    exact h.plain.isSome
  by_cases hsealed : f = "bind_password_enc"
  · subst hsealed
    exact h.sealed
  · have hrest := congrArg (Dict.get? · f) h.rest
    simp only [Dict.get?_pop, if_neg hplain, if_neg hsealed] at hrest
    unfold Dict.has
    rw [hrest]

theorem loadedRow_same (h : b.SameRow row row') : b.SameCache (loadedRow "ldap" row) (loadedRow "ldap" row') := by
  rcases row with _ | (x | _) <;> rcases row' with _ | (x' | _) <;> try exact h.elim
  · exact trivial
  · simp only [loadedRow, dropListenPort_ldap]
    exact h
  · exact trivial

theorem refresh_same (h : b.SameState s s') (now : Int) : b.SameState (s.refresh now) (s'.refresh now) where
  rows := h.rows
  cache k hk := congrArg (loadedRow k) (h.rows k hk)
  row := h.row
  cached := loadedRow_same h.row
  loadedAt := rfl
  seeded := h.seeded

theorem missing_same (hv : b.SameInput v v') (h : b.Same d d') : missing "ldap" v d = missing "ldap" v' d' := by
  have hhas : (fun k => !d.has k) = fun k => !d'.has k := funext fun k => congrArg _ (h.has k)
  rw [missing, missing, if_pos rfl, if_pos rfl, hv.rest, hhas]

theorem yaml_nonempty {y : Setting V} (h : ∀ f, y.has f = true ↔ f ∈ ldapFields) : y.entries.isEmpty = false := by
  rw [Bool.eq_false_iff]
  intro hempty
  have hserver := (h "server").mpr (by simp [ldapFields])
  rw [Dict.has_eq_false.mpr (Dict.isEmpty_iff.mp hempty "server")] at hserver
  cases hserver

theorem seedValue_same (hsame : b.SameYaml yaml) (hcache : b.SameCache c c') (hrow : b.SameRow row row') :
    b.SameCache (seedValue b.base b.vals (b.yamlCipher n) "ldap" c row)
      (seedValue (b.withLdap yaml).base b.vals ((b.withLdap yaml).yamlCipher m) "ldap" c' row') := by
  have hfallback : b.base.getFallback b.vals "ldap" = b.base.ldap := rfl
  have hfallback' : (b.withLdap yaml).base.getFallback b.vals "ldap" = yaml.config := rfl
  unfold seedValue
  rw [hfallback, hfallback']
  unfold SameYaml at hsame
  cases hy : b.base.ldap with
  | none =>
    cases hy' : yaml.config with
    | none => exact trivial
    | some y' => simp [hy, hy'] at hsame
  | some y =>
    cases hy' : yaml.config with
    | none => simp [hy, hy'] at hsame
    | some y' =>
      simp only [hy, hy'] at hsame
      have hcipher : b.yamlCipher n = b.cipherOf y n := by simp [LdapBacking.yamlCipher, hy]
      have hcipher' : (b.withLdap yaml).yamlCipher m = b.cipherOf y' m := by
        simp [LdapBacking.yamlCipher, withLdap, hy', LdapBacking.cipherOf]
      simp only [yaml_nonempty (b.yaml y hy), yaml_nonempty (yaml.fields y' hy'), hcipher, hcipher',
        Bool.false_eq_true, if_false]
      rcases c with _ | x <;> rcases c' with _ | x' <;> try exact hcache.elim
      · rcases row with _ | (r | _) <;> rcases row' with _ | (r' | _) <;> try exact hrow.elim
        · exact storeValue_same hsame
        · exact trivial
        · exact trivial
      · rcases row with _ | (r | _) <;> rcases row' with _ | (r' | _) <;> try exact hrow.elim
        · exact trivial
        · simp only [missing_same hsame hcache]
          split_ifs
          · exact trivial
          · exact Same.merge hrow (.refl _)
        · exact trivial

theorem seedValue_ne {key : String} (h : key ≠ "ldap") (x x' : V) (c : Option (Setting V))
    (row : Option (RowValue V)) :
    seedValue (b.withLdap yaml).base b.vals x' key c row = seedValue b.base b.vals x key c row := by
  unfold seedValue
  rw [getFallback_withLdap h]
  simp only [storeValue, if_neg h]

theorem seedKey_same (hsame : b.SameYaml yaml) (h : b.SameState s s') (key : String) :
    b.SameState (s.seedKey b.base b.vals (b.yamlCipher n) key)
      (s'.seedKey (b.withLdap yaml).base b.vals ((b.withLdap yaml).yamlCipher m) key) := by
  unfold Settings.seedKey
  by_cases hkey : key = "ldap"
  · subst hkey
    have hseed : b.SameCache (seedValue b.base b.vals (b.yamlCipher n) "ldap" (s.cache "ldap") (s.rows "ldap"))
        (seedValue (b.withLdap yaml).base b.vals ((b.withLdap yaml).yamlCipher m) "ldap" (s'.cache "ldap")
          (s'.rows "ldap")) := seedValue_same hsame h.cached h.row
    revert hseed
    generalize seedValue b.base b.vals (b.yamlCipher n) "ldap" _ _ = o
    generalize seedValue (b.withLdap yaml).base b.vals _ "ldap" _ _ = o'
    intro hseed
    rcases o with _ | d <;> rcases o' with _ | d' <;> try exact hseed.elim
    · exact h
    · exact update_same h ((if_pos rfl).mpr hseed) ((if_pos rfl).mpr hseed) h.loadedAt
  · rw [seedValue_ne hkey (b.yamlCipher n), h.rows key hkey, h.cache key hkey]
    split
    · exact h
    · exact update_same h (by rw [if_neg hkey]) (by rw [if_neg hkey]) h.loadedAt

theorem load_same (hsame : b.SameYaml yaml) (h : b.SameState s s') (now : Int) (reached : String → Bool) :
    b.SameState (b.load ⟨now, n, reached⟩ s) ((b.withLdap yaml).load ⟨now, m, reached⟩ s') := by
  have hfold : ∀ (keys : List String) (s s' : Settings V), b.SameState s s' →
      b.SameState (keys.foldl (Settings.seedKey b.base b.vals (b.yamlCipher n)) s)
        (keys.foldl (Settings.seedKey (b.withLdap yaml).base b.vals ((b.withLdap yaml).yamlCipher m)) s') := by
    intro keys
    induction keys with
    | nil => exact fun _ _ => id
    | cons key rest ih => exact fun s s' h => ih _ _ (seedKey_same hsame h key)
  unfold LdapBacking.load Settings.loadReaching
  rw [h.seeded]
  split
  · exact refresh_same h now
  · obtain ⟨hrows, hcache, hrow, hcached, hloadedAt, -⟩ :=
      hfold (managedKeys.filter reached) _ _ (refresh_same h now)
    exact ⟨hrows, hcache, hrow, hcached, hloadedAt, rfl⟩

/-! ### The page -/

/-- Arguments of `LdapConfig`. -/
def SameArgs (b : PageBacking N V) : Option (Setting V) → Option (Setting V) → Prop
  | none, none => True
  | some a, some a' => a.pop "bind_password" = a'.pop "bind_password" ∧
      b.Alike (a.get? "bind_password") (a'.get? "bind_password")
  | _, _ => False

theorem alike_cases {p p' : Option V} (h : b.Alike p p') :
    p = none ∧ p' = none ∨ ∃ x x', p = some x ∧ p' = some x' ∧ b.Alike p p' := by
  have hsame := h
  rcases h with rfl | ⟨x, x', rfl, rfl, _⟩
  · cases p with
    | none => exact .inl ⟨rfl, rfl⟩
    | some x => exact .inr ⟨x, x, rfl, rfl, hsame⟩
  · exact .inr ⟨x, x', rfl, rfl, hsame⟩

theorem yamlPassword_alike (hsame : b.SameYaml yaml) : b.Alike b.yamlPassword (b.withLdap yaml).yamlPassword := by
  have hyaml : (b.withLdap yaml).yamlPassword = yaml.config.bind fun d => d.get? "bind_password" := rfl
  rw [hyaml, LdapBacking.yamlPassword]
  unfold SameYaml at hsame
  cases hy : b.base.ldap <;> cases hy' : yaml.config <;> simp only [hy, hy'] at hsame
  · exact .inl rfl
  · exact hsame.password

theorem pop_comm (d : Setting V) (f g : String) : (d.pop f).pop g = (d.pop g).pop f := by
  refine Dict.ext ?_
  simp only [Dict.pop, List.filter_filter, Bool.and_comm]

/-- `resolved`, in its two steps. -/
def opened (b : PageBacking N V) (raw : Setting V) : Option (Setting V) :=
  (raw.get? "bind_password_enc").elim (some raw) fun blob =>
    (b.secrets.decrypt blob).map fun pwd => (raw.pop "bind_password_enc").set "bind_password" pwd

def filled (b : PageBacking N V) (d : Setting V) : Setting V :=
  if d.has "bind_password" then d else b.yamlPassword.elim d (d.set "bind_password")

theorem resolved_eq (b : PageBacking N V) (raw : Setting V) : b.resolved raw = (b.opened raw).map b.filled := by
  unfold LdapBacking.resolved opened filled
  cases raw.get? "bind_password_enc" with
  | none => cases hplain : raw.get? "bind_password" <;> cases b.yamlPassword <;> simp [hplain, Dict.has]
  | some blob => cases hdecrypt : b.secrets.decrypt blob <;> simp [hdecrypt, Dict.has]

theorem opened_same (h : b.Same d d') : b.SameArgs (b.opened d) ((b.withLdap yaml).opened d') := by
  have hpassword := h.password
  have hsealed := h.sealed
  unfold decrypted at hpassword
  unfold opened
  cases henc : d.get? "bind_password_enc" with
  | none =>
    rw [henc, Option.isSome_none] at hsealed
    have henc' : d'.get? "bind_password_enc" = none :=
      Option.isNone_iff_eq_none.mp (Option.isSome_eq_false_iff.mp hsealed.symm)
    have hrest : d.pop "bind_password" = d'.pop "bind_password" := by
      have hpop : ∀ x : Setting V, x.get? "bind_password_enc" = none →
          (x.pop "bind_password").pop "bind_password_enc" = x.pop "bind_password" := by
        intro x hx
        apply Dict.pop_of_has
        rw [Dict.has_eq_false]
        simp [hx]
      rw [← hpop d henc, ← hpop d' henc', h.rest]
    rw [henc']
    exact ⟨hrest, h.plain⟩
  | some c =>
    rw [henc, Option.isSome_some] at hsealed
    obtain ⟨c', henc'⟩ := Option.isSome_iff_exists.mp hsealed.symm
    rw [henc, henc', Option.bind_some, Option.bind_some] at hpassword
    rw [henc']
    show b.SameArgs ((b.secrets.decrypt c).map _) ((b.secrets.decrypt c').map _)
    rcases alike_cases hpassword with ⟨hx, hx'⟩ | ⟨x, x', hx, hx', _⟩
    · rw [hx, hx']
      exact trivial
    · rw [hx, hx'] at hpassword ⊢
      simpa [SameArgs, Dict.pop_set, pop_comm _ "bind_password_enc", h.rest] using hpassword

theorem filled_same (hsame : b.SameYaml yaml) (h : b.SameArgs (some d) (some d')) :
    b.SameArgs (some (b.filled d)) (some ((b.withLdap yaml).filled d')) := by
  obtain ⟨hrest, hplain⟩ := h
  have hyaml := yamlPassword_alike hsame
  unfold filled Dict.has
  rcases alike_cases hplain with ⟨hp, hp'⟩ | ⟨x, x', hp, hp', -⟩
  · rcases alike_cases hyaml with ⟨hy, hy'⟩ | ⟨y, y', hy, hy', -⟩
    · simp [SameArgs, hp, hp', hy, hy', hrest, Alike]
    · rw [hy, hy'] at hyaml
      simpa [SameArgs, hp, hp', hy, hy', Dict.pop_set, hrest] using hyaml
  · rw [hp, hp'] at hplain
    simpa [SameArgs, hp, hp', hrest] using hplain

theorem resolved_same (hsame : b.SameYaml yaml) (h : b.Same d d') :
    b.SameArgs (b.resolved d) ((b.withLdap yaml).resolved d') := by
  have hopened : b.SameArgs (b.opened d) ((b.withLdap yaml).opened d') := opened_same h
  rw [resolved_eq, resolved_eq]
  revert hopened
  rcases b.opened d with _ | e <;> rcases (b.withLdap yaml).opened d' with _ | e' <;> intro hopened <;>
    try exact hopened.elim
  · exact trivial
  · exact filled_same hsame hopened

theorem ldap_same (hsame : b.SameYaml yaml) (h : b.SameState s s') :
    (b.ldap s).map (Dict.pop · "bind_password") = ((b.withLdap yaml).ldap s').map (Dict.pop · "bind_password") := by
  have hparsed : (b.parsed s).map (Dict.pop · "bind_password") =
      ((b.withLdap yaml).parsed s').map (Dict.pop · "bind_password") := by
    have hcached := h.cached
    unfold LdapBacking.parsed
    revert hcached
    rcases s.cache "ldap" with _ | d <;> rcases s'.cache "ldap" with _ | d' <;> intro hcached <;>
      try exact hcached.elim
    · rfl
    · have hresolved := resolved_same hsame hcached
      rw [Option.bind_some, Option.bind_some]
      revert hresolved
      rcases b.resolved d with _ | e <;> rcases (b.withLdap yaml).resolved d' with _ | e' <;> intro hresolved <;>
        try exact hresolved.elim
      · rfl
      · exact b.ldapConfig_alike e e' hresolved.1 hresolved.2
  have hbase : b.base.ldap.map (Dict.pop · "bind_password") = yaml.config.map (Dict.pop · "bind_password") := by
    unfold SameYaml at hsame
    cases hy : b.base.ldap <;> cases hy' : yaml.config <;> simp only [hy, hy'] at hsame
    · rfl
    · exact congrArg some hsame.rest
  have hldap : (b.withLdap yaml).ldap s' = ((b.withLdap yaml).parsed s').or yaml.config := rfl
  rw [hldap, LdapBacking.ldap, Option.map_or, Option.map_or, hparsed, hbase]

theorem getAllForUi_same (hsame : b.SameYaml yaml) (h : b.SameState s s') :
    b.getAllForUi s = (b.withLdap yaml).getAllForUi s' := by
  have hdns : s.dns b.accessors = s'.dns (b.withLdap yaml).accessors := by
    unfold Settings.dns
    rw [h.cache "dns" (by simp)]
    rfl
  have hproxy : s.proxyParams b.base = s'.proxyParams (b.withLdap yaml).base := by
    unfold Settings.proxyParams
    rw [h.cache "proxy" (by simp)]
    rfl
  have hsecurity : s.securityParams b.accessors = s'.securityParams (b.withLdap yaml).accessors := by
    unfold Settings.securityParams
    rw [h.cache "security" (by simp)]
    rfl
  have hredisTtl : s.redisTtl b.accessors = s'.redisTtl (b.withLdap yaml).accessors := by
    unfold Settings.redisTtl
    rw [h.cache "redis_ttl" (by simp)]
    rfl
  have hrelay : s.relayParams b.accessors = s'.relayParams (b.withLdap yaml).accessors := by
    unfold Settings.relayParams
    rw [h.cache "relay" (by simp)]
    rfl
  unfold getAllForUi
  rw [ldap_same hsame h, hdns, hproxy, hsecurity, hredisTtl, hrelay, h.cache "portal" (by simp)]
  rfl

/-! ## Runs -/

/-- The same call at the same time. Of the value that is saved, and of the nonces, the secrets may differ. -/
inductive SameCall (b : PageBacking N V) : PageCall N V → PageCall N V → Prop
  | load (now : Int) (n m : N) (reached : String → Bool) :
      SameCall b (.load ⟨now, n, reached⟩) (.load ⟨now, m, reached⟩)
  | get (now : Int) (n m : N) (reached : String → Bool) :
      SameCall b (.get ⟨now, n, reached⟩) (.get ⟨now, m, reached⟩)
  | save (key : String) (v v' : Setting V) (now : Int) (n m : N)
      (h : if key = "ldap" then b.SameInput v v' else v = v') : SameCall b (.save key v now n) (.save key v' now m)

theorem run_same (hsame : b.SameYaml yaml) (h : b.SameState s s') {call call' : PageCall N V}
    (hcall : b.SameCall call call') : b.SameState (call.run b s) (call'.run (b.withLdap yaml) s') := by
  cases hcall with
  | load now n m reached => exact load_same hsame h now reached
  | get now n m reached =>
    simp only [PageCall.run, h.loadedAt]
    split
    · exact load_same hsame h now reached
    · exact h
  | save key v v' now n m hv => exact save_same h hv now

theorem foldl_same (hsame : b.SameYaml yaml) {calls calls' : List (PageCall N V)}
    (hcalls : List.Forall₂ b.SameCall calls calls') (h : b.SameState s s') :
    b.SameState (calls.foldl (PageCall.run b) s) (calls'.foldl (PageCall.run (b.withLdap yaml)) s') := by
  induction hcalls generalizing s s' with
  | nil => exact h
  | cons hcall _ ih => exact ih (run_same hsame h hcall)

end PageBacking

/-- What the panel is shown after any run says nothing of the passwords: a manager whose passwords in the table, in
the YAML file and in the calls are others shows the same. -/
theorem page_hides_passwords (b : PageBacking N V) (yaml : YamlLdap V) (hyaml : b.SameYaml yaml)
    {rows rows' : String → Option (RowValue V)} (hrows : ∀ key, key ≠ "ldap" → rows key = rows' key)
    (hldap : b.SameRow (rows "ldap") <| rows' "ldap") {calls calls' : List (PageCall N V)}
    (hcalls : List.Forall₂ b.SameCall calls calls') :
    b.getAllForUi (calls.foldl (PageCall.run b) (.initial rows)) =
      (b.withLdap yaml).getAllForUi (calls'.foldl (PageCall.run (b.withLdap yaml)) (.initial rows')) := by
  have hinitial : b.SameState (.initial rows) (.initial rows') :=
    ⟨hrows, fun _ _ => rfl, hldap, trivial, rfl, rfl⟩
  exact PageBacking.getAllForUi_same hyaml (PageBacking.foldl_same hyaml hcalls hinitial)

/-! ## Two passwords -/

def parseLdap (d : Setting Json) : Option (Setting Json) :=
  match d.get? "bind_password" with
  | some (.str _) => if required.all d.has then some (defaults.merge d) else none
  | _ => none

theorem parseLdap_password (d config : Setting Json) (h : parseLdap d = some config) :
    config.get? "bind_password" = d.get? "bind_password" := by
  unfold parseLdap at h
  split at h
  · split at h
    · cases h
      rw [Dict.get?_merge]
      exact Option.or_none
    · cases h
  · cases h

theorem parseLdap_alike (d d' : Setting Json) (hrest : d.pop "bind_password" = d'.pop "bind_password")
    (hpassword : d.get? "bind_password" = d'.get? "bind_password" ∨ ∃ p p', d.get? "bind_password" = some p ∧
      d'.get? "bind_password" = some p' ∧ (∃ t, p = .str t) ∧ ∃ t, p' = .str t) :
    (parseLdap d).map (Dict.pop · "bind_password") = (parseLdap d').map (Dict.pop · "bind_password") := by
  have hhas : d.has = d'.has := by
    funext f
    have hget := congrArg (Dict.get? · f) hrest
    simp only [Dict.get?_pop] at hget
    unfold Dict.has
    by_cases hf : f = "bind_password"
    · subst hf
      rcases hpassword with hsame | ⟨p, p', hp, hp', _⟩
      · rw [hsame]
      · rw [hp, hp', Option.isSome_some, Option.isSome_some]
    · rw [if_neg hf, if_neg hf] at hget
      rw [hget]
  have hmerge : (defaults.merge d).pop "bind_password" = (defaults.merge d').pop "bind_password" := by
    rw [Dict.pop_merge, Dict.pop_merge, hrest]
  unfold parseLdap
  rw [hhas]
  rcases hpassword with hsame | ⟨p, p', hp, hp', ⟨t, rfl⟩, t', rfl⟩
  · rw [hsame]
    split
    · split
      · exact congrArg some hmerge
      · rfl
    · rfl
  · rw [hp, hp']
    dsimp only
    split
    · exact congrArg some hmerge
    · rfl

def yamlLdap (bindPassword : String) : YamlLdap Json where
  config := some (.ofList [("server", .str "dc1"), ("mode", .str "plain"), ("port", .int 389),
    ("tls_verify", .bool false), ("bind_dn", .str "cn=proxy"), ("bind_password", .str bindPassword),
    ("users_dn", .str "ou=users"), ("domain", .str "corp"), ("user_filter", .str "")])
  fields := by
    intro d hd f
    cases hd
    rw [← Dict.mem_keys]
    exact Iff.rfl

def samplePage : PageBacking Unit Json where
  base := { sampleBacking.base with ldap := (yamlLdap "first").config }
  vals := sampleBacking.vals
  secrets := sampleBacking.secrets
  yaml := (yamlLdap "first").fields
  ldapConfig := parseLdap
  ldapConfig_password := parseLdap_password
  dnsConfig := some
  number v := match v with
    | .int n => some (.int n)
    | _ => none
  isText v := ∃ t, v = .str t
  ldapConfig_alike := parseLdap_alike

def pageCalls (bindPassword : String) : List (PageCall Unit Json) :=
  [.load ⟨0, (), fun _ => true⟩, .save "ldap" (directory bindPassword).fields 1 (), .get ⟨40000, (), fun _ => true⟩]

theorem other_passwords_hidden :
    samplePage.getAllForUi ((pageCalls "s3cret").foldl (PageCall.run samplePage) (.initial fun _ => none)) =
      (samplePage.withLdap (yamlLdap "second")).getAllForUi
        ((pageCalls "another").foldl (PageCall.run (samplePage.withLdap (yamlLdap "second")))
          (.initial fun _ => none)) := by
  have hyaml : samplePage.SameYaml (yamlLdap "second") := ⟨rfl, .inr ⟨_, _, rfl, rfl, ⟨_, rfl⟩, _, rfl⟩, rfl⟩
  have hsave : samplePage.SameInput (directory "s3cret").fields (directory "another").fields :=
    ⟨rfl, .inr ⟨_, _, rfl, rfl, ⟨_, rfl⟩, _, rfl⟩, rfl⟩
  have hcalls : List.Forall₂ samplePage.SameCall (pageCalls "s3cret") (pageCalls "another") :=
    .cons (.load ..) (.cons (.save _ _ _ _ _ _ ((if_pos rfl).mpr hsave)) (.cons (.get ..) .nil))
  have hldap : samplePage.SameRow none none := trivial
  exact page_hides_passwords samplePage (yamlLdap "second") hyaml (fun _ _ => rfl) hldap hcalls

end RdpProxy.Config
