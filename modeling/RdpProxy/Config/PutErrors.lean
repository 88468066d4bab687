import Mathlib.Data.List.Infix
import RdpProxy.Config.BindPassword
import RdpProxy.Config.SessionTtl

/-!
# A payload that ends with an error

`put_settings` saves one key after the other, and an error in between leaves what is saved by then.
-/

namespace RdpProxy.Config

open Admin (HttpError strip)

variable {N : Type}

/-! ## What the hooks of the admin service do -/

structure Hooked where
  ldapAuth : Option (Setting Json)
  store : Ttls
  portalNameCache : Option Json
  prevPublicHost : Option String
  prevPublicPort : Option Int
  /-- The domains for which `_request_certificate` has been started. -/
  requested : List String
  /-- The ports for which `_update_dotenv_port` has been called. -/
  dotenvPorts : List Int

structure AdminBacking (N : Type) extends LdapBacking N Json where
  /-- Whether `_encrypt_password` takes the value. -/
  encrypts : Json → Bool
  /-- Whether `LDAPAuthenticator` takes the config. -/
  authenticates : Setting Json → Bool

/-- `int(v)`, where it does not raise. -/
def asInt : Json → Option Int
  | .str s => Text.int s.toList
  | v => v.toInt

/-- `(data.get("public_host") or "").strip()`, where it does not raise. -/
def newHost (data : Setting Json) : Option String :=
  match (data.get? "public_host").filter Json.truthy with
  | none => some ""
  | some (.str s) => some (strip s)
  | some _ => none

/-- `data.get("public_port") or data.get("listen_port")` -/
def newPort (data : Setting Json) : Option Json :=
  ((data.get? "public_port").filter Json.truthy).or (data.get? "listen_port")

namespace Hooked

variable (h : Hooked)

def onLdapChange (b : AdminBacking N) (s : Settings Json) : Hooked :=
  match b.ldap s with
  | none => { h with ldapAuth := none }
  | some config => if b.authenticates config then { h with ldapAuth := some config } else h

def onRedisTtlChange (data : Setting Json) : Hooked := { h with store := h.store.update data.get? }

def onPortalChange : Hooked := { h with portalNameCache := none }

def hostChanged (host : String) : Hooked :=
  { h with
    prevPublicHost := some host
    requested :=
      match h.prevPublicHost with
      | none => h.requested
      | some prev => if host ≠ "" ∧ prev ≠ "" ∧ host ≠ prev then h.requested ++ [host] else h.requested }

def portChanged (port : Int) : Hooked :=
  { h with
    prevPublicPort := some port
    dotenvPorts :=
      match h.prevPublicPort with
      | none => h.dotenvPorts
      | some prev => if port ≠ prev then h.dotenvPorts ++ [port] else h.dotenvPorts }

/-- An exception leaves what has been done before it. -/
def onProxyChange (data : Setting Json) : Hooked :=
  match newHost data with
  | none => h
  | some host =>
    match (newPort data).bind asInt with
    | none => h.hostChanged host
    | some port => (h.hostChanged host).portChanged port

/-- The callbacks of a key. What they raise is logged only. -/
def run (b : AdminBacking N) (key : String) (s : Settings Json) : Hooked :=
  let data := (s.cache key).getD .empty
  match key with
  | "ldap" => h.onLdapChange b s
  | "redis_ttl" => h.onRedisTtlChange data
  | "portal" => h.onPortalChange
  | "proxy" => h.onProxyChange data
  | _ => h

end Hooked

/-! ## The loop over the payload -/

/-- How the transaction of a save ends. A commit may raise although the database has carried it out. -/
inductive Commit where
  | done
  | raised (stored : Bool)

/-- An entry of the payload, with the circumstances under which it is saved. -/
structure Item (N : Type) where
  k : String
  v : Json
  now : Int
  nonce : N
  commit : Commit

structure AdminProcess where
  settings : Settings Json
  hooked : Hooked
  /-- The keys that have been handed to `publish`, which may fail with no more than a warning. -/
  published : List String

def internalError : HttpError := ⟨500, "Internal Server Error"⟩

namespace AdminProcess

variable (b : AdminBacking N)

/-- Whether the password in a value, if there is one, can be encrypted. -/
def Encryptable (key : String) (value : Setting Json) : Prop :=
  key = "ldap" → ∀ pwd, value.get? "bind_password" = some pwd → b.vals.truthy pwd = true → b.encrypts pwd = true

/-- Whether `get` can decrypt the ciphertext that is in the cache. -/
def Decryptable (key : String) (blob : Option Json) : Prop :=
  key = "ldap" → ∀ c, blob = some c → (b.secrets.decrypt c).isSome = true

instance (key : String) (value : Setting Json) : Decidable (Encryptable b key value) := by
  unfold Encryptable
  rcases value.get? "bind_password" with _ | pwd
  · exact isTrue fun _ pwd h => by cases h
  · exact decidable_of_iff (key = "ldap" → b.vals.truthy pwd = true → b.encrypts pwd = true) (by simp)

instance (key : String) (blob : Option Json) : Decidable (Decryptable b key blob) := by
  unfold Decryptable
  rcases blob with _ | c
  · exact isTrue fun _ c h => by cases h
  · exact decidable_of_iff (key = "ldap" → (b.secrets.decrypt c).isSome = true) (by simp)

/-- The value as `save` stores it. -/
def stored (key : String) (value : Setting Json) (nonce : N) : Setting Json :=
  storeValue b.vals key value (b.cipherOf value nonce)

def ciphertext (cached : Option (Setting Json)) : Option Json := cached.bind fun d => d.get? "bind_password_enc"

variable (w : AdminProcess)

/-- The settings behind the commit. -/
def saveSettings (key : String) (value : Setting Json) (now : Int) (nonce : N) : Settings Json :=
  w.settings.save b.vals key value now (b.cipherOf value nonce)

/-- A `save` that comes to its end. -/
def saved (key : String) (value : Setting Json) (now : Int) (nonce : N) : AdminProcess :=
  let s := w.saveSettings b key value now nonce
  ⟨s, w.hooked.run b key s, w.published ++ [key]⟩

/-- The second part says whether `save` returns. -/
def save (key : String) (value : Setting Json) (now : Int) (nonce : N) : Commit → AdminProcess × Bool
  | commit =>
    if Encryptable b key value then
      match commit with
      | .raised false => (w, false)
      | .raised true =>
        ({ w with settings := { w.settings with rows := (w.saveSettings b key value now nonce).rows } }, false)
      | .done =>
        let s := w.saveSettings b key value now nonce
        if Decryptable b key (ciphertext (s.cache key)) then (w.saved b key value now nonce, true)
        else ({ w with settings := s }, false)
    else (w, false)

/-- One turn of the loop. -/
def turn (item : Item N) : AdminProcess × Except HttpError Unit :=
  match putEntry item.k item.v with
  | .error e => (w, .error e)
  | .ok none => (w, .ok ())
  | .ok (some (key, value)) =>
    let (w', returned) := w.save b key value item.now item.nonce item.commit
    (w', if returned then .ok () else .error internalError)

def loop : List (Item N) → AdminProcess → AdminProcess × Except HttpError Unit
  | [], w => (w, .ok ())
  | item :: rest, w =>
    match w.turn b item with
    | (w', .error e) => (w', .error e)
    | (w', .ok ()) => loop rest w'

/-- `reapply` is what `reapply_portal_settings` leaves, whose exceptions are caught. -/
def putSettings (reapply : AdminProcess → AdminProcess) (payload : List (Item N)) :
    AdminProcess × Except HttpError Unit :=
  match loop b payload w with
  | (w', .error e) => (w', .error e)
  | (w', .ok ()) => (reapply w', .ok ())

/-! ## All or nothing -/

def saveItem (item : Item N) : AdminProcess :=
  match putEntry item.k item.v with
  | .ok (some (key, value)) => w.saved b key value item.now item.nonce
  | _ => w

/-- The whole payload, saved. -/
def saveAll (payload : List (Item N)) : AdminProcess := payload.foldl (saveItem b) w

structure Unchanged (w w' : AdminProcess) : Prop where
  rows : w'.settings.rows = w.settings.rows
  cache : w'.settings.cache = w.settings.cache
  hooked : w'.hooked = w.hooked
  published : w'.published = w.published

def AllOrNothing (reapply : AdminProcess → AdminProcess) (payload : List (Item N)) : Prop :=
  match w.putSettings b reapply payload with
  | (w', .ok ()) => w' = reapply (w.saveAll b payload)
  | (w', .error _) => Unchanged w w'

/-! ## When that is so -/

/-- The ciphertext that is in the cache once the value is. -/
def nextBlob (key : String) (stored : Setting Json) (blob : Option Json) : Option Json :=
  if key = "ldap" then (stored.get? "bind_password_enc").or blob else blob

/-- No entry is refused: the keys are known, the database does what it is told, and the directory password can be
encrypted, and read again out of the cache, where `blob` is the ciphertext before the payload. -/
def AllAccepted (blob : Option Json) : List (Item N) → Prop
  | [] => True
  | item :: rest =>
    match putEntry item.k item.v with
    | .error _ => False
    | .ok none => AllAccepted blob rest
    | .ok (some (key, value)) =>
      let blob' := nextBlob key (stored b key value item.nonce) blob
      Encryptable b key value ∧ item.commit = .done ∧ Decryptable b key blob' ∧ AllAccepted blob' rest

/-- The fields of the value are there already, and the legacy port is not in their way. -/
def Holds (key : String) (stored d : Setting Json) : Prop :=
  (dropListenPort key stored stored).Within d ∧
    (key = "proxy" → stored.has "public_port" = true → d.has "listen_port" = false)

/-- The first entry with a key is the refused one. It is refused before anything is stored, or has nothing new. -/
def FirstRefused (s : Settings Json) : List (Item N) → Prop
  | [] => False
  | item :: rest =>
    match putEntry item.k item.v with
    | .error _ => True
    | .ok none => FirstRefused s rest
    | .ok (some (key, value)) =>
      let stored := stored b key value item.nonce
      let rowHolds := ∃ d, s.rows key = some (.dict d) ∧ Holds key stored d
      let cacheHolds := ∃ d, s.cache key = some d ∧ Holds key stored d
      ¬ Encryptable b key value ∨ item.commit = .raised false ∨ item.commit = .raised true ∧ rowHolds ∨
        item.commit = .done ∧ ¬ Decryptable b key (nextBlob key stored (ciphertext (s.cache "ldap"))) ∧
          rowHolds ∧ cacheHolds

/-! ## One save -/

section

variable {b} {w}

theorem dropListenPort_merge {key : String} {stored d : Setting Json} :
    dropListenPort key stored (d.merge stored) = d ↔ Holds key stored d := by
  unfold dropListenPort Holds dropListenPort
  split_ifs with h
  · obtain ⟨rfl, hport⟩ := h
    rw [Dict.pop_merge]
    constructor
    · intro heq
      have hlisten : d.has "listen_port" = false := by
        rw [← heq, ← Dict.pop_merge, Dict.has_eq_false, Dict.get?_pop, if_pos rfl]
      refine ⟨?_, fun _ _ => hlisten⟩
      have hwithin := Dict.within_merge (d.pop "listen_port") (stored.pop "listen_port")
      rwa [heq] at hwithin
    · rintro ⟨hwithin, hlisten⟩
      rw [Dict.pop_of_has (hlisten rfl hport)]
      exact Dict.merge_of_within hwithin
  · constructor
    · intro heq
      have hwithin := Dict.within_merge d stored
      rw [heq] at hwithin
      exact ⟨hwithin, fun hkey hport => absurd ⟨hkey, hport⟩ h⟩
    · rintro ⟨hwithin, _⟩
      exact Dict.merge_of_within hwithin

theorem savedRow_eq {key : String} {stored : Setting Json} {row : Option (RowValue Json)} :
    some (.dict (savedRow key stored row)) = row ↔ ∃ d, row = some (.dict d) ∧ Holds key stored d := by
  rcases row with _ | (d | _)
  · simp
  · simp only [Option.some.injEq, RowValue.dict.injEq, exists_eq_left']
    exact dropListenPort_merge
  · simp

theorem savedCache_eq {key : String} {stored : Setting Json} {cached : Option (Setting Json)} :
    some (savedCache key stored cached) = cached ↔ ∃ d, cached = some d ∧ Holds key stored d := by
  rcases cached with _ | d
  · simp
  · simp only [Option.some.injEq, exists_eq_left']
    exact dropListenPort_merge

theorem ciphertext_save (key : String) (value : Setting Json) (now : Int) (nonce : N) :
    ciphertext ((w.saveSettings b key value now nonce).cache "ldap") =
      nextBlob key (stored b key value nonce) (ciphertext (w.settings.cache "ldap")) := by
  unfold saveSettings nextBlob stored ciphertext
  rw [Settings.save_cache]
  split_ifs with h h' h'
  · subst h
    rcases w.settings.cache "ldap" with _ | cached
    · exact (Option.or_none).symm
    · exact Dict.get?_merge ..
  · exact absurd h.symm h'
  · exact absurd h'.symm h
  · rfl

theorem decryptable_save {key : String} {value : Setting Json} {now : Int} {nonce : N} :
    Decryptable b key (ciphertext ((w.saveSettings b key value now nonce).cache key)) ↔
      Decryptable b key (nextBlob key (stored b key value nonce) (ciphertext (w.settings.cache "ldap"))) := by
  by_cases h : key = "ldap"
  · subst h
    rw [ciphertext_save]
  · exact iff_of_true (fun hkey => absurd hkey h) fun hkey => absurd hkey h

theorem save_cases (key : String) (value : Setting Json) (now : Int) (nonce : N) (commit : Commit) :
    let save := w.save b key value now nonce commit
    let s := w.saveSettings b key value now nonce
    let blob := nextBlob key (stored b key value nonce) (ciphertext (w.settings.cache "ldap"))
    (Encryptable b key value ∧ commit = .done ∧ Decryptable b key blob ∧ save = (w.saved b key value now nonce, true)) ∨
      ((¬ Encryptable b key value ∨ commit = .raised false) ∧ save = (w, false)) ∨
      (Encryptable b key value ∧ commit = .raised true ∧
        save = ({ w with settings := { w.settings with rows := s.rows } }, false)) ∨
      (Encryptable b key value ∧ commit = .done ∧ ¬ Decryptable b key blob ∧ save = ({ w with settings := s }, false)) := by
  intro save s blob
  have hsave : save = w.save b key value now nonce commit := rfl
  unfold AdminProcess.save at hsave
  simp only [decryptable_save] at hsave
  by_cases henc : Encryptable b key value
  · rw [if_pos henc] at hsave
    rcases commit with _ | (_ | _)
    · by_cases hdec : Decryptable b key blob
      · exact .inl ⟨henc, rfl, hdec, hsave.trans (if_pos hdec)⟩
      · exact .inr (.inr (.inr ⟨henc, rfl, hdec, hsave.trans (if_neg hdec)⟩))
    · exact .inr (.inl ⟨.inr rfl, hsave⟩)
    · exact .inr (.inr (.inl ⟨henc, rfl, hsave⟩))
  · rw [if_neg henc] at hsave
    exact .inr (.inl ⟨.inl henc, hsave⟩)

theorem save_published (key : String) (value : Setting Json) (now : Int) (nonce : N) (commit : Commit) :
    w.published <+: (w.save b key value now nonce commit).1.published := by
  rcases save_cases (b := b) (w := w) key value now nonce commit with
    ⟨_, _, _, h⟩ | ⟨_, h⟩ | ⟨_, _, h⟩ | ⟨_, _, _, h⟩
  · rw [h]
    exact List.prefix_append ..
  · rw [h]
  · rw [h]
  · rw [h]

/-! ## The loop -/

theorem loop_cons (item : Item N) (rest : List (Item N)) :
    loop b (item :: rest) w =
      match w.turn b item with
      | (w', .error e) => (w', .error e)
      | (w', .ok ()) => loop b rest w' := rfl

theorem turn_save {item : Item N} {key : String} {value : Setting Json}
    (h : putEntry item.k item.v = .ok (some (key, value))) :
    w.turn b item =
      ((w.save b key value item.now item.nonce item.commit).1,
        if (w.save b key value item.now item.nonce item.commit).2 then .ok () else .error internalError) := by
  unfold turn
  rw [h]

theorem loop_cons_error {item : Item N} {rest : List (Item N)} {e : HttpError}
    (h : putEntry item.k item.v = .error e) : loop b (item :: rest) w = (w, .error e) := by
  rw [loop_cons]
  unfold turn
  rw [h]

theorem loop_cons_blank {item : Item N} {rest : List (Item N)} (h : putEntry item.k item.v = .ok none) :
    loop b (item :: rest) w = loop b rest w := by
  rw [loop_cons]
  unfold turn
  rw [h]

theorem loop_cons_save {item : Item N} {rest : List (Item N)} {key : String} {value : Setting Json}
    (h : putEntry item.k item.v = .ok (some (key, value))) :
    loop b (item :: rest) w =
      match w.save b key value item.now item.nonce item.commit with
      | (w', true) => loop b rest w'
      | (w', false) => (w', .error internalError) := by
  rw [loop_cons, turn_save h]
  rcases w.save b key value item.now item.nonce item.commit with ⟨w', _ | _⟩
  · rfl
  · rfl

theorem loop_published (payload : List (Item N)) (w : AdminProcess) :
    w.published <+: (loop b payload w).1.published := by
  induction payload generalizing w with
  | nil => exact List.prefix_rfl
  | cons item rest ih =>
    rcases hput : putEntry item.k item.v with e | (_ | ⟨key, value⟩)
    · rw [loop_cons_error hput]
    · rw [loop_cons_blank hput]
      exact ih w
    · rw [loop_cons_save hput]
      have hpub := save_published (b := b) (w := w) key value item.now item.nonce item.commit
      rcases hsave : w.save b key value item.now item.nonce item.commit with ⟨w', _ | _⟩
      · rw [hsave] at hpub
        exact hpub
      · rw [hsave] at hpub
        exact hpub.trans (ih w')

theorem loop_ok_iff (payload : List (Item N)) (w : AdminProcess) :
    (AllAccepted b (ciphertext (w.settings.cache "ldap")) payload →
        loop b payload w = (w.saveAll b payload, .ok ())) ∧
      (¬ AllAccepted b (ciphertext (w.settings.cache "ldap")) payload → ∃ e, (loop b payload w).2 = .error e) := by
  induction payload generalizing w with
  | nil => exact ⟨fun _ => rfl, fun h => absurd trivial h⟩
  | cons item rest ih =>
    unfold AllAccepted saveAll
    rw [List.foldl_cons]
    unfold saveItem
    rcases hput : putEntry item.k item.v with e | (_ | ⟨key, value⟩)
    · rw [loop_cons_error hput]
      exact ⟨False.elim, fun _ => ⟨e, rfl⟩⟩
    · rw [loop_cons_blank hput]
      exact ih w
    · rw [loop_cons_save hput]
      have hrest := ih (w.saved b key value item.now item.nonce)
      rw [show ciphertext ((w.saved b key value item.now item.nonce).settings.cache "ldap") = _ from
        ciphertext_save key value item.now item.nonce] at hrest
      rcases save_cases (b := b) (w := w) key value item.now item.nonce item.commit with
        ⟨henc, hcommit, hdec, h⟩ | ⟨hbad, h⟩ | ⟨_, hcommit, h⟩ | ⟨_, _, hdec, h⟩
      · rw [h]
        refine ⟨fun hall => hrest.1 hall.2.2.2, fun hnot => hrest.2 fun hall => ?_⟩
        exact hnot ⟨henc, hcommit, hdec, hall⟩
      · rw [h]
        refine ⟨fun ⟨henc, hcommit, _⟩ => ?_, fun _ => ⟨_, rfl⟩⟩
        rcases hbad with hbad | hbad
        · exact absurd henc hbad
        · rw [hcommit] at hbad
          cases hbad
      · rw [h]
        refine ⟨fun ⟨_, hdone, _⟩ => ?_, fun _ => ⟨_, rfl⟩⟩
        rw [hcommit] at hdone
        cases hdone
      · rw [h]
        exact ⟨fun ⟨_, _, hdec', _⟩ => absurd hdec' hdec, fun _ => ⟨_, rfl⟩⟩

theorem unchanged_rows {key : String} {value : Setting Json} (now : Int) {nonce : N} :
    (w.saveSettings b key value now nonce).rows = w.settings.rows ↔
      ∃ d, w.settings.rows key = some (.dict d) ∧ Holds key (stored b key value nonce) d :=
  Function.update_eq_self_iff.trans savedRow_eq

theorem unchanged_cache {key : String} {value : Setting Json} (now : Int) {nonce : N} :
    (w.saveSettings b key value now nonce).cache = w.settings.cache ↔
      ∃ d, w.settings.cache key = some d ∧ Holds key (stored b key value nonce) d :=
  Function.update_eq_self_iff.trans savedCache_eq

theorem saved_not_unchanged {key : String} {value : Setting Json} {now : Int} {nonce : N} {rest : List (Item N)} :
    ¬ Unchanged w (loop b rest (w.saved b key value now nonce)).1 := by
  intro hunchanged
  have hlonger := (loop_published (b := b) rest (w.saved b key value now nonce)).length_le
  have hone : (w.saved b key value now nonce).published.length = w.published.length + 1 := List.length_append
  have hsame : (loop b rest (w.saved b key value now nonce)).1.published.length = w.published.length :=
    congrArg List.length hunchanged.published
  omega

/-- A payload that is not accepted changes nothing exactly when its first entry with a key is refused. -/
theorem loop_unchanged_iff (payload : List (Item N)) (w : AdminProcess)
    (hrefused : ¬ AllAccepted b (ciphertext (w.settings.cache "ldap")) payload) :
    Unchanged w (loop b payload w).1 ↔ FirstRefused b w.settings payload := by
  induction payload with
  | nil => exact absurd trivial hrefused
  | cons item rest ih =>
    unfold AllAccepted at hrefused
    unfold FirstRefused
    rcases hput : putEntry item.k item.v with e | (_ | ⟨key, value⟩)
    · rw [loop_cons_error hput]
      exact iff_of_true ⟨rfl, rfl, rfl, rfl⟩ trivial
    · rw [hput] at hrefused
      rw [loop_cons_blank hput]
      exact ih hrefused
    · rw [loop_cons_save hput]
      dsimp only
      rw [← unchanged_rows item.now, ← unchanged_cache item.now]
      rcases save_cases (b := b) (w := w) key value item.now item.nonce item.commit with
        ⟨henc, hcommit, hdec, h⟩ | ⟨hbad, h⟩ | ⟨henc, hcommit, h⟩ | ⟨henc, hcommit, hdec, h⟩
      · rw [h]
        exact iff_of_false saved_not_unchanged (by simp [henc, hcommit, hdec])
      · rw [h]
        exact iff_of_true ⟨rfl, rfl, rfl, rfl⟩ (hbad.elim .inl fun hbad => .inr (.inl hbad))
      · rw [h]
        constructor
        · intro hunchanged
          exact .inr (.inr (.inl ⟨hcommit, hunchanged.rows⟩))
        · intro hfirst
          simp only [henc, hcommit, not_true_eq_false, false_or, reduceCtorEq, false_and, or_false, true_and,
            Commit.raised.injEq, Bool.true_eq_false] at hfirst
          exact ⟨hfirst, rfl, rfl, rfl⟩
      · rw [h]
        constructor
        · intro hunchanged
          exact .inr (.inr (.inr ⟨hcommit, hdec, hunchanged.rows, hunchanged.cache⟩))
        · intro hfirst
          simp only [henc, hcommit, hdec, not_true_eq_false, not_false_eq_true, false_or, reduceCtorEq, false_and,
            true_and] at hfirst
          exact ⟨hfirst.1, hfirst.2, rfl, rfl⟩

end

end AdminProcess

/-- A payload is applied completely or not at all exactly when nothing in it is refused, or the first thing
that would be saved is. -/
theorem allOrNothing_iff (b : AdminBacking N) (reapply : AdminProcess → AdminProcess) (w : AdminProcess)
    (payload : List (Item N)) :
    w.AllOrNothing b reapply payload ↔
      AdminProcess.AllAccepted b (AdminProcess.ciphertext (w.settings.cache "ldap")) payload ∨
        AdminProcess.FirstRefused b w.settings payload := by
  unfold AdminProcess.AllOrNothing AdminProcess.putSettings
  obtain ⟨hall, hnot⟩ := AdminProcess.loop_ok_iff (b := b) payload w
  by_cases haccepted : AdminProcess.AllAccepted b (AdminProcess.ciphertext (w.settings.cache "ldap")) payload
  · rw [hall haccepted]
    exact iff_of_true rfl (.inl haccepted)
  · obtain ⟨e, he⟩ := hnot haccepted
    have hunchanged := AdminProcess.loop_unchanged_iff payload w haccepted
    rcases hloop : AdminProcess.loop b payload w with ⟨w', answer⟩
    rw [hloop] at he hunchanged
    rw [show answer = .error e from he]
    exact hunchanged.trans (or_iff_right haccepted).symm

/-! ## An unknown key behind a known one -/

def sampleAdmin : AdminBacking Unit where
  toLdapBacking := sampleBacking
  encrypts v := match v with
    | .str _ => true
    | _ => false
  authenticates _ := true

def freshAdmin : AdminProcess where
  settings := .initial fun _ => none
  hooked := ⟨none, ⟨.int 28800, .int 300, .int 1800⟩, none, some "", some 443, [], []⟩
  published := []

def mistyped : List (Item Unit) :=
  [⟨"security", .dict [("login_lock_seconds", .int 900)], 1, (), .done⟩, ⟨"secutiry", .dict [], 2, (), .done⟩]

theorem mistyped_half_applied :
    ∃ w', freshAdmin.putSettings sampleAdmin id mistyped = (w', .error ⟨400, "Unknown setting key: secutiry"⟩) ∧
      w'.settings.rows "security" = some (.dict (.ofList [("login_lock_seconds", .int 900)])) ∧
      w'.published = ["security"] ∧ ¬ freshAdmin.AllOrNothing sampleAdmin id mistyped := by
  refine ⟨_, rfl, rfl, rfl, fun h => ?_⟩
  have hpublished : ["security"] = [] := AdminProcess.Unchanged.published h
  cases hpublished

end RdpProxy.Config
