import RdpProxy.Lib.JsonFields
import RdpProxy.Lib.Keyspace
import RdpProxy.Lib.Steps

/-!
# The search for AD groups and its cache (`routes/ad_groups.py`, `identity/ldap_auth.py`)

The entry that a search leaves in Redis is found by every later one for the same term, whatever its limit.
-/

open RedisKey Steps Words Text JsonText

namespace RdpProxy.Admin.AdGroups

/-! ## `LDAPAuthenticator.search_groups` -/

inductive RawGuid where
  | bytes (b : Bytes)
  | text (s : List Char)
  | other

/-- An entry with the attributes that the search asks for. -/
structure LdapEntry where
  entryDn : String
  objectGuid : Option RawGuid
  distinguishedName : Option String
  cn : Option String
  description : Option String

inductive LdapError where
  | unavailable
  | badGuid
  deriving DecidableEq

structure AdGroupOut where
  guid : String
  dn : String
  cn : String
  description : Option String
  deriving DecidableEq

/-- `uuid.UUID(bytes_le=b)` -/
def guidOfBytesLe (b : Bytes) : Option Uuid :=
  let bytes := (b.take 4).reverse ++ ((b.drop 4).take 2).reverse ++ ((b.drop 6).take 2).reverse ++ b.drop 8
  Uuid.ofDigits (bytes.flatMap fun x => [Uuid.lastDigit (x.toNat / 16), Uuid.lastDigit x.toNat])

def guidFromLdapRaw : Option RawGuid → Except LdapError (Option String)
  | some (.bytes b) =>
    match guidOfBytesLe b with
    | none => .error .badGuid
    | some u => .ok (some (String.ofList u.str))
  | some (.text s) => .ok (if strip s = [] then none else (Uuid.parse (strip s)).map fun u => String.ofList u.str)
  | some .other => .ok none
  | none => .ok none

/-- `str(e.a.value) if "a" in e and e.a.value else default` -/
def attributeOr (value : Option String) (default : String) : String := (value.filter fun s => s ≠ "").getD default

def groupOf (e : LdapEntry) (guid : String) : AdGroupOut :=
  let dn := attributeOr e.distinguishedName e.entryDn
  ⟨guid, dn, attributeOr e.cn dn, e.description.filter fun s => s ≠ ""⟩

def groupsOf : List LdapEntry → Except LdapError (List AdGroupOut)
  | [] => .ok []
  | e :: rest =>
    match guidFromLdapRaw e.objectGuid with
    | .error err => .error err
    | .ok none => groupsOf rest
    | .ok (some guid) => (groupsOf rest).map (groupOf e guid :: ·)

def searchFilter (safe : List Char) : List Char :=
  "(&(objectClass=group)(|(cn=*".toList ++ safe ++ "*)(description=*".toList ++ safe ++ "*)))".toList

/-- The directory and the parts of `ldap3` and of `str` that a search uses. `entries` is what matches a filter, in
the order in which the server sends it up to the size limit. It does not tell upper from lower case. -/
structure Directory where
  escapeFilterChars : List Char → List Char
  lower : List Char → List Char
  entries : List Char → List LdapEntry
  caseIgnore : ∀ q q', lower q = lower q' →
    entries (searchFilter (escapeFilterChars q)) = entries (searchFilter (escapeFilterChars q'))

def sizeLimit (limit : Int) : Nat := (max 1 (min limit 200)).toNat

namespace Directory

variable (d : Directory)

def matching (q : List Char) : List LdapEntry := d.entries (searchFilter (d.escapeFilterChars q))

def searchGroups (term : List Char) (limit : Int) : Except LdapError (List AdGroupOut) :=
  let q := strip term
  if q.length < 2 then .ok [] else groupsOf ((d.matching q).take (sizeLimit limit))

end Directory

/-! ## The cached text -/

def AdGroupOut.doc (g : AdGroupOut) : Doc :=
  .dict [("guid".toList, strDoc g.guid), ("dn".toList, strDoc g.dn), ("cn".toList, strDoc g.cn),
    ("description".toList, optStrDoc g.description)]

/-- `AdGroupOut(**v)`, where it does not raise. -/
def AdGroupOut.ofDoc (v : Doc) : Option AdGroupOut := do
  let guid ← strAt v "guid"
  let dn ← strAt v "dn"
  let cn ← strAt v "cn"
  let description ← optStrAt v "description"
  return ⟨guid, dn, cn, description⟩

def groupsText (groups : List AdGroupOut) : List Char := dumps false (.list (groups.map AdGroupOut.doc))

def readGroups (cached : List Char) : Option (List AdGroupOut) :=
  match loads cached with
  | some (.list items) => items.mapM AdGroupOut.ofDoc
  | _ => none

/-! ## The route -/

/-- `notStored` is the answer 500 of a request that fails in the database. -/
inductive Answer where
  | tooShort
  | cached (groups : List AdGroupOut)
  | fetched (groups : List AdGroupOut)
  | notStored
  | ldapFailed
  deriving DecidableEq

def Answer.fills : Answer → Bool
  | .fetched _ | .notStored => true
  | _ => false

abbrev Redis := Keyspace (List Char) (List Char)

structure Route where
  directory : Directory
  sha1 : Bytes → List Char

def clampLimit (limit : Int) : Int := max 1 (min (if limit = 0 then 20 else limit) 50)

namespace Route

variable (route : Route)

def cacheKey (q : List Char) : List Char := "rdp:adgroups:search:".toList ++ route.sha1 (utf8 (route.directory.lower q))

/-- The request from `_get_ldap` on. -/
def fetch (r : Redis) (q : List Char) (limit : Int) (ldapUp dbUp : Bool) : Redis × Answer :=
  if ldapUp then
    match route.directory.searchGroups q limit with
    | .error _ => (r, .ldapFailed)
    | .ok groups => (r.setex (route.cacheKey q) 120 (groupsText groups), if dbUp then .fetched groups else .notStored)
  else (r, .ldapFailed)

def searchGroups (r : Redis) (search : List Char) (limit : Int) (ldapUp dbUp : Bool) : Redis × Answer :=
  let q := strip search
  if q.length < 2 then (r, .tooShort)
  else
    match r.raw (route.cacheKey q) with
    | none => route.fetch r q (clampLimit limit) ldapUp dbUp
    | some cached =>
      match readGroups cached with
      | some groups => (r, .cached groups)
      | none => route.fetch (r.delete (route.cacheKey q)) q (clampLimit limit) ldapUp dbUp

/-! ## Runs -/

/-- `filledBy` is the term and the limit of the request that wrote what is under a key. The code does not know it. -/
structure State where
  redis : Redis
  filledBy : List Char → List Char × Int

def State.initial (clock : Nat) : State := ⟨Keyspace.empty clock, fun _ => ([], 0)⟩

inductive Act where
  | request (search : List Char) (limit : Int) (ldapUp dbUp : Bool)
  | tick (ms : Nat)

def step (s : State) : Act → Option State
  | .request search limit ldapUp dbUp =>
    let (redis, answer) := route.searchGroups s.redis search limit ldapUp dbUp
    let q := strip search
    some ⟨redis,
      if answer.fills then Function.update s.filledBy (route.cacheKey q) (q, clampLimit limit) else s.filledBy⟩
  | .tick ms => some ⟨s.redis.tick ms, s.filledBy⟩

/-- An answer from the cache is what the directory would say. -/
def ServedRight (s : State) : Act → Prop
  | .request search limit ldapUp dbUp => ∀ groups,
    (route.searchGroups s.redis search limit ldapUp dbUp).2 = .cached groups →
      route.directory.searchGroups search (clampLimit limit) = .ok groups
  | .tick _ => True

/-- No group lies between the request's own limit and that of the request which filled the entry. -/
def FillFits (s : State) : Act → Prop
  | .request search limit _ _ =>
    let key := route.cacheKey (strip search)
    let m := sizeLimit (s.filledBy key).2
    let n := sizeLimit (clampLimit limit)
    2 ≤ (strip search).length → s.redis.raw key ≠ none →
      ∀ e ∈ ((route.directory.matching (strip search)).take (max m n)).drop (min m n),
        guidFromLdapRaw e.objectGuid = .ok none
  | .tick _ => True

end Route

/-! ## Groups of a list of entries -/

theorem groupsOf_cons (e : LdapEntry) (rest : List LdapEntry) :
    groupsOf (e :: rest) =
      match guidFromLdapRaw e.objectGuid with
      | .error err => .error err
      | .ok none => groupsOf rest
      | .ok (some guid) => (groupsOf rest).map (groupOf e guid :: ·) := rfl

theorem groupsOf_append (l rest : List LdapEntry) :
    groupsOf (l ++ rest) =
      match groupsOf l with
      | .error err => .error err
      | .ok groups => (groupsOf rest).map (groups ++ ·) := by
  induction l with
  | nil =>
    cases hrest : groupsOf rest with
    | error err => exact hrest
    | ok more => exact hrest
  | cons e l ih =>
    rw [List.cons_append, groupsOf_cons, groupsOf_cons, ih]
    cases guidFromLdapRaw e.objectGuid with
    | error err => rfl
    | ok guid =>
      cases guid with
      | none => rfl
      | some guid =>
        cases groupsOf l with
        | error err => rfl
        | ok first =>
          cases groupsOf rest with
          | error err => rfl
          | ok more => rfl

theorem groupsOf_eq_nil {l : List LdapEntry} :
    groupsOf l = .ok [] ↔ ∀ e ∈ l, guidFromLdapRaw e.objectGuid = .ok none := by
  induction l with
  | nil => simp [groupsOf]
  | cons e l ih =>
    rw [groupsOf_cons, List.forall_mem_cons]
    cases guidFromLdapRaw e.objectGuid with
    | error err => simp
    | ok guid =>
      cases guid with
      | none => simpa using ih
      | some guid =>
        cases groupsOf l with
        | error err => simp [Except.map]
        | ok first => simp [Except.map]

theorem groupsOf_length_le {l : List LdapEntry} {groups : List AdGroupOut} (h : groupsOf l = .ok groups) :
    groups.length ≤ l.length := by
  induction l generalizing groups with
  | nil =>
    cases h
    exact Nat.le_refl _
  | cons e l ih =>
    rw [groupsOf_cons] at h
    cases hguid : guidFromLdapRaw e.objectGuid with
    | error err =>
      rw [hguid] at h
      cases h
    | ok guid =>
      rw [hguid] at h
      cases guid with
      | none =>
        have hle := ih h
        rw [List.length_cons]
        omega
      | some guid =>
        cases hl : groupsOf l with
        | error err =>
          simp only [hl] at h
          cases h
        | ok first =>
          simp only [hl] at h
          cases h
          have hle := ih hl
          rw [List.length_cons, List.length_cons]
          omega

theorem groupsOf_append_iff {l rest : List LdapEntry} {groups : List AdGroupOut} (h : groupsOf l = .ok groups) :
    groupsOf (l ++ rest) = .ok groups ↔ ∀ e ∈ rest, guidFromLdapRaw e.objectGuid = .ok none := by
  rw [groupsOf_append, h, ← groupsOf_eq_nil]
  cases groupsOf rest with
  | error err => simp [Except.map]
  | ok more => simp [Except.map]

theorem groupsOf_left_iff {l rest : List LdapEntry} {groups : List AdGroupOut} (h : groupsOf (l ++ rest) = .ok groups) :
    groupsOf l = .ok groups ↔ ∀ e ∈ rest, guidFromLdapRaw e.objectGuid = .ok none := by
  rw [groupsOf_append] at h
  rw [← groupsOf_eq_nil]
  cases hl : groupsOf l with
  | error err =>
    rw [hl] at h
    cases h
  | ok first =>
    rw [hl] at h
    cases hrest : groupsOf rest with
    | error err =>
      simp only [hrest] at h
      cases h
    | ok more =>
      simp only [hrest] at h
      cases h
      simp

theorem take_eq_append_between {α : Type} (l : List α) {m n : Nat} (h : m ≤ n) :
    l.take n = l.take m ++ (l.take n).drop m := by
  conv_lhs => rw [← List.take_append_drop m (l.take n), List.take_take, Nat.min_eq_left h]

theorem groupsOf_take_iff {l : List LdapEntry} {groups : List AdGroupOut} {m : Nat}
    (h : groupsOf (l.take m) = .ok groups) (n : Nat) :
    groupsOf (l.take n) = .ok groups ↔
      ∀ e ∈ (l.take (max m n)).drop (min m n), guidFromLdapRaw e.objectGuid = .ok none := by
  rcases Nat.le_total m n with hle | hle
  · rw [Nat.max_eq_right hle, Nat.min_eq_left hle]
    conv_lhs => rw [take_eq_append_between l hle]
    exact groupsOf_append_iff h
  · rw [Nat.max_eq_left hle, Nat.min_eq_right hle]
    rw [take_eq_append_between l hle] at h
    exact groupsOf_left_iff h

theorem sizeLimit_clampLimit (limit : Int) : (sizeLimit (clampLimit limit) : Int) = clampLimit limit := by
  have h1 : 1 ≤ clampLimit limit := Int.le_max_left ..
  have h50 : clampLimit limit ≤ 50 := by
    unfold clampLimit
    omega
  unfold sizeLimit
  omega

theorem searchGroups_length_le {d : Directory} {term : List Char} {limit : Int} {groups : List AdGroupOut}
    (h : d.searchGroups term (clampLimit limit) = .ok groups) : (groups.length : Int) ≤ clampLimit limit := by
  have hlimit := sizeLimit_clampLimit limit
  unfold Directory.searchGroups at h
  dsimp only at h
  split_ifs at h
  · cases h
    have h1 : 1 ≤ clampLimit limit := Int.le_max_left ..
    rw [List.length_nil]
    omega
  · have hle := groupsOf_length_le h
    rw [List.length_take] at hle
    omega

/-! ## What is cached is read back -/

theorem AdGroupOut.ofDoc_doc (g : AdGroupOut) : AdGroupOut.ofDoc g.doc = some g := by
  unfold AdGroupOut.ofDoc
  rw [strAt_strDoc (s := g.guid) rfl, strAt_strDoc (s := g.dn) rfl, strAt_strDoc (s := g.cn) rfl,
    optStr_optStrDoc g.description g.doc "description" rfl]
  rfl

theorem readGroups_groupsText (groups : List AdGroupOut) : readGroups (groupsText groups) = some groups := by
  rw [readGroups, groupsText, loads_dumps]
  exact mapM_map_of_left_inverse AdGroupOut.ofDoc_doc groups

/-! ## What one request does -/

namespace Route

variable {route : Route} {r : Redis} {s : State}

theorem fetch_spec (route : Route) (r : Redis) (q : List Char) (limit : Int) (ldapUp dbUp : Bool) :
    (∀ groups, (route.fetch r q limit ldapUp dbUp).2 ≠ .cached groups) ∧
    ((route.fetch r q limit ldapUp dbUp).2.fills = false ∧ (route.fetch r q limit ldapUp dbUp).1 = r ∨
      (route.fetch r q limit ldapUp dbUp).2.fills = true ∧
      ∃ groups, route.directory.searchGroups q limit = .ok groups ∧
        (route.fetch r q limit ldapUp dbUp).1 = r.setex (route.cacheKey q) 120 (groupsText groups)) := by
  unfold fetch
  split_ifs with hl hd
  · cases hgroups : route.directory.searchGroups q limit with
    | error err => exact ⟨by simp, Or.inl ⟨rfl, rfl⟩⟩
    | ok groups => exact ⟨by simp, Or.inr ⟨rfl, groups, rfl, rfl⟩⟩
  · cases hgroups : route.directory.searchGroups q limit with
    | error err => exact ⟨by simp, Or.inl ⟨rfl, rfl⟩⟩
    | ok groups => exact ⟨by simp, Or.inr ⟨rfl, groups, rfl, rfl⟩⟩
  · exact ⟨by simp, Or.inl ⟨rfl, rfl⟩⟩

/-- The text is what one of the terms brought at some limit. -/
structure Brought (route : Route) (terms : List (List Char)) (filler : List Char × Int) (key text : List Char) :
    Prop where
  mem : filler.1 ∈ terms
  key_eq : key = route.cacheKey filler.1
  brought : ∃ groups, groupsOf ((route.directory.matching filler.1).take (sizeLimit filler.2)) = .ok groups ∧
    text = groupsText groups

def Inv (route : Route) (terms : List (List Char)) (s : State) : Prop :=
  ∀ key text, (s.redis.keys key).get = some text → Brought route terms (s.filledBy key) key text

theorem searchGroups_of_short {search : List Char} (h : (strip search).length < 2) (limit : Int) (ldapUp dbUp : Bool) :
    route.searchGroups r search limit ldapUp dbUp = (r, .tooShort) := by
  rw [searchGroups, if_pos h]

theorem searchGroups_of_none {search : List Char} (h : ¬ (strip search).length < 2)
    (hraw : r.raw (route.cacheKey (strip search)) = none) (limit : Int) (ldapUp dbUp : Bool) :
    route.searchGroups r search limit ldapUp dbUp = route.fetch r (strip search) (clampLimit limit) ldapUp dbUp := by
  rw [searchGroups, if_neg h, hraw]

theorem searchGroups_of_text {search : List Char} {groups : List AdGroupOut} (h : ¬ (strip search).length < 2)
    (hraw : r.raw (route.cacheKey (strip search)) = some (groupsText groups)) (limit : Int) (ldapUp dbUp : Bool) :
    route.searchGroups r search limit ldapUp dbUp = (r, .cached groups) := by
  rw [searchGroups, if_neg h, hraw]
  dsimp only
  rw [readGroups_groupsText]

def Act.term : Act → Option (List Char)
  | .request search _ _ _ => some (strip search)
  | .tick _ => none

theorem Inv.fill {terms : List (List Char)} (h : Inv route terms s) {q : List Char} (hq : q ∈ terms) {limit : Int}
    {groups : List AdGroupOut} (hgroups : groupsOf ((route.directory.matching q).take (sizeLimit limit)) = .ok groups) :
    Inv route terms ⟨s.redis.setex (route.cacheKey q) 120 (groupsText groups),
      Function.update s.filledBy (route.cacheKey q) (q, limit)⟩ := by
  intro key text hget
  by_cases hkey : key = route.cacheKey q
  · subst hkey
    rw [Keyspace.get_keys_setex] at hget
    dsimp only
    rw [Function.update_self]
    exact ⟨hq, rfl, groups, hgroups, (Option.some.inj hget).symm⟩
  · rw [s.redis.keys_setex_of_ne hkey] at hget
    dsimp only
    rw [Function.update_of_ne hkey]
    exact h key text hget

theorem directory_searchGroups {search : List Char} (h : ¬ (strip search).length < 2) (limit : Int) :
    route.directory.searchGroups search limit =
      groupsOf ((route.directory.matching (strip search)).take (sizeLimit limit)) := by
  rw [Directory.searchGroups, if_neg h]

theorem Inv.raw {terms : List (List Char)} (h : Inv route terms s) {key text : List Char}
    (hraw : s.redis.raw key = some text) : Brought route terms (s.filledBy key) key text :=
  h key text (Keyspace.get_of_raw hraw)

theorem step_request (search : List Char) (limit : Int) (ldapUp dbUp : Bool) :
    route.step s (.request search limit ldapUp dbUp) = some
      ⟨(route.searchGroups s.redis search limit ldapUp dbUp).1,
        if (route.searchGroups s.redis search limit ldapUp dbUp).2.fills then
          Function.update s.filledBy (route.cacheKey (strip search)) (strip search, clampLimit limit)
        else s.filledBy⟩ := rfl

theorem step_inv {terms : List (List Char)} {a : Act} {s' : State} (hterm : ∀ t, a.term = some t → t ∈ terms)
    (h : Inv route terms s) (hs : route.step s a = some s') : Inv route terms s' := by
  cases a with
  | tick ms =>
    cases hs
    intro key text hget
    rcases s.redis.get_keys_tick ms key with hnone | hsame
    · rw [hnone] at hget
      cases hget
    · rw [hsame] at hget
      exact h key text hget
  | request search limit ldapUp dbUp =>
    rw [step_request] at hs
    obtain rfl := Option.some.inj hs
    by_cases hshort : (strip search).length < 2
    · rw [searchGroups_of_short hshort]
      exact h
    · cases hraw : s.redis.raw (route.cacheKey (strip search)) with
      | none =>
        rw [searchGroups_of_none hshort hraw]
        obtain ⟨-, ⟨hfills, hsame⟩ | ⟨hfills, groups, hgroups, hset⟩⟩ :=
          fetch_spec route s.redis (strip search) (clampLimit limit) ldapUp dbUp
        · rw [hfills, hsame]
          exact h
        · rw [hfills, hset]
          rw [directory_searchGroups (by rw [strip_strip]; exact hshort), strip_strip] at hgroups
          exact h.fill (hterm _ rfl) hgroups
      | some text =>
        obtain ⟨groups, -, rfl⟩ := (h.raw hraw).brought
        rw [searchGroups_of_text hshort hraw]
        exact h

theorem servedRight_iff_fillFits {terms : List (List Char)}
    (hsha : ∀ t ∈ terms, ∀ t' ∈ terms, route.sha1 (utf8 (route.directory.lower t)) =
      route.sha1 (utf8 (route.directory.lower t')) → route.directory.lower t = route.directory.lower t')
    {a : Act} (hterm : ∀ t, a.term = some t → t ∈ terms) (h : Inv route terms s) :
    route.ServedRight s a ↔ route.FillFits s a := by
  cases a with
  | tick ms => exact Iff.rfl
  | request search limit ldapUp dbUp =>
    by_cases hshort : (strip search).length < 2
    · constructor
      · intro _ hlong
        omega
      · intro _ groups hcached
        rw [searchGroups_of_short hshort] at hcached
        cases hcached
    · cases hraw : s.redis.raw (route.cacheKey (strip search)) with
      | none =>
        constructor
        · intro _ _ hsome
          exact absurd hraw hsome
        · intro _ groups hcached
          rw [searchGroups_of_none hshort hraw] at hcached
          exact absurd hcached ((fetch_spec _ _ _ _ _ _).1 groups)
      | some text =>
        obtain ⟨hmem, hkey, groups, hgroups, rfl⟩ := h.raw hraw
        have hlower := hsha _ (hterm _ rfl) _ hmem (List.append_cancel_left hkey)
        have hmatching := route.directory.caseIgnore _ _ hlower
        rw [Directory.matching, ← hmatching] at hgroups
        have hiff := groupsOf_take_iff hgroups (sizeLimit (clampLimit limit))
        constructor
        · intro hright _ _
          have hdirect := hright groups (by rw [searchGroups_of_text hshort hraw])
          rw [directory_searchGroups hshort] at hdirect
          exact hiff.mp hdirect
        · intro hfits served hcached
          rw [searchGroups_of_text hshort hraw] at hcached
          cases hcached
          rw [directory_searchGroups hshort]
          exact hiff.mpr (hfits (Nat.le_of_not_lt hshort) (by rw [hraw]; exact Option.some_ne_none _))

/-- An answer from the cache keeps to the limit of its own request. -/
def ServedWithin (route : Route) (s : State) : Act → Prop
  | .request search limit ldapUp dbUp => ∀ groups,
    (route.searchGroups s.redis search limit ldapUp dbUp).2 = .cached groups → (groups.length : Int) ≤ clampLimit limit
  | .tick _ => True

theorem initial_inv (route : Route) (terms : List (List Char)) (clock : Nat) :
    Inv route terms (State.initial clock) := by
  intro key text hget
  cases hget

theorem step_total (route : Route) (s : State) (a : Act) : ∃ s', route.step s a = some s' := by
  cases a with
  | request search limit ldapUp dbUp => exact ⟨_, rfl⟩
  | tick ms => exact ⟨_, rfl⟩

theorem ServedRight.within {a : Act} (h : route.ServedRight s a) : ServedWithin route s a := by
  cases a with
  | request search limit ldapUp dbUp =>
    intro groups hcached
    exact searchGroups_length_le (h groups hcached)
  | tick ms => trivial

end Route

open Route in
/-- Over all runs: what the cache serves is right as long as each entry it serves from was filled at a limit that
brought the same groups. -/
theorem served_right_iff_fill_fits (route : Route) (clock : Nat) (acts : List Act)
    (hsha : ∀ t ∈ acts.filterMap Act.term, ∀ t' ∈ acts.filterMap Act.term,
      route.sha1 (utf8 (route.directory.lower t)) = route.sha1 (utf8 (route.directory.lower t')) →
        route.directory.lower t = route.directory.lower t') :
    (Along route.step route.ServedRight (State.initial clock) acts ↔
      Along route.step route.FillFits (State.initial clock) acts) ∧
    (Along route.step route.FillFits (State.initial clock) acts →
      Along route.step (ServedWithin route) (State.initial clock) acts) := by
  have hterm : ∀ a ∈ acts, ∀ t, a.term = some t → t ∈ acts.filterMap Act.term := by
    intro a ha t ht
    exact List.mem_filterMap.mpr ⟨a, ha, ht⟩
  obtain ⟨s', hrun⟩ := exists_run (step_total route) (State.initial clock) acts
  have hiff : Along route.step route.ServedRight (State.initial clock) acts ↔
      Along route.step route.FillFits (State.initial clock) acts := by
    apply along_congr_of_mem _ _ hrun (initial_inv route (acts.filterMap Act.term) clock)
    · intro s a ha s₁ hinv hstep
      exact step_inv (hterm a ha) hinv hstep
    · intro s a ha s₁ hinv _
      exact servedRight_iff_fillFits hsha (hterm a ha) hinv
  refine ⟨hiff, ?_⟩
  intro hfits
  exact (hiff.mpr hfits).mono fun s a h => h.within

/-! ## A directory with two groups -/

def sampleEntry (cn : String) : LdapEntry :=
  ⟨"CN=" ++ cn, some (.bytes (List.replicate 16 1)), none, some cn, none⟩

def sampleRoute : Route where
  directory :=
    { escapeFilterChars := id
      lower := Text.lower
      entries := fun _ => [sampleEntry "abc", sampleEntry "abd"]
      caseIgnore := fun _ _ _ => rfl }
  sha1 := chars

theorem first_limit_stays :
    ¬ Along sampleRoute.step sampleRoute.ServedRight (Route.State.initial 0)
      [.request ['a', 'b'] 1 true true, .request ['a', 'b'] 20 true true] := by
  intro h
  obtain ⟨-, htail⟩ := along_cons.mp h
  obtain ⟨hsecond, -⟩ := along_cons.mp (htail _ rfl)
  have hright := hsecond [⟨"01010101-0101-0101-0101-010101010101", "CN=abc", "abc", none⟩] (by decide +kernel)
  exact absurd hright (by decide +kernel)

theorem first_limit_kept :
    (Along sampleRoute.step sampleRoute.ServedRight (Route.State.initial 0)
        [.request ['A', 'b'] 20 true true, .tick 5, .request ['a', 'b'] 20 true true] ↔
      Along sampleRoute.step sampleRoute.FillFits (Route.State.initial 0)
        [.request ['A', 'b'] 20 true true, .tick 5, .request ['a', 'b'] 20 true true]) ∧
    (Along sampleRoute.step sampleRoute.FillFits (Route.State.initial 0)
        [.request ['A', 'b'] 20 true true, .tick 5, .request ['a', 'b'] 20 true true] →
      Along sampleRoute.step (Route.ServedWithin sampleRoute) (Route.State.initial 0)
        [.request ['A', 'b'] 20 true true, .tick 5, .request ['a', 'b'] 20 true true]) :=
  served_right_iff_fill_fits sampleRoute 0 _ (by decide +kernel)

end RdpProxy.Admin.AdGroups
