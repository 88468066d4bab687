import RdpProxy.Admin.AdGroups
import RdpProxy.Lib.Dict
import RdpProxy.Lib.LdapFilter
import RdpProxy.Portal.AccountNames

/-!
# Authentication against the directory (`identity/ldap_auth.py`)

The name that is typed becomes part of a filter, and so do the groups of the user. The directory answers with the
entries that the filter holds of.
-/

open Ldap Words Text

namespace RdpProxy.Identity

open Admin.AdGroups (RawGuid LdapError guidFromLdapRaw)

/-! ## The source -/

/-- An entry with the attributes that the searches ask for. -/
structure Entry where
  entryDn : List Char
  distinguishedName : Option (List Char)
  objectGuid : Option RawGuid
  memberOf : List (List Char)
  sAMAccountName : Option (List Char)

structure LDAPUserInfo where
  username : List Char
  userDn : List Char
  groups : List (List Char)
  groupGuids : List String

inductive AuthError where
  | valueError (message : String)
  | raised

/-- `ldap3`, as far as it is used: `_bind` with a name and a password, and a search with a base, a filter and a size
limit. -/
structure Directory where
  escapeFilterChars : Escape
  bind : List Char → List Char → Except AuthError Unit
  search : List Char → List Char → Nat → Except AuthError (List Entry)

structure LDAPAuthenticator where
  bindDn : List Char
  bindPassword : List Char
  usersDn : List Char
  domain : List Char
  /-- Stripped. -/
  userFilter : List Char
  baseDn : List Char

/-- `(attr=value)`, with the value escaped. -/
def Directory.equalText (d : Directory) (attr : String) (value : List Char) : List Char :=
  '(' :: (attr.toList ++ '=' :: d.escapeFilterChars.escape value) ++ [')']

section

variable (auth : LDAPAuthenticator) (d : Directory)

/-- `user_filter` in parentheses. -/
def wrappedFilter (userFilter : List Char) : List Char :=
  if ['('].isPrefixOf userFilter then userFilter else '(' :: userFilter ++ [')']

def buildUserSearchFilter (upn : List Char) : List Char :=
  let base := d.equalText "userPrincipalName" upn
  if auth.userFilter = [] then base else "(&".toList ++ base ++ wrappedFilter auth.userFilter ++ [')']

/-- `for i in range(0, len(l), n): l[i : i + n]` -/
def chunks {α : Type} (n : Nat) (l : List α) : List (List α) :=
  (List.range ((l.length + n - 1) / n)).map fun k => (l.drop (n * k)).take n

def groupFilter (chunk : List (List Char)) : List Char :=
  let orParts := chunk.map (d.equalText "distinguishedName")
  let orFilter := "(|".toList ++ orParts.flatten ++ [')']
  "(&(objectClass=group)".toList ++ orFilter ++ [')']

/-- `search_filter` of `list_groups` -/
def listGroupsFilter : List Char := "(objectClass=group)".toList

def dnVal (e : Entry) : List Char := e.distinguishedName.getD e.entryDn

/-- The turn of an entry in the loop of `_resolve_group_guids`. -/
def noteEntry (dnToGuid : Dict (List Char) String) (e : Entry) : Except AuthError (Dict (List Char) String) :=
  match guidFromLdapRaw e.objectGuid with
  | .error _ => .error .raised
  | .ok none => .ok dnToGuid
  | .ok (some guid) => .ok (if dnVal e ≠ [] ∧ guid ≠ "" then dnToGuid.set (dnVal e) guid else dnToGuid)

def noteChunk (dnToGuid : Dict (List Char) String) (chunk : List (List Char)) :
    Except AuthError (Dict (List Char) String) := do
  let entries ← d.search auth.baseDn (groupFilter d chunk) chunk.length
  entries.foldlM noteEntry dnToGuid

/-- `_resolve_group_guids`, with the chunk size. -/
def resolveGroupGuids (chunkSize : Nat) (groupDns : List (List Char)) : Except AuthError (List String) := do
  let dnToGuid ← (chunks chunkSize groupDns).foldlM (noteChunk auth d) Dict.empty
  return groupDns.filterMap dnToGuid.get?

def authenticate (username password : List Char) : Except AuthError LDAPUserInfo :=
  match Portal.searchedUpn auth.domain username password with
  | none => .error (.valueError "Username and password are required")
  | some upn => do
    d.bind auth.bindDn auth.bindPassword
    let entries ← d.search auth.usersDn (buildUserSearchFilter auth d upn) 1
    match entries with
    | [] => .error (.valueError "User not found in LDAP")
    | entry :: _ => do
      d.bind entry.entryDn password
      let groupGuids ← resolveGroupGuids auth d 30 entry.memberOf
      return ⟨(entry.sAMAccountName.filter (· ≠ [])).getD username, entry.entryDn, entry.memberOf, groupGuids⟩

end

/-! ## The filters -/

def upnIs (upn : List Char) : Filter := .item (.equal "userPrincipalName".toList (utf8 upn))

def isGroup : Filter := .item (.equal "objectClass".toList (utf8 "group".toList))

def dnIs (dn : List Char) : Filter := .item (.equal "distinguishedName".toList (utf8 dn))

section

variable {auth : LDAPAuthenticator} {d : Directory}

theorem parse_equalText (d : Directory) {attr : String} (h : isAttr attr.toList = true) (value : List Char) :
    parse (d.equalText attr value) = some (.item (.equal attr.toList (utf8 value))) :=
  d.escapeFilterChars.parse_equal value h

theorem parse_isGroup : parse listGroupsFilter = some isGroup := by
  have hitem : itemOf "objectClass=group".toList = some (.equal "objectClass".toList (utf8 "group".toList)) := by decide
  have hvalue : ∀ c ∈ "group".toList, c ≠ '(' ∧ c ≠ ')' := by simp
  exact parse_attr (by decide : isAttr "objectClass".toList = true) hvalue hitem

theorem buildUserSearchFilter_of_none (h : auth.userFilter = []) (upn : List Char) :
    parse (buildUserSearchFilter auth d upn) = some (upnIs upn) := by
  rw [buildUserSearchFilter, if_pos h]
  exact parse_equalText d (by decide) upn

theorem buildUserSearchFilter_begins (h : auth.userFilter ≠ []) {upn : List Char} {f : Filter}
    (hf : parse (buildUserSearchFilter auth d upn) = some f) : ∃ fs, f = .and (upnIs upn :: fs) := by
  rw [buildUserSearchFilter, if_neg h, List.append_assoc] at hf
  exact parse_and_begins (parse_equalText d (by decide) upn) hf

theorem buildUserSearchFilter_of_filter (h : auth.userFilter ≠ []) {g : Filter}
    (hg : parse (wrappedFilter auth.userFilter) = some g) (upn : List Char) :
    parse (buildUserSearchFilter auth d upn) = some (.and [upnIs upn, g]) := by
  have htexts : [d.equalText "userPrincipalName" upn, wrappedFilter auth.userFilter].map parse =
      [upnIs upn, g].map some := by
    rw [List.map_cons, List.map_cons, parse_equalText d (by decide) upn, hg]
    rfl
  have hand := parse_andText htexts
  rw [buildUserSearchFilter, if_neg h]
  simpa [andText] using hand

theorem andText_orText {a g o : List Char} (ha : a = '(' :: '&' :: g) (ho : o = ['(', '|']) (parts : List (List Char)) :
    a ++ (o ++ parts.flatten ++ [')']) ++ [')'] = andText [g, orText parts] := by
  rw [ha, ho]
  simp [andText, orText]

theorem groupFilter_eq (d : Directory) (chunk : List (List Char)) :
    groupFilter d chunk = andText [listGroupsFilter, orText (chunk.map (d.equalText "distinguishedName"))] :=
  andText_orText (by decide) (by decide) _

theorem parse_groupFilter (d : Directory) (chunk : List (List Char)) :
    parse (groupFilter d chunk) = some (.and [isGroup, .or (chunk.map dnIs)]) := by
  have hor : parse (orText (chunk.map (d.equalText "distinguishedName"))) = some (.or (chunk.map dnIs)) := by
    apply parse_orText
    rw [List.map_map, List.map_map]
    exact List.map_congr_left fun dn _ => parse_equalText d (by decide) dn
  rw [groupFilter_eq]
  apply parse_andText
  rw [List.map_cons, parse_isGroup, List.map_cons, hor]
  rfl

theorem andText_infixes {a b c g cn description : List Char}
    (ha : a = '(' :: '&' :: (g ++ '(' :: '|' :: '(' :: (cn ++ ['=', '*'])))
    (hb : b = '*' :: ')' :: '(' :: (description ++ ['=', '*'])) (hc : c = ['*', ')', ')', ')']) (safe : List Char) :
    a ++ safe ++ b ++ safe ++ c = andText [g, orText ['(' :: (cn ++ '=' :: '*' :: (safe ++ ['*'])) ++ [')'],
      '(' :: (description ++ '=' :: '*' :: (safe ++ ['*'])) ++ [')']]] := by
  rw [ha, hb, hc]
  simp [andText, orText]

theorem parse_searchFilter (d : Directory) (q : List Char) :
    parse (Admin.AdGroups.searchFilter (d.escapeFilterChars.escape q)) =
      some (.and [isGroup, .or [.item (.substrings "cn".toList [[], utf8 q, []]),
        .item (.substrings "description".toList [[], utf8 q, []])]]) := by
  have hcn := d.escapeFilterChars.parse_infix q (by decide : isAttr "cn".toList = true)
  have hdescription := d.escapeFilterChars.parse_infix q (by decide : isAttr "description".toList = true)
  have hor := parse_orText
    (show List.map parse [_, _] = List.map some [_, _] from congrArg₂ (fun a b => [a, b]) hcn hdescription)
  have hand := parse_andText
    (show List.map parse [_, _] = List.map some [_, _] from congrArg₂ (fun a b => [a, b]) parse_isGroup hor)
  rw [← hand]
  exact congrArg parse (andText_infixes (by decide) (by decide) (by decide) _)

/-- Whatever the name, the group or the term, and whatever filter is configured: the text of the user stays one value. -/
theorem filters_read_as_built (auth : LDAPAuthenticator) (d : Directory) :
    (∀ upn, auth.userFilter = [] → parse (buildUserSearchFilter auth d upn) = some (upnIs upn)) ∧
    (∀ upn f, auth.userFilter ≠ [] → parse (buildUserSearchFilter auth d upn) = some f →
      ∃ fs, f = .and (upnIs upn :: fs)) ∧
    (∀ upn g, auth.userFilter ≠ [] → parse (wrappedFilter auth.userFilter) = some g →
      parse (buildUserSearchFilter auth d upn) = some (.and [upnIs upn, g])) ∧
    (∀ chunk, parse (groupFilter d chunk) = some (.and [isGroup, .or (chunk.map dnIs)])) ∧
    parse listGroupsFilter = some isGroup ∧
    ∀ q, parse (Admin.AdGroups.searchFilter (d.escapeFilterChars.escape q)) =
      some (.and [isGroup, .or [.item (.substrings "cn".toList [[], utf8 q, []]),
        .item (.substrings "description".toList [[], utf8 q, []])]]) :=
  ⟨fun upn h => buildUserSearchFilter_of_none h upn, fun _ _ h hf => buildUserSearchFilter_begins h hf,
    fun upn _ h hg => buildUserSearchFilter_of_filter h hg upn, parse_groupFilter d, parse_isGroup, parse_searchFilter d⟩

end

/-! ## The directory -/

/-- The entries, which of them an item holds of, and which are under a base. -/
structure Tree where
  entries : List Entry
  holds : Item → Entry → Option Bool
  under : List Char → Entry → Bool

def Tree.Matches (T : Tree) (base : List Char) (f : Filter) (e : Entry) : Prop :=
  e ∈ T.entries ∧ T.under base e = true ∧ f.eval T.holds e = some true

/-- A search answers with entries that the filter holds of. -/
structure Directory.Answers (d : Directory) (T : Tree) : Prop where
  sound : ∀ base text n es, d.search base text n = .ok es →
    ∃ f, parse text = some f ∧ ∀ e ∈ es, T.Matches base f e

/-- It answers with all of them where they are no more than the limit. -/
structure Directory.Serves (d : Directory) (T : Tree) : Prop extends d.Answers T where
  complete : ∀ base text n es f, d.search base text n = .ok es → parse text = some f →
    (∀ l : List Entry, l.Nodup → (∀ e ∈ l, T.Matches base f e) → l.length ≤ n) → ∀ e, T.Matches base f e → e ∈ es

/-- It knows one password. -/
def treeDirectory (T : Tree) (bindDn bindPassword : List Char) : Directory where
  escapeFilterChars := rfc4515
  bind dn password := if dn = bindDn ∧ password = bindPassword then .ok () else .error (.valueError "LDAP bind failed")
  search base text n :=
    match parse text with
    | none => .error .raised
    | some f => .ok ((T.entries.filter fun e => T.under base e && f.eval T.holds e = some true).take n)

theorem treeDirectory_serves {T : Tree} (hT : T.entries.Nodup) (dn password : List Char) :
    (treeDirectory T dn password).Serves T := by
  have hmem (base : List Char) (f : Filter) (e : Entry) :
      e ∈ T.entries.filter (fun e => T.under base e && f.eval T.holds e = some true) ↔ T.Matches base f e := by
    simp [Tree.Matches]
  refine ⟨⟨?_⟩, ?_⟩
  · intro base text n es h
    simp only [treeDirectory] at h
    split at h
    · cases h
    · rename_i f hf
      cases h
      exact ⟨f, hf, fun e he => (hmem base f e).mp (List.mem_of_mem_take he)⟩
  · intro base text n es f h hf hall e he
    simp only [treeDirectory, hf] at h
    cases h
    rw [List.take_of_length_le (hall _ (hT.filter _) fun e he => (hmem base f e).mp he)]
    exact (hmem base f e).mpr he

section

variable {auth : LDAPAuthenticator} {d : Directory} {T : Tree} {es : List Entry} {e : Entry}
  {dict dict' : Dict (List Char) String}

theorem ok_of_bind {ε α β : Type} {x : Except ε α} {f : α → Except ε β} {b : β} (h : (x >>= f) = .ok b) :
    ∃ a, x = .ok a ∧ f a = .ok b := by
  cases x with
  | error err => cases h
  | ok a => exact ⟨a, rfl, h⟩

/-! ### The groups of a user -/

/-- The entry gives this GUID for its DN. -/
def Gives (e : Entry) (dn : List Char) (guid : String) : Prop :=
  dnVal e = dn ∧ dn ≠ [] ∧ guid ≠ "" ∧ guidFromLdapRaw e.objectGuid = .ok (some guid)

theorem noteEntry_get? (h : noteEntry dict e = .ok dict') (dn : List Char) :
    dict'.get? dn = dict.get? dn ∨ ∃ guid, Gives e dn guid ∧ dict'.get? dn = some guid := by
  unfold noteEntry at h
  split at h
  · cases h
  · cases h
    exact Or.inl rfl
  · rename_i guid hguid
    cases h
    split_ifs with hset
    · rw [Dict.get?_set]
      split_ifs with hdn
      · exact Or.inr ⟨guid, ⟨hdn.symm, hdn ▸ hset.1, hset.2, hguid⟩, rfl⟩
      · exact Or.inl rfl
    · exact Or.inl rfl

theorem noteEntry_gives (h : noteEntry dict e = .ok dict') {dn : List Char} {guid : String} (hg : Gives e dn guid) :
    dict'.get? dn = some guid := by
  obtain ⟨rfl, hdn, hne, hguid⟩ := hg
  unfold noteEntry at h
  rw [hguid] at h
  dsimp only at h
  rw [if_pos ⟨hdn, hne⟩] at h
  cases h
  rw [Dict.get?_set, if_pos rfl]

/-- A group under the base. -/
def Tree.IsGroup (T : Tree) (base : List Char) (e : Entry) : Prop :=
  e ∈ T.entries ∧ T.under base e = true ∧ isGroup.eval T.holds e = some true

def Sound (T : Tree) (base : List Char) (dict : Dict (List Char) String) : Prop :=
  ∀ dn guid, dict.get? dn = some guid → ∃ e, T.IsGroup base e ∧ Gives e dn guid

theorem noteEntry_sound {base : List Char} (hdict : Sound T base dict) (he : T.IsGroup base e)
    (h : noteEntry dict e = .ok dict') : Sound T base dict' := by
  intro dn guid hget
  rcases noteEntry_get? h dn with hsame | ⟨guid', hg, hnew⟩
  · exact hdict dn guid (hsame ▸ hget)
  · rw [hget] at hnew
    cases hnew
    exact ⟨e, he, hg⟩

theorem noteEntries_sound {base : List Char} (hdict : Sound T base dict) (hes : ∀ e ∈ es, T.IsGroup base e)
    (h : es.foldlM noteEntry dict = .ok dict') : Sound T base dict' := by
  induction es generalizing dict with
  | nil =>
    cases h
    exact hdict
  | cons e es ih =>
    obtain ⟨he, hes⟩ := List.forall_mem_cons.mp hes
    obtain ⟨dict₁, h₁, hrest⟩ := ok_of_bind h
    exact ih (noteEntry_sound hdict he h₁) hes hrest

theorem noteChunk_spec {chunk : List (List Char)} (hT : d.Answers T) (h : noteChunk auth d dict chunk = .ok dict') :
    ∃ es, d.search auth.baseDn (groupFilter d chunk) chunk.length = .ok es ∧ es.foldlM noteEntry dict = .ok dict' ∧
      ∀ e ∈ es, T.Matches auth.baseDn (.and [isGroup, .or (chunk.map dnIs)]) e := by
  obtain ⟨es, hsearch, hfold⟩ := ok_of_bind h
  obtain ⟨f, hparse, hes⟩ := hT.sound _ _ _ _ hsearch
  rw [parse_groupFilter] at hparse
  cases hparse
  exact ⟨es, hsearch, hfold, hes⟩

theorem isGroup_of_matches {base : List Char} {chunk : List (List Char)}
    (h : T.Matches base (.and [isGroup, .or (chunk.map dnIs)]) e) :
    T.IsGroup base e ∧ ∃ dn ∈ chunk, (dnIs dn).eval T.holds e = some true := by
  obtain ⟨hmem, hunder, heval⟩ := h
  rw [eval_and] at heval
  refine ⟨⟨hmem, hunder, heval _ (by simp)⟩, ?_⟩
  have hor := heval (.or (chunk.map dnIs)) (by simp)
  rw [eval_or] at hor
  obtain ⟨f, hf, hholds⟩ := hor
  obtain ⟨dn, hdn, rfl⟩ := List.mem_map.mp hf
  exact ⟨dn, hdn, hholds⟩

theorem noteChunks_sound {chunked : List (List (List Char))} (hT : d.Answers T) (hdict : Sound T auth.baseDn dict)
    (h : chunked.foldlM (noteChunk auth d) dict = .ok dict') : Sound T auth.baseDn dict' := by
  induction chunked generalizing dict with
  | nil =>
    cases h
    exact hdict
  | cons chunk chunked ih =>
    obtain ⟨dict₁, h₁, hrest⟩ := ok_of_bind h
    obtain ⟨es, _, hfold, hes⟩ := noteChunk_spec hT h₁
    exact ih (noteEntries_sound hdict (fun e he => (isGroup_of_matches (hes e he)).1) hfold) hrest

theorem empty_sound (T : Tree) (base : List Char) : Sound T base Dict.empty := by
  intro dn guid h
  cases h

theorem resolveGroupGuids_sound {n : Nat} {groupDns : List (List Char)} {guids : List String} (hT : d.Answers T)
    (h : resolveGroupGuids auth d n groupDns = .ok guids) :
    ∀ guid ∈ guids, ∃ dn ∈ groupDns, ∃ e, T.IsGroup auth.baseDn e ∧ Gives e dn guid := by
  obtain ⟨dict, hfold, hresult⟩ := ok_of_bind h
  cases hresult
  intro guid hguid
  obtain ⟨dn, hdn, hget⟩ := List.mem_filterMap.mp hguid
  exact ⟨dn, hdn, noteChunks_sound hT (empty_sound T auth.baseDn) hfold dn guid hget⟩

/-! ### One by one -/

/-- How the directory compares names: two entries have names that it tells apart. -/
structure Tree.DnRule (T : Tree) where
  same : Setoid (List Char)
  holds_iff : ∀ e ∈ T.entries, ∀ dn, (dnIs dn).eval T.holds e = some true ↔ same.r dn (dnVal e)
  unique : ∀ e ∈ T.entries, ∀ e' ∈ T.entries, same.r (dnVal e) (dnVal e') → e = e'

/-- The GUID of the group with this name. -/
def Tree.guidOf (T : Tree) (base dn : List Char) : Option String :=
  (T.entries.find? fun e => T.under base e = true ∧ isGroup.eval T.holds e = some true ∧ dnVal e = dn).bind fun e =>
    match guidFromLdapRaw e.objectGuid with
    | .ok (some guid) => if dn ≠ [] ∧ guid ≠ "" then some guid else none
    | _ => none

section

variable (rule : T.DnRule) {base dn : List Char} {guid : String}

include rule in
theorem isGroup_unique {e' : Entry} (he : T.IsGroup base e) (he' : T.IsGroup base e') (hdn : dnVal e = dnVal e') :
    e = e' :=
  rule.unique e he.1 e' he'.1 (hdn ▸ rule.same.refl _)

theorem gives_of_guidOf (h : T.guidOf base dn = some guid) : ∃ e, T.IsGroup base e ∧ Gives e dn guid := by
  obtain ⟨e, hfind, hguid⟩ := Option.bind_eq_some_iff.mp h
  have hfound := List.find?_some hfind
  simp only [decide_eq_true_eq] at hfound
  obtain ⟨hunder, hgroup, hdn⟩ := hfound
  refine ⟨e, ⟨List.mem_of_find?_eq_some hfind, hunder, hgroup⟩, hdn, ?_⟩
  split at hguid
  · rename_i guid' hraw
    split_ifs at hguid with hset
    cases hguid
    exact ⟨hset.1, hset.2, hraw⟩
  · cases hguid

include rule in
theorem guidOf_of_gives (he : T.IsGroup base e) (hg : Gives e dn guid) : T.guidOf base dn = some guid := by
  obtain ⟨hdn, hne, hguid, hraw⟩ := hg
  have hfind : T.entries.find? (fun e => T.under base e = true ∧ isGroup.eval T.holds e = some true ∧ dnVal e = dn) =
      some e := by
    cases hget : T.entries.find? (fun e => T.under base e = true ∧ isGroup.eval T.holds e = some true ∧ dnVal e = dn) with
    | none => exact absurd (decide_eq_true ⟨he.2.1, he.2.2, hdn⟩) (List.find?_eq_none.mp hget e he.1)
    | some e' =>
      have hfound := List.find?_some hget
      simp only [decide_eq_true_eq] at hfound
      obtain ⟨hunder, hgroup, hdn'⟩ := hfound
      have hsame := isGroup_unique rule ⟨List.mem_of_find?_eq_some hget, hunder, hgroup⟩ he (hdn'.trans hdn.symm)
      rw [hsame]
  rw [Tree.guidOf, hfind, Option.bind_some, hraw]
  exact if_pos ⟨hne, hguid⟩

include rule in
/-- An entry that comes later takes nothing away: for the same name it is the same entry. -/
theorem noteEntry_keeps (hdict : Sound T base dict) (he : T.IsGroup base e) (h : noteEntry dict e = .ok dict')
    (hget : dict.get? dn = some guid) : dict'.get? dn = some guid := by
  rcases noteEntry_get? h dn with hsame | ⟨guid', hg, hnew⟩
  · rw [hsame]
    exact hget
  · obtain ⟨e', he', hg'⟩ := hdict dn guid hget
    obtain rfl := isGroup_unique rule he he' (hg.1.trans hg'.1.symm)
    have hraw := hg.2.2.2
    rw [hg'.2.2.2] at hraw
    cases hraw
    exact hnew

include rule in
theorem noteEntries_keep (hdict : Sound T base dict) (hes : ∀ e ∈ es, T.IsGroup base e)
    (h : es.foldlM noteEntry dict = .ok dict') (hget : dict.get? dn = some guid) : dict'.get? dn = some guid := by
  induction es generalizing dict with
  | nil =>
    cases h
    exact hget
  | cons e es ih =>
    obtain ⟨he, hes⟩ := List.forall_mem_cons.mp hes
    obtain ⟨dict₁, h₁, hrest⟩ := ok_of_bind h
    exact ih (noteEntry_sound hdict he h₁) hes hrest (noteEntry_keeps rule hdict he h₁ hget)

include rule in
theorem noteEntries_give (hdict : Sound T base dict) (hes : ∀ e ∈ es, T.IsGroup base e)
    (h : es.foldlM noteEntry dict = .ok dict') (he : e ∈ es) (hg : Gives e dn guid) : dict'.get? dn = some guid := by
  induction es generalizing dict with
  | nil => cases he
  | cons e₁ es ih =>
    obtain ⟨hgroup, hrestGroups⟩ := List.forall_mem_cons.mp hes
    obtain ⟨dict₁, h₁, hrest⟩ := ok_of_bind h
    have hdict₁ := noteEntry_sound hdict hgroup h₁
    rcases List.mem_cons.mp he with rfl | he
    · exact noteEntries_keep rule hdict₁ hrestGroups hrest (noteEntry_gives h₁ hg)
    · exact ih hdict₁ hrestGroups hrest he

include rule in
theorem matches_le_chunk {chunk : List (List Char)} {l : List Entry} (hl : l.Nodup)
    (h : ∀ e ∈ l, T.Matches base (.and [isGroup, .or (chunk.map dnIs)]) e) : l.length ≤ chunk.length := by
  classical
  have hname : ∀ e ∈ l, ∃ dn ∈ chunk, rule.same.r dn (dnVal e) := by
    intro e he
    obtain ⟨_, dn, hdn, hholds⟩ := isGroup_of_matches (h e he)
    exact ⟨dn, hdn, (rule.holds_iff e (h e he).1 dn).mp hholds⟩
  let pick : Entry → List Char := fun e => if hp : ∃ dn ∈ chunk, rule.same.r dn (dnVal e) then hp.choose else []
  have hpick : ∀ e ∈ l, pick e ∈ chunk ∧ rule.same.r (pick e) (dnVal e) := by
    intro e he
    have hp := hname e he
    simp only [pick, dif_pos hp]
    exact hp.choose_spec
  have hinj : (l.map pick).Nodup := by
    apply hl.map_on
    intro e he e' he' heq
    have hsame := rule.same.trans (rule.same.symm (hpick e he).2) (heq ▸ (hpick e' he').2)
    exact rule.unique e (h e he).1 e' (h e' he').1 hsame
  have hsub : l.map pick ⊆ chunk := by
    intro dn hdn
    obtain ⟨e, he, rfl⟩ := List.mem_map.mp hdn
    exact (hpick e he).1
  calc l.length = (l.map pick).length := (List.length_map _).symm
    _ ≤ chunk.length := (hinj.subperm hsub).length_le

include rule in
theorem noteChunk_gives {chunk : List (List Char)} (hT : d.Serves T) (hdict : Sound T auth.baseDn dict)
    (h : noteChunk auth d dict chunk = .ok dict') (hdn : dn ∈ chunk) (he : T.IsGroup auth.baseDn e)
    (hg : Gives e dn guid) : dict'.get? dn = some guid := by
  obtain ⟨es, hsearch, hfold, hes⟩ := noteChunk_spec hT.toAnswers h
  have hmatches : T.Matches auth.baseDn (.and [isGroup, .or (chunk.map dnIs)]) e := by
    refine ⟨he.1, he.2.1, eval_and.mpr ?_⟩
    have hholds : (dnIs dn).eval T.holds e = some true := (rule.holds_iff e he.1 dn).mpr (hg.1 ▸ rule.same.refl _)
    simp only [List.mem_cons, List.not_mem_nil, or_false, forall_eq_or_imp, forall_eq]
    exact ⟨he.2.2, eval_or.mpr ⟨dnIs dn, List.mem_map_of_mem hdn, hholds⟩⟩
  have hin := hT.complete _ _ _ es _ hsearch (parse_groupFilter d chunk) (fun l => matches_le_chunk rule) e hmatches
  exact noteEntries_give rule hdict (fun e he => (isGroup_of_matches (hes e he)).1) hfold hin hg

include rule in
theorem noteChunks_give {chunked : List (List (List Char))} (hT : d.Serves T) (hdict : Sound T auth.baseDn dict)
    (h : chunked.foldlM (noteChunk auth d) dict = .ok dict') (he : T.IsGroup auth.baseDn e) (hg : Gives e dn guid)
    (hdn : dict.get? dn = some guid ∨ ∃ chunk ∈ chunked, dn ∈ chunk) : dict'.get? dn = some guid := by
  induction chunked generalizing dict with
  | nil =>
    cases h
    simpa using hdn
  | cons chunk chunked ih =>
    obtain ⟨dict₁, h₁, hrest⟩ := ok_of_bind h
    obtain ⟨es, _, hfold, hes⟩ := noteChunk_spec hT.toAnswers h₁
    have hgroups : ∀ e ∈ es, T.IsGroup auth.baseDn e := fun e he => (isGroup_of_matches (hes e he)).1
    have hdict₁ := noteEntries_sound hdict hgroups hfold
    apply ih hdict₁ hrest
    rcases hdn with hget | ⟨chunk', hchunk, hdn⟩
    · exact Or.inl (noteEntries_keep rule hdict hgroups hfold hget)
    · rcases List.mem_cons.mp hchunk with rfl | hchunk
      · exact Or.inl (noteChunk_gives rule hT hdict h₁ hdn he hg)
      · exact Or.inr ⟨chunk', hchunk, hdn⟩

end

theorem mem_chunks {α : Type} {n : Nat} (hn : 0 < n) {l : List α} {a : α} (ha : a ∈ l) : ∃ c ∈ chunks n l, a ∈ c := by
  obtain ⟨k, hk, rfl⟩ := List.mem_iff_getElem.mp ha
  have hsplit := Nat.div_add_mod k n
  have hmod := Nat.mod_lt k hn
  refine ⟨(l.drop (n * (k / n))).take n, List.mem_map.mpr ⟨k / n, ?_, rfl⟩, ?_⟩
  · have hlast : n * (k / n) < l.length := by omega
    rw [List.mem_range, Nat.lt_iff_add_one_le, Nat.le_div_iff_mul_le hn, Nat.add_mul, Nat.mul_comm, Nat.one_mul]
    omega
  · apply List.mem_of_getElem? (i := k % n)
    rw [List.getElem?_take_of_lt hmod, List.getElem?_drop, hsplit, List.getElem?_eq_getElem hk]

/-- However many names go into one search, the groups come out as if each were looked up alone. -/
theorem resolveGroupGuids_eq (auth : LDAPAuthenticator) (d : Directory) (T : Tree) (hT : d.Serves T) (rule : T.DnRule)
    (chunkSize : Nat) (hn : 0 < chunkSize) (groupDns : List (List Char)) (guids : List String)
    (h : resolveGroupGuids auth d chunkSize groupDns = .ok guids) :
    guids = groupDns.filterMap (T.guidOf auth.baseDn) := by
  obtain ⟨dict, hfold, hresult⟩ := ok_of_bind h
  cases hresult
  refine List.filterMap_congr fun dn hdn => Option.ext fun guid => ?_
  have hempty := empty_sound T auth.baseDn
  constructor
  · intro hget
    obtain ⟨e, he, hg⟩ := noteChunks_sound hT.toAnswers hempty hfold dn guid hget
    exact guidOf_of_gives rule he hg
  · intro hguid
    obtain ⟨e, he, hg⟩ := gives_of_guidOf hguid
    exact noteChunks_give rule hT hempty hfold he hg (Or.inr (mem_chunks hn hdn))

def admins : Entry :=
  ⟨"CN=Admins,DC=corp".toList, none, some (.text "0d4f1f70-1f3c-4e5b-8f3a-2a1b3c4d5e6f".toList), [], none⟩

def ivan : Entry := ⟨"CN=Ivan,DC=corp".toList, none, none, ["CN=Admins,DC=corp".toList], some "ivan".toList⟩

def corp : Tree where
  entries := [ivan, admins]
  under base e := base.isSuffixOf e.entryDn
  holds i e :=
    match i with
    | .equal attr value =>
      if attr = "distinguishedName".toList then some (value = utf8 (dnVal e))
      else if attr = "objectClass".toList then some (value = utf8 "group".toList ∧ e.objectGuid.isSome)
      else if attr = "userPrincipalName".toList then
        e.sAMAccountName.map fun name => value = utf8 (name ++ "@corp".toList)
      else none
    | _ => none

def corpAuth : LDAPAuthenticator :=
  ⟨"CN=Ivan,DC=corp".toList, ['x'], "DC=corp".toList, "corp".toList, [], "DC=corp".toList⟩

def corpDirectory : Directory := treeDirectory corp "CN=Ivan,DC=corp".toList ['x']

theorem ivan_ne_admins : ivan ≠ admins := fun h => absurd (congrArg Entry.sAMAccountName h) (by decide)

theorem corpDirectory_serves : corpDirectory.Serves corp :=
  treeDirectory_serves (List.nodup_cons.mpr ⟨fun h => ivan_ne_admins (List.mem_singleton.mp h), List.nodup_singleton _⟩) _ _

theorem dnIs_corp (e : Entry) (dn : List Char) : (dnIs dn).eval corp.holds e = some true ↔ dn = dnVal e := by
  have hholds : (dnIs dn).eval corp.holds e = some (decide (utf8 dn = utf8 (dnVal e))) := rfl
  rw [hholds, Option.some_inj, decide_eq_true_eq]
  exact ⟨utf8_injective, fun h => congrArg utf8 h⟩

theorem corp_dns {e e' : Entry} (he : e ∈ corp.entries) (he' : e' ∈ corp.entries) (h : dnVal e = dnVal e') : e = e' := by
  simp only [corp, List.mem_cons, List.not_mem_nil, or_false] at he he'
  rcases he with rfl | rfl <;> rcases he' with rfl | rfl
  · rfl
  · exact absurd (show dnVal ivan = dnVal admins from h) (by decide)
  · exact absurd (show dnVal admins = dnVal ivan from h) (by decide)
  · rfl

def corpRule : corp.DnRule where
  same := ⟨Eq, eq_equivalence⟩
  holds_iff e _ dn := dnIs_corp e dn
  unique _ he _ he' h := corp_dns he he' h

theorem admins_found : ["0d4f1f70-1f3c-4e5b-8f3a-2a1b3c4d5e6f"] =
    ["CN=Admins,DC=corp".toList, "CN=Gone,DC=corp".toList].filterMap (corp.guidOf "DC=corp".toList) :=
  resolveGroupGuids_eq corpAuth corpDirectory corp corpDirectory_serves corpRule 1 (by decide) _ _ rfl

/-! ### Who is let in -/

theorem password_ne_nil {domain username password upn : List Char}
    (h : Portal.searchedUpn domain username password = some upn) : password ≠ [] := by
  unfold Portal.searchedUpn at h
  split_ifs at h with hblank
  · exact fun hp => hblank (Or.inr hp)
  · exact fun hp => hblank (Or.inr hp)

theorem user_matches {upn : List Char} (hT : d.Answers T) {n : Nat}
    (h : d.search auth.usersDn (buildUserSearchFilter auth d upn) n = .ok es) (he : e ∈ es) :
    e ∈ T.entries ∧ T.under auth.usersDn e = true ∧ (upnIs upn).eval T.holds e = some true ∧
      ∀ g, auth.userFilter ≠ [] → parse (wrappedFilter auth.userFilter) = some g → g.eval T.holds e = some true := by
  obtain ⟨f, hparse, hes⟩ := hT.sound _ _ _ _ h
  obtain ⟨hmem, hunder, heval⟩ := hes e he
  refine ⟨hmem, hunder, ?_, ?_⟩
  · by_cases hnone : auth.userFilter = []
    · rw [buildUserSearchFilter_of_none hnone] at hparse
      cases hparse
      exact heval
    · obtain ⟨fs, rfl⟩ := buildUserSearchFilter_begins hnone hparse
      exact eval_and.mp heval _ List.mem_cons_self
  · intro g hsome hg
    rw [buildUserSearchFilter_of_filter hsome hg] at hparse
    cases hparse
    exact eval_and.mp heval g (by simp)

/-- Whoever is let in is an entry under the users' base with exactly the name that was asked for, of which the configured
filter holds, and has bound with a password that is not empty. -/
theorem authenticate_sound (auth : LDAPAuthenticator) (d : Directory) (T : Tree) (hT : d.Answers T)
    (username password : List Char) (info : LDAPUserInfo) (h : authenticate auth d username password = .ok info) :
    ∃ upn e, Portal.searchedUpn auth.domain username password = some upn ∧ password ≠ [] ∧
      e ∈ T.entries ∧ T.under auth.usersDn e = true ∧ (upnIs upn).eval T.holds e = some true ∧
      (∀ g, auth.userFilter ≠ [] → parse (wrappedFilter auth.userFilter) = some g → g.eval T.holds e = some true) ∧
      d.bind e.entryDn password = .ok () ∧ info.userDn = e.entryDn ∧ info.groups = e.memberOf ∧
      ∀ guid ∈ info.groupGuids, ∃ dn ∈ e.memberOf, ∃ g, T.IsGroup auth.baseDn g ∧ Gives g dn guid := by
  unfold authenticate at h
  cases hupn : Portal.searchedUpn auth.domain username password with
  | none =>
    rw [hupn] at h
    cases h
  | some upn =>
    rw [hupn] at h
    obtain ⟨_, _, h⟩ := ok_of_bind h
    obtain ⟨es, hsearch, h⟩ := ok_of_bind h
    cases es with
    | nil => cases h
    | cons e es =>
      obtain ⟨_, hbind, h⟩ := ok_of_bind h
      obtain ⟨guids, hguids, h⟩ := ok_of_bind h
      cases h
      obtain ⟨hmem, hunder, hname, hfilter⟩ := user_matches hT hsearch List.mem_cons_self
      exact ⟨upn, e, rfl, password_ne_nil hupn, hmem, hunder, hname, hfilter, hbind, rfl, rfl,
        resolveGroupGuids_sound hT hguids⟩

theorem ivan_let_in :
    ∃ upn e, Portal.searchedUpn "corp".toList "ivan".toList ['x'] = some upn ∧ ['x'] ≠ [] ∧
      e ∈ corp.entries ∧ corp.under "DC=corp".toList e = true ∧ (upnIs upn).eval corp.holds e = some true ∧
      (∀ g, corpAuth.userFilter ≠ [] → parse (wrappedFilter corpAuth.userFilter) = some g →
        g.eval corp.holds e = some true) ∧
      corpDirectory.bind e.entryDn ['x'] = .ok () ∧ "CN=Ivan,DC=corp".toList = e.entryDn ∧
      ["CN=Admins,DC=corp".toList] = e.memberOf ∧ ∀ guid ∈ ["0d4f1f70-1f3c-4e5b-8f3a-2a1b3c4d5e6f"],
        ∃ dn ∈ e.memberOf, ∃ g, corp.IsGroup "DC=corp".toList g ∧ Gives g dn guid :=
  authenticate_sound corpAuth corpDirectory corp corpDirectory_serves.toAnswers "ivan".toList ['x']
    ⟨"ivan".toList, "CN=Ivan,DC=corp".toList, ["CN=Admins,DC=corp".toList], ["0d4f1f70-1f3c-4e5b-8f3a-2a1b3c4d5e6f"]⟩ rfl

end

end RdpProxy.Identity
