import RdpProxy.Admin.AdminAccess
import RdpProxy.Lib.Uuid

/-!
# The addresses of the servers (`routes/servers.py`)

An address may bring its port. What is stored is an address without one, so that it can go
through the splitter again.
-/

open Text

namespace RdpProxy.Admin

/-! ## The source -/

/-- `_ADDR_PORT_RE` on stripped text, with the value of the port. `decimal` is the value of a decimal digit,
of any script. -/
def addrPort (decimal : Char → Option Nat) (raw : List Char) : Option (List Char × Nat) :=
  let host := raw.takeWhile (· ≠ ':')
  match raw.dropWhile (· ≠ ':') with
  | _ :: port =>
    if host ≠ [] ∧ 1 ≤ port.length ∧ port.length ≤ 5 ∧ port.all fun c => (decimal c).isSome then
      some (host, port.foldl (fun acc c => 10 * acc + (decimal c).getD 0) 0)
    else none
  | [] => none

def splitAddress (decimal : Char → Option Nat) (address : List Char) (port : Option Int) :
    Except HttpError (List Char × Int) :=
  let raw := Text.strip address
  if raw = [] then .error ⟨400, "address is required"⟩
  else
    match addrPort decimal raw with
    | some (host, p) =>
      if (p : Int) < 1 ∨ 65535 < (p : Int) then .error ⟨400, "Invalid port in address"⟩
      else .ok (Text.strip host, p)
    | none =>
      match port with
      | none => .ok (raw, 3389)
      | some port => if port < 1 ∨ 65535 < port then .error ⟨400, "Invalid port"⟩ else .ok (raw, port)

def parseGroupGuids : List (List Char) → Except HttpError (List Uuid)
  | [] => .ok []
  | v :: values =>
    if Text.strip v = [] then parseGroupGuids values
    else
      match Uuid.parse (Text.strip v) with
      | none => .error ⟨400, "Invalid group GUID: " ++ String.ofList (Text.strip v)⟩
      | some g => (parseGroupGuids values).map (g :: ·)

structure RdpServer where
  id : Uuid
  techName : List Char
  displayName : List Char
  address : List Char
  port : Int
  isEnabled : Bool
  sortOrder : Int
  groups : List Uuid
  deriving DecidableEq

/-- The servers with their bindings, whose primary key is the server and the group. -/
structure ServerTable where
  rows : List RdpServer
  primaryKey : (rows.map RdpServer.id).Nodup
  techNames : (rows.map RdpServer.techName).Nodup
  bindings : ∀ s ∈ rows, s.groups.Nodup

/-- How a commit ends. The constraints that it may meet are all about duplicate keys. -/
inductive Flush (α : Type) where
  | done (a : α)
  | integrityError
  | raised

def duplicateKey : HttpError := ⟨409, "Сервер с таким technical name уже существует"⟩

def internalError : HttpError := ⟨500, "Internal Server Error"⟩

namespace ServerTable

variable (t : ServerTable)

def empty : ServerTable := ⟨[], List.nodup_nil, List.nodup_nil, fun _ h => by cases h⟩

def get (sid : Uuid) : Option RdpServer := t.rows.find? fun s => s.id = sid

/-- `up` says whether the database carries out what no constraint forbids. -/
def insert (s : RdpServer) (up : Bool) : Flush ServerTable :=
  if h : (∀ r ∈ t.rows, r.id ≠ s.id) ∧ (∀ r ∈ t.rows, r.techName ≠ s.techName) ∧ s.groups.Nodup then
    if up then
      .done
        { rows := s :: t.rows
          primaryKey := List.nodup_cons.mpr ⟨by simpa using h.1, t.primaryKey⟩
          techNames := List.nodup_cons.mpr ⟨by simpa using h.2.1, t.techNames⟩
          bindings := List.forall_mem_cons.mpr ⟨h.2.2, t.bindings⟩ }
    else .raised
  else .integrityError

def replaceRow (s r : RdpServer) : RdpServer := if r.id = s.id then s else r

theorem replaceRow_id (s r : RdpServer) : (replaceRow s r).id = r.id := by
  unfold replaceRow
  split_ifs with h
  · exact h.symm
  · rfl

theorem replace_primaryKey (s : RdpServer) : ((t.rows.map (replaceRow s)).map RdpServer.id).Nodup := by
  rw [List.map_map, show RdpServer.id ∘ replaceRow s = RdpServer.id from funext (replaceRow_id s)]
  exact t.primaryKey

theorem replace_techNames (s : RdpServer) (h : ∀ r ∈ t.rows, r.id ≠ s.id → r.techName ≠ s.techName) :
    ((t.rows.map (replaceRow s)).map RdpServer.techName).Nodup := by
  have hkey := List.pairwise_map.mp t.primaryKey
  have hname := List.pairwise_map.mp t.techNames
  refine List.pairwise_map.mpr (List.pairwise_map.mpr ?_)
  refine (List.Pairwise.and hkey hname).imp_of_mem ?_
  rintro a b ha hb ⟨hid, hnames⟩
  unfold replaceRow
  split_ifs with hsa hsb hsb
  · exact absurd (hsa.trans hsb.symm) hid
  · exact (h b hb hsb).symm
  · exact h a ha hsa
  · exact hnames

theorem replace_bindings (s : RdpServer) (h : s.groups.Nodup) : ∀ r ∈ t.rows.map (replaceRow s), r.groups.Nodup := by
  intro r hr
  obtain ⟨r', hr', rfl⟩ := List.mem_map.mp hr
  unfold replaceRow
  split_ifs
  · exact h
  · exact t.bindings r' hr'

def replace (s : RdpServer) (up : Bool) : Flush ServerTable :=
  if h : (∀ r ∈ t.rows, r.id ≠ s.id → r.techName ≠ s.techName) ∧ s.groups.Nodup then
    if up then
      .done ⟨t.rows.map (replaceRow s), t.replace_primaryKey s, t.replace_techNames s h.1, t.replace_bindings s h.2⟩
    else .raised
  else .integrityError

end ServerTable

structure ServerCreate where
  techName : List Char
  displayName : List Char
  address : List Char
  port : Option Int
  isEnabled : Bool
  sortOrder : Int
  groups : List (List Char)

structure ServerUpdate where
  techName : Option (List Char)
  displayName : Option (List Char)
  address : Option (List Char)
  port : Option Int
  isEnabled : Option Bool
  sortOrder : Option Int
  groups : Option (List (List Char))

section

variable (decimal : Char → Option Nat) (t : ServerTable)

/-- The answer behind a commit. -/
def committed (s : RdpServer) : Flush ServerTable → Except HttpError RdpServer × ServerTable
  | .done t' => (.ok s, t')
  | .integrityError => (.error duplicateKey, t)
  | .raised => (.error internalError, t)

def createServer (body : ServerCreate) (id : Uuid) (up : Bool) : Except HttpError RdpServer × ServerTable :=
  match splitAddress decimal body.address body.port with
  | .error e => (.error e, t)
  | .ok (host, p) =>
    match parseGroupGuids body.groups with
    | .error e => (.error e, t)
    | .ok groups =>
      let srv : RdpServer :=
        ⟨id, Text.strip body.techName, Text.strip body.displayName, host, p, body.isEnabled, body.sortOrder, groups⟩
      committed t srv (t.insert srv up)

/-- The address and the port behind an update. An empty address counts as none. -/
def updatedAddress (srv : RdpServer) (body : ServerUpdate) : Except HttpError (List Char × Int) :=
  if body.address.isSome ∨ body.port.isSome then
    splitAddress decimal ((body.address.filter (· ≠ [])).getD srv.address) (some (body.port.getD srv.port))
  else .ok (srv.address, srv.port)

def updatedGroups (srv : RdpServer) (body : ServerUpdate) : Except HttpError (List Uuid) :=
  match body.groups with
  | none => .ok srv.groups
  | some groups => parseGroupGuids groups

def updateServer (serverId : List Char) (body : ServerUpdate) (up : Bool) : Except HttpError RdpServer × ServerTable :=
  match Uuid.parse serverId with
  | none => (.error ⟨400, "Invalid server id"⟩, t)
  | some sid =>
    match t.get sid with
    | none => (.error ⟨404, "Server not found"⟩, t)
    | some srv =>
      match updatedAddress decimal srv body with
      | .error e => (.error e, t)
      | .ok (host, p) =>
        match updatedGroups srv body with
        | .error e => (.error e, t)
        | .ok groups =>
          let srv' : RdpServer :=
            ⟨srv.id, (body.techName.map Text.strip).getD srv.techName,
              (body.displayName.map Text.strip).getD srv.displayName, host, p, body.isEnabled.getD srv.isEnabled,
              body.sortOrder.getD srv.sortOrder, groups⟩
          committed t srv' (t.replace srv' up)

def cloneRow (src : RdpServer) (id : Uuid) (attempt : Nat) : RdpServer :=
  let baseTech := src.techName ++ "-copy".toList
  let suffix := if attempt = 1 then [] else '-' :: Text.decimal attempt
  { src with id := id, techName := baseTech ++ suffix, displayName := src.displayName ++ " (копия)".toList }

/-- The loop of `clone_server`, with the key that each attempt draws. -/
def cloneAttempts (src : RdpServer) (id : Nat → Uuid) (up : Bool) : List Nat → Except HttpError RdpServer × ServerTable
  | [] => (.error ⟨409, "Unable to clone server (tech_name collision)"⟩, t)
  | attempt :: rest =>
    let newSrv := cloneRow src (id attempt) attempt
    match t.insert newSrv up with
    | .done t' => (.ok newSrv, t')
    | .integrityError => cloneAttempts src id up rest
    | .raised => (.error internalError, t)

def cloneServer (serverId : List Char) (id : Nat → Uuid) (up : Bool) : Except HttpError RdpServer × ServerTable :=
  match Uuid.parse serverId with
  | none => (.error ⟨400, "Invalid server id"⟩, t)
  | some sid =>
    match t.get sid with
    | none => (.error ⟨404, "Server not found"⟩, t)
    | some src => cloneAttempts t src id up [1, 2, 3, 4, 5]

end

/-- A request, with the keys that new rows get. -/
inductive ServerCall where
  | create (body : ServerCreate) (id : Uuid) (up : Bool)
  | update (serverId : List Char) (body : ServerUpdate) (up : Bool)
  | clone (serverId : List Char) (id : Nat → Uuid) (up : Bool)

def ServerTable.call (decimal : Char → Option Nat) (t : ServerTable) : ServerCall → ServerTable
  | .create body id up => (createServer decimal t body id up).2
  | .update serverId body up => (updateServer decimal t serverId body up).2
  | .clone serverId id up => (cloneServer t serverId id up).2

/-! ## What is stored -/

/-- The splitter leaves the address as it is, whatever port comes with it. -/
def Settled (decimal : Char → Option Nat) (address : List Char) : Prop :=
  ∀ p : Int, 1 ≤ p → p ≤ 65535 → splitAddress decimal address (some p) = .ok (address, p)

structure RdpServer.Stored (decimal : Char → Option Nat) (s : RdpServer) : Prop where
  port_pos : 1 ≤ s.port
  port_le : s.port ≤ 65535
  settled : Settled decimal s.address

variable {decimal : Char → Option Nat}

theorem settled_of_noPort {a : List Char} (hstrip : Text.strip a = a) (hne : a ≠ []) (hport : addrPort decimal a = none) :
    Settled decimal a := by
  intro p hpos hle
  unfold splitAddress
  dsimp only
  rw [hstrip, if_neg hne, hport]
  dsimp only
  rw [if_neg (by omega)]

theorem addrPort_host {raw host : List Char} {p : Nat} (h : addrPort decimal raw = some (host, p)) :
    host = raw.takeWhile (· ≠ ':') ∧ host ≠ [] := by
  unfold addrPort at h
  rcases hrest : raw.dropWhile (· ≠ ':') with _ | ⟨c, port⟩
  · simp only [hrest] at h
    cases h
  · simp only [hrest] at h
    split_ifs at h with hmatch
    cases h
    exact ⟨rfl, hmatch.1⟩

theorem addrPort_of_noColon {raw : List Char} (h : ':' ∉ raw) : addrPort decimal raw = none := by
  have hdrop : raw.dropWhile (· ≠ ':') = [] := by
    rw [List.dropWhile_eq_nil_iff]
    intro c hc
    rw [decide_eq_true_eq]
    rintro rfl
    exact h hc
  unfold addrPort
  simp only [hdrop]

theorem settled_host {address host : List Char} {p : Nat} (h : addrPort decimal (Text.strip address) = some (host, p)) :
    Settled decimal (Text.strip host) := by
  obtain ⟨hhost, hne⟩ := addrPort_host h
  refine settled_of_noPort (strip_strip host) ?_ (addrPort_of_noColon fun hcolon => ?_)
  · intro hblank
    rcases hhead : Text.strip address with _ | ⟨c, rest⟩
    · rw [hhead] at hhost
      exact hne hhost
    · have hc : c ∈ host := by
        rw [hhost, hhead] at hne ⊢
        rw [List.takeWhile_cons] at hne ⊢
        split_ifs at hne ⊢ with hcolon
        · exact List.mem_cons_self
        · exact absurd rfl hne
      have hkept := mem_strip hc (isSpace_of_strip_eq hhead)
      rw [hblank] at hkept
      cases hkept
  · have htaken := mem_of_mem_strip hcolon
    rw [hhost] at htaken
    simpa using List.mem_takeWhile_imp htaken

theorem splitAddress_stored {address host : List Char} {port : Option Int} {p : Int}
    (h : splitAddress decimal address port = .ok (host, p)) : Settled decimal host ∧ 1 ≤ p ∧ p ≤ 65535 := by
  unfold splitAddress at h
  dsimp only at h
  by_cases hblank : Text.strip address = []
  · rw [if_pos hblank] at h
    cases h
  · rw [if_neg hblank] at h
    rcases hmatch : addrPort decimal (Text.strip address) with _ | ⟨host', p'⟩
    · have hsettled := settled_of_noPort (strip_strip address) hblank hmatch
      rw [hmatch] at h
      rcases port with _ | port
      · cases h
        exact ⟨hsettled, by omega, by omega⟩
      · dsimp only at h
        split_ifs at h with hrange
        cases h
        exact ⟨hsettled, by omega, by omega⟩
    · rw [hmatch] at h
      dsimp only at h
      split_ifs at h with hrange
      cases h
      exact ⟨settled_host hmatch, by omega, by omega⟩

/-! ## The requests -/

namespace ServerTable

variable {t t' : ServerTable} {s : RdpServer} {up : Bool}

def AllStored (decimal : Char → Option Nat) (t : ServerTable) : Prop := ∀ s ∈ t.rows, s.Stored decimal

theorem get_mem {sid : Uuid} (h : t.get sid = some s) : s ∈ t.rows ∧ s.id = sid :=
  ⟨List.mem_of_find?_eq_some h, by simpa using List.find?_some h⟩

theorem get_of_mem (h : s ∈ t.rows) : t.get s.id = some s := by
  rcases hget : t.get s.id with _ | r
  · have hnone := List.find?_eq_none.mp hget s h
    simp at hnone
  · obtain ⟨hr, hid⟩ := get_mem hget
    rw [List.inj_on_of_nodup_map t.primaryKey hr h hid]

theorem insert_rows (h : t.insert s up = .done t') : t'.rows = s :: t.rows := by
  unfold insert at h
  split_ifs at h
  cases h
  rfl

theorem replace_rows (h : t.replace s up = .done t') : t'.rows = t.rows.map (replaceRow s) := by
  unfold replace at h
  split_ifs at h
  cases h
  rfl

theorem AllStored.insert (h : t.AllStored decimal) (hs : s.Stored decimal) (hdone : t.insert s up = .done t') :
    t'.AllStored decimal := by
  unfold AllStored
  rw [insert_rows hdone]
  exact List.forall_mem_cons.mpr ⟨hs, h⟩

theorem AllStored.replace (h : t.AllStored decimal) (hs : s.Stored decimal) (hdone : t.replace s up = .done t') :
    t'.AllStored decimal := by
  intro r hr
  rw [replace_rows hdone] at hr
  obtain ⟨r', hr', rfl⟩ := List.mem_map.mp hr
  unfold replaceRow
  split_ifs
  · exact hs
  · exact h r' hr'

theorem AllStored.insertCommitted (h : t.AllStored decimal) (hs : s.Stored decimal) :
    (committed t s (t.insert s up)).2.AllStored decimal := by
  rcases hdone : t.insert s up with t' | _ | _
  · exact h.insert hs hdone
  · exact h
  · exact h

theorem AllStored.replaceCommitted (h : t.AllStored decimal) (hs : s.Stored decimal) :
    (committed t s (t.replace s up)).2.AllStored decimal := by
  rcases hdone : t.replace s up with t' | _ | _
  · exact h.replace hs hdone
  · exact h
  · exact h

theorem AllStored.create (h : t.AllStored decimal) (body : ServerCreate) (id : Uuid) (up : Bool) :
    (createServer decimal t body id up).2.AllStored decimal := by
  unfold createServer
  rcases hsplit : splitAddress decimal body.address body.port with e | ⟨host, p⟩
  · exact h
  · obtain ⟨hsettled, hpos, hle⟩ := splitAddress_stored hsplit
    dsimp only
    rcases parseGroupGuids body.groups with e | groups
    · exact h
    · exact h.insertCommitted ⟨hpos, hle, hsettled⟩

theorem updatedAddress_stored {srv : RdpServer} (hsrv : srv.Stored decimal) {body : ServerUpdate} {host : List Char} {p : Int}
    (h : updatedAddress decimal srv body = .ok (host, p)) : Settled decimal host ∧ 1 ≤ p ∧ p ≤ 65535 := by
  unfold updatedAddress at h
  split_ifs at h
  · exact splitAddress_stored h
  · cases h
    exact ⟨hsrv.settled, hsrv.port_pos, hsrv.port_le⟩

theorem AllStored.update (h : t.AllStored decimal) (serverId : List Char) (body : ServerUpdate) (up : Bool) :
    (updateServer decimal t serverId body up).2.AllStored decimal := by
  unfold updateServer
  rcases Uuid.parse serverId with _ | sid
  · exact h
  · dsimp only
    rcases hget : t.get sid with _ | srv
    · exact h
    · dsimp only
      rcases haddress : updatedAddress decimal srv body with e | ⟨host, p⟩
      · exact h
      · obtain ⟨hsettled, hpos, hle⟩ := updatedAddress_stored (h srv (get_mem hget).1) haddress
        dsimp only
        rcases updatedGroups srv body with e | groups
        · exact h
        · exact h.replaceCommitted ⟨hpos, hle, hsettled⟩

theorem AllStored.cloneAttempts (h : t.AllStored decimal) {src : RdpServer} (hsrc : src.Stored decimal) (id : Nat → Uuid)
    (up : Bool) (attempts : List Nat) : (Admin.cloneAttempts t src id up attempts).2.AllStored decimal := by
  induction attempts with
  | nil => exact h
  | cons attempt rest ih =>
    unfold Admin.cloneAttempts
    dsimp only
    rcases hdone : t.insert (cloneRow src (id attempt) attempt) up with t' | _ | _
    · have hclone : (cloneRow src (id attempt) attempt).Stored decimal :=
        ⟨hsrc.port_pos, hsrc.port_le, hsrc.settled⟩
      exact h.insert hclone hdone
    · exact ih
    · exact h

theorem AllStored.clone (h : t.AllStored decimal) (serverId : List Char) (id : Nat → Uuid) (up : Bool) :
    (cloneServer t serverId id up).2.AllStored decimal := by
  unfold cloneServer
  rcases Uuid.parse serverId with _ | sid
  · exact h
  · dsimp only
    rcases hget : t.get sid with _ | src
    · exact h
    · exact h.cloneAttempts (h src (get_mem hget).1) id up _

theorem AllStored.call (h : t.AllStored decimal) (c : ServerCall) : (t.call decimal c).AllStored decimal := by
  cases c with
  | create body id up => exact h.create body id up
  | update serverId body up => exact h.update serverId body up
  | clone serverId id up => exact h.clone serverId id up

theorem AllStored.foldl (h : t.AllStored decimal) (calls : List ServerCall) :
    (calls.foldl (ServerTable.call decimal) t).AllStored decimal := by
  induction calls generalizing t with
  | nil => exact h
  | cons c rest ih => exact ih (h.call c)

/-! ## Updates of a server by what it has -/

theorem replaceRow_self {r : RdpServer} (hr : r ∈ t.rows) (hs : s ∈ t.rows) : replaceRow s r = r := by
  unfold replaceRow
  split_ifs with hid
  · exact (List.inj_on_of_nodup_map t.primaryKey hr hs hid).symm
  · rfl

theorem replace_kept (s' : RdpServer) (hs : s ∈ t.rows) (hid : s'.id = s.id) (hname : s'.techName = s.techName)
    (hgroups : s'.groups = s.groups) : ∃ t', t.replace s' true = .done t' ∧ t'.rows = t.rows.map (replaceRow s') := by
  have hfree : ∀ r ∈ t.rows, r.id ≠ s'.id → r.techName ≠ s'.techName := by
    intro r hr hne heq
    rw [hid] at hne
    rw [hname] at heq
    exact hne (congrArg RdpServer.id (List.inj_on_of_nodup_map t.techNames hr hs heq))
  have hnodup : s'.groups.Nodup := by
    rw [hgroups]
    exact t.bindings s hs
  have hdone : ∃ t', t.replace s' true = .done t' := by
    unfold replace
    rw [dif_pos ⟨hfree, hnodup⟩, if_pos rfl]
    exact ⟨_, rfl⟩
  obtain ⟨t', ht'⟩ := hdone
  exact ⟨t', ht', replace_rows ht'⟩

end ServerTable

/-- An update of the address and the port only. -/
def addressUpdate (address : Option (List Char)) (port : Option Int) : ServerUpdate :=
  ⟨none, none, address, port, none, none, none⟩

theorem updateServer_address {t : ServerTable} {s : RdpServer} (hs : s ∈ t.rows) {body : ServerUpdate} {address : List Char}
    {port : Int} (hbody : body = addressUpdate body.address body.port)
    (haddress : updatedAddress decimal s body = .ok (address, port)) :
    ∃ t', updateServer decimal t s.id.str body true = (.ok { s with address := address, port := port }, t') ∧
      t'.rows = t.rows.map (ServerTable.replaceRow { s with address := address, port := port }) := by
  obtain ⟨t', hdone, hrows⟩ := ServerTable.replace_kept { s with address := address, port := port } hs rfl rfl rfl
  refine ⟨t', ?_, hrows⟩
  have hgroups : updatedGroups s body = .ok s.groups := by
    rw [hbody]
    rfl
  unfold updateServer
  rw [Uuid.parse_str]
  dsimp only
  rw [ServerTable.get_of_mem hs]
  dsimp only
  rw [haddress]
  dsimp only
  rw [hgroups, hbody]
  show committed t { s with address := address, port := port } (t.replace { s with address := address, port := port } true) = _
  rw [hdone]
  rfl

/-- After every sequence of requests the stored addresses are settled: an update with a port alone stores that
port with the address as it was, and an update with a server's own address and port changes nothing. -/
theorem servers_settled (decimal : Char → Option Nat) (calls : List ServerCall) :
    let t := calls.foldl (ServerTable.call decimal) .empty
    ∀ s ∈ t.rows, s.Stored decimal ∧
      (∀ p : Int, 1 ≤ p → p ≤ 65535 →
        ∃ t', updateServer decimal t s.id.str (addressUpdate none (some p)) true = (.ok { s with port := p }, t') ∧
          t'.rows = t.rows.map (ServerTable.replaceRow { s with port := p })) ∧
      ∃ t', updateServer decimal t s.id.str (addressUpdate (some s.address) (some s.port)) true = (.ok s, t') ∧
        t'.rows = t.rows := by
  intro t s hs
  have hall : t.AllStored decimal := ServerTable.AllStored.foldl (fun _ h => by cases h) calls
  have hstored := hall s hs
  refine ⟨hstored, fun p hpos hle => updateServer_address hs rfl (hstored.settled p hpos hle), ?_⟩
  have hown : updatedAddress decimal s (addressUpdate (some s.address) (some s.port)) = .ok (s.address, s.port) := by
    have hsplit := hstored.settled s.port hstored.port_pos hstored.port_le
    unfold updatedAddress addressUpdate
    dsimp only
    rw [if_pos (.inl rfl)]
    rcases hempty : s.address with _ | ⟨c, rest⟩
    · rw [hempty] at hsplit
      exact hsplit
    · rw [hempty] at hsplit
      exact hsplit
  obtain ⟨t', hupdate, hrows⟩ := updateServer_address hs rfl hown
  refine ⟨t', hupdate, ?_⟩
  rw [hrows]
  exact (List.map_congr_left fun r hr => ServerTable.replaceRow_self hr hs).trans (List.map_id' t.rows)

/-- An address with a port is stored in two parts, and a clone has them too. -/
example :
    let id (d : Nat) : Uuid := ⟨List.replicate 32 (Uuid.lastDigit d), List.length_replicate⟩
    let calls : List ServerCall :=
      [.create ⟨"term".toList, "Terminal".toList, " 10.0.0.5:3390 ".toList, none, true, 0, []⟩ (id 1) true,
        .update (id 1).str (addressUpdate none (some 3391)) true, .clone (id 1).str (fun _ => id 2) true]
    (calls.foldl (ServerTable.call fun c => if c.isDigit then some (c.toNat - 48) else none) .empty).rows.map
      (fun s => (s.techName, s.address, s.port)) =
      [("term-copy".toList, "10.0.0.5".toList, 3391), ("term".toList, "10.0.0.5".toList, 3391)] := by
  decide +kernel

end RdpProxy.Admin
