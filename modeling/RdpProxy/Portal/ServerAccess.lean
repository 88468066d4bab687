import RdpProxy.Admin.ServerOrder
import RdpProxy.Rdp.RdpFile
import RdpProxy.Store.SealedPasswords

/-!
# The servers of a portal user (`portal/routes/servers.py`)

A server without groups is there for everyone. What the page lists and what can be downloaded are decided in
two places, from the same rows.
-/

open Text

namespace RdpProxy.Portal

open Admin Rdp Store

/-! ## The source -/

/-- `_server_visible` -/
def serverVisible (serverGroupGuids userGroupGuids : List (List Char)) : Bool :=
  if serverGroupGuids.isEmpty then true
  else
    let grpSet := groupSet userGroupGuids
    let srvSet := groupSet serverGroupGuids
    grpSet.any fun g => srvSet.contains g

/-- `[str(b.ad_group_guid) for b in (s.group_bindings or [])]` -/
def serverGuids (s : RdpServer) : List (List Char) := s.groups.map Uuid.str

structure PageServer where
  id : List Char
  name : List Char
  host : List Char
  port : Int
  groups : List (List Char)
  deriving DecidableEq

def pageServer (s : RdpServer) : PageServer := ⟨s.techName, s.displayName, s.address, s.port, serverGuids s⟩

/-- `_list_visible_servers` -/
def listVisibleServers (collation : Collation) (t : ServerTable) (userGroupGuids : List (List Char)) :
    List PageServer :=
  let servers := (t.rows.filter RdpServer.isEnabled).mergeSort (RdpServer.before collation)
  (servers.filter fun s => serverVisible (serverGuids s) userGroupGuids).map pageServer

/-- The row that `rdp_download` selects. -/
def serverNamed (t : ServerTable) (serverId : List Char) : Option RdpServer :=
  t.rows.find? fun s => s.techName = serverId

/-- The checks of `rdp_download` on the row that it has read. -/
def admitServer (row : Option RdpServer) (userGroupGuids : List (List Char)) : Except HttpError RdpServer :=
  match row with
  | none => .error ⟨404, "Server not found"⟩
  | some s =>
    if s.isEnabled = false then .error ⟨404, "Server not found"⟩
    else if serverVisible (serverGuids s) userGroupGuids = false then .error ⟨403, "Access denied"⟩
    else .ok s

/-! ## Groups -/

theorem lower_str (u : Uuid) : lower u.str = u.str := by
  have hall : ∀ d : Fin 16, (Uuid.hexChar d).toLower = Uuid.hexChar d := by decide
  unfold lower
  conv_rhs => rw [← List.map_id u.str]
  refine List.map_congr_left fun c hc => ?_
  rcases Uuid.mem_str hc with rfl | ⟨d, rfl⟩
  · rfl
  · exact hall d

theorem strip_str (u : Uuid) : strip u.str = u.str := by
  have hall : ∀ d : Fin 16, isSpace (Uuid.hexChar d) = false := by decide
  apply strip_eq_self
  intro c hc
  rcases Uuid.mem_str hc with rfl | ⟨d, rfl⟩
  · rfl
  · exact hall d

theorem str_ne_nil (u : Uuid) : u.str ≠ [] := by
  intro h
  have hhyphen : '-' ∈ u.str := by simp [Uuid.str]
  rw [h] at hhyphen
  cases hhyphen

theorem groupSet_str (groups : List Uuid) : groupSet (groups.map Uuid.str) = groups.map Uuid.str := by
  unfold groupSet
  rw [List.filter_eq_self.mpr, List.map_map]
  · refine List.map_congr_left fun u _ => ?_
    rw [Function.comp_apply, strip_str, lower_str]
  · intro v hv
    obtain ⟨u, _, rfl⟩ := List.mem_map.mp hv
    rw [strip_str]
    exact decide_eq_true (str_ne_nil u)

theorem serverVisible_iff (s : RdpServer) (userGroupGuids : List (List Char)) :
    serverVisible (serverGuids s) userGroupGuids = true ↔
      s.groups = [] ∨ ∃ g ∈ s.groups, g.str ∈ groupSet userGroupGuids := by
  unfold serverVisible serverGuids
  simp only [List.isEmpty_iff, List.map_eq_nil_iff, groupSet_str]
  split_ifs with hnone
  · simp [hnone]
  · simp only [hnone, false_or, List.any_eq_true, List.contains_iff_mem, List.mem_map]
    constructor
    · rintro ⟨v, hv, g, hg, rfl⟩
      exact ⟨g, hg, hv⟩
    · rintro ⟨g, hg, hv⟩
      exact ⟨g.str, hv, g, hg, rfl⟩

/-! ## The page and the download -/

def Shown (userGroupGuids : List (List Char)) (s : RdpServer) : Bool :=
  s.isEnabled && serverVisible (serverGuids s) userGroupGuids

theorem listVisibleServers_eq (collation : Collation) (t : ServerTable) (userGroupGuids : List (List Char)) :
    listVisibleServers collation t userGroupGuids =
      ((listServers collation t).filter (Shown userGroupGuids)).map pageServer := by
  unfold listVisibleServers
  dsimp only
  rw [mergeSort_filter, List.filter_filter]
  refine congrArg (List.map pageServer) (List.filter_congr fun s _ => ?_)
  rw [Shown, Bool.and_comm]

theorem mem_of_serverNamed {t : ServerTable} {serverId : List Char} {s : RdpServer}
    (h : serverNamed t serverId = some s) : s ∈ t.rows ∧ s.techName = serverId :=
  ⟨List.mem_of_find?_eq_some h, by simpa using List.find?_some h⟩

theorem serverNamed_of_mem {t : ServerTable} {s : RdpServer} (h : s ∈ t.rows) : serverNamed t s.techName = some s := by
  cases hget : serverNamed t s.techName with
  | none => simpa using List.find?_eq_none.mp hget s h
  | some r =>
    obtain ⟨hr, hname⟩ := mem_of_serverNamed hget
    rw [List.inj_on_of_nodup_map t.techNames hr h hname]

theorem admitServer_ok_iff {row : Option RdpServer} {userGroupGuids : List (List Char)} {s : RdpServer} :
    admitServer row userGroupGuids = .ok s ↔ row = some s ∧ Shown userGroupGuids s = true := by
  cases row with
  | none => simp [admitServer]
  | some r =>
    unfold admitServer
    dsimp only
    split_ifs with henabled hvisible
    · simp only [Option.some.injEq, false_iff, not_and]
      rintro rfl
      simp [Shown, henabled]
    · simp only [Option.some.injEq, false_iff, not_and]
      rintro rfl
      simp [Shown, hvisible]
    · simp only [Except.ok.injEq, Option.some.injEq]
      constructor
      · rintro rfl
        simp_all [Shown]
      · exact And.left

theorem admitServer_named_iff {t : ServerTable} {serverId : List Char} {userGroupGuids : List (List Char)}
    {s : RdpServer} : admitServer (serverNamed t serverId) userGroupGuids = .ok s ↔
      s ∈ t.rows ∧ s.techName = serverId ∧ Shown userGroupGuids s = true := by
  rw [admitServer_ok_iff, ← and_assoc]
  refine and_congr_left fun _ => ⟨mem_of_serverNamed, ?_⟩
  rintro ⟨hs, rfl⟩
  exact serverNamed_of_mem hs

/-- The page lists a server, once, exactly where its download is let through. -/
theorem page_lists_downloads (collation : Collation) (t : ServerTable) (userGroupGuids : List (List Char)) :
    (∀ e, e ∈ listVisibleServers collation t userGroupGuids ↔
      ∃ s, admitServer (serverNamed t e.id) userGroupGuids = .ok s ∧ e = pageServer s) ∧
    ((listVisibleServers collation t userGroupGuids).map PageServer.id).Nodup := by
  rw [listVisibleServers_eq]
  constructor
  · intro e
    simp only [List.mem_map, List.mem_filter, (listServers_perm collation t).mem_iff, admitServer_named_iff]
    constructor
    · rintro ⟨s, ⟨hs, hshown⟩, rfl⟩
      exact ⟨s, ⟨hs, rfl, hshown⟩, rfl⟩
    · rintro ⟨s, ⟨hs, _, hshown⟩, rfl⟩
      exact ⟨s, ⟨hs, hshown⟩, rfl⟩
  · rw [List.map_map]
    have hnames := ((listServers_perm collation t).map RdpServer.techName).nodup_iff.mpr t.techNames
    exact hnames.sublist (List.filter_sublist.map _)

/-! ## The page behind a reorder request -/

theorem pageServer_renumbered (l : List (List Char × Nat)) (s : RdpServer) :
    pageServer (renumbered l s) = pageServer s := by
  unfold renumbered
  split
  · rfl
  · rfl

theorem shown_renumbered (l : List (List Char × Nat)) (userGroupGuids : List (List Char)) (s : RdpServer) :
    Shown userGroupGuids (renumbered l s) = Shown userGroupGuids s := by
  unfold renumbered
  split
  · rfl
  · rfl

/-- An entry of the page for a server that the request names. -/
def NamedBy (t : ServerTable) (order : List (List Char)) (e : PageServer) : Prop :=
  ∃ s, serverNamed t e.id = some s ∧ s.id ∈ orderIds order

instance (t : ServerTable) (order : List (List Char)) (e : PageServer) : Decidable (NamedBy t order e) :=
  match h : serverNamed t e.id with
  | none => .isFalse (by simp [NamedBy, h])
  | some s => decidable_of_iff (s.id ∈ orderIds order) (by simp [NamedBy, h])

theorem rows_filter_map (l : List (List Char × Nat)) (t : ServerTable) (userGroupGuids : List (List Char)) :
    ((reorderLoop t l).rows.filter (Shown userGroupGuids)).map pageServer =
      (t.rows.filter (Shown userGroupGuids)).map pageServer := by
  rw [reorderLoop_rows, List.filter_map, List.map_map]
  simp only [Function.comp_def, shown_renumbered, pageServer_renumbered]

theorem namedBy_listed {collation : Collation} {t : ServerTable} {order : List (List Char)} {s : RdpServer}
    (hs : s ∈ listServers collation (reorderLoop t order.zipIdx)) :
    NamedBy t order (pageServer s) ↔ s.id ∈ orderIds order := by
  have hrow := (listServers_perm collation _).subset hs
  rw [reorderLoop_rows] at hrow
  obtain ⟨s', hs', rfl⟩ := List.mem_map.mp hrow
  have hget : serverNamed t (pageServer (renumbered order.zipIdx s')).id = some s' := by
    rw [pageServer_renumbered]
    exact serverNamed_of_mem hs'
  rw [NamedBy, hget, renumbered_id]
  simp

theorem listed_page (collation : Collation) (t : ServerTable) (order : List (List Char))
    (userGroupGuids : List (List Char)) :
    (listVisibleServers collation (reorderLoop t order.zipIdx) userGroupGuids).filter (NamedBy t order) =
      (((orderIds order).dedup.filterMap t.get).filter (Shown userGroupGuids)).map pageServer := by
  have hnamed : ((listServers collation (reorderLoop t order.zipIdx)).filter (Shown userGroupGuids)).filter
      (fun s => NamedBy t order (pageServer s)) =
      ((listServers collation (reorderLoop t order.zipIdx)).filter fun s => s.id ∈ orderIds order).filter
        (Shown userGroupGuids) := by
    rw [List.filter_filter, List.filter_filter]
    refine List.filter_congr fun s hs => ?_
    rw [Bool.and_comm, decide_eq_decide.mpr (namedBy_listed hs)]
  rw [listVisibleServers_eq, List.filter_map]
  simp only [Function.comp_def]
  rw [hnamed, listed_servers, List.filter_map, List.map_map]
  simp only [Function.comp_def, shown_renumbered, pageServer_renumbered]

theorem unnamed_rows (t : ServerTable) (order : List (List Char)) :
    (reorderLoop t order.zipIdx).rows.filter (fun s => s.id ∉ orderIds order) =
      t.rows.filter fun s => s.id ∉ orderIds order := by
  rw [reorderLoop_rows, List.filter_map]
  simp only [Function.comp_def, renumbered_id]
  conv_rhs => rw [← List.map_id (t.rows.filter _)]
  refine List.map_congr_left fun s hs => ?_
  have hout : s.id ∉ orderIds order := by simpa using (List.mem_filter.mp hs).2
  have hnone : lastNumber order.zipIdx s.id = none := by
    rw [← Option.not_isSome_iff_eq_none, lastNumber_isSome]
    exact hout
  rw [renumbered, hnone, id]

/-- The named servers stand on both lists as their last places in the request, and nothing else changes. -/
theorem reordered_lists (collation : Collation) (t : ServerTable) (order : List (List Char))
    (userGroupGuids : List (List Char)) :
    let t' := (reorderServers t order true).2
    ((listServers collation t').filter fun s => s.id ∈ orderIds order).map RdpServer.id =
        (orderIds order).dedup.filter (fun id => id ∈ t.rows.map RdpServer.id) ∧
      (listVisibleServers collation t' userGroupGuids).filter (NamedBy t order) =
        (((orderIds order).dedup.filterMap t.get).filter (Shown userGroupGuids)).map pageServer ∧
      (listVisibleServers collation t' userGroupGuids).Perm (listVisibleServers collation t userGroupGuids) ∧
      t'.rows.filter (fun s => s.id ∉ orderIds order) = t.rows.filter fun s => s.id ∉ orderIds order := by
  intro t'
  refine ⟨listed_ids collation t order, listed_page collation t order userGroupGuids, ?_, unnamed_rows t order⟩
  have hshown : ∀ u : ServerTable, (listVisibleServers collation u userGroupGuids).Perm
      ((u.rows.filter (Shown userGroupGuids)).map pageServer) := by
    intro u
    rw [listVisibleServers_eq]
    exact ((listServers_perm collation u).filter _).map _
  have hrows := rows_filter_map order.zipIdx t userGroupGuids
  exact (hshown t').trans (hrows ▸ (hshown t).symm)

end RdpProxy.Portal
