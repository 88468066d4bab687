import RdpProxy.Admin.Servers
import Mathlib.Data.List.Dedup

/-!
# The order of the servers (`routes/servers.py`)

The list of the panel is sorted by `sort_order` and then by name. A reorder request numbers the servers by
their places in it.
-/

open Text

namespace RdpProxy.Admin

/-! ## The source -/

/-- How the database compares two names. -/
structure Collation where
  le : List Char → List Char → Bool
  total : ∀ a b, (le a b || le b a) = true
  trans : ∀ a b c, le a b = true → le b c = true → le a c = true
  antisymm : ∀ a b, le a b = true → le b a = true → a = b

/-- `.order_by(RdpServer.sort_order, RdpServer.tech_name)` -/
def RdpServer.before (collation : Collation) (a b : RdpServer) : Bool :=
  a.sortOrder < b.sortOrder || (a.sortOrder == b.sortOrder && collation.le a.techName b.techName)

def listServers (collation : Collation) (t : ServerTable) : List RdpServer :=
  t.rows.mergeSort (RdpServer.before collation)

namespace ServerTable

variable (t : ServerTable)

/-- `sa.update(RdpServer).where(RdpServer.id == uid).values(sort_order=i)` -/
def numberRow (uid : Uuid) (i : Nat) (r : RdpServer) : RdpServer := if r.id = uid then { r with sortOrder := i } else r

theorem numberRow_fields (uid : Uuid) (i : Nat) (r : RdpServer) :
    (numberRow uid i r).id = r.id ∧ (numberRow uid i r).techName = r.techName ∧ (numberRow uid i r).groups = r.groups := by
  unfold numberRow
  split_ifs
  · exact ⟨rfl, rfl, rfl⟩
  · exact ⟨rfl, rfl, rfl⟩

def setSortOrder (uid : Uuid) (i : Nat) : ServerTable where
  rows := t.rows.map (numberRow uid i)
  primaryKey := by
    rw [List.map_map, show RdpServer.id ∘ numberRow uid i = RdpServer.id from funext fun r => (numberRow_fields uid i r).1]
    exact t.primaryKey
  techNames := by
    rw [List.map_map,
      show RdpServer.techName ∘ numberRow uid i = RdpServer.techName from funext fun r => (numberRow_fields uid i r).2.1]
    exact t.techNames
  bindings := by
    intro r hr
    obtain ⟨r', hr', rfl⟩ := List.mem_map.mp hr
    rw [(numberRow_fields uid i r').2.2]
    exact t.bindings r' hr'

def delete (sid : Uuid) : ServerTable where
  rows := t.rows.filter fun r => r.id ≠ sid
  primaryKey := t.primaryKey.sublist (List.filter_sublist.map _)
  techNames := t.techNames.sublist (List.filter_sublist.map _)
  bindings := fun r hr => t.bindings r (List.mem_of_mem_filter hr)

end ServerTable

section

variable (t : ServerTable)

/-- The loop of `reorder_servers`, one UPDATE after the other. -/
def reorderLoop (t : ServerTable) : List (List Char × Nat) → ServerTable
  | [] => t
  | (sid, i) :: rest =>
    match Uuid.parse (Text.strip sid) with
    | none => reorderLoop t rest
    | some uid => reorderLoop (t.setSortOrder uid i) rest

def reorderServers (order : List (List Char)) (up : Bool) : Except HttpError Unit × ServerTable :=
  if up then (.ok (), reorderLoop t order.zipIdx) else (.error internalError, t)

def deleteServer (serverId : List Char) (up : Bool) : Except HttpError Unit × ServerTable :=
  match Uuid.parse serverId with
  | none => (.error ⟨400, "Invalid server id"⟩, t)
  | some sid =>
    match t.get sid with
    | none => (.error ⟨404, "Server not found"⟩, t)
    | some _ => if up then (.ok (), t.delete sid) else (.error internalError, t)

def setVisibility (serverId : List Char) (isEnabled up : Bool) : Except HttpError RdpServer × ServerTable :=
  match Uuid.parse serverId with
  | none => (.error ⟨400, "Invalid server id"⟩, t)
  | some sid =>
    match t.get sid with
    | none => (.error ⟨404, "Server not found"⟩, t)
    | some srv =>
      let srv' := { srv with isEnabled := isEnabled }
      match t.replace srv' up with
      | .done t' => (.ok srv', t')
      | _ => (.error internalError, t)

end

/-- The requests of `ServerCall`, and those that write no address. -/
inductive ServerAct where
  | call (c : ServerCall)
  | reorder (order : List (List Char)) (up : Bool)
  | delete (serverId : List Char) (up : Bool)
  | visibility (serverId : List Char) (isEnabled up : Bool)

def ServerTable.act (decimal : Char → Option Nat) (t : ServerTable) : ServerAct → ServerTable
  | .call c => t.call decimal c
  | .reorder order up => (reorderServers t order up).2
  | .delete serverId up => (deleteServer t serverId up).2
  | .visibility serverId isEnabled up => (setVisibility t serverId isEnabled up).2

/-! ## The place of a server -/

/-- The servers that a request names, one for each UPDATE. -/
def orderIds (order : List (List Char)) : List Uuid := order.filterMap fun sid => Uuid.parse (Text.strip sid)

/-- The number that the last UPDATE of a server writes. -/
def lastNumber : List (List Char × Nat) → Uuid → Option Nat
  | [], _ => none
  | (sid, i) :: rest, id => (lastNumber rest id).or (if Uuid.parse (Text.strip sid) = some id then some i else none)

def renumbered (l : List (List Char × Nat)) (r : RdpServer) : RdpServer :=
  match lastNumber l r.id with
  | none => r
  | some i => { r with sortOrder := i }

theorem lastNumber_cons_none {sid : List Char} (h : Uuid.parse (Text.strip sid) = none) (i : Nat)
    (rest : List (List Char × Nat)) (id : Uuid) : lastNumber ((sid, i) :: rest) id = lastNumber rest id := by
  simp [lastNumber, h]

theorem lastNumber_cons_ne {sid : List Char} {uid id : Uuid} (h : Uuid.parse (Text.strip sid) = some uid) (hne : uid ≠ id)
    (i : Nat) (rest : List (List Char × Nat)) : lastNumber ((sid, i) :: rest) id = lastNumber rest id := by
  simp [lastNumber, h, hne]

theorem lastNumber_cons_self {sid : List Char} {id : Uuid} (h : Uuid.parse (Text.strip sid) = some id) (i : Nat)
    (rest : List (List Char × Nat)) : lastNumber ((sid, i) :: rest) id = some ((lastNumber rest id).getD i) := by
  cases hrest : lastNumber rest id with
  | none => simp [lastNumber, h, hrest]
  | some j => simp [lastNumber, hrest]

theorem renumbered_id (l : List (List Char × Nat)) (r : RdpServer) : (renumbered l r).id = r.id := by
  unfold renumbered
  split
  · rfl
  · rfl

theorem renumbered_numberRow {sid : List Char} {uid : Uuid} (h : Uuid.parse (Text.strip sid) = some uid) (i : Nat)
    (rest : List (List Char × Nat)) (r : RdpServer) :
    renumbered rest (ServerTable.numberRow uid i r) = renumbered ((sid, i) :: rest) r := by
  by_cases hid : r.id = uid
  · have hself := lastNumber_cons_self (hid ▸ h) i rest
    rw [renumbered, (ServerTable.numberRow_fields uid i r).1, renumbered, hself, ServerTable.numberRow, if_pos hid]
    cases lastNumber rest r.id with
    | none => rfl
    | some j => rfl
  · rw [ServerTable.numberRow, if_neg hid, renumbered, renumbered, lastNumber_cons_ne h (Ne.symm hid)]

theorem reorderLoop_rows (t : ServerTable) (l : List (List Char × Nat)) :
    (reorderLoop t l).rows = t.rows.map (renumbered l) := by
  induction l generalizing t with
  | nil => exact (List.map_id' t.rows).symm
  | cons e rest ih =>
    obtain ⟨sid, i⟩ := e
    unfold reorderLoop
    cases h : Uuid.parse (Text.strip sid) with
    | none =>
      dsimp only
      rw [ih]
      refine List.map_congr_left fun r _ => ?_
      rw [renumbered, renumbered, lastNumber_cons_none h]
    | some uid =>
      dsimp only
      rw [ih, ServerTable.setSortOrder, List.map_map]
      exact List.map_congr_left fun r _ => renumbered_numberRow h i rest r

/-! ## Numbers and places -/

section

variable {order : List (List Char)} {k i j : Nat} {a b id : Uuid}

theorem le_of_lastNumber (h : lastNumber (order.zipIdx k) id = some i) : k ≤ i := by
  induction order generalizing k with
  | nil => cases h
  | cons sid order ih =>
    rw [List.zipIdx_cons, lastNumber, Option.or_eq_some_iff] at h
    rcases h with hrest | ⟨_, hhead⟩
    · have := ih hrest
      omega
    · split_ifs at hhead
      cases hhead
      exact Nat.le_refl _

theorem lastNumber_isSome (k : Nat) : (lastNumber (order.zipIdx k) id).isSome ↔ id ∈ orderIds order := by
  induction order generalizing k with
  | nil => simp [lastNumber, orderIds]
  | cons sid order ih =>
    rw [List.zipIdx_cons, orderIds, List.filterMap_cons]
    cases h : Uuid.parse (Text.strip sid) with
    | none =>
      rw [lastNumber_cons_none h]
      exact ih (k + 1)
    | some uid =>
      dsimp only
      by_cases hid : uid = id
      · subst hid
        rw [lastNumber_cons_self h]
        exact iff_of_true rfl List.mem_cons_self
      · rw [lastNumber_cons_ne h hid, ih, List.mem_cons, orderIds]
        exact ⟨Or.inr, fun hmem => hmem.resolve_left (Ne.symm hid)⟩

theorem lastNumber_inj (ha : lastNumber (order.zipIdx k) a = some i) (hb : lastNumber (order.zipIdx k) b = some i) :
    a = b := by
  induction order generalizing k with
  | nil => cases ha
  | cons sid order ih =>
    rw [List.zipIdx_cons, lastNumber, Option.or_eq_some_iff] at ha hb
    rcases ha with ha | ⟨_, ha⟩ <;> rcases hb with hb | ⟨_, hb⟩
    · exact ih ha hb
    · split_ifs at hb
      have := le_of_lastNumber ha
      cases hb
      omega
    · split_ifs at ha
      have := le_of_lastNumber hb
      cases ha
      omega
    · split_ifs at ha hb with hsa hsb
      exact Option.some.inj (hsa.symm.trans hsb)

/-- Of two servers that a request names, the first one has the smaller number. -/
def Numbered (order : List (List Char)) (k : Nat) (a b : Uuid) : Prop :=
  ∃ i j, lastNumber (order.zipIdx k) a = some i ∧ lastNumber (order.zipIdx k) b = some j ∧ i ≤ j

theorem numbered_dedup (order : List (List Char)) (k : Nat) : (orderIds order).dedup.Pairwise (Numbered order k) := by
  induction order generalizing k with
  | nil => exact List.Pairwise.nil
  | cons sid order ih =>
    have hrest : (orderIds order).dedup.Pairwise (Numbered (sid :: order) k) := by
      refine (ih (k + 1)).imp ?_
      rintro a b ⟨i, j, ha, hb, hle⟩
      refine ⟨i, j, ?_, ?_, hle⟩
      · rw [List.zipIdx_cons, lastNumber, ha, Option.some_or]
      · rw [List.zipIdx_cons, lastNumber, hb, Option.some_or]
    rw [orderIds, List.filterMap_cons]
    cases h : Uuid.parse (Text.strip sid) with
    | none => exact hrest
    | some uid =>
      by_cases hmem : uid ∈ orderIds order
      · exact (List.dedup_cons_of_mem hmem).symm ▸ hrest
      · have hhead : ∀ b ∈ (orderIds order).dedup, Numbered (sid :: order) k uid b := by
          intro b hb
          obtain ⟨j, hj⟩ := Option.isSome_iff_exists.mp ((lastNumber_isSome (k + 1)).mpr (List.mem_dedup.mp hb))
          have hnone : lastNumber (order.zipIdx (k + 1)) uid = none := by
            rw [← Option.not_isSome_iff_eq_none, lastNumber_isSome]
            exact hmem
          refine ⟨k, j, ?_, ?_, ?_⟩
          · rw [List.zipIdx_cons, lastNumber_cons_self h, hnone, Option.getD_none]
          · rw [List.zipIdx_cons, lastNumber, hj, Option.some_or]
          · have := le_of_lastNumber hj
            omega
        exact (List.dedup_cons_of_notMem hmem).symm ▸ List.pairwise_cons.mpr ⟨hhead, hrest⟩

theorem Numbered.antisymm (hab : Numbered order k a b) (hba : Numbered order k b a) : a = b := by
  obtain ⟨i, j, ha, hb, hle⟩ := hab
  obtain ⟨j', i', hb', ha', hle'⟩ := hba
  rw [hb] at hb'
  rw [ha] at ha'
  cases hb'
  cases ha'
  have hij : i = j := by omega
  exact lastNumber_inj ha (hij ▸ hb)

end

/-! ## The sorted list -/

theorem before_trans (collation : Collation) (a b c : RdpServer) (hab : RdpServer.before collation a b = true)
    (hbc : RdpServer.before collation b c = true) : RdpServer.before collation a c = true := by
  simp only [RdpServer.before, Bool.or_eq_true, Bool.and_eq_true, decide_eq_true_eq, beq_iff_eq] at *
  rcases hab with hab | ⟨hab, hname⟩ <;> rcases hbc with hbc | ⟨hbc, hname'⟩
  · exact Or.inl (Int.lt_trans hab hbc)
  · exact Or.inl (hbc ▸ hab)
  · exact Or.inl (hab ▸ hbc)
  · exact Or.inr ⟨hab.trans hbc, collation.trans _ _ _ hname hname'⟩

theorem before_total (collation : Collation) (a b : RdpServer) :
    (RdpServer.before collation a b || RdpServer.before collation b a) = true := by
  have hnames := collation.total a.techName b.techName
  simp only [RdpServer.before, Bool.or_eq_true, Bool.and_eq_true, decide_eq_true_eq, beq_iff_eq] at *
  rcases Int.lt_trichotomy a.sortOrder b.sortOrder with hlt | heq | hgt
  · exact Or.inl (Or.inl hlt)
  · exact hnames.imp (fun h => Or.inr ⟨heq, h⟩) (fun h => Or.inr ⟨heq.symm, h⟩)
  · exact Or.inr (Or.inl hgt)

theorem before_antisymm {collation : Collation} {a b : RdpServer} (hab : RdpServer.before collation a b = true)
    (hba : RdpServer.before collation b a = true) : a.sortOrder = b.sortOrder ∧ a.techName = b.techName := by
  simp only [RdpServer.before, Bool.or_eq_true, Bool.and_eq_true, decide_eq_true_eq, beq_iff_eq] at hab hba
  rcases hab with hab | ⟨hab, hname⟩ <;> rcases hba with hba | ⟨hba, hname'⟩
  · omega
  · omega
  · omega
  · exact ⟨hab, collation.antisymm _ _ hname hname'⟩

theorem listServers_perm (collation : Collation) (t : ServerTable) : (listServers collation t).Perm t.rows :=
  List.mergeSort_perm _ _

theorem listServers_sorted (collation : Collation) (t : ServerTable) :
    (listServers collation t).Pairwise fun a b => RdpServer.before collation a b = true :=
  List.pairwise_mergeSort (before_trans collation) (before_total collation) _

theorem mergeSort_filter (collation : Collation) (t : ServerTable) (keep : RdpServer → Bool) :
    (t.rows.filter keep).mergeSort (RdpServer.before collation) = (listServers collation t).filter keep := by
  apply @List.Perm.eq_of_pairwise _ fun a b => RdpServer.before collation a b = true
  · intro a b ha hb hab hba
    have hrows : ∀ r, r ∈ (listServers collation t).filter keep → r ∈ t.rows := fun r hr =>
      (listServers_perm collation t).subset (List.mem_of_mem_filter hr)
    have ha' : a ∈ t.rows := List.mem_of_mem_filter (List.mem_mergeSort.mp ha)
    exact List.inj_on_of_nodup_map t.techNames ha' (hrows b hb) (before_antisymm hab hba).2
  · exact List.pairwise_mergeSort (before_trans collation) (before_total collation) _
  · exact (listServers_sorted collation t).filter keep
  · exact (List.mergeSort_perm _ _).trans ((listServers_perm collation t).symm.filter keep)

/-! ## The list behind a reorder request -/

theorem ids_reorderLoop (t : ServerTable) (l : List (List Char × Nat)) :
    (reorderLoop t l).rows.map RdpServer.id = t.rows.map RdpServer.id := by
  rw [reorderLoop_rows, List.map_map]
  exact List.map_congr_left fun r _ => renumbered_id l r

theorem sortOrder_of_mem {t : ServerTable} {order : List (List Char)} {r : RdpServer} {i : Nat}
    (hr : r ∈ (reorderLoop t order.zipIdx).rows) (hi : lastNumber order.zipIdx r.id = some i) : r.sortOrder = i := by
  rw [reorderLoop_rows] at hr
  obtain ⟨r', _, rfl⟩ := List.mem_map.mp hr
  rw [renumbered_id] at hi
  rw [renumbered, hi]

theorem listed_numbered (collation : Collation) (t : ServerTable) (order : List (List Char)) :
    (((listServers collation (reorderLoop t order.zipIdx)).filter fun r => r.id ∈ orderIds order).map
      RdpServer.id).Pairwise (Numbered order 0) := by
  rw [List.pairwise_map]
  refine ((listServers_sorted collation _).filter _).imp_of_mem ?_
  intro a b ha hb hbefore
  have hplace : ∀ r, r ∈ (listServers collation (reorderLoop t order.zipIdx)).filter (fun r => r.id ∈ orderIds order) →
      ∃ i, lastNumber order.zipIdx r.id = some i ∧ r.sortOrder = i := by
    intro r hr
    obtain ⟨hlisted, hnamed⟩ := List.mem_filter.mp hr
    obtain ⟨i, hi⟩ := Option.isSome_iff_exists.mp ((lastNumber_isSome 0).mpr (of_decide_eq_true hnamed))
    exact ⟨i, hi, sortOrder_of_mem ((listServers_perm collation _).subset hlisted) hi⟩
  obtain ⟨i, hi, hsorti⟩ := hplace a ha
  obtain ⟨j, hj, hsortj⟩ := hplace b hb
  refine ⟨i, j, hi, hj, ?_⟩
  simp only [RdpServer.before, Bool.or_eq_true, Bool.and_eq_true, decide_eq_true_eq, beq_iff_eq] at hbefore
  omega

theorem listed_ids (collation : Collation) (t : ServerTable) (order : List (List Char)) :
    ((listServers collation (reorderLoop t order.zipIdx)).filter fun r => r.id ∈ orderIds order).map RdpServer.id =
      (orderIds order).dedup.filter fun id => id ∈ t.rows.map RdpServer.id := by
  have hids : ((listServers collation (reorderLoop t order.zipIdx)).map RdpServer.id).Perm (t.rows.map RdpServer.id) := by
    have h := (listServers_perm collation (reorderLoop t order.zipIdx)).map RdpServer.id
    rwa [ids_reorderLoop] at h
  apply @List.Perm.eq_of_pairwise _ (Numbered order 0)
  · exact fun a b _ _ => Numbered.antisymm
  · exact listed_numbered collation t order
  · exact (numbered_dedup order 0).filter _
  · rw [List.perm_ext_iff_of_nodup]
    · intro id
      simp only [List.mem_map, List.mem_filter, decide_eq_true_eq, List.mem_dedup]
      constructor
      · rintro ⟨r, ⟨hr, hnamed⟩, rfl⟩
        exact ⟨hnamed, List.mem_map.mp (hids.subset (List.mem_map_of_mem hr))⟩
      · rintro ⟨hnamed, hrow⟩
        obtain ⟨r, hr, rfl⟩ := List.mem_map.mp (hids.symm.subset (List.mem_map.mpr hrow))
        exact ⟨r, ⟨hr, hnamed⟩, rfl⟩
    · exact (hids.nodup_iff.mpr t.primaryKey).sublist (List.filter_sublist.map _)
    · exact (List.nodup_dedup _).filter _

theorem get_reorderLoop (t : ServerTable) (l : List (List Char × Nat)) (id : Uuid) :
    (reorderLoop t l).get id = (t.get id).map (renumbered l) := by
  unfold ServerTable.get
  rw [reorderLoop_rows, List.find?_map]
  simp only [Function.comp_def, renumbered_id]

theorem filterMap_get {t : ServerTable} {servers : List RdpServer} (h : ∀ s ∈ servers, s ∈ t.rows) :
    (servers.map RdpServer.id).filterMap t.get = servers := by
  induction servers with
  | nil => rfl
  | cons s servers ih =>
    obtain ⟨hs, hrest⟩ := List.forall_mem_cons.mp h
    rw [List.map_cons, List.filterMap_cons_some (ServerTable.get_of_mem hs), ih hrest]

theorem filterMap_get_filter (t : ServerTable) (ids : List Uuid) :
    (ids.filter fun id => id ∈ t.rows.map RdpServer.id).filterMap t.get = ids.filterMap t.get := by
  induction ids with
  | nil => rfl
  | cons id ids ih =>
    by_cases hid : id ∈ t.rows.map RdpServer.id
    · rw [List.filter_cons_of_pos (by simpa using hid), List.filterMap_cons, List.filterMap_cons, ih]
    · have hnone : t.get id = none := by
        rw [ServerTable.get, List.find?_eq_none]
        intro s hs hs'
        exact hid (List.mem_map.mpr ⟨s, hs, of_decide_eq_true hs'⟩)
      rw [List.filter_cons_of_neg (by simpa using hid), List.filterMap_cons_none hnone, ih]

theorem listed_servers (collation : Collation) (t : ServerTable) (order : List (List Char)) :
    (listServers collation (reorderLoop t order.zipIdx)).filter (fun r => r.id ∈ orderIds order) =
      ((orderIds order).dedup.filterMap t.get).map (renumbered order.zipIdx) := by
  have hrows : ∀ s ∈ (listServers collation (reorderLoop t order.zipIdx)).filter (fun r => r.id ∈ orderIds order),
      s ∈ (reorderLoop t order.zipIdx).rows := fun s hs =>
    (listServers_perm collation _).subset (List.mem_of_mem_filter hs)
  rw [← filterMap_get hrows, listed_ids, ← ids_reorderLoop t order.zipIdx, filterMap_get_filter, List.map_filterMap]
  exact List.filterMap_congr fun id _ => get_reorderLoop t order.zipIdx id

end RdpProxy.Admin
