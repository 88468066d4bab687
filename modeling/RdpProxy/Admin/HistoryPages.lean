import RdpProxy.Admin.AdminAccess
import RdpProxy.Admin.HistoryCsv
import RdpProxy.Lib.Paging

/-!
# The history page by page (`admin/routes/sessions.py`)

Each page is a query of its own, and the database orders it by `started_at` alone.
-/

open Paging Text

namespace RdpProxy.Admin.HistoryPages

open HistoryCsv (DateTime)

/-! ## The source -/

structure HistoryRow extends HistoryCsv.ConnectionHistory where
  serverId : Option Uuid

structure HistoryQuery where
  username : List (List Char)
  serverId : List (List Char)
  serverDisplay : Option (List Char)
  serverAddress : Option (List Char)
  status : List (List Char)
  clientIp : List (List Char)
  disconnectReason : Option (List Char)
  fromTs : Option (List Char)
  toTs : Option (List Char)
  endedFrom : Option (List Char)
  endedTo : Option (List Char)
  excludeActive : Bool

/-- `page` and `per_page`, as the route lets them through. -/
structure PageParams where
  page : Nat
  perPage : Nat
  page_range : 1 ≤ page ∧ page ≤ 10000
  perPage_range : 1 ≤ perPage ∧ perPage ≤ 200

structure HistoryItem where
  id : List Char
  instanceId : List Char
  username : List Char
  serverId : Option (List Char)
  serverDisplay : Option (List Char)
  serverAddress : List Char
  serverPort : Int
  clientIp : List Char
  startedAt : List Char
  endedAt : Option (List Char)
  bytesToClient : Int
  bytesToBackend : Int
  disconnectReason : Option (List Char)
  status : List Char

structure HistoryOut where
  items : List HistoryItem
  page : Nat
  perPage : Nat
  total : Nat

/-- `datetime.fromisoformat`, and `ILIKE` with a pattern and a text. -/
structure HistoryEnv where
  fromisoformat : List Char → Option DateTime
  ilike : List Char → List Char → Bool

/-- The microseconds of an instant, as far as they say which of two is later. -/
def instant (t : DateTime) : Nat :=
  (((((t.year * 13 + t.month) * 32 + t.day) * 24 + t.hour) * 60 + t.minute) * 60 + t.second) * 1000000 + t.microsecond

section

variable (env : HistoryEnv)

def parseDt (value : List Char) : Except HttpError DateTime :=
  match env.fromisoformat (value.flatMap fun c => if c = 'Z' then "+00:00".toList else [c]) with
  | some t => .ok t
  | none => .error ⟨400, "Invalid datetime: " ++ String.ofList value⟩

/-- `if value:` and the condition on the datetime that it is. -/
def bound (value : Option (List Char)) (holds : DateTime → HistoryRow → Bool) : Except HttpError (HistoryRow → Bool) :=
  match value.filter (· ≠ []) with
  | none => .ok fun _ => true
  | some v => (parseDt env v).map holds

/-- `%value%`, if there is one. -/
def contains (value : Option (List Char)) (column : Option (List Char)) : Bool :=
  match value.filter (· ≠ []) with
  | none => true
  | some v => column.any (env.ilike ('%' :: v ++ ['%']))

/-- A list without members asks for nothing. -/
def isIn {α : Type} [DecidableEq α] (values : List α) (column : Option α) : Bool :=
  values = [] || column.any fun a => a ∈ values

/-- The conditions of the statement, in the order in which they are added. -/
def historyWhere (q : HistoryQuery) : Except HttpError (HistoryRow → Bool) := do
  let startedFrom ← bound env q.fromTs fun t row => instant t ≤ instant row.startedAt
  let startedTo ← bound env q.toTs fun t row => instant row.startedAt ≤ instant t
  let endedFrom ← bound env q.endedFrom fun t row => row.endedAt.any fun e => instant t ≤ instant e
  let endedTo ← bound env q.endedTo fun t row => row.endedAt.any fun e => instant e ≤ instant t
  return fun row =>
    (!q.excludeActive || row.status ≠ "active".toList) && isIn q.username (some row.username) &&
    isIn (q.serverId.filterMap Uuid.parse) row.serverId && contains env q.serverDisplay row.serverDisplay &&
    contains env q.serverAddress (some row.serverAddress) && isIn q.status (some row.status) &&
    isIn q.clientIp (some row.clientIp) && contains env q.disconnectReason row.disconnectReason &&
    startedFrom row && startedTo row && endedFrom row && endedTo row

def HistoryRow.item (row : HistoryRow) : HistoryItem where
  id := row.id.str
  instanceId := row.instanceId
  username := row.username
  serverId := row.serverId.map Uuid.str
  serverDisplay := row.serverDisplay
  serverAddress := row.serverAddress
  serverPort := row.serverPort
  clientIp := row.clientIp
  startedAt := row.startedAt.isoformat
  endedAt := row.endedAt.map DateTime.isoformat
  bytesToClient := row.bytesToClient
  bytesToBackend := row.bytesToBackend
  disconnectReason := row.disconnectReason
  status := row.status

/-- One query. `order` is how the database orders it by `started_at`. -/
def sessionsHistory (rows : List HistoryRow) (order : List HistoryRow → List HistoryRow) (q : HistoryQuery)
    (p : PageParams) :
    Except HttpError HistoryOut := do
  let keep ← historyWhere env q
  let selected := order (rows.filter keep)
  return {
    items := ((selected.drop ((max p.page 1 - 1) * max p.perPage 1)).take (max 1 (min p.perPage 200))).map HistoryRow.item
    page := p.page
    perPage := p.perPage
    total := (rows.filter keep).length }

end

/-! ## The pages -/

variable {env : HistoryEnv} {rows : List HistoryRow} {q : HistoryQuery} {keep : HistoryRow → Bool} {row : HistoryRow}

def itemsOf : Except HttpError HistoryOut → List HistoryItem
  | .ok out => out.items
  | .error _ => []

def startedAt (row : HistoryRow) : Nat := instant row.startedAt

theorem sessionsHistory_eq (order : List HistoryRow → List HistoryRow) (p : PageParams)
    (h : historyWhere env q = .ok keep) :
    sessionsHistory env rows order q p = .ok ⟨(Paging.page p.perPage (p.page - 1) (order (rows.filter keep))).map
      HistoryRow.item, p.page, p.perPage, (rows.filter keep).length⟩ := by
  have hpage := p.page_range
  have hper := p.perPage_range
  rw [sessionsHistory, h, Paging.page]
  simp only [max_eq_left hpage.1, max_eq_left hper.1, min_eq_left hper.2, max_eq_right hper.1]
  rfl

theorem item_mem {l : List HistoryRow} (hids : (rows.map fun r => r.id).Nodup) (hl : ∀ r ∈ l, r ∈ rows)
    (hrow : row ∈ rows) :
    row.item ∈ l.map HistoryRow.item ↔ row ∈ l := by
  refine ⟨fun h => ?_, List.mem_map_of_mem⟩
  obtain ⟨other, hother, hitem⟩ := List.mem_map.mp h
  have hstr : other.id.str = row.id.str := congrArg HistoryItem.id hitem
  have hid : other.id = row.id := by
    have hparse := congrArg Uuid.parse hstr
    rw [Uuid.parse_str, Uuid.parse_str] at hparse
    exact Option.some_inj.mp hparse
  have hsame := List.inj_on_of_nodup_map hids (hl other hother) hrow hid
  exact hsame ▸ hother

/-- The ordering `o` for the selection `l`, and one of the others for another. -/
noncomputable def missing (l o : List HistoryRow) (selected : List HistoryRow) : List HistoryRow := by
  classical exact if selected = l then o else sorted startedAt selected

theorem missing_self (l o : List HistoryRow) : missing l o l = o := if_pos rfl

theorem missing_ordering {l o : List HistoryRow} (h : Ordering startedAt l o) (selected : List HistoryRow) :
    Ordering startedAt selected (missing l o selected) := by
  unfold missing
  split_ifs with hl
  · exact hl ▸ h
  · exact sorted_ordering selected

/-- Going through the pages one after another, one sees a connection exactly once, whatever the order in which the database
puts those that began at one instant, exactly if these are all on one page, which is among the first 10000. -/
theorem history_pages (env : HistoryEnv) (rows : List HistoryRow) (hids : (rows.map fun r => r.id).Nodup)
    (q : HistoryQuery) (keep : HistoryRow → Bool) (hkeep : historyWhere env q = .ok keep) (perPage : Nat)
    (hper : 1 ≤ perPage ∧ perPage ≤ 200)
    (row : HistoryRow) (hrow : row ∈ rows) (hkept : keep row = true) :
    (∀ order : Nat → List HistoryRow → List HistoryRow, (∀ k selected, Ordering startedAt selected (order k selected)) →
      ∃! k, ∃ hk : 1 ≤ k ∧ k ≤ 10000, row.item ∈ itemsOf (sessionsHistory env rows (order k) q ⟨k, perPage, hk, hper⟩)) ↔
    above startedAt (rows.filter keep) row / perPage = (upTo startedAt (rows.filter keep) row - 1) / perPage ∧
      above startedAt (rows.filter keep) row / perPage < 10000 := by
  have hmem : row ∈ rows.filter keep := List.mem_filter.mpr ⟨hrow, hkept⟩
  have hseen : ∀ (order : List HistoryRow → List HistoryRow) (k : Nat) (hk : 1 ≤ k ∧ k ≤ 10000),
      Ordering startedAt (rows.filter keep) (order (rows.filter keep)) →
      (row.item ∈ itemsOf (sessionsHistory env rows order q ⟨k, perPage, hk, hper⟩) ↔
        row ∈ Paging.page perPage (k - 1) (order (rows.filter keep))) := by
    intro order k hk horder
    rw [sessionsHistory_eq order _ hkeep, itemsOf]
    refine item_mem hids (fun r hr => ?_) hrow
    exact List.mem_of_mem_filter (horder.perm.mem_iff.mp (List.mem_of_mem_drop (List.mem_of_mem_take hr)))
  have hnodup : (rows.filter keep).Nodup := (List.Nodup.of_map _ hids).filter _
  have hpos : 0 < perPage := Nat.lt_of_lt_of_le Nat.zero_lt_one hper.1
  constructor
  · intro h
    have hplace : above startedAt (rows.filter keep) row / perPage =
        (upTo startedAt (rows.filter keep) row - 1) / perPage := by
      by_contra hne
      obtain ⟨o, ho, hmissed⟩ := exists_missed hnodup hmem hne
      obtain ⟨k, ⟨hk, hitem⟩, _⟩ := h (fun k => missing (rows.filter keep) (o (k - 1))) fun k => missing_ordering (ho (k - 1))
      rw [hseen _ _ _ (missing_ordering (ho (k - 1)) _), missing_self] at hitem
      exact hmissed (k - 1) hitem
    refine ⟨hplace, ?_⟩
    obtain ⟨k, ⟨hk, hitem⟩, _⟩ := h (fun _ => sorted startedAt) fun _ => sorted_ordering
    rw [hseen _ _ _ (sorted_ordering _), page_of_place hpos hmem hplace (sorted_ordering _)] at hitem
    omega
  · rintro ⟨hplace, hfirst⟩ order horder
    have hpage : ∀ k, row ∈ Paging.page perPage (k - 1) (order k (rows.filter keep)) ↔
        k - 1 = above startedAt (rows.filter keep) row / perPage :=
      fun k => page_of_place hpos hmem hplace (horder k (rows.filter keep)) (k - 1)
    generalize above startedAt (rows.filter keep) row / perPage = n at hpage hfirst
    refine ⟨n + 1, ⟨⟨by omega, by omega⟩, ?_⟩, ?_⟩
    · rw [hseen _ _ _ (horder _ _), hpage]
      rfl
    · rintro k ⟨hk, hitem⟩
      rw [hseen _ _ _ (horder _ _), hpage] at hitem
      omega

def sampleRow (digit second : Nat) : HistoryRow where
  id := ⟨List.replicate 32 (Uuid.lastDigit digit), List.length_replicate⟩
  instanceId := "relay-1".toList
  username := "ivan".toList
  serverDisplay := none
  serverAddress := "10.0.0.5".toList
  serverPort := 3389
  clientIp := "10.1.2.3".toList
  startedAt := ⟨2024, 5, 1, 9, 30, second, 0⟩
  endedAt := none
  bytesToClient := 0
  bytesToBackend := 0
  disconnectReason := none
  status := "closed".toList
  serverId := none

/-- The last two began at one instant. -/
def sampleRows : List HistoryRow := [sampleRow 1 30, sampleRow 2 10, sampleRow 3 10]

def sampleQuery : HistoryQuery := ⟨[], [], none, none, [], ["10.1.2.3".toList], none, none, none, none, none, true⟩

def sampleEnv : HistoryEnv := ⟨fun _ => none, fun _ _ => true⟩

def sampleKeep : HistoryRow → Bool := ((historyWhere sampleEnv sampleQuery).toOption).getD fun _ => false

theorem ties_on_two_pages :
    (∀ order : Nat → List HistoryRow → List HistoryRow, (∀ k selected, Ordering startedAt selected (order k selected)) →
      ∃! k, ∃ hk : 1 ≤ k ∧ k ≤ 10000, (sampleRow 2 10).item ∈
        itemsOf (sessionsHistory sampleEnv sampleRows (order k) sampleQuery ⟨k, 2, hk, by decide⟩)) ↔
    above startedAt (sampleRows.filter sampleKeep) (sampleRow 2 10) / 2 =
        (upTo startedAt (sampleRows.filter sampleKeep) (sampleRow 2 10) - 1) / 2 ∧
      above startedAt (sampleRows.filter sampleKeep) (sampleRow 2 10) / 2 < 10000 :=
  history_pages sampleEnv sampleRows (by decide) sampleQuery sampleKeep rfl 2 (by decide) (sampleRow 2 10)
    (List.mem_cons_of_mem _ List.mem_cons_self) rfl

end RdpProxy.Admin.HistoryPages
