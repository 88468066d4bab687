import RdpProxy.Lib.Csv
import RdpProxy.Lib.JsonText

/-!
# The history as CSV (`admin/routes/sessions.py`)

Every field is written by `json.dumps`, which puts it in quotes as CSV does and escapes what is in it
as CSV does not.
-/

open Text JsonText

namespace RdpProxy.Admin.HistoryCsv

/-! ## The source -/

/-- A `datetime` in UTC, as the database gives it. -/
structure DateTime where
  year : Nat
  month : Nat
  day : Nat
  hour : Nat
  minute : Nat
  second : Nat
  microsecond : Nat
  deriving DecidableEq

/-- `format(n, "0<width>d")` -/
def padded (width n : Nat) : List Char := List.replicate (width - (decimal n).length) '0' ++ decimal n

def DateTime.isoformat (t : DateTime) : List Char :=
  padded 4 t.year ++ '-' :: (padded 2 t.month ++ '-' :: (padded 2 t.day ++ 'T' :: (padded 2 t.hour ++
    ':' :: (padded 2 t.minute ++ ':' :: (padded 2 t.second ++
      ((if t.microsecond = 0 then [] else '.' :: padded 6 t.microsecond) ++ ['+', '0', '0', ':', '0', '0']))))))

structure ConnectionHistory where
  id : Uuid
  instanceId : List Char
  username : List Char
  serverDisplay : Option (List Char)
  serverAddress : List Char
  serverPort : Int
  clientIp : List Char
  startedAt : DateTime
  endedAt : Option DateTime
  bytesToClient : Int
  bytesToBackend : Int
  disconnectReason : Option (List Char)
  status : List Char

def cols : List (List Char) :=
  ["id".toList, "instance_id".toList, "username".toList, "server_display".toList, "server_address".toList,
    "server_port".toList, "client_ip".toList, "started_at".toList, "ended_at".toList, "bytes_to_client".toList,
    "bytes_to_backend".toList, "disconnect_reason".toList, "status".toList]

/-- The `row` of a connection. Neither `0` nor `""` is true, and each is replaced by itself. -/
def ConnectionHistory.row (r : ConnectionHistory) : List (List Char) :=
  [r.id.str, r.instanceId, r.username, r.serverDisplay.getD [], r.serverAddress, intText r.serverPort, r.clientIp,
    r.startedAt.isoformat, (r.endedAt.map DateTime.isoformat).getD [], intText r.bytesToClient,
    intText r.bytesToBackend, r.disconnectReason.getD [], r.status]

/-- `",".join(json.dumps(v, ensure_ascii=False) for v in row)` -/
def rowLine (row : List (List Char)) : List Char := [','].intercalate (row.map (quote false))

/-- The text that is returned for the rows of the query. -/
def sessionsHistoryCsv (rows : List ConnectionHistory) : List Char :=
  ['\n'].intercalate ([','].intercalate cols :: rows.map fun r => rowLine r.row)

/-! ## One field -/

/-- Text in which `json.dumps` escapes nothing. -/
def Plain (v : List Char) : Prop := ∀ c ∈ v, c ≠ '"' ∧ c ≠ '\\' ∧ 0x20 ≤ c.toNat

theorem plain_cons {c : Char} {v : List Char} : Plain (c :: v) ↔ (c ≠ '"' ∧ c ≠ '\\' ∧ 0x20 ≤ c.toNat) ∧ Plain v :=
  List.forall_mem_cons

theorem plain_of_all {v : List Char} (h : (v.all fun c => c != '"' && c != '\\' && decide (0x20 ≤ c.toNat)) = true) :
    Plain v := by
  intro c hc
  have hchar := List.all_eq_true.mp h c hc
  simp only [Bool.and_eq_true, bne_iff_ne, decide_eq_true_eq] at hchar
  exact ⟨hchar.1.1, hchar.1.2, hchar.2⟩

theorem escapeChar_plain {c : Char} (h : c ≠ '"' ∧ c ≠ '\\' ∧ 0x20 ≤ c.toNat) : escapeChar false c = [c] := by
  obtain ⟨hquote, hslash, hctl⟩ := h
  unfold escapeChar
  simp only
  rw [if_neg hquote, if_neg hslash, if_neg (by omega), if_neg (by omega), if_neg (by omega), if_neg (by omega),
    if_neg (by omega), if_neg (by omega), if_neg (by simp)]

theorem escapeChar_escaped {c : Char} (h : ¬ (c ≠ '"' ∧ c ≠ '\\' ∧ 0x20 ≤ c.toNat)) :
    ∃ more, escapeChar false c = '\\' :: more :=
  (escaped_escapeChar false c).head.resolve_left fun hplain => h hplain.1

theorem body_cons (c : Char) (v : List Char) : body false (c :: v) = escapeChar false c ++ body false v := rfl

theorem read_plain {v : List Char} (h : Plain v) (rest : List Char) :
    Csv.read .quoted (body false v ++ '"' :: rest) = (Csv.read .closed rest).map (Csv.Tail.prepend v) := by
  induction v with
  | nil => exact Option.map_id'.symm
  | cons c v ih =>
    obtain ⟨hc, hv⟩ := plain_cons.mp h
    rw [body_cons, escapeChar_plain hc, List.singleton_append, List.cons_append, Csv.read_quoted _ hc.1, ih hv,
      Option.map_map]
    rfl

theorem exists_of_read_quoted {c : Char} {rest : List Char} {t : Csv.Tail} (hc : c ≠ '"')
    (h : Csv.read .quoted (c :: rest) = some t) : ∃ t', Csv.read .quoted rest = some t' ∧ t.field = c :: t'.field := by
  rw [Csv.read_quoted _ hc, Option.map_eq_some_iff] at h
  obtain ⟨t', ht', rfl⟩ := h
  exact ⟨t', ht', rfl⟩

/-- With backslashes in front of it no field is read as its own value: its first character would be a
backslash, which is written twice. -/
theorem backslashes_never {v rest : List Char} {t : Csv.Tail} (n : Nat)
    (h : Csv.read .quoted (body false v ++ '"' :: rest) = some t) : List.replicate (n + 1) '\\' ++ t.field ≠ v := by
  induction v generalizing n t with
  | nil => simp [List.replicate_succ]
  | cons c v ih =>
    intro heq
    rw [List.replicate_succ, List.cons_append, List.cons.injEq] at heq
    obtain ⟨rfl, heq⟩ := heq
    have hbody : body false ('\\' :: v) ++ '"' :: rest = '\\' :: '\\' :: (body false v ++ '"' :: rest) := rfl
    rw [hbody] at h
    obtain ⟨t', h', hfield⟩ := exists_of_read_quoted (by decide) h
    obtain ⟨t'', h'', hfield'⟩ := exists_of_read_quoted (by decide) h'
    refine ih (n + 1) h'' ?_
    rw [← heq, hfield, hfield']
    simp [List.replicate_succ', List.append_assoc]

theorem plain_of_read {v rest : List Char} {t : Csv.Tail}
    (h : Csv.read .quoted (body false v ++ '"' :: rest) = some t) (hv : t.field = v) : Plain v := by
  induction v generalizing t with
  | nil => simp [Plain]
  | cons c v ih =>
    by_cases hc : c ≠ '"' ∧ c ≠ '\\' ∧ 0x20 ≤ c.toNat
    · rw [body_cons, escapeChar_plain hc, List.singleton_append, List.cons_append] at h
      obtain ⟨t', h', hfield⟩ := exists_of_read_quoted hc.1 h
      rw [hfield, List.cons.injEq] at hv
      exact plain_cons.mpr ⟨hc, ih h' hv.2⟩
    · obtain ⟨more, hmore⟩ := escapeChar_escaped hc
      have htext := h
      rw [body_cons, hmore, List.cons_append, List.cons_append] at h
      obtain ⟨t', h', hfield⟩ := exists_of_read_quoted (by decide) h
      rw [hfield, List.cons.injEq] at hv
      obtain ⟨rfl, hv⟩ := hv
      -- A backslash is written as two, and what follows them would have to begin with one more.
      have hbody : body false ('\\' :: v) ++ '"' :: rest = '\\' :: '\\' :: (body false v ++ '"' :: rest) := rfl
      rw [hbody] at htext
      obtain ⟨u, hu, hufield⟩ := exists_of_read_quoted (by decide) htext
      obtain ⟨u', hu', hufield'⟩ := exists_of_read_quoted (by decide) hu
      refine absurd ?_ (backslashes_never 0 hu')
      rw [hfield, List.cons.injEq] at hufield
      rw [← hv, hufield.2, hufield']
      rfl

/-! ## One row -/

theorem quote_append (v rest : List Char) : quote false v ++ rest = '"' :: (body false v ++ '"' :: rest) := by
  simp [quote]

theorem rowLine_singleton (v rest : List Char) : rowLine [v] ++ rest = '"' :: (body false v ++ '"' :: rest) := by
  rw [rowLine, List.map_singleton, List.intercalate_singleton, quote_append]

theorem rowLine_cons (v w : List Char) (vs : List (List Char)) (rest : List Char) :
    rowLine (v :: w :: vs) ++ rest = '"' :: (body false v ++ '"' :: ',' :: (rowLine (w :: vs) ++ rest)) := by
  unfold rowLine
  rw [List.map_cons, List.map_cons, List.intercalate_cons_cons, List.append_assoc, List.append_assoc, quote_append]
  rfl

theorem read_rowLine {text : List Char} (htext : text = [] ∨ ∃ more, text = '\n' :: more) (v : List Char)
    (vs : List (List Char)) (h : ∀ f ∈ v :: vs, Plain f) :
    Csv.read .start (rowLine (v :: vs) ++ text) = (Csv.behind text).map fun rs => ⟨v, vs, rs⟩ := by
  induction vs generalizing v with
  | nil =>
    rw [rowLine_singleton, Csv.read_start_quote, read_plain (h v List.mem_cons_self),
      Csv.read_behind (by simp [Csv.Mode.CanEnd]) htext, Option.map_map]
    congr 1
    funext rs
    simp [Csv.Tail.prepend]
  | cons w vs ih =>
    rw [rowLine_cons, Csv.read_start_quote, read_plain (h v List.mem_cons_self),
      Csv.read_comma _ (by simp [Csv.Mode.CanEnd]), ih w fun f hf => h f (List.mem_cons_of_mem _ hf), Option.map_map,
      Option.map_map]
    congr 1
    funext rs
    simp [Csv.Tail.prepend, Csv.Tail.nextField]

theorem plain_of_read_rowLine {text : List Char} (v : List Char) (vs : List (List Char)) {rs : List Csv.Record}
    (h : Csv.read .start (rowLine (v :: vs) ++ text) = some ⟨v, vs, rs⟩) : ∀ f ∈ v :: vs, Plain f := by
  induction vs generalizing v rs with
  | nil =>
    rw [rowLine_singleton, Csv.read_start_quote] at h
    intro f hf
    rw [List.mem_singleton.mp hf]
    exact plain_of_read h rfl
  | cons w vs ih =>
    rw [rowLine_cons, Csv.read_start_quote] at h
    have hv : Plain v := plain_of_read h rfl
    -- The fields behind it are read from behind its comma.
    rw [read_plain hv, Csv.read_comma _ (by simp [Csv.Mode.CanEnd]), Option.map_map, Option.map_eq_some_iff] at h
    obtain ⟨t, ht, heq⟩ := h
    simp only [Function.comp_apply, Csv.Tail.prepend, Csv.Tail.nextField, List.append_nil, Csv.Tail.mk.injEq, true_and,
      List.cons.injEq] at heq
    obtain ⟨⟨hw, hvs⟩, hrs⟩ := heq
    have hnext : t = ⟨w, vs, t.records⟩ := by
      cases t
      simp only at hw hvs
      rw [hw, hvs]
    rw [hnext] at ht
    intro f hf
    rcases List.mem_cons.mp hf with rfl | hf
    · exact hv
    · exact ih w ht f hf

theorem rowLine_ne_nil (v : List Char) (vs : List (List Char)) (text : List Char) : rowLine (v :: vs) ++ text ≠ [] := by
  cases vs with
  | nil => simp [rowLine_singleton]
  | cons w vs => simp [rowLine_cons]

/-! ## All rows -/

/-- The lines behind the first one, each behind a line end. -/
def linesText (rows : List (List (List Char))) : List Char := rows.flatMap fun row => '\n' :: rowLine row

theorem linesText_cons (row : List (List Char)) (rows : List (List (List Char))) :
    linesText (row :: rows) = '\n' :: (rowLine row ++ linesText rows) := rfl

theorem linesText_cases (rows : List (List (List Char))) : linesText rows = [] ∨ ∃ more, linesText rows = '\n' :: more := by
  cases rows with
  | nil => exact Or.inl rfl
  | cons row rows => exact Or.inr ⟨_, rfl⟩

theorem behind_linesText (rows : List (List (List Char))) (hne : ∀ row ∈ rows, row ≠ []) :
    Csv.behind (linesText rows) = some rows ↔ ∀ row ∈ rows, ∀ v ∈ row, Plain v := by
  induction rows with
  | nil => simp [linesText, Csv.behind]
  | cons row rows ih =>
    have hrest := ih fun r hr => hne r (List.mem_cons_of_mem _ hr)
    obtain ⟨v, vs, rfl⟩ : ∃ v vs, row = v :: vs := List.exists_cons_of_ne_nil (hne row List.mem_cons_self)
    rw [linesText_cons, Csv.behind, if_pos rfl, Csv.parse, if_neg (rowLine_ne_nil v vs _), List.forall_mem_cons, ← hrest]
    constructor
    · intro h
      obtain ⟨t, ht, heq⟩ := Option.map_eq_some_iff.mp h
      rw [List.cons.injEq, List.cons.injEq] at heq
      obtain ⟨⟨hv, hvs⟩, hrecords⟩ := heq
      have htail : t = ⟨v, vs, rows⟩ := by
        cases t
        simp only at hv hvs hrecords
        rw [hv, hvs, hrecords]
      have hplain := plain_of_read_rowLine v vs (htail ▸ ht)
      rw [read_rowLine (linesText_cases rows) v vs hplain, htail] at ht
      obtain ⟨rs, hrs, hsame⟩ := Option.map_eq_some_iff.mp ht
      simp only [Csv.Tail.mk.injEq, true_and] at hsame
      exact ⟨hplain, hsame ▸ hrs⟩
    · rintro ⟨hplain, hrows⟩
      rw [read_rowLine (linesText_cases rows) v vs hplain, hrows]
      rfl

/-! ## The columns that are always plain -/

theorem plain_append {v w : List Char} (hv : Plain v) (hw : Plain w) : Plain (v ++ w) := by
  intro c hc
  rcases List.mem_append.mp hc with hc | hc
  · exact hv c hc
  · exact hw c hc

theorem plain_of_isDigit {v : List Char} (h : ∀ c ∈ v, c.isDigit = true) : Plain v := by
  intro c hc
  have hdigit := h c hc
  obtain ⟨hlo, _⟩ := toNat_of_isDigit hdigit
  exact ⟨ne_of_isDigit hdigit rfl, ne_of_isDigit hdigit rfl, by omega⟩

theorem plain_decimal (n : Nat) : Plain (decimal n) := plain_of_isDigit fun _ => isDigit_of_mem_decimal

theorem plain_intText (n : Int) : Plain (intText n) := by
  unfold intText
  split_ifs
  · exact plain_cons.mpr ⟨by decide, plain_decimal _⟩
  · exact plain_decimal _

theorem plain_padded (width n : Nat) : Plain (padded width n) := by
  refine plain_append (plain_of_isDigit fun c hc => ?_) (plain_decimal n)
  rw [List.eq_of_mem_replicate hc]
  rfl

theorem plain_isoformat (t : DateTime) : Plain t.isoformat := by
  have hsep : ∀ {c : Char} {v : List Char}, (c ≠ '"' ∧ c ≠ '\\' ∧ 0x20 ≤ c.toNat) → Plain v → Plain (c :: v) :=
    fun hc hv => plain_cons.mpr ⟨hc, hv⟩
  have hend : Plain ((if t.microsecond = 0 then [] else '.' :: padded 6 t.microsecond) ++
      ['+', '0', '0', ':', '0', '0']) := by
    refine plain_append ?_ (plain_of_all (by decide))
    split_ifs
    · simp [Plain]
    · exact hsep (by decide) (plain_padded 6 t.microsecond)
  unfold DateTime.isoformat
  refine plain_append (plain_padded 4 t.year) (hsep (by decide) ?_)
  refine plain_append (plain_padded 2 t.month) (hsep (by decide) ?_)
  refine plain_append (plain_padded 2 t.day) (hsep (by decide) ?_)
  refine plain_append (plain_padded 2 t.hour) (hsep (by decide) ?_)
  refine plain_append (plain_padded 2 t.minute) (hsep (by decide) ?_)
  exact plain_append (plain_padded 2 t.second) hend

theorem plain_hexChar (d : Fin 16) : Uuid.hexChar d ≠ '"' ∧ Uuid.hexChar d ≠ '\\' ∧ 0x20 ≤ (Uuid.hexChar d).toNat := by
  revert d
  decide

theorem plain_uuid (u : Uuid) : Plain u.str := by
  intro c hc
  rcases Uuid.mem_str hc with rfl | ⟨d, rfl⟩
  · decide
  · exact plain_hexChar d

/-- The columns of text. -/
def ConnectionHistory.texts (r : ConnectionHistory) : List (List Char) :=
  [r.instanceId, r.username, r.serverDisplay.getD [], r.serverAddress, r.clientIp, r.disconnectReason.getD [], r.status]

theorem plain_row_iff (r : ConnectionHistory) : (∀ v ∈ r.row, Plain v) ↔ ∀ v ∈ r.texts, Plain v := by
  have hended : Plain ((r.endedAt.map DateTime.isoformat).getD []) := by
    cases r.endedAt with
    | none => simp [Plain]
    | some t => exact plain_isoformat t
  simp only [ConnectionHistory.row, ConnectionHistory.texts, List.forall_mem_cons, List.not_mem_nil, false_imp_iff,
    implies_true, plain_uuid, plain_intText, plain_isoformat, hended, true_and, and_true]

/-! ## The text -/

theorem bare_cols : ∀ col ∈ cols, Csv.Bare col := by
  have hcols : (cols.all fun col => col.all fun c => c != '"' && c != ',' && c != '\n' && c != '\r') = true := by decide
  intro col hcol c hc
  have hchar := List.all_eq_true.mp (List.all_eq_true.mp hcols col hcol) c hc
  simp only [Bool.and_eq_true, bne_iff_ne] at hchar
  exact ⟨hchar.1.1.1, hchar.1.1.2, hchar.1.2, hchar.2⟩

theorem sessionsHistoryCsv_eq (rows : List ConnectionHistory) : sessionsHistoryCsv rows =
    [','].intercalate cols ++ linesText (rows.map ConnectionHistory.row) := by
  have hlines : ∀ (first : List Char) (others : List (List Char)),
      ['\n'].intercalate (first :: others) = first ++ others.flatMap fun line => '\n' :: line := by
    intro first others
    induction others generalizing first with
    | nil => simp
    | cons line others ih =>
      rw [List.intercalate_cons_cons, ih]
      simp
  rw [sessionsHistoryCsv, hlines]
  simp [linesText, List.flatMap_map]

/-- Read as CSV the text gives the rows back exactly where `json.dumps` had nothing to escape in them. -/
theorem history_csv_read_back_iff (rows : List ConnectionHistory) :
    Csv.parse (sessionsHistoryCsv rows) = some (cols :: rows.map ConnectionHistory.row) ↔
      ∀ r ∈ rows, ∀ v ∈ r.texts, Plain v := by
  have hrows := behind_linesText (rows.map ConnectionHistory.row) (by
    intro row hrow
    obtain ⟨r, _, rfl⟩ := List.mem_map.mp hrow
    exact List.cons_ne_nil _ _)
  simp only [List.forall_mem_map, plain_row_iff] at hrows
  have hread := Csv.read_bareFields (linesText_cases (rows.map ConnectionHistory.row)) "id".toList cols.tail bare_cols
  have hne : sessionsHistoryCsv rows ≠ [] := by
    rw [sessionsHistoryCsv_eq]
    exact List.append_ne_nil_of_left_ne_nil (by decide) _
  rw [← hrows, Csv.parse, if_neg hne, sessionsHistoryCsv_eq]
  rw [show [','].intercalate cols = [','].intercalate ("id".toList :: cols.tail) from rfl, hread, Option.map_map]
  cases Csv.behind (linesText (rows.map ConnectionHistory.row)) with
  | none => simp
  | some rs => simp [cols]

/-- A connection of `alice` to a server with that display name. -/
def connectionTo (display : String) : ConnectionHistory where
  id := ⟨List.replicate 32 (Uuid.lastDigit 11), by decide⟩
  instanceId := "relay-1".toList
  username := "alice".toList
  serverDisplay := some display.toList
  serverAddress := "10.0.0.5".toList
  serverPort := 3389
  clientIp := "203.0.113.9".toList
  startedAt := ⟨2024, 5, 1, 9, 30, 0, 0⟩
  endedAt := none
  bytesToClient := 1024
  bytesToBackend := 0
  disconnectReason := none
  status := "active".toList

/-- The quotes of the name end its field, and what follows is no CSV. -/
theorem quoted_name_unreadable :
    Csv.parse (sessionsHistoryCsv [connectionTo "Lab \"A\""]) ≠ some (cols :: [(connectionTo "Lab \"A\"").row]) := by
  decide +kernel

example : Csv.parse (sessionsHistoryCsv [connectionTo "Lab, A"]) = some [cols, (connectionTo "Lab, A").row] := by
  decide +kernel

end RdpProxy.Admin.HistoryCsv
