import Mathlib.Tactic.Common

/-!
# A reader of comma-separated values (RFC 4180)

A field is bare or stands in quotes, and a quote within quotes is written twice. A record ends at a
line end outside quotes, which may be missing behind the last one.
-/

namespace Csv

abbrev Record := List (List Char)

/-- What is still to come: the rest of a field, the fields behind it in its record, and the records behind that one. -/
structure Tail where
  field : List Char
  fields : Record
  records : List Record

def Tail.push (c : Char) (t : Tail) : Tail := { t with field := c :: t.field }

def Tail.nextField (t : Tail) : Tail := ⟨[], t.field :: t.fields, t.records⟩

def Tail.nextRecord (t : Tail) : Tail := ⟨[], [], (t.field :: t.fields) :: t.records⟩

/-- `closed` is behind a quote within quotes, and `cr` behind a carriage return outside them. -/
inductive Mode where
  | start
  | bare
  | quoted
  | closed
  | cr
  deriving DecidableEq

def read : Mode → List Char → Option Tail
  | .quoted, [] => none
  | .cr, [] => none
  | _, [] => some ⟨[], [], []⟩
  | mode, c :: rest =>
    if mode = .quoted then if c = '"' then read .closed rest else (read .quoted rest).map (Tail.push c)
    else if mode ≠ .cr ∧ c = '"' then
      if mode = .start then read .quoted rest
      else if mode = .closed then (read .quoted rest).map (Tail.push '"')
      else none
    else if c = '\n' then if rest = [] then some ⟨[], [], []⟩ else (read .start rest).map Tail.nextRecord
    else if mode = .cr then none
    else if c = ',' then (read .start rest).map Tail.nextField
    else if c = '\r' then read .cr rest
    else if mode = .closed then none
    else (read .bare rest).map (Tail.push c)

/-- The records of a text, where it is well formed. -/
def parse (text : List Char) : Option (List Record) :=
  if text = [] then some [] else (read .start text).map fun t => (t.field :: t.fields) :: t.records

/-! ## Steps of the reader -/

variable {c : Char} {mode : Mode} (rest : List Char)

/-- The modes in which a field may end. -/
def Mode.CanEnd (mode : Mode) : Prop := mode = .start ∨ mode = .bare ∨ mode = .closed

theorem read_quoted (hc : c ≠ '"') : read .quoted (c :: rest) = (read .quoted rest).map (Tail.push c) := by
  rw [read, if_pos rfl, if_neg hc]

theorem read_start_quote : read .start ('"' :: rest) = read .quoted rest := rfl

theorem read_bare (hmode : mode = .start ∨ mode = .bare) (hc : c ≠ '"' ∧ c ≠ ',' ∧ c ≠ '\n' ∧ c ≠ '\r') :
    read mode (c :: rest) = (read .bare rest).map (Tail.push c) := by
  obtain ⟨hquote, hcomma, hlf, hcr⟩ := hc
  rcases hmode with rfl | rfl
  · rw [read, if_neg (by decide), if_neg (by simp [hquote]), if_neg hlf, if_neg (by decide), if_neg hcomma,
      if_neg hcr, if_neg (by decide)]
  · rw [read, if_neg (by decide), if_neg (by simp [hquote]), if_neg hlf, if_neg (by decide), if_neg hcomma,
      if_neg hcr, if_neg (by decide)]

theorem read_comma (hmode : mode.CanEnd) : read mode (',' :: rest) = (read .start rest).map Tail.nextField := by
  rcases hmode with rfl | rfl | rfl <;> rfl

/-! ## Behind a field -/

/-- The records behind the current one, where it ends here. -/
def behind : List Char → Option (List Record)
  | [] => some []
  | c :: rest => if c = '\n' then parse rest else none

theorem read_behind (hmode : mode.CanEnd) {text : List Char} (h : text = [] ∨ ∃ more, text = '\n' :: more) :
    read mode text = (behind text).map fun rs => ⟨[], [], rs⟩ := by
  rcases h with rfl | ⟨more, rfl⟩
  · rcases hmode with rfl | rfl | rfl <;> rfl
  · have hread : read mode ('\n' :: more) =
        if more = [] then some ⟨[], [], []⟩ else (read .start more).map Tail.nextRecord := by
      rcases hmode with rfl | rfl | rfl <;> rfl
    rw [hread, behind, if_pos rfl, parse]
    split_ifs
    · rfl
    · rw [Option.map_map]
      rfl

/-! ## Bare fields -/

/-- A field that needs no quotes. -/
def Bare (field : List Char) : Prop := ∀ c ∈ field, c ≠ '"' ∧ c ≠ ',' ∧ c ≠ '\n' ∧ c ≠ '\r'

/-- `field` in front of what is still to come. -/
def Tail.prepend (field : List Char) (t : Tail) : Tail := { t with field := field ++ t.field }

theorem read_bareField {field : List Char} (h : Bare field) (hmode : mode = .start ∨ mode = .bare) {next : Option Tail}
    (hrest : ∀ mode : Mode, mode.CanEnd → read mode rest = next) :
    read mode (field ++ rest) = next.map (Tail.prepend field) := by
  induction field generalizing mode with
  | nil =>
    rw [List.nil_append, hrest mode (by rcases hmode with rfl | rfl <;> simp [Mode.CanEnd])]
    exact Option.map_id'.symm
  | cons c field ih =>
    rw [List.cons_append, read_bare _ hmode (h c List.mem_cons_self),
      ih (fun d hd => h d (List.mem_cons_of_mem _ hd)) (Or.inr rfl), Option.map_map]
    rfl

theorem read_bareFields {text : List Char} (htext : text = [] ∨ ∃ more, text = '\n' :: more) (field : List Char)
    (fields : Record) (h : ∀ f ∈ field :: fields, Bare f) :
    read .start ([','].intercalate (field :: fields) ++ text) = (behind text).map fun rs => ⟨field, fields, rs⟩ := by
  induction fields generalizing field with
  | nil =>
    have hread := read_bareField text (h field List.mem_cons_self) (Or.inl rfl) fun mode hmode => read_behind hmode htext
    rw [List.intercalate_singleton, hread, Option.map_map]
    congr 1
    funext rs
    simp [Tail.prepend]
  | cons next fields ih =>
    have hnext := ih next fun f hf => h f (List.mem_cons_of_mem _ hf)
    have hread := read_bareField (',' :: ([','].intercalate (next :: fields) ++ text)) (h field List.mem_cons_self)
      (Or.inl rfl) fun mode hmode => read_comma _ hmode
    rw [List.intercalate_cons_cons, List.append_assoc, List.append_assoc, List.singleton_append, hread, hnext,
      Option.map_map, Option.map_map]
    congr 1
    funext rs
    simp [Tail.prepend, Tail.nextField]

end Csv
