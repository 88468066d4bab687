import Mathlib.Data.List.TakeWhile
import Mathlib.Tactic.Common

/-!
# The lines of a text file

What a text file opened for reading gives, and its lines as iteration over it gives them: each with its `'\n'`, but
for a last one that is not ended.
-/

namespace TextFile

/-- Every line ending is read as `'\n'`. The flag says that the character before was a carriage return. -/
def universalFrom : Bool → List Char → List Char
  | _, [] => []
  | afterCr, c :: rest =>
    if c = '\r' then '\n' :: universalFrom true rest
    else if c = '\n' ∧ afterCr = true then universalFrom false rest
    else c :: universalFrom false rest

def universal (s : List Char) : List Char := universalFrom false s

def fileLines : List Char → List (List Char)
  | [] => []
  | c :: rest =>
    if c = '\n' then ['\n'] :: fileLines rest
    else
      match fileLines rest with
      | [] => [[c]]
      | line :: others => (c :: line) :: others

/-- A line with its end. -/
def Ended (line : List Char) : Prop := ∃ body, '\n' ∉ body ∧ line = body ++ ['\n']

/-- A line that lacks its end. -/
def Open (line : List Char) : Prop := line ≠ [] ∧ '\n' ∉ line

/-- What the lines of a text look like. -/
def AreLines : List (List Char) → Prop
  | [] => True
  | [line] => Ended line ∨ Open line
  | line :: next :: others => Ended line ∧ AreLines (next :: others)

/-- The text is empty or ends a line. -/
def Complete (s : List Char) : Prop := s = [] ∨ s.getLast? = some '\n' ∨ s.getLast? = some '\r'

instance (s : List Char) : Decidable (Complete s) := inferInstanceAs (Decidable (_ ∨ _))

variable {s line : List Char} {ls : List (List Char)}

/-! ## Line endings -/

theorem cr_notMem_universalFrom (afterCr : Bool) (s : List Char) : '\r' ∉ universalFrom afterCr s := by
  induction s generalizing afterCr with
  | nil => simp [universalFrom]
  | cons c rest ih =>
    unfold universalFrom
    split_ifs with hcr hlf
    · simp [ih]
    · exact ih false
    · simp [ih, Ne.symm hcr]

theorem cr_notMem_universal (s : List Char) : '\r' ∉ universal s := cr_notMem_universalFrom false s

theorem universal_eq_self (h : '\r' ∉ s) : universal s = s := by
  unfold universal
  induction s with
  | nil => rfl
  | cons c rest ih =>
    simp only [List.mem_cons, not_or] at h
    unfold universalFrom
    rw [if_neg (Ne.symm h.1), if_neg (by simp), ih h.2]

theorem universalFrom_cons (afterCr : Bool) (c : Char) (rest : List Char) :
    universalFrom afterCr (c :: rest) =
      if c = '\r' then '\n' :: universalFrom true rest
      else if c = '\n' ∧ afterCr = true then universalFrom false rest
      else c :: universalFrom false rest := rfl

theorem universalFrom_concat (afterCr : Bool) (s : List Char) (c : Char) :
    universalFrom afterCr (s ++ [c]) =
      universalFrom afterCr s ++ universalFrom (s.getLast?.elim afterCr (· == '\r')) [c] := by
  induction s generalizing afterCr with
  | nil => rfl
  | cons d rest ih =>
    have hlast : (d :: rest).getLast?.elim afterCr (· == '\r') = rest.getLast?.elim (d == '\r') (· == '\r') := by
      rw [List.getLast?_cons]
      rcases rest.getLast? with _ | e
      · rfl
      · rfl
    rw [hlast, List.cons_append]
    simp only [universalFrom_cons afterCr d, ih]
    split_ifs with hcr hlf
    · rw [hcr]
      rfl
    · rw [beq_eq_false_iff_ne.mpr hcr]
    · rw [beq_eq_false_iff_ne.mpr hcr]
      rfl

theorem universal_cr (s : List Char) : (universal (s ++ ['\r'])).getLast? = some '\n' := by
  unfold universal
  rw [universalFrom_concat]
  simp [universalFrom]

theorem universal_lf (s : List Char) : (universal (s ++ ['\n'])).getLast? = some '\n' := by
  rcases List.eq_nil_or_concat s with rfl | ⟨front, c, rfl⟩
  · rfl
  · rw [List.concat_eq_append]
    by_cases hc : c = '\r'
    · have hcr := universal_cr front
      rw [hc]
      unfold universal at hcr ⊢
      rw [universalFrom_concat]
      simpa [universalFrom] using hcr
    · unfold universal
      rw [universalFrom_concat]
      simp [universalFrom, hc]

theorem universal_other (s : List Char) {c : Char} (hcr : c ≠ '\r') (hlf : c ≠ '\n') :
    (universal (s ++ [c])).getLast? = some c := by
  unfold universal
  rw [universalFrom_concat]
  simp [universalFrom, hcr, hlf]

theorem complete_universal (s : List Char) : Complete (universal s) ↔ Complete s := by
  have hlast : ∀ {s : List Char} {c : Char}, s.getLast? = some c → (Complete s ↔ c = '\n' ∨ c = '\r') := by
    intro s c hc
    unfold Complete
    rw [hc]
    have hne : s ≠ [] := by
      rintro rfl
      cases hc
    simp [hne]
  rcases List.eq_nil_or_concat s with rfl | ⟨front, c, rfl⟩
  · rfl
  · rw [List.concat_eq_append, hlast List.getLast?_concat]
    by_cases hcr : c = '\r'
    · rw [hcr, hlast (universal_cr front)]
      simp
    · by_cases hlf : c = '\n'
      · rw [hlf, hlast (universal_lf front)]
      · rw [hlast (universal_other front hcr hlf)]

/-! ## Lines -/

theorem fileLines_cons (c : Char) (rest : List Char) :
    fileLines (c :: rest) =
      if c = '\n' then ['\n'] :: fileLines rest
      else
        match fileLines rest with
        | [] => [[c]]
        | line :: others => (c :: line) :: others := rfl

theorem flatten_fileLines (s : List Char) : (fileLines s).flatten = s := by
  induction s with
  | nil => rfl
  | cons c rest ih =>
    rw [fileLines_cons]
    split_ifs with hc
    · rw [List.flatten_cons, ih, hc]
      rfl
    · rcases hrest : fileLines rest with _ | ⟨line, others⟩
      · rw [hrest] at ih
        simpa using ih
      · rw [hrest] at ih
        dsimp only
        rw [List.flatten_cons, List.cons_append, ← List.flatten_cons, ih]

theorem fileLines_open (h : Open line) : fileLines line = [line] := by
  obtain ⟨hne, hplain⟩ := h
  induction line with
  | nil => exact absurd rfl hne
  | cons c rest ih =>
    simp only [List.mem_cons, not_or] at hplain
    rw [fileLines_cons, if_neg (Ne.symm hplain.1)]
    rcases rest with _ | ⟨d, rest⟩
    · rfl
    · rw [ih (by simp) hplain.2]

theorem fileLines_ended_append (h : Ended line) (s : List Char) : fileLines (line ++ s) = line :: fileLines s := by
  obtain ⟨body, hplain, rfl⟩ := h
  induction body with
  | nil => rfl
  | cons c rest ih =>
    simp only [List.mem_cons, not_or] at hplain
    rw [List.cons_append, List.cons_append, fileLines_cons, if_neg (Ne.symm hplain.1), ih hplain.2]

theorem fileLines_flatten (h : AreLines ls) : fileLines ls.flatten = ls := by
  induction ls with
  | nil => rfl
  | cons line others ih =>
    rcases others with _ | ⟨next, others⟩
    · rcases h with hended | hopen
      · rw [List.flatten_cons, fileLines_ended_append hended]
        rfl
      · rw [List.flatten_singleton, fileLines_open hopen]
    · rw [List.flatten_cons, fileLines_ended_append h.1, ih h.2]

theorem AreLines.cons_ended (hline : Ended line) (h : AreLines ls) : AreLines (line :: ls) := by
  rcases ls with _ | ⟨next, others⟩
  · exact .inl hline
  · exact ⟨hline, h⟩

theorem areLines_of_ended (h : ∀ l ∈ ls, Ended l) : AreLines ls := by
  induction ls with
  | nil => trivial
  | cons line others ih =>
    exact .cons_ended (h line (by simp)) (ih fun l hl => h l (List.mem_cons_of_mem _ hl))

theorem areLines_concat_open (h : ∀ l ∈ ls, Ended l) (hopen : Open line) : AreLines (ls ++ [line]) := by
  induction ls with
  | nil => exact .inr hopen
  | cons first others ih =>
    exact .cons_ended (h first (by simp)) (ih fun l hl => h l (List.mem_cons_of_mem _ hl))

theorem AreLines.ended_or (h : AreLines ls) :
    (∀ l ∈ ls, Ended l) ∨ ∃ front last, ls = front ++ [last] ∧ (∀ l ∈ front, Ended l) ∧ Open last := by
  induction ls with
  | nil => simp
  | cons line others ih =>
    rcases others with _ | ⟨next, others⟩
    · rcases h with hended | hopen
      · simp [hended]
      · exact .inr ⟨[], line, rfl, by simp, hopen⟩
    · rcases ih h.2 with hall | ⟨front, last, hsplit, hfront, hopen⟩
      · exact .inl (List.forall_mem_cons.mpr ⟨h.1, hall⟩)
      · exact .inr ⟨line :: front, last, by rw [hsplit]; rfl, List.forall_mem_cons.mpr ⟨h.1, hfront⟩, hopen⟩

theorem areLines_fileLines (s : List Char) : AreLines (fileLines s) := by
  induction s with
  | nil => trivial
  | cons c rest ih =>
    rw [fileLines_cons]
    split_ifs with hc
    · exact .cons_ended ⟨[], by simp, rfl⟩ ih
    · rcases hrest : fileLines rest with _ | ⟨line, others⟩
      · exact .inr ⟨by simp, by simpa using Ne.symm hc⟩
      · rw [hrest] at ih
        have hended : Ended line → Ended (c :: line) := by
          rintro ⟨body, hplain, rfl⟩
          exact ⟨c :: body, by simp [hplain, Ne.symm hc], rfl⟩
        rcases others with _ | ⟨next, others⟩
        · rcases ih with hline | hopen
          · exact .inl (hended hline)
          · exact .inr ⟨by simp, by simp [hopen.2, Ne.symm hc]⟩
        · exact ⟨hended ih.1, ih.2⟩

theorem AreLines.map {f : List Char → List Char} (h : AreLines ls) (hf : ∀ l, f l = l ∨ Ended (f l)) :
    AreLines (ls.map f) := by
  have hkept : ∀ {l}, Ended l → Ended (f l) := by
    intro l hl
    rcases hf l with hsame | hended
    · rwa [hsame]
    · exact hended
  have hfront : ∀ {front : List (List Char)}, (∀ l ∈ front, Ended l) → ∀ l ∈ front.map f, Ended l := by
    intro front hfront l hl
    obtain ⟨before, hbefore, rfl⟩ := List.mem_map.mp hl
    exact hkept (hfront before hbefore)
  rcases h.ended_or with hall | ⟨front, last, rfl, hall, hopen⟩
  · exact areLines_of_ended (hfront hall)
  · rw [List.map_append, List.map_singleton]
    rcases hf last with hsame | hended
    · rw [hsame]
      exact areLines_concat_open (hfront hall) hopen
    · refine areLines_of_ended fun l hl => ?_
      rcases List.mem_append.mp hl with hl | hl
      · exact hfront hall l hl
      · rwa [List.mem_singleton.mp hl]

theorem fileLines_complete (hcr : '\r' ∉ s) :
    (Complete s ∧ ∀ l ∈ fileLines s, Ended l) ∨
    (¬ Complete s ∧ ∃ front last, fileLines s = front ++ [last] ∧ (∀ l ∈ front, Ended l) ∧ Open last) := by
  have hs := flatten_fileLines s
  rcases (areLines_fileLines s).ended_or with hall | ⟨front, last, hsplit, hfront, hopen⟩
  · refine .inl ⟨?_, hall⟩
    rcases List.eq_nil_or_concat (fileLines s) with hnil | ⟨front, last, hsplit⟩
    · rw [hnil] at hs
      exact .inl hs.symm
    · rw [List.concat_eq_append] at hsplit
      obtain ⟨body, -, hbody⟩ := hall last (by rw [hsplit]; simp)
      rw [hsplit, hbody] at hs
      right; left
      rw [← hs]
      simp
  · refine .inr ⟨?_, front, last, hsplit, hfront, hopen⟩
    rw [hsplit, List.flatten_append, List.flatten_singleton] at hs
    obtain ⟨before, c, hlast⟩ := (List.eq_nil_or_concat last).resolve_left hopen.1
    rw [List.concat_eq_append] at hlast
    have hc : s.getLast? = some c := by
      rw [← hs, hlast, ← List.append_assoc, List.getLast?_concat]
    have hlf : c ≠ '\n' := by
      rintro rfl
      exact hopen.2 (by rw [hlast]; simp)
    unfold Complete
    rw [hc]
    rintro (rfl | h | h)
    · cases hc
    · exact hlf (Option.some.inj h)
    · rw [Option.some.inj h] at hc
      exact hcr (List.mem_of_getLast? hc)

/-! ## Lines without their ends -/

def chomp (line : List Char) : List Char := line.takeWhile (· ≠ '\n')

theorem chomp_concat (h : '\n' ∉ line) : chomp (line ++ ['\n']) = line := by
  unfold chomp
  rw [List.takeWhile_append_of_pos]
  · simp
  · intro c hc
    refine decide_eq_true ?_
    rintro rfl
    exact h hc

/-- The lines of the text that is read, without their ends. -/
def textLines (s : List Char) : List (List Char) := (fileLines (universal s)).map chomp

theorem cr_notMem_of_mem_fileLines {l : List Char} (hl : l ∈ fileLines (universal s)) : '\r' ∉ l := by
  intro hin
  have hmem : '\r' ∈ (fileLines (universal s)).flatten := List.mem_flatten.mpr ⟨l, hl, hin⟩
  rw [flatten_fileLines] at hmem
  exact cr_notMem_universal s hmem

/-! ## `KEY=VALUE` -/

def keyValue (line : List Char) : Option (List Char × List Char) :=
  match line.dropWhile (· ≠ '=') with
  | [] => none
  | _ :: value => some (line.takeWhile (· ≠ '='), value)

/-- The line gives the key a value. -/
def Gives (key line : List Char) : Prop := ∃ value, keyValue line = some (key, value)

instance (key line : List Char) : Decidable (Gives key line) :=
  decidable_of_iff ((keyValue line).map Prod.fst = some key) (by simp [Gives])

theorem keyValue_iff {key value : List Char} :
    keyValue line = some (key, value) ↔ '=' ∉ key ∧ line = key ++ '=' :: value := by
  constructor
  · intro h
    have hsplit : line.takeWhile (· ≠ '=') ++ line.dropWhile (· ≠ '=') = line := List.takeWhile_append_dropWhile
    have hkey : '=' ∉ line.takeWhile (· ≠ '=') := fun hmem => by simpa using List.mem_takeWhile_imp hmem
    unfold keyValue at h
    rcases hdrop : line.dropWhile (· ≠ '=') with _ | ⟨c, rest⟩
    · rw [hdrop] at h
      cases h
    · obtain rfl : c = '=' := by
        have hhead := List.head?_dropWhile_not (· ≠ '=') line
        rw [hdrop] at hhead
        simpa using hhead
      rw [hdrop] at h hsplit
      dsimp only at h
      obtain ⟨rfl, rfl⟩ := Prod.mk.inj (Option.some.inj h)
      exact ⟨hkey, hsplit.symm⟩
  · rintro ⟨hkey, rfl⟩
    have hbefore : ∀ c ∈ key, decide (c ≠ '=') = true := by
      intro c hc
      refine decide_eq_true ?_
      rintro rfl
      exact hkey hc
    unfold keyValue
    rw [List.dropWhile_append_of_pos hbefore, List.takeWhile_append_of_pos hbefore]
    simp

theorem gives_iff {key : List Char} (hkey : '=' ∉ key) : Gives key line ↔ key ++ ['='] <+: line := by
  unfold Gives
  simp only [keyValue_iff]
  constructor
  · rintro ⟨value, -, rfl⟩
    exact ⟨value, by simp⟩
  · rintro ⟨value, rfl⟩
    exact ⟨value, hkey, by simp⟩

theorem prefix_chomp {start : List Char} (hstart : '\n' ∉ start) : start <+: chomp line ↔ start <+: line := by
  constructor
  · intro h
    exact h.trans (List.takeWhile_prefix _)
  · rintro ⟨rest, rfl⟩
    unfold chomp
    rw [List.takeWhile_append_of_pos]
    · exact List.prefix_append _ _
    · intro c hc
      refine decide_eq_true ?_
      rintro rfl
      exact hstart hc

end TextFile
