import Mathlib.Data.Fintype.Basic
import Mathlib.Data.List.FinRange

/-!
# UUIDs and their text

`str(u)` and `uuid.UUID(text)`, which takes 32 hexadecimal digits with braces, hyphens and a
URN prefix anywhere between them.
-/

/-- 128 bits, as their hexadecimal digits. -/
structure Uuid where
  digits : List (Fin 16)
  length_eq : digits.length = 32
  deriving DecidableEq

namespace Uuid

/-! ## Digits -/

def lastDigit (n : Nat) : Fin 16 := ⟨n % 16, Nat.mod_lt n (by decide)⟩

def hexChar (d : Fin 16) : Char := Char.ofNat (if d.val < 10 then 48 + d.val else 87 + d.val)

def upperHexChar (d : Fin 16) : Char := Char.ofNat (if d.val < 10 then 48 + d.val else 55 + d.val)

def hexValue (c : Char) : Option (Fin 16) := (List.finRange 16).find? fun d => c = hexChar d ∨ c = upperHexChar d

theorem hexValue_hexChar (d : Fin 16) : hexValue (hexChar d) = some d := by
  revert d
  decide

theorem hexChar_ne_hyphen (d : Fin 16) : hexChar d ≠ '-' := by
  revert d
  decide

/-! ## Text -/

/-- `str(u)` -/
def str (u : Uuid) : List Char :=
  let h := u.digits.map hexChar
  h.take 8 ++ '-' :: ((h.drop 8).take 4 ++ '-' :: ((h.drop 12).take 4 ++ '-' :: ((h.drop 16).take 4 ++ '-' :: h.drop 20)))

/-- `text.replace(old, '')`, with the number of characters of an occurrence still to pass. -/
def removeFrom (old : List Char) : Nat → List Char → List Char
  | _, [] => []
  | n + 1, _ :: rest => removeFrom old n rest
  | 0, c :: rest =>
    if old.isPrefixOf (c :: rest) then removeFrom old (old.length - 1) rest else c :: removeFrom old 0 rest

/-- `text.strip('{}')` -/
def stripBraces (s : List Char) : List Char :=
  ((s.dropWhile fun c => c = '{' ∨ c = '}').reverse.dropWhile fun c => c = '{' ∨ c = '}').reverse

def ofDigits (l : List (Fin 16)) : Option Uuid := if h : l.length = 32 then some ⟨l, h⟩ else none

/-- `uuid.UUID(text)`, and none where it raises. -/
def parse (s : List Char) : Option Uuid :=
  let hex := (stripBraces (removeFrom "uuid:".toList 0 (removeFrom "urn:".toList 0 s))).filter (· ≠ '-')
  (hex.mapM hexValue).bind ofDigits

/-! ## What `parse` makes of `str` -/

theorem mem_str {u : Uuid} {c : Char} (h : c ∈ str u) : c = '-' ∨ ∃ d, c = hexChar d := by
  have hdigit : ∀ i j, c ∈ ((u.digits.map hexChar).drop i).take j → ∃ d, c = hexChar d := by
    intro i j hc
    obtain ⟨d, _, rfl⟩ := List.mem_map.mp (List.mem_of_mem_drop (List.mem_of_mem_take hc))
    exact ⟨d, rfl⟩
  have hdrop : c ∈ (u.digits.map hexChar).drop 20 → ∃ d, c = hexChar d := by
    intro hc
    obtain ⟨d, _, rfl⟩ := List.mem_map.mp (List.mem_of_mem_drop hc)
    exact ⟨d, rfl⟩
  have hfirst := hdigit 0 8
  rw [List.drop_zero] at hfirst
  unfold str at h
  simp only [List.mem_append, List.mem_cons] at h
  rcases h with h | h | h | h | h | h | h | h | h
  · exact Or.inr (hfirst h)
  · exact Or.inl h
  · exact Or.inr (hdigit _ _ h)
  · exact Or.inl h
  · exact Or.inr (hdigit _ _ h)
  · exact Or.inl h
  · exact Or.inr (hdigit _ _ h)
  · exact Or.inl h
  · exact Or.inr (hdrop h)

theorem notMem_str {u : Uuid} {c : Char} (hc : c ≠ '-') (hd : ∀ d, c ≠ hexChar d) : c ∉ str u := by
  intro h
  rcases mem_str h with h | ⟨d, h⟩
  · exact hc h
  · exact hd d h

theorem colon_notMem_str (u : Uuid) : ':' ∉ str u := notMem_str (by decide) (by decide)

theorem removeFrom_eq_self {c : Char} {old s : List Char} (h : c ∉ s) : removeFrom (c :: old) 0 s = s := by
  induction s with
  | nil => rfl
  | cons x s ih =>
    rw [List.mem_cons, not_or] at h
    unfold removeFrom
    have hno : (c :: old).isPrefixOf (x :: s) = false := by
      unfold List.isPrefixOf
      rw [beq_false_of_ne h.1]
      rfl
    rw [hno, ih h.2]
    rfl

theorem stripBraces_eq_self {s : List Char} (h₁ : '{' ∉ s) (h₂ : '}' ∉ s) : stripBraces s = s := by
  have hkeep : ∀ l : List Char, (∀ c ∈ l, c ∈ s) → l.dropWhile (fun c => c = '{' ∨ c = '}') = l := by
    intro l hl
    cases l with
    | nil => rfl
    | cons c l =>
      have hc := hl c (by simp)
      have : ¬ (c = '{' ∨ c = '}') := by
        rintro (rfl | rfl)
        · exact h₁ hc
        · exact h₂ hc
      rw [List.dropWhile_cons_of_neg (by simpa using this)]
  unfold stripBraces
  rw [hkeep s fun _ => id, hkeep s.reverse fun _ => List.mem_reverse.mp, List.reverse_reverse]

theorem filter_str (u : Uuid) : (str u).filter (· ≠ '-') = u.digits.map hexChar := by
  have hdigits : ∀ l : List Char, (∀ c ∈ l, c ∈ u.digits.map hexChar) → l.filter (· ≠ '-') = l := by
    intro l hl
    refine List.filter_eq_self.mpr fun c hc => ?_
    obtain ⟨d, _, rfl⟩ := List.mem_map.mp (hl c hc)
    exact decide_eq_true (hexChar_ne_hyphen d)
  have htake : ∀ i j, (((u.digits.map hexChar).drop i).take j).filter (· ≠ '-') =
      ((u.digits.map hexChar).drop i).take j :=
    fun i j => hdigits _ fun c hc => List.mem_of_mem_drop (List.mem_of_mem_take hc)
  have hfirst := htake 0 8
  rw [List.drop_zero] at hfirst
  have hlast := hdigits ((u.digits.map hexChar).drop 20) fun c hc => List.mem_of_mem_drop hc
  have hhyphen : ∀ l : List Char, ('-' :: l).filter (· ≠ '-') = l.filter (· ≠ '-') := fun l => rfl
  unfold str
  simp only [List.filter_append, hhyphen, htake, hfirst, hlast]
  generalize u.digits.map hexChar = h
  have hjoin : ∀ i j, (h.drop i).take j ++ h.drop (i + j) = h.drop i := by
    intro i j
    rw [← List.drop_drop]
    exact List.take_append_drop j (h.drop i)
  rw [hjoin 16 4, hjoin 12 4, hjoin 8 4, List.take_append_drop]

theorem mapM_hexValue (l : List (Fin 16)) : (l.map hexChar).mapM hexValue = some l := by
  induction l with
  | nil => rfl
  | cons d l ih => simp [hexValue_hexChar, ih]

theorem parse_str (u : Uuid) : parse (str u) = some u := by
  have hu : 'u' ∉ str u := notMem_str (by decide) (by decide)
  have h₁ : removeFrom "urn:".toList 0 (str u) = str u := removeFrom_eq_self hu
  have h₂ : removeFrom "uuid:".toList 0 (str u) = str u := removeFrom_eq_self hu
  have hb : stripBraces (str u) = str u :=
    stripBraces_eq_self (notMem_str (by decide) (by decide)) (notMem_str (by decide) (by decide))
  unfold parse
  simp only [h₁, h₂, hb, filter_str, mapM_hexValue, Option.bind_some]
  unfold ofDigits
  rw [dif_pos u.length_eq]

end Uuid
