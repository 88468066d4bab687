import Mathlib.Data.List.TakeWhile
import Mathlib.Tactic.Common

/-!
# The authority and the path of a reference

References are split as in RFC 3986: `scheme ":"` if there is one, then `"//" authority`, then the path
up to a query or a fragment.
-/

namespace Url

def isSchemeChar (c : Char) : Bool := c.isAlphanum || c = '+' || c = '-' || c = '.'

/-- ALPHA *( ALPHA / DIGIT / "+" / "-" / "." ) -/
def isScheme (s : List Char) : Bool := s.head?.any Char.isAlpha && s.all isSchemeChar

/-- The reference without its scheme. -/
def afterScheme (s : List Char) : List Char :=
  match s.dropWhile (· ≠ ':') with
  | _ :: rest => if isScheme (s.takeWhile (· ≠ ':')) then rest else s
  | [] => s

def endsAuthority (c : Char) : Bool := c = '/' || c = '?' || c = '#'

def authority (s : List Char) : Option (List Char) :=
  match afterScheme s with
  | '/' :: '/' :: rest => some (rest.takeWhile fun c => !endsAuthority c)
  | _ => none

/-- The reference without its scheme and its authority. -/
def afterAuthority (s : List Char) : List Char :=
  match afterScheme s with
  | '/' :: '/' :: rest => rest.dropWhile fun c => !endsAuthority c
  | rest => rest

def endsPath (c : Char) : Bool := c = '?' || c = '#'

def path (s : List Char) : List Char := (afterAuthority s).takeWhile fun c => !endsPath c

theorem colon_notMem {s : List Char} (h : isScheme s = true) : ∀ c ∈ s, decide (c ≠ ':') = true := by
  unfold isScheme at h
  rw [Bool.and_eq_true, List.all_eq_true] at h
  intro c hc
  rw [decide_eq_true_eq]
  rintro rfl
  exact absurd (h.2 ':' hc) (by decide)

section

variable {scheme host rest : List Char}

theorem afterScheme_scheme (hscheme : isScheme scheme = true) : afterScheme (scheme ++ ':' :: rest) = rest := by
  have hcolon := colon_notMem hscheme
  unfold afterScheme
  rw [List.dropWhile_append_of_pos hcolon, List.takeWhile_append_of_pos hcolon]
  simp [hscheme]

theorem takeWhile_authority (hhost : ∀ c ∈ host, endsAuthority c = false)
    (hrest : ∀ c ∈ rest.head?, endsAuthority c = true) :
    (host ++ rest).takeWhile (fun c => !endsAuthority c) = host ∧
      (host ++ rest).dropWhile (fun c => !endsAuthority c) = rest := by
  have hall : ∀ c ∈ host, (!endsAuthority c) = true := fun c hc => by simp [hhost c hc]
  rw [List.takeWhile_append_of_pos hall, List.dropWhile_append_of_pos hall]
  rcases rest with _ | ⟨c, rest⟩
  · simp
  · simp [hrest c rfl]

theorem authority_origin (hscheme : isScheme scheme = true) (hhost : ∀ c ∈ host, endsAuthority c = false)
    (hrest : ∀ c ∈ rest.head?, endsAuthority c = true) :
    authority (scheme ++ ':' :: '/' :: '/' :: (host ++ rest)) = some host := by
  unfold authority
  rw [afterScheme_scheme hscheme]
  simp only [(takeWhile_authority hhost hrest).1]

theorem path_origin (hscheme : isScheme scheme = true) (hhost : ∀ c ∈ host, endsAuthority c = false)
    (hrest : ∀ c ∈ rest.head?, endsAuthority c = true) :
    path (scheme ++ ':' :: '/' :: '/' :: (host ++ rest)) = rest.takeWhile fun c => !endsPath c := by
  unfold path afterAuthority
  rw [afterScheme_scheme hscheme]
  simp only [(takeWhile_authority hhost hrest).2]

end

theorem path_relative {s : List Char} (h : ∀ c ∈ s.head?, c.isAlpha = false) (hauthority : ¬ ['/', '/'] <+: s) :
    authority s = none ∧ path s = s.takeWhile fun c => !endsPath c := by
  have hafter : afterScheme s = s := by
    unfold afterScheme
    rcases hdrop : s.dropWhile (· ≠ ':') with _ | ⟨c, rest⟩
    · rfl
    · have hscheme : isScheme (s.takeWhile (· ≠ ':')) = false := by
        rcases s with _ | ⟨d, s⟩
        · cases hdrop
        · by_cases hd : d = ':'
          · simp [isScheme, hd]
          · simp [isScheme, hd, h d rfl]
      simp only [hscheme, Bool.false_eq_true, if_false]
  unfold authority path afterAuthority
  rw [hafter]
  split
  · next rest => exact absurd (List.prefix_append ['/', '/'] rest) hauthority
  · exact ⟨rfl, rfl⟩

theorem endsAuthority_of_mem {s name : List Char} (h : authority s = some name) {c : Char} (hc : c ∈ name) :
    endsAuthority c = false := by
  unfold authority at h
  split at h
  · cases h
    simpa using List.mem_takeWhile_imp hc
  · cases h

end Url
