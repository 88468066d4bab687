import Mathlib.Algebra.Order.Ring.Nat
import Mathlib.Tactic.Common

/-!
# Fixed-width words in byte strings

Little-endian words, read and written at an offset as `struct.unpack_from` and
`struct.pack_into` do: outside the buffer there is no result.
-/

namespace Words

abbrev Bytes := List UInt8

/-! ## Values -/

def leNat : Bytes → Nat
  | [] => 0
  | b :: bs => b.toNat + 256 * leNat bs

/-- The `w` low bytes of `n`, least significant first. -/
def leBytes : Nat → Nat → Bytes
  | 0, _ => []
  | w + 1, n => UInt8.ofNat n :: leBytes w (n / 256)

@[simp] theorem leBytes_length (w n : Nat) : (leBytes w n).length = w := by
  induction w generalizing n with
  | zero => rfl
  | succ w ih => rw [leBytes, List.length_cons, ih]

theorem leNat_lt (l : Bytes) : leNat l < 256 ^ l.length := by
  induction l with
  | nil => simp [leNat]
  | cons b bs ih =>
    have hb := b.toNat_lt
    rw [leNat, List.length_cons, Nat.pow_succ]
    omega

theorem leNat_leBytes (w n : Nat) : leNat (leBytes w n) = n % 256 ^ w := by
  induction w generalizing n with
  | zero => simp [leBytes, leNat, Nat.mod_one]
  | succ w ih =>
    rw [leBytes, leNat, ih, Nat.pow_succ', Nat.mod_mul]
    simp [UInt8.toNat_ofNat']

theorem leNat_leBytes_of_lt {w n : Nat} (h : n < 256 ^ w) : leNat (leBytes w n) = n := by
  rw [leNat_leBytes, Nat.mod_eq_of_lt h]

theorem leBytes_leNat (l : Bytes) : leBytes l.length (leNat l) = l := by
  induction l with
  | nil => rfl
  | cons b bs ih =>
    have hb := b.toNat_lt
    have hdiv : (b.toNat + 256 * leNat bs) / 256 = leNat bs := by omega
    have hmod : UInt8.ofNat (b.toNat + 256 * leNat bs) = b := by
      apply UInt8.toNat.inj
      simp only [UInt8.toNat_ofNat']
      omega
    rw [List.length_cons, leNat, leBytes, hdiv, hmod, ih]

theorem leNat_inj {l l' : Bytes} (hl : l.length = l'.length) (h : leNat l = leNat l') : l = l' := by
  rw [← leBytes_leNat l, ← leBytes_leNat l', hl, h]

/-! ## Windows -/

/-- The `n` bytes from `off` on, or what there is of them. -/
def window (b : Bytes) (off n : Nat) : Bytes := (b.drop off).take n

theorem window_length {b : Bytes} {off n : Nat} (h : off + n ≤ b.length) : (window b off n).length = n := by
  simp only [window, List.length_take, List.length_drop]
  omega

theorem getElem?_window (b : Bytes) (off n k : Nat) :
    (window b off n)[k]? = if k < n then b[off + k]? else none := by
  rw [window, List.getElem?_take, List.getElem?_drop]

theorem window_take {b : Bytes} {off n m : Nat} (h : off + n ≤ m) : window (b.take m) off n = window b off n := by
  rw [window, window, List.drop_take, List.take_take, Nat.min_eq_left (by omega)]

/-- `b` with the bytes from `off` on replaced by `s`. -/
def splice (b : Bytes) (off : Nat) (s : Bytes) : Bytes := b.take off ++ s ++ b.drop (off + s.length)

theorem splice_length {b s : Bytes} {off : Nat} (h : off + s.length ≤ b.length) :
    (splice b off s).length = b.length := by
  simp only [splice, List.length_append, List.length_take, List.length_drop]
  omega

theorem getElem?_splice {b s : Bytes} {off : Nat} (h : off + s.length ≤ b.length) (k : Nat) :
    (splice b off s)[k]? = if off ≤ k ∧ k < off + s.length then s[k - off]? else b[k]? := by
  have hto : (b.take off).length = off := by simp; omega
  rw [splice]
  by_cases hlo : k < off
  · rw [List.getElem?_append_left (by simp; omega), List.getElem?_append_left (by simp; omega),
      List.getElem?_take_of_lt hlo, if_neg (by omega)]
  · by_cases hhi : k < off + s.length
    · rw [List.getElem?_append_left (by simp; omega), List.getElem?_append_right (by omega), hto,
        if_pos (by omega)]
    · rw [List.getElem?_append_right (by simp; omega), List.getElem?_drop, if_neg (by omega)]
      congr 1
      simp only [List.length_append, hto]
      omega

theorem window_splice {b s : Bytes} {off : Nat} (h : off + s.length ≤ b.length) :
    window (splice b off s) off s.length = s := by
  have hto : (b.take off).length = off := by simp; omega
  rw [window, splice, List.append_assoc, List.drop_append_of_le_length (by omega), List.drop_eq_nil_of_le (by omega),
    List.nil_append, List.take_left]

theorem splice_window {b s : Bytes} {off : Nat} (h : window b off s.length = s) : splice b off s = b := by
  have hs : s ++ b.drop (off + s.length) = b.drop off := by
    conv_lhs => rw [← h]
    rw [window, ← List.drop_drop]
    conv_rhs => rw [← List.take_append_drop s.length (b.drop off)]
    congr 2
    rw [List.length_take]
    by_cases hl : s.length ≤ (b.drop off).length
    · rw [Nat.min_eq_left hl]
    · have := congrArg List.length h
      simp only [window, List.length_take] at this
      omega
  rw [splice, List.append_assoc, hs, List.take_append_drop]

theorem splice_eq_iff {b s : Bytes} {off : Nat} (h : off + s.length ≤ b.length) :
    splice b off s = b ↔ window b off s.length = s := by
  constructor
  · intro he
    have := window_splice h
    rwa [he] at this
  · exact splice_window

theorem take_splice {b s : Bytes} {off : Nat} (h : off + s.length ≤ b.length) :
    (splice b off s).take off = b.take off := by
  have hto : (b.take off).length = off := by simp; omega
  rw [splice, List.append_assoc]
  exact List.take_left' hto

theorem splice_splice {b s : Bytes} {off : Nat} (h : off + s.length ≤ b.length) :
    splice (splice b off s) off s = splice b off s :=
  splice_window (window_splice h)

/-- Writing `s` at `i` or `t` at `j` comes to the same: the bytes of one place only stand there
already, and those of both agree. -/
structure SameWrite (b : Bytes) (i : Nat) (s : Bytes) (j : Nat) (t : Bytes) : Prop where
  left : ∀ k, (i ≤ k ∧ k < i + s.length) → ¬ (j ≤ k ∧ k < j + t.length) → s[k - i]? = b[k]?
  right : ∀ k, (j ≤ k ∧ k < j + t.length) → ¬ (i ≤ k ∧ k < i + s.length) → t[k - j]? = b[k]?
  both : ∀ k, (i ≤ k ∧ k < i + s.length) → (j ≤ k ∧ k < j + t.length) → s[k - i]? = t[k - j]?

theorem splice_eq_splice_iff {b s t : Bytes} {i j : Nat} (hi : i + s.length ≤ b.length)
    (hj : j + t.length ≤ b.length) : splice b i s = splice b j t ↔ SameWrite b i s j t := by
  constructor
  · intro h
    have hk : ∀ k : Nat, (splice b i s)[k]? = (splice b j t)[k]? := fun k => by rw [h]
    simp only [getElem?_splice hi, getElem?_splice hj] at hk
    constructor
    · intro k h1 h2
      simpa only [if_pos h1, if_neg h2] using hk k
    · intro k h1 h2
      simpa only [if_neg h2, if_pos h1] using (hk k).symm
    · intro k h1 h2
      simpa only [if_pos h1, if_pos h2] using hk k
  · intro h
    apply List.ext_getElem?
    intro k
    rw [getElem?_splice hi, getElem?_splice hj]
    split_ifs with h1 h2 h2
    · exact h.both k h1 h2
    · exact h.left k h1 h2
    · exact (h.right k h2 h1).symm
    · rfl

theorem sameWrite_iff_eq {b s t : Bytes} {i : Nat} (hl : s.length = t.length) :
    SameWrite b i s i t ↔ s = t := by
  constructor
  · intro h
    apply List.ext_getElem?
    intro k
    by_cases hk : k < s.length
    · have := h.both (i + k) (by omega) (by omega)
      rwa [Nat.add_sub_cancel_left] at this
    · rw [List.getElem?_eq_none (by omega), List.getElem?_eq_none (by omega)]
  · rintro rfl
    exact ⟨fun _ h1 h2 => absurd h1 h2, fun _ h1 h2 => absurd h1 h2, fun _ _ _ => rfl⟩

/-! ## Words at an offset -/

/-- `struct.unpack_from` of one unsigned little-endian word of `w` bytes. -/
def unpackLE (w : Nat) (b : Bytes) (off : Nat) : Option Nat :=
  if off + w ≤ b.length then some (leNat (window b off w)) else none

/-- `struct.pack_into` of one unsigned little-endian word of `w` bytes. -/
def packLE (w : Nat) (b : Bytes) (off v : Nat) : Option Bytes :=
  if off + w ≤ b.length ∧ v < 256 ^ w then some (splice b off (leBytes w v)) else none

theorem unpackLE_eq_some {w off v : Nat} {b : Bytes} : unpackLE w b off = some v ↔
    off + w ≤ b.length ∧ leNat (window b off w) = v := by
  unfold unpackLE
  split_ifs with h <;> simp [h]

theorem unpackLE_isSome (w : Nat) (b : Bytes) (off : Nat) (h : off + w ≤ b.length) :
    ∃ v, unpackLE w b off = some v := ⟨_, by rw [unpackLE, if_pos h]⟩

theorem packLE_eq {w off v : Nat} {b : Bytes} (h : off + w ≤ b.length) (hv : v < 256 ^ w) :
    packLE w b off v = some (splice b off (leBytes w v)) := by rw [packLE, if_pos ⟨h, hv⟩]

theorem unpackLE_iff_window {w off v : Nat} {b : Bytes} (hv : v < 256 ^ w) : unpackLE w b off = some v ↔
    off + w ≤ b.length ∧ window b off w = leBytes w v := by
  rw [unpackLE_eq_some]
  constructor
  · rintro ⟨hl, h⟩
    refine ⟨hl, leNat_inj (by simp [window_length hl]) ?_⟩
    rw [h, leNat_leBytes_of_lt hv]
  · rintro ⟨hl, h⟩
    exact ⟨hl, by rw [h, leNat_leBytes_of_lt hv]⟩

theorem unpackLE_take {w off m : Nat} {b : Bytes} (h : off + w ≤ m) (hm : m ≤ b.length) :
    unpackLE w (b.take m) off = unpackLE w b off := by
  rw [unpackLE, unpackLE, window_take h, if_pos (by simp; omega), if_pos (by omega)]

theorem unpackLE_splice_before {w off pos : Nat} {b s : Bytes} (hb : off + w ≤ pos)
    (h : pos + s.length ≤ b.length) : unpackLE w (splice b pos s) off = unpackLE w b off := by
  have hl := splice_length h
  rw [← unpackLE_take hb (by omega), take_splice h, unpackLE_take hb (by omega)]

/-! ## Parts of a string -/

theorem window_append_right (a b : Bytes) (k n : Nat) : window (a ++ b) (a.length + k) n = window b k n := by
  rw [window, window, List.drop_append, List.drop_eq_nil_of_le (by omega), List.nil_append,
    Nat.add_sub_cancel_left]

theorem window_append_left {a b : Bytes} {k n : Nat} (h : k + n ≤ a.length) :
    window (a ++ b) k n = window a k n := by
  rw [window, window, List.drop_append_of_le_length (by omega), List.take_append_of_le_length (by simp; omega)]

theorem unpackLE_append_right (w : Nat) (a b : Bytes) (k : Nat) :
    unpackLE w (a ++ b) (a.length + k) = unpackLE w b k := by
  simp only [unpackLE, window_append_right, List.length_append, Nat.add_assoc, Nat.add_le_add_iff_left]

theorem unpackLE_append_left {w k : Nat} {a b : Bytes} (h : k + w ≤ a.length) :
    unpackLE w (a ++ b) k = unpackLE w a k := by
  rw [unpackLE, unpackLE, if_pos (by simp; omega), if_pos h, window_append_left h]

theorem unpackLE_leBytes {w v : Nat} (hv : v < 256 ^ w) (b : Bytes) : unpackLE w (leBytes w v ++ b) 0 = some v := by
  rw [unpackLE_iff_window hv]
  refine ⟨by simp, ?_⟩
  rw [window, List.drop_zero]
  exact List.take_left' (leBytes_length w v)

theorem splice_append_right (a b s : Bytes) (k : Nat) : splice (a ++ b) (a.length + k) s = a ++ splice b k s := by
  rw [splice, splice, List.take_length_add_append, Nat.add_assoc, List.drop_length_add_append]
  simp only [List.append_assoc]

theorem splice_append_left {a b s : Bytes} {k : Nat} (h : k + s.length ≤ a.length) :
    splice (a ++ b) k s = splice a k s ++ b := by
  rw [splice, splice, List.take_append_of_le_length (by omega), List.drop_append_of_le_length h]
  simp only [List.append_assoc]

theorem splice_take_append_drop {b s : Bytes} {off n : Nat} (h : off + s.length ≤ n) (hn : n ≤ b.length) :
    splice (b.take n) off s ++ b.drop n = splice b off s := by
  rw [← splice_append_left (by rw [List.length_take_of_le hn]; exact h), List.take_append_drop]

/-! ## First places -/

/-- `i` is the first place with `p`. -/
def FirstAt (p : Nat → Prop) (i : Nat) : Prop := p i ∧ ∀ j < i, ¬ p j

theorem FirstAt.unique {p : Nat → Prop} {i j : Nat} (hi : FirstAt p i) (hj : FirstAt p j) : i = j := by
  rcases Nat.lt_trichotomy i j with h | h | h
  · exact absurd hi.1 (hj.2 i h)
  · exact h
  · exact absurd hj.1 (hi.2 j h)

theorem FirstAt.congr {p q : Nat → Prop} {i : Nat} (h : FirstAt p i) (hpq : ∀ j ≤ i, p j ↔ q j) : FirstAt q i :=
  ⟨(hpq i (Nat.le_refl i)).mp h.1, fun j hj hq => h.2 j hj ((hpq j (Nat.le_of_lt hj)).mpr hq)⟩

theorem exists_firstAt {p : Nat → Prop} {i : Nat} (h : p i) : ∃ j ≤ i, FirstAt p j := by
  induction i using Nat.strongRecOn with
  | ind i ih =>
    by_cases hlt : ∃ j < i, p j
    · obtain ⟨j, hj, hp⟩ := hlt
      obtain ⟨k, hk, hf⟩ := ih j hj hp
      exact ⟨k, by omega, hf⟩
    · exact ⟨i, Nat.le_refl i, h, fun j hj hp => hlt ⟨j, hj, hp⟩⟩

/-! ## Patterns -/

/-- `bytes.find` of a pattern that is not empty, from `start` on, with `none` for -1. -/
def find (b pattern : Bytes) (start : Nat) : Option Nat :=
  (List.range b.length).find? fun i => decide (start ≤ i ∧ window b i pattern.length = pattern)

theorem window_eq_iff {b pattern : Bytes} {i : Nat} :
    window b i pattern.length = pattern ↔ ∀ k < pattern.length, b[i + k]? = pattern[k]? := by
  constructor
  · intro h k hk
    have := getElem?_window b i pattern.length k
    rw [if_pos hk, h] at this
    exact this.symm
  · intro h
    apply List.ext_getElem?
    intro k
    rw [getElem?_window]
    split_ifs with hk
    · exact h k hk
    · rw [List.getElem?_eq_none (by omega)]

theorem lt_of_window_eq {b pattern : Bytes} {i : Nat} (hp : pattern ≠ [])
    (h : window b i pattern.length = pattern) : i < b.length := by
  have hl := congrArg List.length h
  have := List.length_pos_iff.mpr hp
  simp only [window, List.length_take, List.length_drop] at hl
  omega

theorem window_ne_of_not_mem {b pattern : Bytes} {x : UInt8} {i j : Nat} (hx : x ∉ pattern) (hb : b[j]? = some x)
    (hij : i ≤ j) (hj : j < i + pattern.length) : window b i pattern.length ≠ pattern := by
  intro h
  obtain ⟨k, rfl⟩ := Nat.exists_eq_add_of_le hij
  have hk := window_eq_iff.mp h k (by omega)
  rw [hb] at hk
  exact hx (List.mem_of_getElem? hk.symm)

theorem find_eq_some {b pattern : Bytes} {start i : Nat} (hp : pattern ≠ []) : find b pattern start = some i ↔
    FirstAt (fun i => start ≤ i ∧ window b i pattern.length = pattern) i := by
  rw [find, List.find?_range_eq_some]
  simp only [decide_eq_true_eq, List.mem_range, Bool.not_eq_true', decide_eq_false_iff_not]
  constructor
  · rintro ⟨h, _, hmin⟩
    exact ⟨h, hmin⟩
  · rintro ⟨h, hmin⟩
    exact ⟨h, lt_of_window_eq hp h.2, hmin⟩

theorem find_eq_none {b pattern : Bytes} {start : Nat} (hp : pattern ≠ []) : find b pattern start = none ↔
    ∀ i, start ≤ i → window b i pattern.length ≠ pattern := by
  rw [find, List.find?_range_eq_none]
  simp only [Bool.not_eq_true', decide_eq_false_iff_not]
  constructor
  · intro h i hi hw
    exact h i (lt_of_window_eq hp hw) ⟨hi, hw⟩
  · rintro h i _ ⟨hi, hw⟩
    exact h i hi hw

theorem find_prefix {pattern : Bytes} (hp : pattern ≠ []) (b : Bytes) : find (pattern ++ b) pattern 0 = some 0 := by
  rw [find_eq_some hp]
  refine ⟨⟨Nat.le_refl 0, ?_⟩, fun j hj => absurd hj (Nat.not_lt_zero j)⟩
  rw [window, List.drop_zero, List.take_left]

theorem find_from_length {pattern : Bytes} (hp : pattern ≠ []) (a b : Bytes) :
    find (a ++ b) pattern a.length = (find b pattern 0).map (a.length + ·) := by
  cases hb : find b pattern 0 with
  | none =>
    rw [find_eq_none hp] at hb
    rw [Option.map_none, find_eq_none hp]
    intro i hi hw
    obtain ⟨k, rfl⟩ := Nat.exists_eq_add_of_le hi
    rw [window_append_right] at hw
    exact hb k (Nat.zero_le k) hw
  | some k =>
    obtain ⟨⟨_, hk⟩, hmin⟩ := (find_eq_some hp).mp hb
    rw [Option.map_some, find_eq_some hp]
    refine ⟨⟨Nat.le_add_right _ _, by rwa [window_append_right]⟩, ?_⟩
    rintro i hi ⟨hai, hw⟩
    obtain ⟨j, rfl⟩ := Nat.exists_eq_add_of_le hai
    rw [window_append_right] at hw
    exact hmin j (by omega) ⟨Nat.zero_le j, hw⟩

theorem find_append_right {a b pattern : Bytes} (hp : pattern ≠ [])
    (h : ∀ i < a.length, window (a ++ b) i pattern.length ≠ pattern) :
    find (a ++ b) pattern 0 = (find b pattern 0).map (a.length + ·) := by
  rw [← find_from_length hp]
  have hstart : ∀ i, (0 ≤ i ∧ window (a ++ b) i pattern.length = pattern) ↔
      (a.length ≤ i ∧ window (a ++ b) i pattern.length = pattern) :=
    fun i => ⟨fun hi => ⟨Nat.le_of_not_lt fun hlt => h i hlt hi.2, hi.2⟩, fun hi => ⟨Nat.zero_le i, hi.2⟩⟩
  simp only [find, hstart]

/-! ## Scans

A scan is a function of the indices still to visit. It passes over the places without `p`
and stops at the first one with `p`. -/

section
variable {β : Type} {scan : List Nat → β} {p : Nat → Prop} {n : Nat}

theorem scan_skip (hskip : ∀ i rest, i < n → ¬ p i → scan (i :: rest) = scan rest) (l rest : List Nat)
    (hl : ∀ i ∈ l, i < n ∧ ¬ p i) : scan (l ++ rest) = scan rest := by
  induction l with
  | nil => rfl
  | cons i l ih =>
    obtain ⟨hi, hp⟩ := hl i (by simp)
    rw [List.cons_append, hskip i _ hi hp]
    exact ih (fun j hj => hl j (by simp [hj]))

theorem scan_first {result : Nat → β} (hskip : ∀ i rest, i < n → ¬ p i → scan (i :: rest) = scan rest)
    (hstop : ∀ i rest, p i → scan (i :: rest) = result i) {i : Nat} (hi : i < n) (hf : FirstAt p i) :
    scan (List.range n) = result i := by
  have hsplit : List.range n = List.range i ++ i :: (List.range (n - i - 1)).map (i + 1 + ·) := by
    have hn : n = i + (n - i - 1 + 1) := by omega
    conv_lhs => rw [hn, List.range_add, List.range_succ_eq_map]
    simp [Function.comp_def, Nat.add_comm, Nat.add_left_comm]
  rw [hsplit, scan_skip hskip, hstop i _ hf.1]
  intro j hj
  have hj := List.mem_range.mp hj
  exact ⟨by omega, hf.2 j hj⟩

theorem scan_none (hskip : ∀ i rest, i < n → ¬ p i → scan (i :: rest) = scan rest) (hp : ∀ i, ¬ p i) :
    scan (List.range n) = scan [] := by
  rw [← List.append_nil (List.range n)]
  exact scan_skip hskip _ _ (fun i hi => ⟨List.mem_range.mp hi, hp i⟩)

end

end Words
