import RdpProxy.Lib.Words

/-!
# UTF-16, little-endian
-/

open Words

namespace Utf16

def unit (n : Nat) : Bytes := leBytes 2 n

def encodeChar (c : Char) : Bytes :=
  if c.toNat < 0x10000 then unit c.toNat
  else unit (0xD800 + (c.toNat - 0x10000) / 0x400) ++ unit (0xDC00 + (c.toNat - 0x10000) % 0x400)

def encode (s : List Char) : Bytes := s.flatMap encodeChar

/-- A surrogate without its partner is not accepted. -/
def decode : Bytes → Option (List Char)
  | [] => some []
  | lo :: hi :: rest =>
    let n := leNat [lo, hi]
    if n < 0xD800 ∨ 0xE000 ≤ n then (decode rest).map (Char.ofNat n :: ·)
    else
      match rest with
      | lo' :: hi' :: rest =>
        let m := leNat [lo', hi']
        if n < 0xDC00 ∧ 0xDC00 ≤ m ∧ m < 0xE000 then
          (decode rest).map (Char.ofNat (0x10000 + 0x400 * (n - 0xD800) + (m - 0xDC00)) :: ·)
        else none
      | _ => none
  | _ => none

theorem unit_eq (n : Nat) : ∃ lo hi, unit n = [lo, hi] ∧ leNat [lo, hi] = n % 0x10000 :=
  ⟨_, _, rfl, leNat_leBytes 2 n⟩

theorem toNat_valid (c : Char) : c.toNat < 0xD800 ∨ (0xE000 ≤ c.toNat ∧ c.toNat < 0x110000) := by
  have h := c.valid
  simp only [UInt32.isValidChar, Nat.isValidChar] at h
  show c.val.toNat < _ ∨ (_ ≤ c.val.toNat ∧ c.val.toNat < _)
  omega

theorem decode_unit {lo hi : UInt8} {n : Nat} (hn : leNat [lo, hi] = n) (h : n < 0xD800 ∨ 0xE000 ≤ n) (rest : Bytes) :
    decode (lo :: hi :: rest) = (decode rest).map (Char.ofNat n :: ·) := by
  rw [decode.eq_def]
  simp only [hn, if_pos h]

theorem decode_pair {lo hi lo' hi' : UInt8} {n m : Nat} (hn : leNat [lo, hi] = n) (hm : leNat [lo', hi'] = m)
    (hhigh : 0xD800 ≤ n ∧ n < 0xDC00) (hlow : 0xDC00 ≤ m ∧ m < 0xE000) (rest : Bytes) :
    decode (lo :: hi :: lo' :: hi' :: rest) =
      (decode rest).map (Char.ofNat (0x10000 + 0x400 * (n - 0xD800) + (m - 0xDC00)) :: ·) := by
  rw [decode.eq_def]
  simp only [hn, hm]
  rw [if_neg (by omega), if_pos ⟨hhigh.2, hlow⟩]

theorem decode_encodeChar (c : Char) (rest : Bytes) : decode (encodeChar c ++ rest) = (decode rest).map (c :: ·) := by
  have hvalid := toNat_valid c
  unfold encodeChar
  split_ifs with hsmall
  · obtain ⟨lo, hi, hunit, hvalue⟩ := unit_eq c.toNat
    rw [Nat.mod_eq_of_lt hsmall] at hvalue
    rw [hunit]
    have hdecode := decode_unit hvalue (by omega) rest
    rwa [Char.ofNat_toNat] at hdecode
  · obtain ⟨lo, hi, hunit, hvalue⟩ := unit_eq (0xD800 + (c.toNat - 0x10000) / 0x400)
    obtain ⟨lo', hi', hunit', hvalue'⟩ := unit_eq (0xDC00 + (c.toNat - 0x10000) % 0x400)
    rw [Nat.mod_eq_of_lt (by omega)] at hvalue hvalue'
    rw [hunit, hunit']
    generalize hhigh : 0xD800 + (c.toNat - 0x10000) / 0x400 = n at hvalue
    generalize hlow : 0xDC00 + (c.toNat - 0x10000) % 0x400 = m at hvalue'
    have hchar : c.toNat = 0x10000 + 0x400 * (n - 0xD800) + (m - 0xDC00) := by omega
    have hdecode := decode_pair hvalue hvalue' (by omega) (by omega) rest
    rw [← hchar, Char.ofNat_toNat] at hdecode
    exact hdecode

theorem decode_encode (s : List Char) : decode (encode s) = some s := by
  induction s with
  | nil => rfl
  | cons c s ih =>
    have hcons : encode (c :: s) = encodeChar c ++ encode s := rfl
    rw [hcons, decode_encodeChar, ih]
    rfl

theorem encode_length_le (s : List Char) : (encode s).length ≤ 4 * s.length := by
  induction s with
  | nil => simp [encode]
  | cons c s ih =>
    have hcons : encode (c :: s) = encodeChar c ++ encode s := rfl
    have hchar : (encodeChar c).length ≤ 4 := by
      unfold encodeChar unit
      split_ifs <;> simp
    rw [hcons, List.length_append, List.length_cons]
    omega

end Utf16
