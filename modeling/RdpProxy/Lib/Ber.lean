import RdpProxy.Lib.Words

/-!
# Lengths and elements of BER and PER

The grammar of what a peer may send: every definite BER length form, and the two
unfragmented length forms of aligned PER.
-/

open Words

namespace Ber

def beNat (octets : Bytes) : Nat := octets.foldl (fun acc b => 256 * acc + b.toNat) 0

def beBytes (w n : Nat) : Bytes := (leBytes w n).reverse

theorem beNat_eq_leNat (octets : Bytes) : beNat octets = leNat octets.reverse := by
  unfold beNat
  rw [← List.foldr_reverse]
  induction octets.reverse with
  | nil => rfl
  | cons b l ih =>
    rw [List.foldr_cons, ih, leNat]
    omega

@[simp] theorem beBytes_length (w n : Nat) : (beBytes w n).length = w := by
  unfold beBytes
  rw [List.length_reverse, leBytes_length]

theorem beNat_beBytes {w n : Nat} (h : n < 256 ^ w) : beNat (beBytes w n) = n := by
  unfold beBytes
  rw [beNat_eq_leNat, List.reverse_reverse, leNat_leBytes_of_lt h]

/-- A definite length: one octet below 128, or a count of octets and those octets. -/
inductive Length where
  | short (n : Nat) (h : n < 128)
  | long (octets : Bytes) (h : octets ≠ [] ∧ octets.length ≤ 126)

def Length.value : Length → Nat
  | .short n _ => n
  | .long octets _ => beNat octets

def Length.bytes : Length → Bytes
  | .short n _ => [UInt8.ofNat n]
  | .long octets _ => UInt8.ofNat (128 + octets.length) :: octets

/-! ### The shortest length -/

/-- A number in the fewest octets. -/
def octets (n : Nat) : Bytes := if n = 0 then [] else octets (n / 256) ++ [UInt8.ofNat n]

/-- The length that DER prescribes. -/
def derLength (n : Nat) : Bytes := if n < 128 then [UInt8.ofNat n] else UInt8.ofNat (128 + (octets n).length) :: octets n

theorem beNat_append (xs : Bytes) (x : UInt8) : beNat (xs ++ [x]) = 256 * beNat xs + x.toNat := by
  unfold beNat
  rw [List.foldl_append]
  rfl

theorem beNat_octets (n : Nat) : beNat (octets n) = n := by
  fun_induction octets n with
  | case1 => rfl
  | case2 n _ ih =>
    rw [beNat_append, ih, UInt8.toNat_ofNat']
    omega

theorem octets_length_le {n k : Nat} (h : n < 256 ^ k) : (octets n).length ≤ k := by
  induction k generalizing n with
  | zero =>
    have hzero : n = 0 := by simpa using h
    rw [hzero, octets]
    simp
  | succ k ih =>
    rw [octets]
    split_ifs
    · simp
    · rw [Nat.pow_succ] at h
      have hrest := ih (n := n / 256) (by omega)
      simp only [List.length_append, List.length_singleton]
      omega

theorem derLength_definite {n : Nat} (h : n < 256 ^ 3) : ∃ l : Length, l.bytes = derLength n ∧ l.value = n := by
  unfold derLength
  split_ifs with hn
  · exact ⟨.short n hn, rfl, rfl⟩
  · have hlen := octets_length_le h
    have hne : octets n ≠ [] := by
      intro hnil
      have hvalue := beNat_octets n
      rw [hnil] at hvalue
      change 0 = n at hvalue
      omega
    exact ⟨.long (octets n) ⟨hne, by omega⟩, rfl, beNat_octets n⟩

/-- An element with the given identifier octets. -/
structure Tlv (tag : Bytes) where
  length : Length
  content : Bytes
  fits : length.value = content.length

def Tlv.bytes {tag : Bytes} (e : Tlv tag) : Bytes := tag ++ e.length.bytes ++ e.content

def Tlv.short {tag : Bytes} (content : Bytes) (h : content.length < 128) : Tlv tag :=
  ⟨.short content.length h, content, rfl⟩

/-- A non-negative INTEGER in the fewest octets. -/
structure Natural extends Tlv [0x02] where
  minimal : ∃ b rest, content = b :: rest ∧ b.toNat < 128 ∧ (b = 0 → ∀ c ∈ rest.head?, 128 ≤ c.toNat)

def Natural.ofOctets (b : UInt8) (rest : Bytes) (hlen : rest.length < 127) (hb : b.toNat < 128)
    (hmin : b = 0 → ∀ c ∈ rest.head?, 128 ≤ c.toNat) : Natural where
  toTlv := Tlv.short (b :: rest) (by rw [List.length_cons]; omega)
  minimal := ⟨b, rest, rfl, hb, hmin⟩

def Natural.octet (b : UInt8) (hb : b.toNat < 128 := by decide) : Natural :=
  .ofOctets b [] (by decide) hb (fun _ _ hc => nomatch hc)

def Natural.zero : Natural := .octet 0

/-- A length determinant of aligned PER. -/
inductive PerLength where
  | short (n : Nat) (h : n < 128)
  | long (n : Nat) (h : n < 16384)

def PerLength.value : PerLength → Nat
  | .short n _ => n
  | .long n _ => n

def PerLength.bytes : PerLength → Bytes
  | .short n _ => [UInt8.ofNat n]
  | .long n _ => beBytes 2 (0x8000 + n)

end Ber
