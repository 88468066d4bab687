import RdpProxy.Lib.Words

/-!
# Base 64

`base64.b64encode` and `base64.b64decode`, which passes over characters outside the alphabet.
-/

open Words

namespace Base64

/-! ## The alphabet -/

def sextetChar (n : Nat) : Char :=
  if n < 26 then Char.ofNat (65 + n)
  else if n < 52 then Char.ofNat (71 + n)
  else if n < 62 then Char.ofNat (n - 4)
  else if n = 62 then '+'
  else '/'

def sextetValue (c : Char) : Option Nat := (List.range 64).find? fun n => c = sextetChar n

theorem sextetValue_sextetChar {n : Nat} (h : n < 64) : sextetValue (sextetChar n) = some n := by
  have hall : ∀ k : Fin 64, sextetValue (sextetChar k.val) = some k.val := by decide +kernel
  exact hall ⟨n, h⟩

theorem sextetChar_ne_pad {n : Nat} (h : n < 64) : sextetChar n ≠ '=' := by
  have hall : ∀ k : Fin 64, sextetChar k.val ≠ '=' := by decide +kernel
  exact hall ⟨n, h⟩

theorem sextetChar_ascii {n : Nat} (h : n < 64) : (sextetChar n).toNat < 128 := by
  have hall : ∀ k : Fin 64, (sextetChar k.val).toNat < 128 := by decide +kernel
  exact hall ⟨n, h⟩

/-! ## Encoding -/

/-- `b64encode` -/
def encode : Bytes → List Char
  | a :: b :: c :: rest =>
    sextetChar (a.toNat / 4) :: sextetChar (a.toNat % 4 * 16 + b.toNat / 16) ::
      sextetChar (b.toNat % 16 * 4 + c.toNat / 64) :: sextetChar (c.toNat % 64) :: encode rest
  | [a, b] =>
    [sextetChar (a.toNat / 4), sextetChar (a.toNat % 4 * 16 + b.toNat / 16), sextetChar (b.toNat % 16 * 4), '=']
  | [a] => [sextetChar (a.toNat / 4), sextetChar (a.toNat % 4 * 16), '=', '=']
  | [] => []

/-! ## Decoding -/

/-- `quad` characters of the current four have been read, and `left` is what they leave for the next byte. Enough
padding behind the second or third of them ends the data. -/
def decodeFrom : Nat → Nat → Nat → List Char → Option Bytes
  | _, quad, _, [] => if quad = 0 then some [] else none
  | pads, quad, left, c :: rest =>
    if c = '=' then
      if quad < 2 then decodeFrom pads quad left rest
      else if 4 ≤ quad + (pads + 1) then some []
      else decodeFrom (pads + 1) quad left rest
    else
      match sextetValue c with
      | none => decodeFrom pads quad left rest
      | some v =>
        if quad = 0 then decodeFrom 0 1 v rest
        else if quad = 1 then (decodeFrom 0 2 (v % 16) rest).map (UInt8.ofNat (left * 4 + v / 16) :: ·)
        else if quad = 2 then (decodeFrom 0 3 (v % 4) rest).map (UInt8.ofNat (left * 16 + v / 4) :: ·)
        else (decodeFrom 0 0 0 rest).map (UInt8.ofNat (left * 64 + v) :: ·)

/-- `b64decode`, where it does not raise. -/
def decode (s : List Char) : Option Bytes := decodeFrom 0 0 0 s

/-! ## What is encoded is decoded -/

theorem decodeFrom_sextet {n : Nat} (h : n < 64) (pads quad left : Nat) (rest : List Char) :
    decodeFrom pads quad left (sextetChar n :: rest) =
      if quad = 0 then decodeFrom 0 1 n rest
      else if quad = 1 then (decodeFrom 0 2 (n % 16) rest).map (UInt8.ofNat (left * 4 + n / 16) :: ·)
      else if quad = 2 then (decodeFrom 0 3 (n % 4) rest).map (UInt8.ofNat (left * 16 + n / 4) :: ·)
      else (decodeFrom 0 0 0 rest).map (UInt8.ofNat (left * 64 + n) :: ·) := by
  rw [decodeFrom, if_neg (sextetChar_ne_pad h), sextetValue_sextetChar h]

theorem ofNat_eq {b : UInt8} {n : Nat} (h : n = b.toNat) : UInt8.ofNat n = b := by
  rw [h, UInt8.ofNat_toNat]

theorem decodeFrom_first (a : UInt8) {n : Nat} (h : n < 16) (rest : List Char) :
    decodeFrom 0 0 0 (sextetChar (a.toNat / 4) :: sextetChar (a.toNat % 4 * 16 + n) :: rest) =
      (decodeFrom 0 2 n rest).map (a :: ·) := by
  have ha := a.toNat_lt
  rw [decodeFrom_sextet (by omega), if_pos rfl, decodeFrom_sextet (by omega), if_neg (by decide), if_pos rfl,
    ofNat_eq (b := a) (by omega), show (a.toNat % 4 * 16 + n) % 16 = n by omega]

theorem decodeFrom_second (b : UInt8) {n : Nat} (h : n < 4) (rest : List Char) :
    decodeFrom 0 2 (b.toNat / 16) (sextetChar (b.toNat % 16 * 4 + n) :: rest) =
      (decodeFrom 0 3 n rest).map (b :: ·) := by
  have hb := b.toNat_lt
  rw [decodeFrom_sextet (by omega), if_neg (by decide), if_neg (by decide), if_pos rfl, ofNat_eq (b := b) (by omega),
    show (b.toNat % 16 * 4 + n) % 4 = n by omega]

theorem decodeFrom_third (c : UInt8) (rest : List Char) :
    decodeFrom 0 3 (c.toNat / 64) (sextetChar (c.toNat % 64) :: rest) = (decodeFrom 0 0 0 rest).map (c :: ·) := by
  have hc := c.toNat_lt
  rw [decodeFrom_sextet (by omega), if_neg (by decide), if_neg (by decide), if_neg (by decide),
    ofNat_eq (b := c) (by omega)]

theorem decode_encode (l : Bytes) : decode (encode l) = some l := by
  unfold decode
  induction l using encode.induct with
  | case1 a b c rest ih =>
    have hb := b.toNat_lt
    have hc := c.toNat_lt
    rw [encode, decodeFrom_first a (by omega), decodeFrom_second b (by omega), decodeFrom_third c, ih]
    rfl
  | case2 a b =>
    have hb := b.toNat_lt
    have hsecond := decodeFrom_second b (n := 0) (by omega) ['=']
    rw [Nat.add_zero] at hsecond
    rw [encode, decodeFrom_first a (by omega), hsecond]
    rfl
  | case3 a =>
    have hfirst := decodeFrom_first a (n := 0) (by omega) ['=', '=']
    rw [Nat.add_zero] at hfirst
    rw [encode, hfirst]
    rfl
  | case4 => rfl

theorem encode_ascii (l : Bytes) : ∀ c ∈ encode l, c.toNat < 128 := by
  induction l using encode.induct with
  | case1 a b c rest ih =>
    have ha := a.toNat_lt
    have hb := b.toNat_lt
    have hc := c.toNat_lt
    intro x hx
    simp only [encode, List.mem_cons] at hx
    rcases hx with rfl | rfl | rfl | rfl | hx
    · exact sextetChar_ascii (by omega)
    · exact sextetChar_ascii (by omega)
    · exact sextetChar_ascii (by omega)
    · exact sextetChar_ascii (by omega)
    · exact ih x hx
  | case2 a b =>
    have ha := a.toNat_lt
    have hb := b.toNat_lt
    intro x hx
    simp only [encode, List.mem_cons, List.not_mem_nil, or_false] at hx
    rcases hx with rfl | rfl | rfl | rfl
    · exact sextetChar_ascii (by omega)
    · exact sextetChar_ascii (by omega)
    · exact sextetChar_ascii (by omega)
    · decide
  | case3 a =>
    have ha := a.toNat_lt
    intro x hx
    simp only [encode, List.mem_cons, List.not_mem_nil, or_false] at hx
    rcases hx with rfl | rfl | rfl | rfl
    · exact sextetChar_ascii (by omega)
    · exact sextetChar_ascii (by omega)
    · decide
    · decide
  | case4 => simp [encode]

end Base64
