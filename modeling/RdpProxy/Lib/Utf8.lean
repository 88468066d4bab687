import RdpProxy.Lib.Text

/-!
# UTF-8

`str.encode("utf-8")` and `bytes.decode("utf-8")` as inverses, and the ASCII bytes of a text:
none of them is part of another character.
-/

open Words

namespace Text

/-- `bytes.decode("utf-8")`, where it does not raise. -/
def decodeUtf8 (l : Bytes) : Option (List Char) := l.toByteArray.utf8Decode?.map Array.toList

theorem decodeUtf8_utf8 (s : List Char) : decodeUtf8 (utf8 s) = some s := by
  have h : s.utf8Encode.utf8Decode? = some s.toArray := List.utf8Decode?_utf8Encode
  unfold decodeUtf8 utf8
  rw [show (s.flatMap String.utf8EncodeChar).toByteArray = s.utf8Encode from rfl, h]
  rfl

theorem utf8_injective {s t : List Char} (h : utf8 s = utf8 t) : s = t := by
  have hs := decodeUtf8_utf8 s
  rw [h, decodeUtf8_utf8] at hs
  exact (Option.some.inj hs).symm

@[simp] theorem utf8_append (s t : List Char) : utf8 (s ++ t) = utf8 s ++ utf8 t := by simp [utf8]

theorem utf8_eq_nil {s : List Char} : utf8 s = [] ↔ s = [] := by
  constructor
  · intro h
    exact utf8_injective (t := []) h
  · rintro rfl
    rfl

theorem utf8EncodeChar_ascii {c : Char} (h : c.toNat < 128) : String.utf8EncodeChar c = [UInt8.ofNat c.toNat] := by
  unfold String.utf8EncodeChar
  exact if_pos (Nat.le_of_lt_succ h)

theorem le_of_mem_utf8EncodeChar {c : Char} (h : 128 ≤ c.toNat) {b : UInt8} (hb : b ∈ String.utf8EncodeChar c) :
    128 ≤ b.toNat := by
  have hv : ¬ c.val.toNat ≤ 0x7f := by
    have : c.toNat = c.val.toNat := rfl
    omega
  unfold String.utf8EncodeChar at hb
  simp only [if_neg hv] at hb
  split_ifs at hb
  · simp only [List.mem_cons, List.not_mem_nil, or_false] at hb
    rcases hb with rfl | rfl <;> simp only [UInt8.toNat_ofNat'] <;> omega
  · simp only [List.mem_cons, List.not_mem_nil, or_false] at hb
    rcases hb with rfl | rfl | rfl <;> simp only [UInt8.toNat_ofNat'] <;> omega
  · simp only [List.mem_cons, List.not_mem_nil, or_false] at hb
    rcases hb with rfl | rfl | rfl | rfl <;> simp only [UInt8.toNat_ofNat'] <;> omega

theorem mem_utf8EncodeChar_ascii {b : UInt8} (hb : b.toNat < 128) (c : Char) :
    b ∈ String.utf8EncodeChar c ↔ c.toNat = b.toNat := by
  by_cases hc : c.toNat < 128
  · rw [utf8EncodeChar_ascii hc, List.mem_singleton, ← UInt8.toNat_inj, toNat_ofNat_char hc, eq_comm]
  · constructor
    · intro hmem
      have := le_of_mem_utf8EncodeChar (by omega) hmem
      omega
    · intro heq
      omega

theorem mem_utf8_ascii {b : UInt8} (hb : b.toNat < 128) (s : List Char) :
    b ∈ utf8 s ↔ ∃ c ∈ s, c.toNat = b.toNat := by
  simp only [utf8, List.mem_flatMap, mem_utf8EncodeChar_ascii hb]

end Text
