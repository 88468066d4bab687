import RdpProxy.Lib.Words

/-!
# Authenticated encryption

A cipher under one key that decrypts what it encrypted with the associated data it was encrypted with, and
with no other.
-/

open Words

/-- `encrypt` and `decrypt` take a nonce, the text and the associated data. -/
structure Aead where
  encrypt : Bytes → Bytes → Bytes → Bytes
  decrypt : Bytes → Bytes → Bytes → Option Bytes
  decrypt_encrypt : ∀ nonce plain aad, decrypt nonce (encrypt nonce plain aad) aad = some plain
  decrypt_other : ∀ nonce plain aad other, other ≠ aad → decrypt nonce (encrypt nonce plain aad) other = none

namespace Aead

theorem decrypt_eq (A : Aead) (nonce plain aad other : Bytes) :
    A.decrypt nonce (A.encrypt nonce plain aad) other = if other = aad then some plain else none := by
  split_ifs with h
  · rw [h, A.decrypt_encrypt]
  · exact A.decrypt_other nonce plain aad other h

/-! ## A cipher that hides nothing

It writes the associated data in front of the text, and looks for it there. -/

/-- The data with a mark before each byte and another one behind the last. -/
def label : Bytes → Bytes
  | [] => [0]
  | b :: aad => 1 :: b :: label aad

def afterLabel : Bytes → Bytes → Option Bytes
  | [], 0 :: rest => some rest
  | b :: aad, 1 :: c :: rest => if b = c then afterLabel aad rest else none
  | _, _ => none

theorem afterLabel_label (aad other rest : Bytes) :
    afterLabel other (label aad ++ rest) = if other = aad then some rest else none := by
  induction aad generalizing other with
  | nil =>
    cases other with
    | nil => rfl
    | cons b other => rfl
  | cons b aad ih =>
    cases other with
    | nil => rfl
    | cons c other =>
      have hread : afterLabel (c :: other) (label (b :: aad) ++ rest) =
          if c = b then afterLabel other (label aad ++ rest) else none := rfl
      rw [hread, ih]
      by_cases hcb : c = b
      · simp [hcb]
      · simp [hcb]

def transparent : Aead where
  encrypt _ plain aad := label aad ++ plain
  decrypt _ ciphertext aad := afterLabel aad ciphertext
  decrypt_encrypt _ plain aad := by rw [afterLabel_label, if_pos rfl]
  decrypt_other _ plain aad other h := by rw [afterLabel_label, if_neg h]

end Aead
