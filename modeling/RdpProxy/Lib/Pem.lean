import Mathlib.Tactic.Common
import RdpProxy.Lib.Words

/-!
# Certificates and private keys in PEM texts

What the blocks of a text are is left to a reader. A context takes the first certificate of one text and the first
private key of another, if they are of one key.
-/

open Words

namespace Pem

inductive Block (K : Type) where
  | certificate (key : K)
  | privateKey (key : K)

def Block.certKey {K : Type} : Block K → Option K
  | .certificate key => some key
  | .privateKey _ => none

def Block.privKey {K : Type} : Block K → Option K
  | .certificate _ => none
  | .privateKey key => some key

structure Reader (K : Type) where
  blocks : Bytes → List (Block K)
  /-- An empty file has no block. -/
  blocks_nil : blocks [] = []

variable {K : Type} (r : Reader K)

namespace Reader

def certKey (text : Bytes) : Option K := (r.blocks text).findSome? Block.certKey

def privKey (text : Bytes) : Option K := (r.blocks text).findSome? Block.privKey

/-- `SSLContext.load_cert_chain`: the key that is loaded, and none where it raises. -/
def loadCertChain [DecidableEq K] (certfile keyfile : Bytes) : Option K :=
  match r.certKey certfile, r.privKey keyfile with
  | some cert, some key => if cert = key then some key else none
  | _, _ => none

/-- The text ends between two blocks, so that the blocks of what is put behind it are read as they are. -/
def Whole (text : Bytes) : Prop := ∀ rest, r.blocks (text ++ rest) = r.blocks text ++ r.blocks rest

/-- A chain of certificates only, the first one for the one private key of the other text. -/
structure Issued (chain key : Bytes) : Prop where
  whole : r.Whole chain
  leaf : ∃ (k : K) (issuers : List K), r.blocks chain = .certificate k :: issuers.map .certificate ∧ r.blocks key = [.privateKey k]

variable {r} {certfile keyfile chain key : Bytes} {k : K}

theorem certKey_nil : r.certKey [] = none := by
  unfold certKey
  rw [r.blocks_nil]
  rfl

theorem privKey_nil : r.privKey [] = none := by
  unfold privKey
  rw [r.blocks_nil]
  rfl

theorem loadCertChain_iff [DecidableEq K] :
    r.loadCertChain certfile keyfile = some k ↔ r.certKey certfile = some k ∧ r.privKey keyfile = some k := by
  unfold loadCertChain
  rcases r.certKey certfile with _ | cert
  · simp
  · rcases r.privKey keyfile with _ | key
    · simp
    · dsimp only
      split_ifs with hsame
      · simp [hsame]
      · simp only [Option.some.injEq]
        constructor
        · rintro ⟨⟩
        · rintro ⟨rfl, rfl⟩
          exact absurd rfl hsame

theorem privKey_certificates (issuers : List K) : (issuers.map Block.certificate).findSome? Block.privKey = none := by
  simp [Block.privKey]

theorem Issued.keys (h : r.Issued chain key) :
    ∃ k, r.certKey chain = some k ∧ r.privKey key = some k ∧ r.privKey chain = none ∧
      r.certKey (chain ++ key) = some k ∧ r.privKey (chain ++ key) = some k := by
  obtain ⟨k, issuers, hchain, hkey⟩ := h.leaf
  have hnone : r.privKey chain = none := by
    unfold privKey
    rw [hchain, List.findSome?_cons]
    exact privKey_certificates issuers
  refine ⟨k, ?_, ?_, hnone, ?_, ?_⟩
  · unfold certKey
    rw [hchain]
    rfl
  · unfold privKey
    rw [hkey]
    rfl
  · unfold certKey
    rw [h.whole, hchain]
    rfl
  · unfold privKey at hnone ⊢
    rw [h.whole, List.findSome?_append, hnone, hkey]
    rfl

end Reader

end Pem
