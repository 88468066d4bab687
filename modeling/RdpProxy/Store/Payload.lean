import RdpProxy.Lib.RedisKey

/-!
# What `SessionStore` keeps under a session key

The JSON payloads of `redis_store/sessions.py` as records. A portal session and an
admin session share the two stamps that every lookup reads.
-/

namespace RdpProxy.Store

/-- The output of `sha256(...).hexdigest()`, which is never the empty string. -/
structure HexDigest where
  hex : String
  nonempty : hex ≠ ""
  deriving DecidableEq

structure WebFields where
  username : String
  passwordEnc : String
  groups : List String
  groupGuids : List String
  deriving DecidableEq

structure AdminFields where
  adminUserId : String
  username : String
  mustChangePassword : Bool
  allowedIps : List String
  deriving DecidableEq

inductive Kind where
  | web
  | admin

abbrev Fields : Kind → Type
  | .web => WebFields
  | .admin => AdminFields

structure Payload (F : Type) where
  browserFingerprint : Option HexDigest
  lastSeenTs : Option Int
  fields : F
  deriving DecidableEq

def Payload.touch {F : Type} (p : Payload F) (now : Int) : Payload F := { p with lastSeenTs := some now }

/-- The settings of `SessionStore` that a lookup reads. The digest is SHA-256. -/
structure SessionStore where
  webIdleTtl : Int
  fingerprintDigest : String → HexDigest

variable {F : Type}

/-- `expected_fp and expected_fp != self._fingerprint_digest(browser_fingerprint)` -/
def SessionStore.fingerprintMismatch (store : SessionStore) (fp : String) (p : Payload F) : Bool :=
  match p.browserFingerprint with
  | none => false
  | some expectedFp => expectedFp ≠ store.fingerprintDigest fp

/-- `now - last_seen_ts > self.web_idle_ttl`, with `now` for a payload that has no stamp. -/
def SessionStore.idleTooLong (store : SessionStore) (now : Int) (p : Payload F) : Bool :=
  now - p.lastSeenTs.getD now > store.webIdleTtl

def SessionStore.Admits (store : SessionStore) (fp : String) (now : Int) (p : Payload F) : Prop :=
  (p.browserFingerprint = none ∨ p.browserFingerprint = some (store.fingerprintDigest fp)) ∧
    now - p.lastSeenTs.getD now ≤ store.webIdleTtl

instance (store : SessionStore) (fp : String) (now : Int) (p : Payload F) :
    Decidable (store.Admits fp now p) := inferInstanceAs (Decidable (_ ∧ _))

theorem mismatch_iff (store : SessionStore) (fp : String) (p : Payload F) :
    store.fingerprintMismatch fp p = true ↔
      ¬ (p.browserFingerprint = none ∨ p.browserFingerprint = some (store.fingerprintDigest fp)) := by
  unfold SessionStore.fingerprintMismatch
  cases p.browserFingerprint with
  | none => simp
  | some e => simp

theorem idle_iff (store : SessionStore) (now : Int) (p : Payload F) :
    store.idleTooLong now p = true ↔ ¬ now - p.lastSeenTs.getD now ≤ store.webIdleTtl := by
  rw [SessionStore.idleTooLong, decide_eq_true_iff, Int.not_le, gt_iff_lt]

theorem admits_iff (store : SessionStore) (fp : String) (now : Int) (p : Payload F) :
    store.Admits fp now p ↔
      ¬ (store.fingerprintMismatch fp p = true ∨ store.idleTooLong now p = true) := by
  rw [mismatch_iff, idle_iff, not_or, not_not, not_not, SessionStore.Admits]

end RdpProxy.Store
