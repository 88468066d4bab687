import RdpProxy.Lib.Ber
import RdpProxy.Lib.StreamReader

/-!
# TPKT frames (`rdp/tpkt.py`)
-/

open Words Ber StreamReader

namespace RdpProxy.Rdp

def TPKT_VERSION : Nat := 3

/-- The version, a reserved byte and the length of the frame. -/
def tpktHeader (payload : Bytes) : Bytes := [UInt8.ofNat TPKT_VERSION, 0] ++ beBytes 2 (payload.length + 4)

/-- `build_tpkt`, with no result where the length does not fit in its field. -/
def buildTpkt (payload : Bytes) : Option Bytes :=
  if payload.length + 4 < 65536 then some (tpktHeader payload ++ payload) else none

inductive TpktError where
  | invalidVersion
  /-- `readexactly` of a negative size. -/
  | negativeSize
  deriving DecidableEq

/-- `read_tpkt`, where `initialData` is what the caller has already read. -/
def readTpkt (initialData : Bytes) : Reader TpktError Bytes := do
  let header ← if initialData.length < 4 then do
      let more ← readexactly (4 - initialData.length)
      pure (initialData ++ more)
    else pure initialData
  if (header.getD 0 0).toNat ≠ TPKT_VERSION then raise .invalidVersion
  else
    let totalLen := beNat (window header 2 2)
    if totalLen < 4 then raise .negativeSize else readexactly (totalLen - 4)

end RdpProxy.Rdp
