import RdpProxy.Rdp.Mcs

/-!
# What the MCS patches write (`rdp/mcs.py`)

The block that stops a scan is read at its first four bytes and written behind its first eight.
So the patched packet stops the scan at the same block, and the second patch finds the field
as it wants it.
-/

open Words

namespace RdpProxy.Rdp

/-- `out` is `packet` but for the four bytes from `pos` on. -/
def DiffersAt (packet out : Bytes) (pos : Nat) : Prop := ∀ k, k < pos ∨ pos + 4 ≤ k → out[k]? = packet[k]?

/-- The scan selects the block of `blockLen` bytes at `i`, and the packet changes in four bytes of it at most. -/
structure ChangedInBlock (selects : Bytes → Nat → Prop) (packet out : Bytes) (i blockLen pos : Nat) : Prop where
  selected : FirstAt (selects packet) i
  blockLen_eq : unpackLE 2 packet (i + 2) = some blockLen
  fits : i + blockLen ≤ packet.length
  inside : i ≤ pos ∧ pos + 4 ≤ i + blockLen
  differs : DiffersAt packet out pos

/-- What a patch may do to a packet: change one block that the scan selected, or nothing. -/
structure PatchedTo (selects : Bytes → Nat → Prop) (packet out : Bytes) : Prop where
  length_eq : out.length = packet.length
  changed : (∃ i blockLen pos, ChangedInBlock selects packet out i blockLen pos) ∨
    (∀ i, ¬ selects packet i) ∧ out = packet

theorem DiffersAt.refl (packet : Bytes) (pos : Nat) : DiffersAt packet packet pos := fun _ _ => rfl

theorem DiffersAt.splice {packet s : Bytes} {pos : Nat} (hs : s.length = 4) (h : pos + 4 ≤ packet.length) :
    DiffersAt packet (splice packet pos s) pos := by
  intro k hk
  rw [getElem?_splice (by omega), if_neg (by omega)]

theorem PatchedTo.of_block {t least i pos : Nat} {packet out : Bytes} (hi : FirstAt (BlockAt t least packet) i)
    (hpos : i ≤ pos) (hend : pos + 4 ≤ i + least) (hl : out.length = packet.length)
    (hd : DiffersAt packet out pos) : PatchedTo (BlockAt t least) packet out := by
  have hblock := hi
  obtain ⟨⟨blockLen, _, hlen, hleast, hfits⟩, _⟩ := hi
  exact ⟨hl, .inl ⟨i, blockLen, pos, hblock, hlen, hfits, ⟨hpos, by omega⟩, hd⟩⟩

theorem PatchedTo.of_none {t least : Nat} {packet : Bytes} (h : ∀ i, ¬ BlockAt t least packet i) :
    PatchedTo (BlockAt t least) packet packet :=
  ⟨rfl, .inr ⟨h, rfl⟩⟩

/-! ## A write behind the first four bytes of a block -/

theorem blockAt_splice {t least j pos : Nat} {packet s : Bytes} (hj : j + 4 ≤ pos)
    (hs : pos + s.length ≤ packet.length) :
    BlockAt t least (splice packet pos s) j ↔ BlockAt t least packet j := by
  simp only [BlockAt, splice_length hs]
  rw [unpackLE_splice_before (by omega) hs, unpackLE_splice_before (by omega) hs]

theorem firstAt_splice {t least i pos : Nat} {packet s : Bytes} (h : FirstAt (BlockAt t least packet) i)
    (hpos : i + 4 ≤ pos) (hs : pos + s.length ≤ packet.length) :
    FirstAt (BlockAt t least (splice packet pos s)) i :=
  h.congr fun j hj => (blockAt_splice (by omega) hs).symm

/-! ## The client patch -/

theorem bridgeAt_eq_splice {packet : Bytes} {pos : Nat} (h : unpackLE 4 packet pos = some PROTOCOL_SSL) :
    bridgeAt packet pos = splice packet pos (leBytes 4 PROTOCOL_HYBRID) := if_pos h

theorem bridgeAt_length {packet : Bytes} {pos : Nat} (h : pos + 4 ≤ packet.length) :
    (bridgeAt packet pos).length = packet.length := by
  by_cases hssl : unpackLE 4 packet pos = some PROTOCOL_SSL
  · rw [bridgeAt_eq_splice hssl]
    exact splice_length (by rwa [leBytes_length])
  · rw [bridgeAt_same hssl]

theorem bridgeAt_differsAt {packet : Bytes} {pos : Nat} (h : pos + 4 ≤ packet.length) :
    DiffersAt packet (bridgeAt packet pos) pos := by
  by_cases hssl : unpackLE 4 packet pos = some PROTOCOL_SSL
  · rw [bridgeAt_eq_splice hssl]
    exact DiffersAt.splice (leBytes_length _ _) h
  · rw [bridgeAt_same hssl]
    exact DiffersAt.refl packet pos

theorem bridgeAt_bridgeAt (packet : Bytes) (pos : Nat) :
    bridgeAt (bridgeAt packet pos) pos = bridgeAt packet pos := by
  by_cases hssl : unpackLE 4 packet pos = some PROTOCOL_SSL
  · apply bridgeAt_same
    intro hagain
    have h2 := bridgeAt_getElem? hssl pos
    rw [if_pos rfl, ssl_getElem? hagain] at h2
    exact absurd h2 (by decide)
  · rw [bridgeAt_same hssl, bridgeAt_same hssl]

theorem firstAt_bridgeAt {packet : Bytes} {i : Nat} (h : FirstAt (CsCoreAt packet) i) :
    FirstAt (CsCoreAt (bridgeAt packet (i + 212))) i := by
  by_cases hssl : unpackLE 4 packet (i + 212) = some PROTOCOL_SSL
  · rw [bridgeAt_eq_splice hssl]
    have hroom := h.1.room (n := 216) (by omega)
    exact firstAt_splice h (by omega) (by rw [leBytes_length]; omega)
  · rwa [bridgeAt_same hssl]

theorem patchMcsClient_patched (data : Bytes) : ∃ out, patchMcsClient data = some out ∧
    PatchedTo CsCoreAt data out ∧ patchMcsClient out = some out := by
  rcases patchMcsClient_cases data with ⟨i, hi, hout⟩ | ⟨hno, hout⟩
  · have hroom : i + 212 + 4 ≤ data.length := hi.1.room (n := 216) (by omega)
    refine ⟨_, hout, ?_, ?_⟩
    · exact PatchedTo.of_block hi (by omega) (by omega) (bridgeAt_length hroom) (bridgeAt_differsAt hroom)
    · rw [patchMcsClient_first (firstAt_bridgeAt hi), bridgeAt_bridgeAt]
  · exact ⟨data, hout, PatchedTo.of_none hno, hout⟩

/-! ## The server patch -/

theorem patchMcsServer_patched (data : Bytes) {crp : Option Nat} (hcrp : crp.getD PROTOCOL_SSL < 256 ^ 4) :
    ∃ out, patchMcsServer data crp = some out ∧ PatchedTo ScCoreAt data out ∧
      patchMcsServer out crp = some out := by
  rcases patchMcsServer_cases data hcrp with ⟨i, hi, hout⟩ | ⟨hno, hout⟩
  · have hroom : i + 8 + 4 ≤ data.length := hi.1.room (n := 12) (by omega)
    refine ⟨_, hout, ?_, ?_⟩
    · exact PatchedTo.of_block hi (by omega) (by omega) (splice_length (by rwa [leBytes_length]))
        (DiffersAt.splice (leBytes_length _ _) hroom)
    · rw [patchMcsServer_first hcrp (firstAt_splice hi (by omega) (by rwa [leBytes_length])),
        splice_splice (by rwa [leBytes_length])]
  · exact ⟨data, hout, PatchedTo.of_none hno, hout⟩

/-! ## Both -/

theorem target_lt (crp : Option UInt32) : (crp.map UInt32.toNat).getD PROTOCOL_SSL < 256 ^ 4 := by
  cases crp with
  | none => decide
  | some target => exact target.toNat_lt

/-- Neither patch raises on any packet. Each writes into four bytes of the block it selected, and
patching once more changes nothing. -/
theorem mcs_patches_write_one_window (data : Bytes) (crp : Option UInt32) :
    (∃ out, patchMcsClient data = some out ∧ PatchedTo CsCoreAt data out ∧ patchMcsClient out = some out) ∧
    (∃ out, patchMcsServer data (crp.map UInt32.toNat) = some out ∧ PatchedTo ScCoreAt data out ∧
      patchMcsServer out (crp.map UInt32.toNat) = some out) :=
  ⟨patchMcsClient_patched data, patchMcsServer_patched data (target_lt crp)⟩

end RdpProxy.Rdp
