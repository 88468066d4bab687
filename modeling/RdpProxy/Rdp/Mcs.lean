import RdpProxy.Lib.Words

/-!
# The MCS patches (`rdp/mcs.py`)

Both functions scan a packet for the two bytes of a block type. `none` is a
`struct.error`, which neither function ever raises.
-/

open Words

namespace RdpProxy.Rdp

def PROTOCOL_SSL : Nat := 0x00000001
def PROTOCOL_HYBRID : Nat := 0x00000002
def TS_UD_CS_CORE : Nat := 0xC001
def TS_UD_SC_CORE : Nat := 0x0C01
def REQUESTED_PROTOCOLS_HYBRID : Nat := 0x00000003

theorem requested_protocols_hybrid_lt : REQUESTED_PROTOCOLS_HYBRID < 256 ^ 4 := by decide

/-! ## The source -/

/-- The loop over the field sizes: `none` where a field does not fit before `payloadEnd`. -/
def skipFields (payloadEnd : Nat) : List Nat → Nat → Option Nat
  | [], pos => some pos
  | size :: sizes, pos => if pos + size > payloadEnd then none else skipFields payloadEnd sizes (pos + size)

/-- `_patch_cs_core_server_selected_protocol`: the packet and the patched offset. -/
def patchCsCoreServerSelectedProtocol (packet : Bytes) (corePayloadOff coreBlockLen : Nat) :
    Option (Bytes × Option Nat) :=
  let corePayloadEnd := corePayloadOff + (coreBlockLen - 4)
  if corePayloadEnd > packet.length then some (packet, none)
  else
    let pos := corePayloadOff + 128
    if pos > corePayloadEnd then some (packet, none)
    else
      match skipFields corePayloadEnd [2, 2, 4, 2, 2, 2, 64, 1, 1] pos with
      | none => some (packet, none)
      | some pos =>
        if pos + 4 > corePayloadEnd then some (packet, none)
        else do
          let current ← unpackLE 4 packet pos
          if current = 0x00000001 then
            let packet ← packLE 4 packet pos 0x00000002
            return (packet, some pos)
          else return (packet, some pos)

/-- The scan of `patch_mcs_client` over the indices still to visit. -/
def patchClientLoop (packet : Bytes) : List Nat → Option Bytes
  | [] => some packet
  | i :: rest => do
    let blockType ← unpackLE 2 packet i
    if blockType ≠ TS_UD_CS_CORE then patchClientLoop packet rest
    else
      let blockLen ← unpackLE 2 packet (i + 2)
      if blockLen < 132 ∨ i + blockLen > packet.length then patchClientLoop packet rest
      else
        let (packet, patchedOff) ← patchCsCoreServerSelectedProtocol packet (i + 4) blockLen
        match patchedOff with
        | none => patchClientLoop packet rest
        | some _ => return packet

def patchMcsClient (data : Bytes) : Option Bytes := patchClientLoop data (List.range (data.length - 3))

def patchServerLoop (packet : Bytes) (clientRequestedProtocols : Option Nat) : List Nat → Option Bytes
  | [] => some packet
  | i :: rest => do
    let blockType ← unpackLE 2 packet i
    if blockType ≠ TS_UD_SC_CORE then patchServerLoop packet clientRequestedProtocols rest
    else
      let blockLen ← unpackLE 2 packet (i + 2)
      if blockLen < 12 ∨ i + blockLen > packet.length then
        patchServerLoop packet clientRequestedProtocols rest
      else
        let off := i + 8
        let current ← unpackLE 4 packet off
        let target := clientRequestedProtocols.getD PROTOCOL_SSL
        if current ≠ target then packLE 4 packet off target else return packet

def patchMcsServer (data : Bytes) (clientRequestedProtocols : Option Nat) : Option Bytes :=
  patchServerLoop data clientRequestedProtocols (List.range (data.length - 3))

/-! ## Where the scans stop -/

/-- What stops a scan for `blockType` at `i`: the type, and a block length that is at least
`least` and fits in the packet. -/
def BlockAt (blockType least : Nat) (packet : Bytes) (i : Nat) : Prop :=
  ∃ blockLen, unpackLE 2 packet i = some blockType ∧ unpackLE 2 packet (i + 2) = some blockLen ∧
    least ≤ blockLen ∧ i + blockLen ≤ packet.length

/-- The client scan also needs room for `serverSelectedProtocol`, which ends at byte 216. -/
abbrev CsCoreAt : Bytes → Nat → Prop := BlockAt TS_UD_CS_CORE 216

abbrev ScCoreAt : Bytes → Nat → Prop := BlockAt TS_UD_SC_CORE 12

theorem BlockAt.lt {t least i : Nat} {packet : Bytes} (h : BlockAt t least packet i) :
    i < packet.length - 3 := by
  obtain ⟨_, _, hl, _, _⟩ := h
  have := (unpackLE_eq_some.mp hl).1
  omega

theorem BlockAt.room {t least i n : Nat} {packet : Bytes} (h : BlockAt t least packet i) (hn : n ≤ least) :
    i + n ≤ packet.length := by
  obtain ⟨_, _, _, _, _⟩ := h
  omega

/-! ## The client patch -/

/-- The field at `pos` changed from SSL to HYBRID, where it is SSL. -/
def bridgeAt (packet : Bytes) (pos : Nat) : Bytes :=
  if unpackLE 4 packet pos = some PROTOCOL_SSL then splice packet pos (leBytes 4 PROTOCOL_HYBRID) else packet

theorem skipFields_eq (payloadEnd : Nat) (sizes : List Nat) (pos : Nat) (hpos : pos ≤ payloadEnd) :
    skipFields payloadEnd sizes pos = if pos + sizes.sum ≤ payloadEnd then some (pos + sizes.sum) else none := by
  induction sizes generalizing pos with
  | nil => simp [skipFields, hpos]
  | cons size sizes ih =>
    rw [skipFields, List.sum_cons]
    split_ifs with h1 h2 h2
    · omega
    · rfl
    · rw [ih (pos + size) (by omega), if_pos (by omega), Nat.add_assoc]
    · rw [ih (pos + size) (by omega), if_neg (by omega)]

theorem patchCsCore_spec (packet : Bytes) (off len : Nat) (hin : off + (len - 4) ≤ packet.length) :
    patchCsCoreServerSelectedProtocol packet off len =
      if 216 ≤ len then some (bridgeAt packet (off + 208), some (off + 208)) else some (packet, none) := by
  unfold patchCsCoreServerSelectedProtocol
  rw [if_neg (by omega)]
  by_cases h216 : 216 ≤ len
  · -- The nine fields take 80 bytes, and four more must follow.
    have hskip : skipFields (off + (len - 4)) [2, 2, 4, 2, 2, 2, 64, 1, 1] (off + 128) = some (off + 208) := by
      rw [skipFields_eq _ _ _ (by omega)]
      exact if_pos (by simp; omega)
    obtain ⟨v, hv⟩ := unpackLE_isSome 4 packet (off + 208) (by omega)
    simp only [hskip]
    rw [if_neg (by omega), if_neg (by omega), if_pos h216, bridgeAt, hv]
    simp only [Option.bind_eq_bind, Option.bind_some, Option.some.injEq, PROTOCOL_SSL]
    split_ifs with hssl
    · rw [packLE_eq (by omega) (by omega)]; rfl
    · rfl
  · rw [if_neg h216]
    simp only
    split_ifs with h128
    · rfl
    · have hskip : skipFields (off + (len - 4)) [2, 2, 4, 2, 2, 2, 64, 1, 1] (off + 128) = none ∨
          skipFields (off + (len - 4)) [2, 2, 4, 2, 2, 2, 64, 1, 1] (off + 128) = some (off + 208) := by
        rw [skipFields_eq _ _ _ (by omega)]
        split_ifs <;> simp
      rcases hskip with hskip | hskip <;> simp only [hskip]
      rw [if_pos (by omega)]

theorem bridgeAt_same {packet : Bytes} {pos : Nat} (h : unpackLE 4 packet pos ≠ some PROTOCOL_SSL) :
    bridgeAt packet pos = packet := if_neg h

theorem bridgeAt_getElem? {packet : Bytes} {pos : Nat} (h : unpackLE 4 packet pos = some PROTOCOL_SSL)
    (k : Nat) : (bridgeAt packet pos)[k]? = if k = pos then some 2 else packet[k]? := by
  obtain ⟨hl, hw⟩ := (unpackLE_iff_window (by decide)).mp h
  rw [bridgeAt, if_pos h, getElem?_splice (by simpa using hl), leBytes_length]
  by_cases hk : pos ≤ k ∧ k < pos + 4
  · rw [if_pos hk]
    obtain ⟨d, rfl⟩ := Nat.exists_eq_add_of_le hk.1
    have hd : d < 4 := by omega
    have hold := getElem?_window packet pos 4 d
    rw [hw, if_pos hd] at hold
    rw [← hold, Nat.add_sub_cancel_left]
    match d, hd with
    | 0, _ => simp; rfl
    | 1, _ => simp; rfl
    | 2, _ => simp; rfl
    | 3, _ => simp; rfl
  · rw [if_neg hk, if_neg (by omega)]

theorem ssl_getElem? {packet : Bytes} {pos : Nat} (h : unpackLE 4 packet pos = some PROTOCOL_SSL) :
    packet[pos]? = some 1 := by
  obtain ⟨_, hw⟩ := (unpackLE_iff_window (by decide)).mp h
  have := getElem?_window packet pos 4 0
  rw [hw] at this
  exact this.symm

theorem bridgeAt_eq_iff (packet : Bytes) (a b : Nat) : bridgeAt packet a = bridgeAt packet b ↔
    a = b ∨ unpackLE 4 packet a ≠ some PROTOCOL_SSL ∧ unpackLE 4 packet b ≠ some PROTOCOL_SSL := by
  constructor
  · intro h
    by_cases ha : unpackLE 4 packet a = some PROTOCOL_SSL
    · left
      by_contra hne
      have h2 := bridgeAt_getElem? ha a
      rw [if_pos rfl, h] at h2
      by_cases hb : unpackLE 4 packet b = some PROTOCOL_SSL
      · rw [bridgeAt_getElem? hb, if_neg hne, ssl_getElem? ha] at h2
        exact absurd h2 (by decide)
      · rw [bridgeAt_same hb, ssl_getElem? ha] at h2
        exact absurd h2 (by decide)
    · by_cases hb : unpackLE 4 packet b = some PROTOCOL_SSL
      · have h2 := bridgeAt_getElem? hb b
        rw [if_pos rfl, ← h, bridgeAt_same ha, ssl_getElem? hb] at h2
        exact absurd h2 (by decide)
      · exact Or.inr ⟨ha, hb⟩
  · rintro (rfl | ⟨ha, hb⟩)
    · rfl
    · rw [bridgeAt_same ha, bridgeAt_same hb]

theorem bridgeAt_eq_self_iff (packet : Bytes) (a : Nat) :
    bridgeAt packet a = packet ↔ unpackLE 4 packet a ≠ some PROTOCOL_SSL := by
  refine ⟨fun h ha => ?_, bridgeAt_same⟩
  have h2 := bridgeAt_getElem? ha a
  rw [if_pos rfl, h, ssl_getElem? ha] at h2
  exact absurd h2 (by decide)

theorem patchClientLoop_skip (packet : Bytes) (i : Nat) (rest : List Nat) (hi : i < packet.length - 3)
    (h : ¬ CsCoreAt packet i) : patchClientLoop packet (i :: rest) = patchClientLoop packet rest := by
  obtain ⟨t, ht⟩ := unpackLE_isSome 2 packet i (by omega)
  obtain ⟨len, hlen⟩ := unpackLE_isSome 2 packet (i + 2) (by omega)
  rw [patchClientLoop, ht, hlen]
  simp only [Option.bind_eq_bind, Option.bind_some]
  split_ifs with h1 h2
  · rfl
  · rfl
  · rw [not_not] at h1
    have hshort : ¬ 216 ≤ len := fun h216 => h ⟨len, h1 ▸ ht, hlen, h216, by omega⟩
    rw [patchCsCore_spec _ _ _ (by omega), if_neg hshort]
    rfl

theorem patchClientLoop_stop (packet : Bytes) (i : Nat) (rest : List Nat) (h : CsCoreAt packet i) :
    patchClientLoop packet (i :: rest) = some (bridgeAt packet (i + 212)) := by
  obtain ⟨len, ht, hlen, h216, hfit⟩ := h
  rw [patchClientLoop, ht, hlen]
  simp only [Option.bind_eq_bind, Option.bind_some, ne_eq, not_true, if_false]
  rw [if_neg (by omega), patchCsCore_spec _ _ _ (by omega), if_pos h216]
  rfl

theorem patchMcsClient_first {packet : Bytes} {i : Nat} (h : FirstAt (CsCoreAt packet) i) :
    patchMcsClient packet = some (bridgeAt packet (i + 212)) :=
  scan_first (patchClientLoop_skip packet) (patchClientLoop_stop packet) h.1.lt h

theorem patchMcsClient_none {packet : Bytes} (h : ∀ i, ¬ CsCoreAt packet i) :
    patchMcsClient packet = some packet :=
  scan_none (patchClientLoop_skip packet) h

theorem patchMcsClient_cases (packet : Bytes) :
    (∃ i, FirstAt (CsCoreAt packet) i ∧ patchMcsClient packet = some (bridgeAt packet (i + 212))) ∨
      (∀ i, ¬ CsCoreAt packet i) ∧ patchMcsClient packet = some packet := by
  by_cases h : ∃ i, CsCoreAt packet i
  · obtain ⟨i, hi⟩ := h
    obtain ⟨j, _, hj⟩ := exists_firstAt hi
    exact Or.inl ⟨j, hj, patchMcsClient_first hj⟩
  · have hno : ∀ i, ¬ CsCoreAt packet i := fun i hi => h ⟨i, hi⟩
    exact Or.inr ⟨hno, patchMcsClient_none hno⟩

/-! ## The server patch -/

theorem patchServerLoop_skip (packet : Bytes) (crp : Option Nat) (i : Nat) (rest : List Nat)
    (hi : i < packet.length - 3) (h : ¬ ScCoreAt packet i) :
    patchServerLoop packet crp (i :: rest) = patchServerLoop packet crp rest := by
  obtain ⟨t, ht⟩ := unpackLE_isSome 2 packet i (by omega)
  obtain ⟨len, hlen⟩ := unpackLE_isSome 2 packet (i + 2) (by omega)
  rw [patchServerLoop, ht, hlen]
  simp only [Option.bind_eq_bind, Option.bind_some]
  split_ifs with h1 h2
  · rfl
  · rfl
  · rw [not_not] at h1
    exact absurd ⟨len, h1 ▸ ht, hlen, by omega, by omega⟩ h

theorem patchServerLoop_stop (packet : Bytes) (crp : Option Nat) (hcrp : crp.getD PROTOCOL_SSL < 256 ^ 4)
    (i : Nat) (rest : List Nat) (h : ScCoreAt packet i) :
    patchServerLoop packet crp (i :: rest) =
      some (splice packet (i + 8) (leBytes 4 (crp.getD PROTOCOL_SSL))) := by
  have hroom := h.room (n := 12) (by omega)
  obtain ⟨len, ht, hlen, h12, hfit⟩ := h
  obtain ⟨v, hv⟩ := unpackLE_isSome 4 packet (i + 8) (by omega)
  rw [patchServerLoop, ht, hlen]
  simp only [Option.bind_eq_bind, Option.bind_some, ne_eq, not_true, if_false]
  rw [if_neg (by omega), hv]
  simp only [Option.bind_some]
  split_ifs with hsame
  · -- The field holds the target already.
    rw [hsame] at hv
    have hw := ((unpackLE_iff_window hcrp).mp hv).2
    rw [splice_window (by rwa [leBytes_length])]
    rfl
  · exact packLE_eq (by omega) hcrp

theorem patchMcsServer_first {packet : Bytes} {crp : Option Nat} {i : Nat}
    (hcrp : crp.getD PROTOCOL_SSL < 256 ^ 4) (h : FirstAt (ScCoreAt packet) i) :
    patchMcsServer packet crp = some (splice packet (i + 8) (leBytes 4 (crp.getD PROTOCOL_SSL))) :=
  scan_first (patchServerLoop_skip packet crp) (patchServerLoop_stop packet crp hcrp) h.1.lt h

theorem patchMcsServer_none {packet : Bytes} {crp : Option Nat} (h : ∀ i, ¬ ScCoreAt packet i) :
    patchMcsServer packet crp = some packet :=
  scan_none (patchServerLoop_skip packet crp) h

theorem patchMcsServer_cases (packet : Bytes) {crp : Option Nat} (hcrp : crp.getD PROTOCOL_SSL < 256 ^ 4) :
    (∃ i, FirstAt (ScCoreAt packet) i ∧
      patchMcsServer packet crp = some (splice packet (i + 8) (leBytes 4 (crp.getD PROTOCOL_SSL)))) ∨
      (∀ i, ¬ ScCoreAt packet i) ∧ patchMcsServer packet crp = some packet := by
  by_cases h : ∃ i, ScCoreAt packet i
  · obtain ⟨i, hi⟩ := h
    obtain ⟨j, _, hj⟩ := exists_firstAt hi
    exact Or.inl ⟨j, hj, patchMcsServer_first hcrp hj⟩
  · have hno : ∀ i, ¬ ScCoreAt packet i := fun i hi => h ⟨i, hi⟩
    exact Or.inr ⟨hno, patchMcsServer_none hno⟩

end RdpProxy.Rdp
