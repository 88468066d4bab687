import RdpProxy.Lib.IpAddress
import RdpProxy.Lib.StreamReader

/-!
# The PROXY header (`proxy_protocol/parser.py`)
-/

open Words Ber Text StreamReader

namespace RdpProxy.Relay

/-! ## The source -/

def PP_V2_SIGNATURE : Bytes := [0x0D, 0x0A, 0x0D, 0x0A, 0x00, 0x0D, 0x0A, 0x51, 0x55, 0x49, 0x54, 0x0A]

def PP_V1_PREFIX : Bytes := ascii "PROXY "

structure ProxyInfo where
  srcAddr : List Char
  srcPort : Int
  dstAddr : List Char
  dstPort : Int
  version : Nat
  deriving DecidableEq

/-- The exceptions of the parser's own. -/
inductive PpError where
  | notAHeader
  | unexpectedVersion
  | inetTooShort
  | inet6TooShort
  | unsupportedFamily
  | headerTooLong
  | notAscii
  | notEnoughFields
  | notANumber
  deriving DecidableEq

abbrev PpReader (α : Type) := Reader PpError α

/-- What the header says, once all of it is there. -/
def v2Info (verCmd family : UInt8) (addrData : Bytes) : Except PpError ProxyInfo :=
  let ver := verCmd.toNat / 16
  let cmd := verCmd.toNat % 16
  let af := family.toNat / 16
  if ver ≠ 2 then .error .unexpectedVersion
  else if cmd = 0 then .ok ⟨"local".toList, 0, "local".toList, 0, 2⟩
  else if af = 1 then
    if addrData.length < 12 then .error .inetTooShort
    else
      .ok ⟨IpAddress.ipv4Text (window addrData 0 4), beNat (window addrData 8 2),
        IpAddress.ipv4Text (window addrData 4 4), beNat (window addrData 10 2), 2⟩
  else if af = 2 then
    if addrData.length < 36 then .error .inet6TooShort
    else
      .ok ⟨IpAddress.ipv6Text (window addrData 0 16), beNat (window addrData 32 2),
        IpAddress.ipv6Text (window addrData 16 16), beNat (window addrData 34 2), 2⟩
  else .error .unsupportedFamily

def parseV2 (initial : Bytes) : PpReader ProxyInfo := do
  let more ← readexactly 3
  let header := initial ++ more
  let addrLen := beNat (window header 14 2)
  let addrData ← if 0 < addrLen then readexactly addrLen else pure []
  ofExcept (v2Info (header.getD 12 0) (header.getD 13 0) addrData)

def lineEnd : Bytes := [0x0D, 0x0A]

/-- The loop of `_parse_v1`. `room` is how many bytes keep the buffer within 512. -/
def readLine : Nat → Bytes → PpReader Bytes
  | 0, buf =>
    if (find buf lineEnd 0).isSome then pure buf
    else do
      let _ ← readexactly 1
      raise .headerTooLong
  | room + 1, buf =>
    if (find buf lineEnd 0).isSome then pure buf
    else do
      let chunk ← readexactly 1
      readLine room (buf ++ chunk)

/-- What the line says. -/
def v1Info (buf : Bytes) : Except PpError ProxyInfo :=
  let line := buf.take ((find buf lineEnd 0).getD buf.length)
  match decodeAscii line with
  | none => .error .notAscii
  | some line =>
    match split line with
    | _ :: _ :: srcAddr :: dstAddr :: srcPort :: dstPort :: _ =>
      match int srcPort, int dstPort with
      | some srcPort, some dstPort => .ok ⟨srcAddr, srcPort, dstAddr, dstPort, 1⟩
      | _, _ => .error .notANumber
    | _ => .error .notEnoughFields

def parseV1 (initial : Bytes) : PpReader ProxyInfo := do
  let buf ← readLine (512 - initial.length) initial
  ofExcept (v1Info buf)

def readProxyProtocol : PpReader ProxyInfo := do
  let peeked ← readexactly 13
  if peeked.take 12 = PP_V2_SIGNATURE then parseV2 peeked
  else if peeked.take 6 = PP_V1_PREFIX then parseV1 peeked
  else raise .notAHeader

/-! ## Headers -/

/-- A nonempty piece of an ASCII line without white space. -/
def IsWord (s : List Char) : Prop := s ≠ [] ∧ ∀ c ∈ s, c.toNat < 128 ∧ isSpace c = false

/-- `PROXY TCP4|TCP6 src dst sport dport` -/
structure V1Header where
  six : Bool
  src : List Char
  dst : List Char
  srcPort : Fin 65536
  dstPort : Fin 65536
  src_word : IsWord src
  dst_word : IsWord dst
  short : src.length + dst.length + (decimal srcPort).length + (decimal dstPort).length + 16 ≤ 107

def V1Header.words (h : V1Header) : List (List Char) :=
  ["PROXY".toList, if h.six then "TCP6".toList else "TCP4".toList, h.src, h.dst, decimal h.srcPort, decimal h.dstPort]

def V1Header.line (h : V1Header) : List Char := [' '].intercalate h.words

def V1Header.bytes (h : V1Header) : Bytes := encodeAscii h.line ++ lineEnd

inductive Family where
  | inet
  | inet6

def Family.code : Family → Nat
  | .inet => 1
  | .inet6 => 2

def Family.width : Family → Nat
  | .inet => 4
  | .inet6 => 16

def Family.address (f : Family) (b : Bytes) : IpAddress :=
  match f with
  | .inet => .v4 (beNat b)
  | .inet6 => .v6 (beNat b)

/-- A v2 header with the command PROXY. -/
structure V2Header where
  family : Family
  /-- STREAM, DGRAM, or anything else. -/
  proto : Fin 16
  src : Bytes
  dst : Bytes
  srcPort : Fin 65536
  dstPort : Fin 65536
  tlvs : Bytes
  src_width : src.length = family.width
  dst_width : dst.length = family.width
  fits : 2 * family.width + 4 + tlvs.length < 65536

def V2Header.block (h : V2Header) : Bytes := h.src ++ h.dst ++ beBytes 2 h.srcPort ++ beBytes 2 h.dstPort ++ h.tlvs

/-- The fixed part of a v2 header and its block. -/
def v2Bytes (verCmd family : UInt8) (block : Bytes) : Bytes :=
  PP_V2_SIGNATURE ++ [verCmd, family] ++ beBytes 2 block.length ++ block

inductive Header where
  | v1 (h : V1Header)
  | v2 (h : V2Header)
  /-- A v2 header with the command LOCAL, whatever its family and its block. -/
  | v2Local (family : UInt8) (block : Bytes) (fits : block.length < 65536)

def Header.bytes : Header → Bytes
  | .v1 h => h.bytes
  | .v2 h => v2Bytes 0x21 (UInt8.ofNat (16 * h.family.code + h.proto)) h.block
  | .v2Local family block _ => v2Bytes 0x20 family block

/-- How many bytes the header has by its own fields. -/
def Header.size : Header → Nat
  | .v1 h => h.line.length + 2
  | .v2 h => 16 + (2 * h.family.width + 4 + h.tlvs.length)
  | .v2Local _ block _ => 16 + block.length

/-- The addresses and the ports are those of the header. -/
def Header.Gives : Header → ProxyInfo → Prop
  | .v1 h, info =>
    info.srcAddr = h.src ∧ info.dstAddr = h.dst ∧ info.srcPort = h.srcPort.val ∧ info.dstPort = h.dstPort.val
  | .v2 h, info =>
    IpAddress.ipAddress info.srcAddr = some (h.family.address h.src) ∧
      IpAddress.ipAddress info.dstAddr = some (h.family.address h.dst) ∧
      info.srcPort = h.srcPort.val ∧ info.dstPort = h.dstPort.val
  | .v2Local .., info => info.srcAddr = "local".toList ∧ info.dstAddr = "local".toList

/-! ## Version 2 -/

theorem parseV2_reads {verCmd family : UInt8} {block : Bytes} {info : ProxyInfo} (hfits : block.length < 65536)
    (hinfo : v2Info verCmd family block = .ok info) :
    Reads (parseV2 (PP_V2_SIGNATURE ++ [verCmd])) ([family] ++ beBytes 2 block.length ++ block) info := by
  have hheader : PP_V2_SIGNATURE ++ [verCmd] ++ ([family] ++ beBytes 2 block.length) =
      (PP_V2_SIGNATURE ++ [verCmd, family]) ++ beBytes 2 block.length := by
    simp
  have hlen : beNat (window ((PP_V2_SIGNATURE ++ [verCmd, family]) ++ beBytes 2 block.length) 14 2) = block.length := by
    have hwindow := window_append_right (PP_V2_SIGNATURE ++ [verCmd, family]) (beBytes 2 block.length) 0 2
    rw [show (PP_V2_SIGNATURE ++ [verCmd, family]).length + 0 = 14 from rfl] at hwindow
    rw [hwindow, window, List.drop_zero, List.take_of_length_le (by simp), beNat_beBytes hfits]
  have hver : ((PP_V2_SIGNATURE ++ [verCmd, family]) ++ beBytes 2 block.length).getD 12 0 = verCmd := rfl
  have hfam : ((PP_V2_SIGNATURE ++ [verCmd, family]) ++ beBytes 2 block.length).getD 13 0 = family := rfl
  have hmore : Reads (readexactly 3 : PpReader Bytes) ([family] ++ beBytes 2 block.length) _ :=
    readexactly_reads (by simp)
  unfold parseV2
  refine hmore.bind ?_
  simp only [hheader, hlen, hver, hfam]
  by_cases hpos : 0 < block.length
  · rw [if_pos hpos]
    refine Reads.bind_pure (readexactly_reads rfl) ?_
    rw [hinfo]
    exact Reads.pure info
  · have hempty : block = [] := List.length_eq_zero_iff.mp (Nat.eq_zero_of_not_pos hpos)
    subst hempty
    rw [if_neg hpos]
    refine Reads.bind_pure (Reads.pure []) ?_
    rw [hinfo]
    exact Reads.pure info

theorem readProxyProtocol_v2 {verCmd family : UInt8} {block : Bytes} {info : ProxyInfo} (hfits : block.length < 65536)
    (hinfo : v2Info verCmd family block = .ok info) : Reads readProxyProtocol (v2Bytes verCmd family block) info := by
  have hbytes : v2Bytes verCmd family block =
      (PP_V2_SIGNATURE ++ [verCmd]) ++ ([family] ++ beBytes 2 block.length ++ block) := by
    unfold v2Bytes
    simp
  have hpeeked : Reads (readexactly 13 : PpReader Bytes) (PP_V2_SIGNATURE ++ [verCmd]) _ := readexactly_reads rfl
  rw [hbytes]
  unfold readProxyProtocol
  refine hpeeked.bind ?_
  have hsignature : (PP_V2_SIGNATURE ++ [verCmd]).take 12 = PP_V2_SIGNATURE := rfl
  rw [if_pos hsignature]
  exact parseV2_reads hfits hinfo

/-! ### The block of a PROXY command -/

theorem window_at {a b c : Bytes} {n : Nat} (hn : b.length = n) : window (a ++ b ++ c) a.length n = b := by
  rw [List.append_assoc]
  have h := window_append_right a (b ++ c) 0 n
  rw [Nat.add_zero] at h
  rw [h, window, List.drop_zero, List.take_left' hn]

theorem V2Header.fields (h : V2Header) : window h.block 0 h.family.width = h.src ∧
    window h.block h.family.width h.family.width = h.dst ∧
    beNat (window h.block (2 * h.family.width) 2) = h.srcPort ∧
    beNat (window h.block (2 * h.family.width + 2) 2) = h.dstPort := by
  have hsrc := h.src_width
  have hdst := h.dst_width
  unfold V2Header.block
  refine ⟨?_, ?_, ?_, ?_⟩
  · have hw := window_at (a := []) (b := h.src) (c := h.dst ++ beBytes 2 h.srcPort ++ beBytes 2 h.dstPort ++ h.tlvs) hsrc
    simpa [List.append_assoc] using hw
  · have hw := window_at (a := h.src) (b := h.dst) (c := beBytes 2 h.srcPort ++ beBytes 2 h.dstPort ++ h.tlvs) hdst
    rw [hsrc] at hw
    simpa [List.append_assoc] using hw
  · have hw := window_at (a := h.src ++ h.dst) (b := beBytes 2 h.srcPort) (c := beBytes 2 h.dstPort ++ h.tlvs)
      (beBytes_length 2 _)
    rw [List.length_append, hsrc, hdst, ← Nat.two_mul] at hw
    have hw' : window (h.src ++ h.dst ++ beBytes 2 h.srcPort ++ beBytes 2 h.dstPort ++ h.tlvs) (2 * h.family.width) 2 =
        beBytes 2 h.srcPort := by simpa [List.append_assoc] using hw
    rw [hw', beNat_beBytes h.srcPort.isLt]
  · have hw := window_at (a := h.src ++ h.dst ++ beBytes 2 h.srcPort) (b := beBytes 2 h.dstPort) (c := h.tlvs)
      (beBytes_length 2 _)
    rw [List.length_append, List.length_append, hsrc, hdst, beBytes_length, ← Nat.two_mul] at hw
    rw [hw, beNat_beBytes h.dstPort.isLt]

theorem V2Header.block_length (h : V2Header) : h.block.length = 2 * h.family.width + 4 + h.tlvs.length := by
  unfold V2Header.block
  simp only [List.length_append, h.src_width, h.dst_width, beBytes_length]
  omega

theorem v2Info_inet {family : UInt8} {block : Bytes} (haf : family.toNat / 16 = 1) (hlen : 12 ≤ block.length) :
    v2Info 0x21 family block = .ok ⟨IpAddress.ipv4Text (window block 0 4), beNat (window block 8 2),
      IpAddress.ipv4Text (window block 4 4), beNat (window block 10 2), 2⟩ := by
  unfold v2Info
  simp only [haf]
  rw [if_neg (by decide), if_neg (by decide), if_pos trivial, if_neg (by omega)]

theorem v2Info_inet6 {family : UInt8} {block : Bytes} (haf : family.toNat / 16 = 2) (hlen : 36 ≤ block.length) :
    v2Info 0x21 family block = .ok ⟨IpAddress.ipv6Text (window block 0 16), beNat (window block 32 2),
      IpAddress.ipv6Text (window block 16 16), beNat (window block 34 2), 2⟩ := by
  unfold v2Info
  simp only [haf]
  rw [if_neg (by decide), if_neg (by decide), if_neg (by decide), if_pos trivial, if_neg (by omega)]

theorem V2Header.info (h : V2Header) : ∃ info,
    v2Info 0x21 (UInt8.ofNat (16 * h.family.code + h.proto)) h.block = .ok info ∧ (Header.v2 h).Gives info := by
  obtain ⟨hsrc, hdst, hsport, hdport⟩ := h.fields
  have hlen := h.block_length
  have hproto := h.proto.isLt
  have hwsrc := h.src_width
  have hwdst := h.dst_width
  have haf : (UInt8.ofNat (16 * h.family.code + h.proto)).toNat / 16 = h.family.code := by
    rw [UInt8.toNat_ofNat']
    rcases h.family with _ | _ <;> simp only [Family.code] <;> omega
  unfold Header.Gives
  rcases hfamily : h.family with _ | _
  · rw [hfamily] at hsrc hdst hsport hdport hlen hwsrc hwdst haf
    refine ⟨_, v2Info_inet haf (by rw [hlen]; simp only [Family.width]; omega), ?_, ?_, ?_, ?_⟩
    · rw [hfamily]
      exact hsrc ▸ IpAddress.ipAddress_ipv4Text (hsrc ▸ hwsrc)
    · rw [hfamily]
      exact hdst ▸ IpAddress.ipAddress_ipv4Text (hdst ▸ hwdst)
    · exact congrArg Nat.cast hsport
    · exact congrArg Nat.cast hdport
  · rw [hfamily] at hsrc hdst hsport hdport hlen hwsrc hwdst haf
    refine ⟨_, v2Info_inet6 haf (by rw [hlen]; simp only [Family.width]; omega), ?_, ?_, ?_, ?_⟩
    · rw [hfamily]
      exact hsrc ▸ IpAddress.ipAddress_ipv6Text (hsrc ▸ hwsrc)
    · rw [hfamily]
      exact hdst ▸ IpAddress.ipAddress_ipv6Text (hdst ▸ hwdst)
    · exact congrArg Nat.cast hsport
    · exact congrArg Nat.cast hdport

/-! ## Version 1 -/

theorem find_lineEnd_none {body buf rest : Bytes} (hbody : (0x0D : UInt8) ∉ body) (hrest : rest ≠ [])
    (h : buf ++ rest = body ++ lineEnd) : find buf lineEnd 0 = none := by
  rw [find_none_iff (by decide)]
  rintro ⟨s, t, hbuf⟩
  rw [← hbuf] at h
  have hlength := congrArg List.length h
  have hpos := List.length_pos_iff.mpr hrest
  simp only [List.length_append, show lineEnd.length = 2 from rfl] at hlength
  have hat : (body ++ lineEnd)[s.length]? = some 0x0D := by
    rw [← h, List.append_assoc, List.append_assoc, List.getElem?_append_right (Nat.le_refl _), Nat.sub_self]
    rfl
  rw [List.getElem?_append_left (by omega)] at hat
  exact hbody (List.mem_of_getElem? hat)

theorem find_lineEnd {body : Bytes} (hbody : (0x0D : UInt8) ∉ body) :
    find (body ++ lineEnd) lineEnd 0 = some body.length := by
  rw [find_append_right (by decide)]
  · rfl
  · intro i hi hw
    have hat := window_eq_iff.mp hw 0 (by decide)
    rw [Nat.add_zero, List.getElem?_append_left hi] at hat
    exact hbody (List.mem_of_getElem? hat)

theorem readLine_reads {body : Bytes} (hbody : (0x0D : UInt8) ∉ body) (rest : Bytes) :
    ∀ (room : Nat) (buf : Bytes), buf ++ rest = body ++ lineEnd → rest.length ≤ room →
      Reads (readLine room buf) rest (body ++ lineEnd) := by
  induction rest with
  | nil =>
    intro room buf h _
    rw [List.append_nil] at h
    have hfound : (find buf lineEnd 0).isSome = true := by
      rw [h, find_lineEnd hbody]
      rfl
    rcases room with _ | room
    · unfold readLine
      rw [if_pos hfound, h]
      exact Reads.pure _
    · unfold readLine
      rw [if_pos hfound, h]
      exact Reads.pure _
  | cons b rest ih =>
    intro room buf h hroom
    rcases room with _ | room
    · simp at hroom
    · have hnone := find_lineEnd_none hbody (List.cons_ne_nil b rest) h
      have hone : Reads (readexactly 1 : PpReader Bytes) [b] [b] := readexactly_reads rfl
      unfold readLine
      rw [hnone, if_neg (by simp)]
      have hsplit : buf ++ [b] ++ rest = body ++ lineEnd := by
        rw [List.append_assoc]
        exact h
      exact hone.bind (ih room (buf ++ [b]) hsplit (by simpa using hroom))

/-! ### The line of a header -/

theorem IsWord.space {s : List Char} (h : IsWord s) : ∀ c ∈ s, isSpace c = false := fun c hc => (h.2 c hc).2

theorem decimal_isWord (n : Nat) : IsWord (decimal n) := by
  refine ⟨decimal_ne_nil n, ?_⟩
  intro c hc
  have hdigit := isDigit_of_mem_decimal hc
  have := toNat_of_isDigit hdigit
  exact ⟨by omega, isSpace_of_isDigit hdigit⟩

theorem isWord_of_ascii {s : List Char} (h : s ≠ [] ∧ (s.all fun c => decide (c.toNat < 128) && !isSpace c) = true) :
    IsWord s := by
  refine ⟨h.1, ?_⟩
  intro c hc
  have hall := List.all_eq_true.mp h.2 c hc
  simp only [Bool.and_eq_true, decide_eq_true_eq, Bool.not_eq_true'] at hall
  exact hall

theorem V1Header.words_isWord (h : V1Header) : ∀ w ∈ h.words, IsWord w := by
  unfold V1Header.words
  intro w hw
  simp only [List.mem_cons, List.not_mem_nil, or_false] at hw
  rcases hw with rfl | rfl | rfl | rfl | rfl | rfl
  · exact isWord_of_ascii (by decide)
  · split_ifs <;> exact isWord_of_ascii (by decide)
  · exact h.src_word
  · exact h.dst_word
  · exact decimal_isWord _
  · exact decimal_isWord _

theorem split_intercalate {ws : List (List Char)} (h : ∀ w ∈ ws, IsWord w) : split ([' '].intercalate ws) = ws := by
  induction ws with
  | nil => rfl
  | cons w ws ih =>
    have hw := h w (by simp)
    rcases ws with _ | ⟨w', ws⟩
    · rw [List.intercalate_singleton]
      exact split_last hw.space hw.1
    · rw [List.intercalate_cons_cons, List.append_assoc, List.singleton_append, split_word hw.space hw.1,
        ih fun v hv => h v (List.mem_cons_of_mem w hv)]

theorem V1Header.line_ascii (h : V1Header) : ∀ c ∈ h.line, c.toNat < 128 ∧ c ≠ '\r' := by
  intro c hc
  by_contra hnot
  have hblank : c ≠ ' ' := by
    rintro rfl
    exact hnot (by decide)
  refine IpAddress.notMem_intercalate hblank ?_ hc
  intro w hw hcw
  obtain ⟨hascii, hspace⟩ := (h.words_isWord w hw).2 c hcw
  refine hnot ⟨hascii, ?_⟩
  rintro rfl
  cases hspace

theorem V1Header.line_noCr (h : V1Header) : (0x0D : UInt8) ∉ encodeAscii h.line := by
  unfold encodeAscii
  intro hmem
  obtain ⟨c, hc, hcode⟩ := List.mem_map.mp hmem
  obtain ⟨hascii, hne⟩ := h.line_ascii c hc
  have hnat := congrArg UInt8.toNat hcode
  rw [toNat_ofNat_char hascii] at hnat
  exact hne (Char.toNat_inj.mp hnat)

theorem V1Header.info (h : V1Header) :
    v1Info (encodeAscii h.line ++ lineEnd) = .ok ⟨h.src, h.srcPort.val, h.dst, h.dstPort.val, 1⟩ := by
  unfold v1Info
  rw [find_lineEnd h.line_noCr]
  simp only [Option.getD_some, List.take_left, decodeAscii_encodeAscii fun c hc => (h.line_ascii c hc).1]
  rw [show split h.line = h.words from split_intercalate h.words_isWord]
  simp only [V1Header.words, int_decimal]

theorem V1Header.bytes_eq (h : V1Header) :
    ∃ rest, h.bytes = PP_V1_PREFIX ++ rest ∧ 7 ≤ rest.length ∧ rest.length ≤ 101 := by
  obtain ⟨hsrc, hdst⟩ := And.intro (List.length_pos_iff.mpr h.src_word.1) (List.length_pos_iff.mpr h.dst_word.1)
  have hshort := h.short
  refine ⟨encodeAscii ([' '].intercalate h.words.tail) ++ lineEnd, ?_, ?_⟩
  · unfold V1Header.bytes V1Header.line V1Header.words
    rw [List.intercalate_cons_cons, encodeAscii_append, encodeAscii_append, List.append_assoc]
    rfl
  · unfold V1Header.words
    simp only [List.tail_cons, List.intercalate_cons_cons, List.intercalate_singleton, encodeAscii_append,
      encodeAscii_length, List.length_append, List.length_cons, List.length_nil, show lineEnd.length = 2 from rfl]
    have hsix : (if h.six = true then "TCP6".toList else "TCP4".toList).length = 4 := by split_ifs <;> rfl
    omega

theorem readProxyProtocol_v1 (h : V1Header) :
    Reads readProxyProtocol h.bytes ⟨h.src, h.srcPort.val, h.dst, h.dstPort.val, 1⟩ := by
  obtain ⟨rest, hbytes, hmin, hmax⟩ := h.bytes_eq
  have hcr : (0x0D : UInt8) ∉ encodeAscii h.line := h.line_noCr
  have hstart : (h.bytes.take 13).take 6 = PP_V1_PREFIX := by
    rw [hbytes, List.take_take]
    exact List.take_left' rfl
  have hsignature : (h.bytes.take 13).take 12 ≠ PP_V2_SIGNATURE := by
    rw [hbytes]
    intro hsame
    have hhead := congrArg List.head? hsame
    cases hhead
  have hlen : h.bytes.length = rest.length + 6 := by
    rw [hbytes, List.length_append, show PP_V1_PREFIX.length = 6 from rfl]
    omega
  have htake : (h.bytes.take 13).length = 13 := by
    rw [List.length_take]
    omega
  have hpeeked : Reads (readexactly 13 : PpReader Bytes) (h.bytes.take 13) _ := readexactly_reads htake
  have hline : Reads (readLine (512 - (h.bytes.take 13).length) (h.bytes.take 13)) (h.bytes.drop 13) h.bytes := by
    refine readLine_reads hcr _ _ _ (List.take_append_drop 13 _) ?_
    rw [htake, List.length_drop]
    omega
  have hparse : Reads (parseV1 (h.bytes.take 13)) (h.bytes.drop 13) ⟨h.src, h.srcPort.val, h.dst, h.dstPort.val, 1⟩ := by
    refine hline.bind_pure ?_
    rw [show v1Info h.bytes = _ from h.info]
    exact Reads.pure _
  have hall := hpeeked.bind (f := fun peeked =>
    if peeked.take 12 = PP_V2_SIGNATURE then parseV2 peeked
    else if peeked.take 6 = PP_V1_PREFIX then parseV1 peeked
    else raise .notAHeader) (by
      rw [if_neg hsignature, if_pos hstart]
      exact hparse)
  rw [List.take_append_drop] at hall
  exact hall

/-! ## Every header -/

theorem v2Bytes_length (verCmd family : UInt8) (block : Bytes) :
    (v2Bytes verCmd family block).length = 16 + block.length := by
  unfold v2Bytes
  simp only [List.length_append, beBytes_length, List.length_cons, List.length_nil,
    show PP_V2_SIGNATURE.length = 12 from rfl]

theorem Header.bytes_length (h : Header) : h.bytes.length = h.size := by
  rcases h with h | h | ⟨family, block, hfits⟩
  · simp only [Header.bytes, V1Header.bytes, Header.size, List.length_append, encodeAscii_length,
      show lineEnd.length = 2 from rfl]
  · simp only [Header.bytes, Header.size, v2Bytes_length, h.block_length]
  · simp only [Header.bytes, Header.size, v2Bytes_length]

/-- A header gives back its addresses and ports, and the next byte read is the first one behind it. -/
theorem header_read_back (h : Header) :
    ∃ info, Reads readProxyProtocol h.bytes info ∧ h.Gives info ∧ h.bytes.length = h.size := by
  rcases h with h | h | ⟨family, block, hfits⟩
  · exact ⟨_, readProxyProtocol_v1 h, ⟨rfl, rfl, rfl, rfl⟩, Header.bytes_length _⟩
  · obtain ⟨info, hinfo, hgives⟩ := h.info
    refine ⟨info, readProxyProtocol_v2 ?_ hinfo, hgives, Header.bytes_length _⟩
    rw [h.block_length]
    have := h.fits
    omega
  · exact ⟨_, readProxyProtocol_v2 hfits rfl, ⟨rfl, rfl⟩, Header.bytes_length _⟩

/-! ## What is given up on -/

/-- The length of the block of a v2 header. -/
def addrLen (b : Bytes) : Nat := beNat (window b 14 2)

/-- A header has begun, and more of it has to come. -/
inductive Unfinished (b : Bytes) : Prop where
  | start (hlen : b.length < 13)
  | v2Fixed (hv2 : b.take 12 = PP_V2_SIGNATURE) (hlen : b.length < 16)
  | v2Block (hv2 : b.take 12 = PP_V2_SIGNATURE) (hlen : b.length < 16 + addrLen b)
  | v1Line (hv1 : b.take 6 = PP_V1_PREFIX) (hopen : find b lineEnd 0 = none) (hlen : b.length ≤ 512)

/-- No header, whatever comes behind. -/
inductive Malformed (b : Bytes) : Prop where
  | neither (hlen : 13 ≤ b.length) (hv2 : b.take 12 ≠ PP_V2_SIGNATURE) (hv1 : b.take 6 ≠ PP_V1_PREFIX)
  | v2 (hv2 : b.take 12 = PP_V2_SIGNATURE) (hlen : 16 + addrLen b ≤ b.length)
      (herr : ∃ e, v2Info (b.getD 12 0) (b.getD 13 0) (window b 16 (addrLen b)) = .error e)
  | v1 (hlen : 13 ≤ b.length) (hv1 : b.take 6 = PP_V1_PREFIX) (hline : (find (b.take 512) lineEnd 0).isSome)
      (herr : ∃ e, v1Info (b.take 512) = .error e)
  | v1Long (hv1 : b.take 6 = PP_V1_PREFIX) (hopen : find (b.take 512) lineEnd 0 = none) (hlen : 512 < b.length)

variable {s : Stream}

theorem raises_parseV2 (hlen : 13 ≤ s.bytes.length) : Raises (parseV2 (s.bytes.take 13)) ⟨s.bytes.drop 13, s.closed⟩ ↔
    s.closed = true ∧ (s.bytes.length < 16 ∨ s.bytes.length < 16 + addrLen s.bytes) ∨
      16 + addrLen s.bytes ≤ s.bytes.length ∧
        ∃ e, v2Info (s.bytes.getD 12 0) (s.bytes.getD 13 0) (window s.bytes 16 (addrLen s.bytes)) = .error e := by
  unfold parseV2
  rw [raises_readexactly_bind]
  simp only [List.length_drop, List.drop_drop]
  by_cases hfixed : s.bytes.length < 16
  · rw [or_iff_left (by omega), or_iff_left (by omega)]
    constructor
    · rintro ⟨-, hclosed⟩
      exact ⟨hclosed, Or.inl hfixed⟩
    · rintro ⟨hclosed, -⟩
      exact ⟨by omega, hclosed⟩
  · have hheader : s.bytes.take 13 ++ (s.bytes.drop 13).take 3 = s.bytes.take 16 := (List.take_add).symm
    have haddr : beNat (window (s.bytes.take 16) 14 2) = addrLen s.bytes := by
      unfold addrLen
      rw [window_take (by decide)]
    have hget : ∀ i < 16, (s.bytes.take 16).getD i 0 = s.bytes.getD i 0 := by
      intro i hi
      simp only [List.getD_eq_getElem?_getD, List.getElem?_take_of_lt hi]
    rw [or_iff_right (by omega), and_iff_right (by omega), hheader, haddr, hget 12 (by decide), hget 13 (by decide)]
    by_cases hpos : 0 < addrLen s.bytes
    · rw [if_pos hpos, raises_readexactly_bind, raises_ofExcept]
      simp only [List.length_drop]
      change _ ∨ _ ∧ (∃ e, v2Info _ _ (window s.bytes 16 (addrLen s.bytes)) = _) ↔ _
      constructor
      · rintro (⟨hshort, hclosed⟩ | ⟨hroom, herr⟩)
        · exact Or.inl ⟨hclosed, Or.inr (by omega)⟩
        · exact Or.inr ⟨by omega, herr⟩
      · rintro (⟨hclosed, hshort⟩ | ⟨hroom, herr⟩)
        · exact Or.inl ⟨by omega, hclosed⟩
        · exact Or.inr ⟨by omega, herr⟩
    · have hzero : addrLen s.bytes = 0 := Nat.eq_zero_of_not_pos hpos
      rw [if_neg hpos, raises_pure_bind, raises_ofExcept, hzero]
      simp only [Nat.add_zero]
      rw [or_iff_right (by omega), and_iff_right (by omega)]
      rfl

theorem v1Info_append {buf rest : Bytes} (h : (find buf lineEnd 0).isSome) : v1Info (buf ++ rest) = v1Info buf := by
  obtain ⟨i, hi⟩ := Option.isSome_iff_exists.mp h
  obtain ⟨happend, hroom⟩ := find_append_left (b := rest) (by decide) hi
  unfold v1Info
  rw [hi, happend]
  simp only [Option.getD_some]
  rw [List.take_append_of_le_length (by omega)]

/-- What the loop gives up on, with `buf` read and `room` bytes left for the line. -/
def LineRefused (room : Nat) (buf : Bytes) (s : Stream) : Prop :=
  let line := (buf ++ s.bytes).take (buf.length + room)
  (find line lineEnd 0).isSome ∧ (∃ e, v1Info line = .error e) ∨
    find line lineEnd 0 = none ∧ (room < s.bytes.length ∨ s.closed = true)

theorem raises_readLine_found {room : Nat} {buf : Bytes} (hfound : (find buf lineEnd 0).isSome) :
    Raises (readLine room buf >>= fun buf => ofExcept (v1Info buf)) s ↔ LineRefused room buf s := by
  have hread : readLine room buf = pure buf := by
    rcases room with _ | room <;> exact if_pos hfound
  have hline : (buf ++ s.bytes).take (buf.length + room) = buf ++ s.bytes.take room := List.take_length_add_append room
  obtain ⟨i, hi⟩ := Option.isSome_iff_exists.mp hfound
  unfold LineRefused
  simp only [hread, raises_pure_bind, raises_ofExcept, hline, v1Info_append hfound, (find_append_left (by decide) hi).1]
  simp

theorem raises_readLine (room : Nat) (buf : Bytes) (s : Stream) :
    Raises (readLine room buf >>= fun buf => ofExcept (v1Info buf)) s ↔ LineRefused room buf s := by
  induction room generalizing buf s with
  | zero =>
    by_cases hfound : (find buf lineEnd 0).isSome = true
    · exact raises_readLine_found hfound
    · have hread : readLine 0 buf = readexactly 1 >>= fun _ => raise .headerTooLong := if_neg hfound
      have hnone : find buf lineEnd 0 = none := Option.not_isSome_iff_eq_none.mp hfound
      unfold LineRefused
      simp only [Nat.add_zero, List.take_left, hread, bind_bind, raises_readexactly_bind, hnone, raises_raise_bind,
        and_true]
      grind
  | succ room ih =>
    by_cases hfound : (find buf lineEnd 0).isSome = true
    · exact raises_readLine_found hfound
    · have hread : readLine (room + 1) buf = readexactly 1 >>= fun chunk => readLine room (buf ++ chunk) := if_neg hfound
      have hnone : find buf lineEnd 0 = none := Option.not_isSome_iff_eq_none.mp hfound
      rw [hread, bind_bind, raises_readexactly_bind]
      rcases s with ⟨_ | ⟨b, rest⟩, closed⟩
      · have hline : (buf ++ []).take (buf.length + (room + 1)) = buf := by
          rw [List.append_nil, List.take_of_length_le (Nat.le_add_right _ _)]
        unfold LineRefused
        simp only [hline, hnone]
        simp
      · have hstep : LineRefused room (buf ++ [b]) ⟨rest, closed⟩ ↔ LineRefused (room + 1) buf ⟨b :: rest, closed⟩ := by
          have hbytes : buf ++ [b] ++ rest = buf ++ b :: rest := by simp
          have hroom : (buf ++ [b]).length + room = buf.length + (room + 1) := by
            rw [List.length_append, List.length_singleton]
            omega
          unfold LineRefused
          simp only [hbytes, hroom, List.length_cons, Nat.add_lt_add_iff_right]
        have hnext := (ih (buf ++ [b]) ⟨rest, closed⟩).trans hstep
        simpa using hnext

theorem v1_of_v2 {b : Bytes} (hv2 : b.take 12 = PP_V2_SIGNATURE) : b.take 6 ≠ PP_V1_PREFIX := by
  intro hv1
  have h := congrArg (List.take 6) hv2
  rw [List.take_take, show min 6 12 = 6 from rfl, hv1] at h
  revert h
  decide

theorem refuses_v2 (hlen : 13 ≤ s.bytes.length) (hv2 : s.bytes.take 12 = PP_V2_SIGNATURE) :
    Raises (parseV2 (s.bytes.take 13)) ⟨s.bytes.drop 13, s.closed⟩ ↔
      Malformed s.bytes ∨ s.closed = true ∧ Unfinished s.bytes := by
  have hv1 := v1_of_v2 hv2
  rw [raises_parseV2 hlen]
  constructor
  · rintro (⟨hclosed, hshort | hshort⟩ | ⟨hroom, herr⟩)
    · exact Or.inr ⟨hclosed, .v2Fixed hv2 hshort⟩
    · exact Or.inr ⟨hclosed, .v2Block hv2 hshort⟩
    · exact Or.inl (.v2 hv2 hroom herr)
  · rintro ((⟨-, h, -⟩ | ⟨-, hroom, herr⟩ | ⟨-, h, -, -⟩ | ⟨h, -, -⟩) | ⟨hclosed, h | ⟨-, h⟩ | ⟨-, h⟩ | ⟨h, -, -⟩⟩)
    · exact absurd hv2 h
    · exact Or.inr ⟨hroom, herr⟩
    · exact absurd h hv1
    · exact absurd h hv1
    · omega
    · exact Or.inl ⟨hclosed, Or.inl h⟩
    · exact Or.inl ⟨hclosed, Or.inr h⟩
    · exact absurd h hv1

theorem refuses_v1 (hlen : 13 ≤ s.bytes.length) (hv2 : s.bytes.take 12 ≠ PP_V2_SIGNATURE)
    (hv1 : s.bytes.take 6 = PP_V1_PREFIX) : Raises (parseV1 (s.bytes.take 13)) ⟨s.bytes.drop 13, s.closed⟩ ↔
      Malformed s.bytes ∨ s.closed = true ∧ Unfinished s.bytes := by
  have hline : (s.bytes.take 13 ++ s.bytes.drop 13).take ((s.bytes.take 13).length + (512 - (s.bytes.take 13).length)) =
      s.bytes.take 512 := by
    rw [List.take_append_drop, List.length_take, Nat.min_eq_left hlen]
  have hroom : 512 - (s.bytes.take 13).length < (s.bytes.drop 13).length ↔ 512 < s.bytes.length := by
    rw [List.length_take, List.length_drop]
    omega
  rw [parseV1, raises_readLine]
  unfold LineRefused
  simp only [hline, hroom]
  constructor
  · rintro (⟨hsome, herr⟩ | ⟨hopen, hlong | hclosed⟩)
    · exact Or.inl (.v1 hlen hv1 hsome herr)
    · exact Or.inl (.v1Long hv1 hopen hlong)
    · by_cases hlong : 512 < s.bytes.length
      · exact Or.inl (.v1Long hv1 hopen hlong)
      · rw [List.take_of_length_le (by omega)] at hopen
        exact Or.inr ⟨hclosed, .v1Line hv1 hopen (by omega)⟩
  · rintro ((⟨-, -, h⟩ | ⟨h, -, -⟩ | ⟨-, -, hsome, herr⟩ | ⟨-, hopen, hlong⟩) |
      ⟨hclosed, h | ⟨h, -⟩ | ⟨h, -⟩ | ⟨-, hopen, hshort⟩⟩)
    · exact absurd hv1 h
    · exact absurd h hv2
    · exact Or.inl ⟨hsome, herr⟩
    · exact Or.inr ⟨hopen, Or.inl hlong⟩
    · omega
    · exact absurd h hv2
    · exact absurd h hv2
    · rw [← List.take_of_length_le hshort] at hopen
      exact Or.inr ⟨hopen, Or.inr hclosed⟩

theorem raises_readProxyProtocol (s : Stream) :
    Raises readProxyProtocol s ↔ Malformed s.bytes ∨ s.closed = true ∧ Unfinished s.bytes := by
  unfold readProxyProtocol
  rw [raises_readexactly_bind]
  by_cases hlen : s.bytes.length < 13
  · rw [or_iff_left (by omega), and_iff_right hlen]
    constructor
    · intro hclosed
      exact Or.inr ⟨hclosed, .start hlen⟩
    · rintro (h | ⟨hclosed, -⟩)
      · rcases h with ⟨h, -, -⟩ | ⟨-, h, -⟩ | ⟨h, -, -, -⟩ | ⟨-, -, h⟩ <;> omega
      · exact hclosed
  · have htake : (s.bytes.take 13).take 12 = s.bytes.take 12 ∧ (s.bytes.take 13).take 6 = s.bytes.take 6 := by
      simp [List.take_take]
    rw [or_iff_right (by omega), and_iff_right (by omega), htake.1, htake.2]
    split_ifs with hv2 hv1
    · exact refuses_v2 (by omega) hv2
    · exact refuses_v1 (by omega) hv2 hv1
    · exact ⟨fun _ => Or.inl (.neither (by omega) hv2 hv1), fun _ => raises_raise _⟩

end RdpProxy.Relay
