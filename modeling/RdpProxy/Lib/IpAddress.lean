import RdpProxy.Lib.Ber
import RdpProxy.Lib.Text
import RdpProxy.Lib.Uuid

/-!
# IP addresses as text

The parts of Python's `ipaddress` that read an address or a network and that write an address.
A `str` is its list of characters.
-/

open Words Ber Text

/-- The version and the value of an address. -/
inductive IpAddress where
  | v4 (value : Nat)
  | v6 (value : Nat)
  deriving DecidableEq

namespace IpAddress

/-! ## Writing -/

/-- Four octets with dots between them. -/
def ipv4Text (b : Bytes) : List Char := ['.'].intercalate (b.map fun x => decimal x.toNat)

/-- `%x` of a number. -/
def hex (n : Nat) : List Char := Nat.toDigits 16 n

def hextets : Bytes → List Nat
  | hi :: lo :: rest => (256 * hi.toNat + lo.toNat) :: hextets rest
  | _ => []

structure Run where
  start : Nat
  len : Nat

/-- The run with the zero at the place `i`. -/
def Run.extend (run : Run) (i : Nat) : Run := ⟨if run.len = 0 then i else run.start, run.len + 1⟩

/-- The first longest run of zeros. `i` is the place of the next text, `current` the run that ends there. -/
def longestZeros : Nat → Run → Run → List (List Char) → Run
  | _, _, best, [] => best
  | i, current, best, text :: rest =>
    if text = ['0'] then
      longestZeros (i + 1) (current.extend i) (if best.len < current.len + 1 then current.extend i else best) rest
    else longestZeros (i + 1) ⟨0, 0⟩ best rest

/-- An empty text stands for the run, and another one for the colon at either end. -/
def compressHextets (texts : List (List Char)) : List (List Char) :=
  let run := longestZeros 0 ⟨0, 0⟩ ⟨0, 0⟩ texts
  if run.len ≤ 1 then texts
  else
    (if run.start = 0 then [[]] else []) ++ texts.take run.start ++ [[]] ++ texts.drop (run.start + run.len) ++
      if run.start + run.len = texts.length then [[]] else []

/-- `str(IPv6Address(b))` -/
def ipv6Text (b : Bytes) : List Char := [':'].intercalate (compressHextets ((hextets b).map hex))

/-! ## Reading -/

def octet (s : List Char) : Option Nat :=
  if s = [] ∨ ¬ s.all Char.isDigit ∨ 3 < s.length ∨ s ≠ ['0'] ∧ s.head? = some '0' then none
  else
    let n := Nat.ofDigitChars 10 s 0
    if 255 < n then none else some n

def ipv4Int (s : List Char) : Option Nat :=
  match s.splitOn '.' with
  | [a, b, c, d] => ([a, b, c, d].mapM octet).map fun octets => octets.foldl (fun acc n => 256 * acc + n) 0
  | _ => none

def hextet (s : List Char) : Option Nat :=
  if s = [] ∨ 4 < s.length then none
  else (s.mapM Uuid.hexValue).map fun ds => ds.foldl (fun acc d => 16 * acc + d.val) 0

/-- An IPv4 address at the end stands for two hextets. -/
def expandIpv4 (parts : List (List Char)) : Option (List (List Char)) :=
  match parts.getLast? with
  | none => some parts
  | some last =>
    if '.' ∈ last then (ipv4Int last).map fun n => parts.dropLast ++ [hex (n / 65536), hex (n % 65536)]
    else some parts

/-- The parts on one side of `::`, where the one at the end of the text is empty only by itself. -/
def side (outer : Option (List Char)) (parts : List (List Char)) : Option (List (List Char)) :=
  if outer = some [] then (if parts.length = 1 then some [] else none) else some parts

/-- The eight texts that the parts stand for. -/
def expandParts (parts : List (List Char)) : Option (List (List Char)) :=
  let inner := parts.tail.dropLast
  match inner.findIdx? fun p => p = [] with
  | none => if parts.length = 8 ∧ parts.head? ≠ some [] ∧ parts.getLast? ≠ some [] then some parts else none
  | some i =>
    if 1 < inner.count [] then none
    else
      match side parts.head? (parts.take (i + 1)), side parts.getLast? (parts.drop (i + 2)) with
      | some hi, some lo =>
        if hi.length + lo.length < 8 then some (hi ++ List.replicate (8 - (hi.length + lo.length)) ['0'] ++ lo)
        else none
      | _, _ => none

def ipv6Int (s : List Char) : Option Nat :=
  let parts := s.splitOn ':'
  if parts.length < 3 then none
  else
    match expandIpv4 parts with
    | none => none
    | some parts =>
      if 9 < parts.length then none
      else
        match expandParts parts with
        | none => none
        | some texts => (texts.mapM hextet).map fun hs => hs.foldl (fun acc h => 65536 * acc + h) 0

/-- The address in front of a scope id. -/
def withoutScope (s : List Char) : Option (List Char) :=
  match s.splitOn '%' with
  | [addr] => some addr
  | [addr, scope] => if scope = [] then none else some addr
  | _ => none

/-- `ipaddress.ip_address(s)`, where it does not raise. -/
def ipAddress (s : List Char) : Option IpAddress :=
  match ipv4Int s with
  | some n => some (.v4 n)
  | none => ((withoutScope s).bind ipv6Int).map .v6

structure Network where
  address : IpAddress
  prefixlen : Nat

def prefixFromString (most : Nat) (s : List Char) : Option Nat :=
  if s ≠ [] ∧ s.all Char.isDigit ∧ Nat.ofDigitChars 10 s 0 ≤ most then some (Nat.ofDigitChars 10 s 0) else none

/-- The number of ones that the mask begins with, where nothing but zeros follows. -/
def prefixFromMask (mask : Nat) : Option Nat := (List.range 33).find? fun p => mask + 2 ^ (32 - p) = 2 ^ 32

/-- A prefix length, a netmask or a hostmask. -/
def ipv4Prefix (s : List Char) : Option Nat :=
  (prefixFromString 32 s).or ((ipv4Int s).bind fun mask => (prefixFromMask mask).or (prefixFromMask (2 ^ 32 - 1 - mask)))

/-- `ipaddress.ip_network(s, strict=False)`, where it does not raise. -/
def ipNetwork (s : List Char) : Option Network :=
  let (addr, mask) := match s.splitOn '/' with
    | [addr] => (addr, some none)
    | [addr, mask] => (addr, some (some mask))
    | _ => ([], none)
  match mask with
  | none => none
  | some mask =>
    let net4 := (ipv4Int addr).bind fun n => (mask.elim (some 32) ipv4Prefix).map fun p => Network.mk (.v4 n) p
    net4.or (((withoutScope addr).bind ipv6Int).bind fun n =>
      (mask.elim (some 128) (prefixFromString 128)).map fun p => Network.mk (.v6 n) p)

/-- `address in network`: the same version, and the same bits in front. -/
def Network.contains (net : Network) : IpAddress → Bool
  | .v4 n =>
    match net.address with
    | .v4 base => n / 2 ^ (32 - net.prefixlen) = base / 2 ^ (32 - net.prefixlen)
    | .v6 _ => false
  | .v6 n =>
    match net.address with
    | .v4 _ => false
    | .v6 base => n / 2 ^ (128 - net.prefixlen) = base / 2 ^ (128 - net.prefixlen)

/-! ## What is written is read back -/

theorem octet_decimal (x : UInt8) : octet (decimal x.toNat) = some x.toNat := by
  have hall : ∀ n : Fin 256, octet (decimal n.val) = some n.val := by decide +kernel
  exact hall ⟨x.toNat, x.toNat_lt⟩

theorem notMem_decimal {c : Char} (hc : c.isDigit = false) (n : Nat) : c ∉ decimal n := by
  intro h
  rw [isDigit_of_mem_decimal h] at hc
  cases hc

theorem ipv4Int_text {b : Bytes} (h : b.length = 4) : ipv4Int (ipv4Text b) = some (beNat b) := by
  obtain ⟨w, x, y, z, rfl⟩ : ∃ w x y z, b = [w, x, y, z] := by
    rcases b with _ | ⟨w, _ | ⟨x, _ | ⟨y, _ | ⟨z, _ | ⟨_, _⟩⟩⟩⟩⟩ <;> simp at h
    exact ⟨w, x, y, z, rfl⟩
  have hsplit : (ipv4Text [w, x, y, z]).splitOn '.' = [w, x, y, z].map fun x => decimal x.toNat := by
    refine List.splitOn_intercalate '.' ?_ (by simp)
    intro l hl
    obtain ⟨v, _, rfl⟩ := List.mem_map.mp hl
    exact notMem_decimal (by decide) _
  unfold ipv4Int
  rw [hsplit]
  simp only [List.map_cons, List.map_nil, List.mapM_cons, List.mapM_nil, octet_decimal]
  rfl

theorem ipAddress_ipv4Text {b : Bytes} (h : b.length = 4) : ipAddress (ipv4Text b) = some (.v4 (beNat b)) := by
  unfold ipAddress
  rw [ipv4Int_text h]

/-! ### Hextets -/

theorem hex_eq (n : Nat) : hex n = if n < 16 then [n.digitChar] else hex (n / 16) ++ [(n % 16).digitChar] :=
  Nat.toDigits_eq_if (by decide)

theorem hexValue_digitChar {d : Nat} (h : d < 16) : Uuid.hexValue d.digitChar = some ⟨d, h⟩ := by
  have hall : ∀ d : Fin 16, Uuid.hexValue d.val.digitChar = some d := by decide +kernel
  exact hall ⟨d, h⟩

theorem hex_value (n : Nat) : ∃ ds : List (Fin 16), (hex n).mapM Uuid.hexValue = some ds ∧
    ds.foldl (fun acc d => 16 * acc + d.val) 0 = n := by
  induction n using Nat.strongRecOn with
  | ind n ih =>
    rw [hex_eq]
    split_ifs with hn
    · exact ⟨[⟨n, hn⟩], by simp [hexValue_digitChar hn], by simp⟩
    · obtain ⟨ds, hds, hvalue⟩ := ih (n / 16) (by omega)
      have hlast := hexValue_digitChar (Nat.mod_lt n (by decide : 0 < 16))
      refine ⟨ds ++ [⟨n % 16, Nat.mod_lt n (by decide)⟩], ?_, ?_⟩
      · rw [List.mapM_append, hds]
        simp [hlast]
      · rw [List.foldl_append, hvalue]
        simp only [List.foldl_cons, List.foldl_nil]
        omega

theorem hex_ne_nil (n : Nat) : hex n ≠ [] := Nat.toDigits_ne_nil

theorem hextet_hex {n : Nat} (h : n < 65536) : hextet (hex n) = some n := by
  obtain ⟨ds, hds, hvalue⟩ := hex_value n
  have hlen : (hex n).length ≤ 4 := (Nat.length_toDigits_le_iff (by decide) (by decide)).mpr h
  unfold hextet
  rw [if_neg (by rintro (h | h); exact hex_ne_nil n h; omega), hds]
  simp [hvalue]

theorem isHex_of_mem_hex {n : Nat} {c : Char} (h : c ∈ hex n) : ∃ d : Fin 16, c = d.val.digitChar := by
  induction n using Nat.strongRecOn with
  | ind n ih =>
    rw [hex_eq] at h
    split_ifs at h with hn
    · exact ⟨⟨n, hn⟩, List.mem_singleton.mp h⟩
    · rcases List.mem_append.mp h with h | h
      · exact ih (n / 16) (by omega) h
      · exact ⟨⟨n % 16, Nat.mod_lt n (by decide)⟩, List.mem_singleton.mp h⟩

theorem notMem_hex {c : Char} (hc : ∀ d : Fin 16, c ≠ d.val.digitChar) (n : Nat) : c ∉ hex n := by
  intro h
  obtain ⟨d, hd⟩ := isHex_of_mem_hex h
  exact hc d hd

/-! ### The run of zeros -/

def ZeroRun (texts : List (List Char)) (run : Run) : Prop :=
  (texts.drop run.start).take run.len = List.replicate run.len ['0']

theorem zeroRun_empty (texts : List (List Char)) (start : Nat) : ZeroRun texts ⟨start, 0⟩ := by
  unfold ZeroRun
  simp

theorem longestZeros_zeroRun {texts rest : List (List Char)} {i : Nat} {current best : Run} (hrest : texts.drop i = rest)
    (hcurrent : ZeroRun texts current) (hend : current.len ≠ 0 → current.start + current.len = i)
    (hbest : ZeroRun texts best) : ZeroRun texts (longestZeros i current best rest) := by
  induction rest generalizing i current best with
  | nil => exact hbest
  | cons text rest ih =>
    have hnext : texts.drop (i + 1) = rest := by
      rw [← List.drop_drop, hrest]
      rfl
    have hi : texts[i]? = some text := by
      have h := congrArg (fun l : List (List Char) => l[0]?) hrest
      simpa using h
    unfold longestZeros
    by_cases htext : text = ['0']
    · have hrun : ZeroRun texts (current.extend i) := by
        unfold ZeroRun Run.extend at *
        by_cases hlen : current.len = 0
        · simp only [hlen, if_true, hrest, htext]
          rfl
        · simp only [hlen, if_false]
          rw [List.take_add_one, hcurrent, List.getElem?_drop, hend hlen, hi, htext, List.replicate_succ']
          rfl
      have hends : (current.extend i).len ≠ 0 → (current.extend i).start + (current.extend i).len = i + 1 := by
        intro _
        unfold Run.extend
        by_cases hlen : current.len = 0
        · simp [hlen]
        · simp only [hlen, if_false]
          have := hend hlen
          omega
      rw [if_pos htext]
      refine ih hnext hrun hends ?_
      split_ifs
      · exact hrun
      · exact hbest
    · rw [if_neg htext]
      exact ih hnext (zeroRun_empty texts 0) (fun h => absurd rfl h) hbest

theorem longest_zeroRun (texts : List (List Char)) : ZeroRun texts (longestZeros 0 ⟨0, 0⟩ ⟨0, 0⟩ texts) :=
  longestZeros_zeroRun rfl (zeroRun_empty texts 0) (fun h => absurd rfl h) (zeroRun_empty texts 0)

theorem ZeroRun.room {texts : List (List Char)} {run : Run} (h : ZeroRun texts run) (hlen : 0 < run.len) :
    run.start + run.len ≤ texts.length := by
  have hlength := congrArg List.length h
  simp only [List.length_take, List.length_drop, List.length_replicate] at hlength
  omega

theorem compressHextets_length {texts : List (List Char)} (hlen : texts.length = 8) :
    3 ≤ (compressHextets texts).length ∧ (compressHextets texts).length ≤ 9 := by
  have hzero := longest_zeroRun texts
  unfold compressHextets
  generalize longestZeros 0 ⟨0, 0⟩ ⟨0, 0⟩ texts = run at hzero
  by_cases hshort : run.len ≤ 1
  · rw [if_pos hshort]
    omega
  · have hroom := hzero.room (by omega)
    rw [if_neg hshort]
    simp only [List.length_append, List.length_take, List.length_drop, List.length_cons, List.length_nil]
    split_ifs <;> simp only [List.length_cons, List.length_nil] <;> omega

/-! ### The eight texts -/

theorem expandParts_around {h l : List Char} {hs ls : List (List Char)} (hhs : [] ∉ hs) (hls : [] ∉ ls) :
    expandParts ((h :: hs) ++ [[]] ++ (ls ++ [l])) =
      match side (some h) (h :: hs), side (some l) (ls ++ [l]) with
      | some hi, some lo =>
        if hi.length + lo.length < 8 then some (hi ++ List.replicate (8 - (hi.length + lo.length)) ['0'] ++ lo)
        else none
      | _, _ => none := by
  have hinner : ((h :: hs) ++ [[]] ++ (ls ++ [l])).tail.dropLast = hs ++ [] :: ls := by
    have hparts : ((h :: hs) ++ [[]] ++ (ls ++ [l])).tail = (hs ++ [] :: ls) ++ [l] := by simp
    rw [hparts, List.dropLast_concat]
  have hfind : (hs ++ [] :: ls).findIdx? (fun p => decide (p = [])) = some hs.length := by
    rw [List.findIdx?_append]
    have hnone : hs.findIdx? (fun p => decide (p = [])) = none := by
      rw [List.findIdx?_eq_none_iff]
      intro p hp
      rw [decide_eq_false_iff_not]
      rintro rfl
      exact hhs hp
    rw [hnone]
    simp [List.findIdx?_cons]
  have hcount : (hs ++ [] :: ls).count [] = 1 := by
    rw [List.count_append, List.count_cons, List.count_eq_zero.mpr hhs, List.count_eq_zero.mpr hls]
    simp
  have hhead : ((h :: hs) ++ [[]] ++ (ls ++ [l])).head? = some h := rfl
  have hlast : ((h :: hs) ++ [[]] ++ (ls ++ [l])).getLast? = some l := by
    rw [← List.append_assoc]
    exact List.getLast?_concat
  have htake : ((h :: hs) ++ [[]] ++ (ls ++ [l])).take (hs.length + 1) = h :: hs := by
    rw [List.append_assoc]
    exact List.take_left' rfl
  have hdrop : ((h :: hs) ++ [[]] ++ (ls ++ [l])).drop (hs.length + 2) = ls ++ [l] :=
    List.drop_left' (by simp)
  unfold expandParts
  simp only [hinner, hfind, hcount, hhead, hlast, htake, hdrop]
  rfl

theorem expandParts_run {hi lo : List (List Char)} (hhi : [] ∉ hi) (hlo : [] ∉ lo) (hlen : hi.length + lo.length < 8) :
    expandParts ((if hi = [] then [[]] else hi) ++ [[]] ++ (if lo = [] then [[]] else lo)) =
      some (hi ++ List.replicate (8 - (hi.length + lo.length)) ['0'] ++ lo) := by
  obtain ⟨h, hs, hfirst, hhs, hside⟩ : ∃ h hs, (if hi = [] then [[]] else hi) = h :: hs ∧ [] ∉ hs ∧
      side (some h) (h :: hs) = some hi := by
    rcases hi with _ | ⟨h, hs⟩
    · exact ⟨[], [], rfl, by simp, rfl⟩
    · simp only [List.mem_cons, not_or] at hhi
      refine ⟨h, hs, rfl, hhi.2, ?_⟩
      unfold side
      exact if_neg fun he => hhi.1 (Option.some.inj he).symm
  obtain ⟨ls, l, hsecond, hls, hside'⟩ : ∃ ls l, (if lo = [] then [[]] else lo) = ls ++ [l] ∧ [] ∉ ls ∧
      side (some l) (ls ++ [l]) = some lo := by
    rcases List.eq_nil_or_concat lo with rfl | ⟨ls, l, hconcat⟩
    · exact ⟨[], [], rfl, by simp, rfl⟩
    · rw [List.concat_eq_append] at hconcat
      subst hconcat
      simp only [List.mem_append, List.mem_singleton, not_or] at hlo
      refine ⟨ls, l, by simp, hlo.1, ?_⟩
      unfold side
      exact if_neg fun he => hlo.2 (Option.some.inj he).symm
  rw [hfirst, hsecond, expandParts_around hhs hls, hside, hside']
  exact if_pos hlen

theorem expandParts_compress {texts : List (List Char)} (hlen : texts.length = 8) (hne : [] ∉ texts) :
    expandParts (compressHextets texts) = some texts := by
  have hzero := longest_zeroRun texts
  unfold compressHextets
  generalize longestZeros 0 ⟨0, 0⟩ ⟨0, 0⟩ texts = run at hzero
  by_cases hshort : run.len ≤ 1
  · rw [if_pos hshort]
    have hinner : texts.tail.dropLast.findIdx? (fun p => decide (p = [])) = none := by
      rw [List.findIdx?_eq_none_iff]
      intro p hp
      rw [decide_eq_false_iff_not]
      rintro rfl
      exact hne (List.mem_of_mem_tail (List.mem_of_mem_dropLast hp))
    have hhead : texts.head? ≠ some [] := fun h => hne (List.mem_of_mem_head? h)
    have hlast : texts.getLast? ≠ some [] := fun h => hne (List.mem_of_mem_getLast? h)
    unfold expandParts
    simp only [hinner]
    rw [if_pos ⟨hlen, hhead, hlast⟩]
  · rw [if_neg hshort]
    have hroom := hzero.room (by omega)
    unfold ZeroRun at hzero
    have hhi : texts.take run.start = [] ↔ run.start = 0 := by
      rw [← List.length_eq_zero_iff, List.length_take]
      omega
    have hlo : texts.drop (run.start + run.len) = [] ↔ run.start + run.len = texts.length := by
      rw [← List.length_eq_zero_iff, List.length_drop]
      omega
    have hparts : (if run.start = 0 then [[]] else []) ++ texts.take run.start ++ [[]] ++
        texts.drop (run.start + run.len) ++ (if run.start + run.len = texts.length then [[]] else []) =
        (if texts.take run.start = [] then [[]] else texts.take run.start) ++ [[]] ++
          if texts.drop (run.start + run.len) = [] then [[]] else texts.drop (run.start + run.len) := by
      simp only [← hhi, ← hlo]
      split_ifs with h₁ h₂ h₂
      · simp [h₁, h₂]
      · simp [h₁]
      · simp [h₂]
      · simp
    have hlengths : (texts.take run.start).length + (texts.drop (run.start + run.len)).length = 8 - run.len := by
      rw [List.length_take, List.length_drop]
      omega
    rw [hparts, expandParts_run (fun h => hne (List.mem_of_mem_take h)) (fun h => hne (List.mem_of_mem_drop h))
      (by omega), hlengths, show 8 - (8 - run.len) = run.len by omega, ← hzero, List.append_assoc, ← List.drop_drop,
      List.take_append_drop, List.take_append_drop]

/-! ### The value -/

theorem hextets_length {b : Bytes} {n : Nat} (h : b.length = 2 * n) : (hextets b).length = n := by
  induction n generalizing b with
  | zero =>
    rw [List.length_eq_zero_iff.mp h]
    rfl
  | succ n ih =>
    rcases b with _ | ⟨hi, _ | ⟨lo, rest⟩⟩
    · simp at h
    · simp only [List.length_cons, List.length_nil] at h
      omega
    · simp only [List.length_cons] at h
      unfold hextets
      rw [List.length_cons, ih (by omega)]

theorem lt_of_mem_hextets {b : Bytes} {n : Nat} (h : n ∈ hextets b) : n < 65536 := by
  fun_induction hextets b with
  | case1 hi lo rest ih =>
    rcases List.mem_cons.mp h with rfl | h
    · have := hi.toNat_lt
      have := lo.toNat_lt
      omega
    · exact ih h
  | case2 b hb => cases h

theorem hextets_value {b : Bytes} {n : Nat} (h : b.length = 2 * n) (acc : Nat) :
    (hextets b).foldl (fun acc h => 65536 * acc + h) acc = b.foldl (fun acc x => 256 * acc + x.toNat) acc := by
  induction n generalizing b acc with
  | zero =>
    rw [List.length_eq_zero_iff.mp h]
    rfl
  | succ n ih =>
    rcases b with _ | ⟨hi, _ | ⟨lo, rest⟩⟩
    · simp at h
    · simp only [List.length_cons, List.length_nil] at h
      omega
    · simp only [List.length_cons] at h
      unfold hextets
      rw [List.foldl_cons, ih (by omega), List.foldl_cons, List.foldl_cons]
      congr 1
      omega

theorem mapM_hextet {ns : List Nat} (h : ∀ n ∈ ns, n < 65536) : (ns.map hex).mapM hextet = some ns := by
  induction ns with
  | nil => rfl
  | cons n ns ih =>
    rw [List.map_cons, List.mapM_cons, hextet_hex (h n (by simp)), ih fun m hm => h m (by simp [hm])]
    rfl

theorem mem_compressHextets {texts : List (List Char)} {s : List Char} (h : s ∈ compressHextets texts) :
    s = [] ∨ s ∈ texts := by
  unfold compressHextets at h
  simp only at h
  split_ifs at h
  · exact Or.inr h
  all_goals
    simp only [List.mem_append, List.mem_singleton, List.not_mem_nil, false_or, or_false] at h
    grind [List.mem_of_mem_take, List.mem_of_mem_drop]

theorem notMem_compressed {b : Bytes} {c : Char} (hc : ∀ d : Fin 16, c ≠ d.val.digitChar) :
    ∀ s ∈ compressHextets ((hextets b).map hex), c ∉ s := by
  intro s hs
  rcases mem_compressHextets hs with rfl | hs
  · simp
  · obtain ⟨n, _, rfl⟩ := List.mem_map.mp hs
    exact notMem_hex hc n

theorem notMem_intercalate {c sep : Char} (hc : c ≠ sep) {ls : List (List Char)} (h : ∀ l ∈ ls, c ∉ l) :
    c ∉ [sep].intercalate ls := by
  induction ls with
  | nil => simp [List.intercalate_nil]
  | cons l ls ih =>
    rcases ls with _ | ⟨l', ls⟩
    · rw [List.intercalate_singleton]
      exact h l (by simp)
    · rw [List.intercalate_cons_cons]
      have hrest := ih fun m hm => h m (List.mem_cons_of_mem l hm)
      simp only [List.mem_append, List.mem_singleton, not_or]
      exact ⟨⟨h l (by simp), hc⟩, hrest⟩

section

variable {b : Bytes} (h : b.length = 16)

include h

theorem hextetTexts_length : ((hextets b).map hex).length = 8 := by
  rw [List.length_map, hextets_length (n := 8) h]

theorem ipv6Int_text : ipv6Int (ipv6Text b) = some (beNat b) := by
  have hlen := hextetTexts_length h
  have hne : [] ∉ (hextets b).map hex := by
    intro hmem
    obtain ⟨n, _, hn⟩ := List.mem_map.mp hmem
    exact hex_ne_nil n hn
  have hexpand := expandParts_compress hlen hne
  have hparts : (ipv6Text b).splitOn ':' = compressHextets ((hextets b).map hex) := by
    refine List.splitOn_intercalate ':' (notMem_compressed (by decide)) ?_
    intro hnil
    rw [hnil] at hexpand
    cases hexpand
  have hnodot : expandIpv4 (compressHextets ((hextets b).map hex)) = some (compressHextets ((hextets b).map hex)) := by
    unfold expandIpv4
    rcases hlast : (compressHextets ((hextets b).map hex)).getLast? with _ | last
    · rfl
    · exact if_neg (notMem_compressed (by decide) last (List.mem_of_mem_getLast? hlast))
  obtain ⟨hmin, hmax⟩ := compressHextets_length hlen
  unfold ipv6Int
  simp only [hparts, hnodot, hexpand]
  rw [if_neg (by omega), if_neg (by omega), mapM_hextet fun n hn => lt_of_mem_hextets hn]
  exact congrArg some (hextets_value (n := 8) h 0)

theorem ipAddress_ipv6Text : ipAddress (ipv6Text b) = some (.v6 (beNat b)) := by
  have hmem : ∀ c : Char, c ≠ ':' → (∀ d : Fin 16, c ≠ d.val.digitChar) → c ∉ ipv6Text b :=
    fun c hcolon hc => notMem_intercalate hcolon (notMem_compressed hc)
  have hv4 : ipv4Int (ipv6Text b) = none := by
    unfold ipv4Int
    rw [List.splitOn_eq_singleton (hmem '.' (by decide) (by decide))]
  unfold ipAddress withoutScope
  rw [hv4, List.splitOn_eq_singleton (hmem '%' (by decide) (by decide))]
  simp only [Option.bind_some, ipv6Int_text h]
  rfl

end

end IpAddress
