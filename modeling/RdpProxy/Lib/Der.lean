import RdpProxy.Lib.Ber

/-!
# Trees in DER

The elements one after another are a forest, and so is what a constructed element has in it.
-/

open Words Ber

inductive Der where
  | prim (tag : UInt8) (content : Bytes)
  | node (tag : UInt8) (children : List Der)

namespace Der

/-- The bit of the identifier octet that says it. -/
def constructed (tag : UInt8) : Bool := tag.toNat / 32 % 2 = 1

/-- An element with its content. -/
def elementBytes (tag : UInt8) (content : Bytes) : Bytes := [tag] ++ (derLength content.length ++ content)

mutual

def bytes : Der → Bytes
  | .prim tag content => elementBytes tag content
  | .node tag children => elementBytes tag (allBytes children)

def allBytes : List Der → Bytes
  | [] => []
  | d :: ds => d.bytes ++ allBytes ds

end

mutual

/-- The tags say what the elements are, and the lengths have three octets at most. -/
def WellFormed : Der → Prop
  | .prim tag content => constructed tag = false ∧ content.length < 256 ^ 3
  | .node tag children => constructed tag = true ∧ (allBytes children).length < 256 ^ 3 ∧ AllWellFormed children

def AllWellFormed : List Der → Prop
  | [] => True
  | d :: ds => d.WellFormed ∧ AllWellFormed ds

end

mutual

/-- The tags say what the elements are. -/
def Tagged : Der → Prop
  | .prim tag _ => constructed tag = false
  | .node tag children => constructed tag = true ∧ AllTagged children

def AllTagged : List Der → Prop
  | [] => True
  | d :: ds => d.Tagged ∧ AllTagged ds

end

mutual

/-- The content, with five octets for every element. -/
def weight : Der → Nat
  | .prim _ content => content.length + 5
  | .node _ children => allWeight children + 5

def allWeight : List Der → Nat
  | [] => 0
  | d :: ds => d.weight + allWeight ds

end

/-! ## Reading -/

def readLength : Bytes → Option (Nat × Bytes)
  | [] => none
  | b :: rest =>
    if b.toNat < 128 then some (b.toNat, rest)
    else if b.toNat - 128 ≤ rest.length then some (beNat (rest.take (b.toNat - 128)), rest.drop (b.toNat - 128))
    else none

/-- The first element: its tag, its content, and what follows. -/
def readElement : Bytes → Option (UInt8 × Bytes × Bytes)
  | [] => none
  | tag :: data => do
    let (n, rest) ← readLength data
    if n ≤ rest.length then some (tag, rest.take n, rest.drop n) else none

/-- With as much fuel as there are octets. -/
def readAll : Nat → Bytes → Option (List Der)
  | _, [] => some []
  | 0, _ => none
  | fuel + 1, data => do
    let (tag, content, rest) ← readElement data
    let d ← if constructed tag then (readAll fuel content).map (.node tag) else some (.prim tag content)
    let ds ← readAll fuel rest
    return d :: ds

def read (data : Bytes) : Option (List Der) := readAll data.length data

/-- The content of the first constructed element with the tag. -/
def child (tag : UInt8) (ds : List Der) : Option (List Der) :=
  ds.findSome? fun
    | .node t children => if t = tag then some children else none
    | .prim _ _ => none

def leaf (tag : UInt8) (ds : List Der) : Option Bytes :=
  ds.findSome? fun
    | .prim t content => if t = tag then some content else none
    | .node _ _ => none

/-! ## What is written is read -/

theorem readLength_bytes (length : Length) (rest : Bytes) :
    readLength (length.bytes ++ rest) = some (length.value, rest) := by
  cases length with
  | short n h =>
    have hn : (UInt8.ofNat n).toNat = n := by rw [UInt8.toNat_ofNat']; omega
    simp only [Length.bytes, Length.value, List.cons_append, List.nil_append, readLength, hn, if_pos h]
  | long octets h =>
    have hn : (UInt8.ofNat (128 + octets.length)).toNat = 128 + octets.length := by rw [UInt8.toNat_ofNat']; omega
    simp only [Length.bytes, Length.value, List.cons_append, readLength, hn]
    rw [if_neg (by omega), Nat.add_sub_cancel_left, if_pos (by simp), List.take_left, List.drop_left]

theorem readElement_bytes (tag : UInt8) {content : Bytes} (h : content.length < 256 ^ 3) (rest : Bytes) :
    readElement (elementBytes tag content ++ rest) = some (tag, content, rest) := by
  obtain ⟨length, hbytes, hvalue⟩ := derLength_definite h
  have hread : readLength (derLength content.length ++ (content ++ rest)) = some (content.length, content ++ rest) := by
    rw [← hbytes, readLength_bytes, hvalue]
  simp [elementBytes, readElement, hread]

theorem forest {P : List Der → Prop} (hnil : P []) (hprim : ∀ tag content rest, P rest → P (.prim tag content :: rest))
    (hnode : ∀ tag children rest, P children → P rest → P (.node tag children :: rest)) : ∀ ds, P ds
  | [] => hnil
  | .prim tag content :: rest => hprim tag content rest (forest hnil hprim hnode rest)
  | .node tag children :: rest =>
    hnode tag children rest (forest hnil hprim hnode children) (forest hnil hprim hnode rest)

theorem lt_elementBytes (tag : UInt8) (content : Bytes) : content.length < (elementBytes tag content).length := by
  simp only [elementBytes, List.length_append, List.length_singleton]
  omega

theorem allBytes_append (ds es : List Der) : allBytes (ds ++ es) = allBytes ds ++ allBytes es := by
  induction ds with
  | nil => rfl
  | cons d ds ih => rw [List.cons_append, allBytes, ih, allBytes, List.append_assoc]

theorem allWellFormed_append {ds es : List Der} (h : AllWellFormed (ds ++ es)) : AllWellFormed ds ∧ AllWellFormed es := by
  induction ds with
  | nil => exact ⟨trivial, h⟩
  | cons d ds ih =>
    obtain ⟨hds, hes⟩ := ih h.2
    exact ⟨⟨h.1, hds⟩, hes⟩

/-- The fuel lasts for an element: for its content, and for what follows. -/
theorem readAll_element (tag : UInt8) {content : Bytes} (h : content.length < 256 ^ 3) (rest : Bytes) {fuel : Nat}
    (hfuel : (elementBytes tag content ++ rest).length ≤ fuel) :
    ∃ n, content.length ≤ n ∧ rest.length ≤ n ∧ readAll fuel (elementBytes tag content ++ rest) = (do
      let d ← if constructed tag then (readAll n content).map (.node tag) else some (.prim tag content)
      let ds ← readAll n rest
      return d :: ds) := by
  have hlt := lt_elementBytes tag content
  rw [List.length_append] at hfuel
  cases fuel with
  | zero => omega
  | succ n =>
    refine ⟨n, by omega, by omega, ?_⟩
    have hread := readElement_bytes tag h rest
    cases hdata : elementBytes tag content ++ rest with
    | nil => simp [elementBytes] at hdata
    | cons b data =>
      rw [hdata] at hread
      rw [readAll, hread]
      · rfl
      · simp

theorem readAll_bytes {ds : List Der} (h : AllWellFormed ds) {fuel : Nat} (hfuel : (allBytes ds).length ≤ fuel) :
    readAll fuel (allBytes ds) = some ds := by
  induction ds using forest generalizing fuel with
  | hnil => cases fuel <;> rfl
  | hprim tag content rest ih =>
    obtain ⟨⟨htag, hcontent⟩, hrest⟩ := h
    obtain ⟨n, _, hn, hread⟩ := readAll_element tag hcontent (allBytes rest) hfuel
    rw [allBytes, bytes, hread, ih hrest hn]
    simp [htag]
  | hnode tag children rest ihc ihr =>
    obtain ⟨⟨htag, hcontent, hchildren⟩, hrest⟩ := h
    obtain ⟨n, hc, hr, hread⟩ := readAll_element tag hcontent (allBytes rest) hfuel
    rw [allBytes, bytes, hread, ihc hchildren hc, ihr hrest hr]
    simp [htag]

theorem elementBytes_le (tag : UInt8) {content : Bytes} (h : content.length < 256 ^ 3) :
    (elementBytes tag content).length ≤ content.length + 5 := by
  have hoctets := octets_length_le h
  unfold elementBytes derLength
  split_ifs
  · simp
  · simp
    omega

theorem allWellFormed_of_weight {ds : List Der} (htags : AllTagged ds) (h : allWeight ds < 256 ^ 3) :
    AllWellFormed ds ∧ (allBytes ds).length ≤ allWeight ds := by
  induction ds using forest with
  | hnil => exact ⟨trivial, Nat.le_refl 0⟩
  | hprim tag content rest ih =>
    obtain ⟨htag, hrest⟩ := htags
    simp only [allWeight, weight] at h
    obtain ⟨hwell, hle⟩ := ih hrest (by omega)
    have hcontent : content.length < 256 ^ 3 := by omega
    have helement := elementBytes_le tag hcontent
    refine ⟨⟨⟨htag, hcontent⟩, hwell⟩, ?_⟩
    simp only [allBytes, bytes, allWeight, weight, List.length_append]
    omega
  | hnode tag children rest ihc ihr =>
    obtain ⟨⟨htag, hchildren⟩, hrest⟩ := htags
    simp only [allWeight, weight] at h
    obtain ⟨hwellc, hlec⟩ := ihc hchildren (by omega)
    obtain ⟨hwell, hle⟩ := ihr hrest (by omega)
    have hcontent : (allBytes children).length < 256 ^ 3 := by omega
    have helement := elementBytes_le tag hcontent
    refine ⟨⟨⟨htag, hcontent, hwellc⟩, hwell⟩, ?_⟩
    simp only [allBytes, bytes, allWeight, weight, List.length_append]
    omega

theorem wellFormed_of_weight {d : Der} (htag : d.Tagged) (h : d.weight < 256 ^ 3) :
    d.WellFormed ∧ d.bytes.length ≤ d.weight := by
  have hall : AllWellFormed [d] ∧ (allBytes [d]).length ≤ allWeight [d] := allWellFormed_of_weight ⟨htag, trivial⟩ h
  simp only [allBytes, allWeight, List.append_nil, Nat.add_zero] at hall
  exact ⟨hall.1.1, hall.2⟩

theorem read_bytes {d : Der} (h : d.WellFormed) : read d.bytes = some [d] := by
  have hall := readAll_bytes (show AllWellFormed [d] from ⟨h, trivial⟩) le_rfl
  rwa [allBytes, allBytes, List.append_nil] at hall

end Der
