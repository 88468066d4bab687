import RdpProxy.Lib.Steps
import RdpProxy.Lib.Utf8

/-!
# LDAP search filters

The string form of a filter is read one character at a time, with a stack of the lists that are still open. What a
text reads as in one place it reads as in another, and a list that has begun keeps its first member.
-/

open Steps Text Words

namespace Ldap

/-! ## Filters -/

inductive Item where
  | equal (attr : List Char) (value : Bytes)
  | present (attr : List Char)
  /-- What stands between the asterisks. -/
  | substrings (attr : List Char) (parts : List Bytes)
  /-- `~=`, `>=`, `<=` and `:=`, by the first character. -/
  | other (op : Char) (attr : List Char) (value : Bytes)
  deriving DecidableEq

inductive Filter where
  | and (fs : List Filter)
  | or (fs : List Filter)
  | not (f : Filter)
  | item (i : Item)

/-! ### What they hold of -/

section

variable {E : Type} (holds : Item → E → Option Bool)

/-- `none` is Undefined. -/
def both (a b : Option Bool) : Option Bool :=
  if a = some false ∨ b = some false then some false
  else if a = some true ∧ b = some true then some true
  else none

def either (a b : Option Bool) : Option Bool :=
  if a = some true ∨ b = some true then some true
  else if a = some false ∧ b = some false then some false
  else none

mutual

def Filter.eval (e : E) : Filter → Option Bool
  | .and fs => Filter.evalAll e fs
  | .or fs => Filter.evalAny e fs
  | .not f => (Filter.eval e f).map fun b => !b
  | .item i => holds i e

def Filter.evalAll (e : E) : List Filter → Option Bool
  | [] => some true
  | f :: fs => both (Filter.eval e f) (Filter.evalAll e fs)

def Filter.evalAny (e : E) : List Filter → Option Bool
  | [] => some false
  | f :: fs => either (Filter.eval e f) (Filter.evalAny e fs)

end

variable {holds} {e : E}

theorem both_true {a b : Option Bool} : both a b = some true ↔ a = some true ∧ b = some true := by
  unfold both
  split_ifs with hfalse htrue
  · rcases hfalse with rfl | rfl
    · simp
    · simp
  · exact iff_of_true rfl htrue
  · exact iff_of_false (by simp) htrue

theorem either_true {a b : Option Bool} : either a b = some true ↔ a = some true ∨ b = some true := by
  unfold either
  split_ifs with htrue hfalse
  · exact iff_of_true rfl htrue
  · exact iff_of_false (by simp) htrue
  · exact iff_of_false (by simp) htrue

@[simp] theorem eval_and {fs : List Filter} :
    Filter.eval holds e (.and fs) = some true ↔ ∀ f ∈ fs, Filter.eval holds e f = some true := by
  rw [Filter.eval]
  induction fs with
  | nil => simp [Filter.evalAll]
  | cons f fs ih => rw [Filter.evalAll, both_true, ih, List.forall_mem_cons]

@[simp] theorem eval_or {fs : List Filter} :
    Filter.eval holds e (.or fs) = some true ↔ ∃ f ∈ fs, Filter.eval holds e f = some true := by
  rw [Filter.eval]
  induction fs with
  | nil => simp [Filter.evalAny]
  | cons f fs ih => rw [Filter.evalAny, either_true, ih, List.exists_mem_cons_iff]

end

/-! ## Items -/

def hexDigit (c : Char) : Option Nat :=
  if '0' ≤ c ∧ c ≤ '9' then some (c.toNat - 48)
  else if 'a' ≤ c ∧ c ≤ 'f' then some (c.toNat - 87)
  else if 'A' ≤ c ∧ c ≤ 'F' then some (c.toNat - 55)
  else none

def special : List Char := ['(', ')', '*', '\x00']

/-- The bytes of an assertion value. -/
def octets : List Char → Option Bytes
  | [] => some []
  | '\\' :: h :: l :: rest => do
    let high ← hexDigit h
    let low ← hexDigit l
    let bytes ← octets rest
    return UInt8.ofNat (16 * high + low) :: bytes
  | c :: rest =>
    if c = '\\' ∨ c ∈ special then none
    else (octets rest).map fun bytes => String.utf8EncodeChar c ++ bytes

def isAttr (attr : List Char) : Bool := attr ≠ [] && attr.all fun c => c.isAlphanum || c = '-' || c = '.' || c = ';'

/-- An item between its parentheses. -/
def itemOf (text : List Char) : Option Item :=
  let left := text.takeWhile (· ≠ '=')
  match text.dropWhile (· ≠ '=') with
  | [] => none
  | _ :: value =>
    if isAttr left then
      match value.splitOn '*' with
      | [v] => (octets v).map (.equal left)
      | pieces => if pieces = [[], []] then some (.present left) else (pieces.mapM octets).map (.substrings left)
    else
      match left.getLast? with
      | some op => if op ∈ ['~', '>', '<', ':'] then (octets value).map (.other op left.dropLast) else none
      | none => none

/-! ## The reader -/

inductive Connective where
  | and
  | or
  | not

/-- A list of filters that is still open. -/
structure Frame where
  connective : Connective
  children : List Filter

inductive Reader where
  | start
  /-- Behind an opening parenthesis. -/
  | opened (stack : List Frame)
  | list (frame : Frame) (stack : List Frame)
  | item (text : List Char) (stack : List Frame)
  | done (f : Filter)

def Frame.close : Frame → Option Filter
  | ⟨.and, fs⟩ => some (.and fs)
  | ⟨.or, fs⟩ => some (.or fs)
  | ⟨.not, [f]⟩ => some (.not f)
  | _ => none

def Frame.add (frame : Frame) (f : Filter) : Frame := { frame with children := frame.children ++ [f] }

def deliver (f : Filter) : List Frame → Reader
  | [] => .done f
  | frame :: stack => .list (frame.add f) stack

def feed : Reader → Char → Option Reader
  | .start, c => if c = '(' then some (.opened []) else none
  | .opened stack, c =>
    if c = '&' then some (.list ⟨.and, []⟩ stack)
    else if c = '|' then some (.list ⟨.or, []⟩ stack)
    else if c = '!' then some (.list ⟨.not, []⟩ stack)
    else if c = '(' ∨ c = ')' then none
    else some (.item [c] stack)
  | .list frame stack, c =>
    if c = '(' then some (.opened (frame :: stack))
    else if c = ')' then frame.close.map fun f => deliver f stack
    else none
  | .item text stack, c =>
    if c = ')' then (itemOf text).map fun i => deliver (.item i) stack
    else if c = '(' then none
    else some (.item (text ++ [c]) stack)
  | .done _, _ => none

def parse (text : List Char) : Option Filter :=
  match run feed .start text with
  | some (.done f) => some f
  | _ => none

theorem parse_eq_some {text : List Char} {f : Filter} : parse text = some f ↔ run feed .start text = some (.done f) := by
  unfold parse
  split
  · rename_i f' hrun
    rw [hrun]
    simp
  · rename_i hrun
    exact iff_of_false (by simp) (hrun f)

example : (parse "(&(a=b)(!(c=*)))".toList).isSome = true := by decide

/-! ### The same text in another place -/

/-- The reader, inside lists that were open before. -/
def Reader.within (frame : Frame) (stack : List Frame) : Reader → Reader
  | .start => .list frame stack
  | .opened inner => .opened (inner ++ frame :: stack)
  | .list top inner => .list top (inner ++ frame :: stack)
  | .item text inner => .item text (inner ++ frame :: stack)
  | .done f => .list (frame.add f) stack

theorem deliver_within (f : Filter) (inner : List Frame) (frame : Frame) (stack : List Frame) :
    (deliver f inner).within frame stack = deliver f (inner ++ frame :: stack) := by
  cases inner with
  | nil => rfl
  | cons top inner => rfl

theorem feed_within {s s' : Reader} {c : Char} (h : feed s c = some s') (frame : Frame) (stack : List Frame) :
    feed (s.within frame stack) c = some (s'.within frame stack) := by
  cases s with
  | start =>
    rw [feed] at h
    split_ifs at h with hc
    cases h
    exact if_pos hc
  | opened inner =>
    rw [feed] at h
    split_ifs at h with h₁ h₂ h₃ h₄
    · cases h
      simp [feed, Reader.within, h₁]
    · cases h
      simp [feed, Reader.within, h₂]
    · cases h
      simp [feed, Reader.within, h₃]
    · cases h
      simp [feed, Reader.within, h₁, h₂, h₃, h₄]
  | list top inner =>
    rw [feed] at h
    split_ifs at h with h₁ h₂
    · cases h
      simp [feed, Reader.within, h₁]
    · obtain ⟨f, hclose, rfl⟩ := Option.map_eq_some_iff.mp h
      rw [deliver_within]
      simp [feed, Reader.within, h₂, hclose]
  | item text inner =>
    rw [feed] at h
    split_ifs at h with h₁ h₂
    · obtain ⟨i, hitem, rfl⟩ := Option.map_eq_some_iff.mp h
      rw [deliver_within]
      simp [feed, Reader.within, h₁, hitem]
    · cases h
      simp [feed, Reader.within, h₁, h₂]
  | done f => cases h

theorem run_within {s s' : Reader} {text : List Char} (h : run feed s text = some s') (frame : Frame)
    (stack : List Frame) : run feed (s.within frame stack) text = some (s'.within frame stack) := by
  induction text generalizing s with
  | nil =>
    cases h
    rfl
  | cons c text ih =>
    obtain ⟨s₁, hc, hrest⟩ := run_cons_eq_some.mp h
    exact run_cons_eq_some.mpr ⟨_, feed_within hc frame stack, ih hrest⟩

theorem run_filter {text : List Char} {f : Filter} (h : parse text = some f) (frame : Frame) (stack : List Frame) :
    run feed (.list frame stack) text = some (.list (frame.add f) stack) :=
  run_within (parse_eq_some.mp h) frame stack

/-! ### Texts of items and lists -/

theorem run_item_text {text rest : List Char} (h : ∀ c ∈ rest, c ≠ '(' ∧ c ≠ ')') (stack : List Frame) :
    run feed (.item text stack) rest = some (.item (text ++ rest) stack) := by
  induction rest generalizing text with
  | nil => rw [List.append_nil]; rfl
  | cons c rest ih =>
    obtain ⟨⟨hopen, hclose⟩, hrest⟩ := List.forall_mem_cons.mp h
    have hc : feed (.item text stack) c = some (.item (text ++ [c]) stack) := by simp [feed, hopen, hclose]
    rw [run_cons, hc, Option.bind_some, ih hrest, List.append_assoc]
    rfl

/-- The text of an item that is no list. -/
structure ItemText (text : List Char) (i : Item) : Prop where
  noParens : ∀ c ∈ text, c ≠ '(' ∧ c ≠ ')'
  noList : ∀ c ∈ text.head?, c ≠ '&' ∧ c ≠ '|' ∧ c ≠ '!'
  reads : itemOf text = some i

theorem ItemText.parse {text : List Char} {i : Item} (h : ItemText text i) :
    Ldap.parse ('(' :: text ++ [')']) = some (.item i) := by
  rw [parse_eq_some]
  cases htext : text with
  | nil =>
    have hreads := h.reads
    rw [htext] at hreads
    cases hreads
  | cons c rest =>
    obtain ⟨hc, hrest⟩ := List.forall_mem_cons.mp (htext ▸ h.noParens)
    obtain ⟨hand, hor, hnot⟩ := h.noList c (by rw [htext]; rfl)
    have hopened : feed (.opened []) c = some (.item [c] []) := by simp [feed, hand, hor, hnot, hc.1, hc.2]
    have hlast : feed (.item (c :: rest) []) ')' = some (.done (.item i)) := by
      rw [feed, if_pos rfl, ← htext, h.reads]
      rfl
    refine run_cons_eq_some.mpr ⟨.opened [], rfl, run_cons_eq_some.mpr ⟨_, hopened, ?_⟩⟩
    exact run_append_eq_some.mpr ⟨_, run_item_text hrest [], run_cons_eq_some.mpr ⟨_, hlast, rfl⟩⟩

/-- `(& …)` -/
def andText (texts : List (List Char)) : List Char := '(' :: '&' :: texts.flatten ++ [')']

/-- `(| …)` -/
def orText (texts : List (List Char)) : List Char := '(' :: '|' :: texts.flatten ++ [')']

theorem run_filters {texts : List (List Char)} {fs : List Filter} (h : texts.map parse = fs.map some) (frame : Frame)
    (stack : List Frame) :
    run feed (.list frame stack) texts.flatten = some (.list { frame with children := frame.children ++ fs } stack) := by
  induction texts generalizing fs frame with
  | nil =>
    obtain rfl := List.map_eq_nil_iff.mp h.symm
    rw [List.append_nil]
    rfl
  | cons text texts ih =>
    cases fs with
    | nil => cases h
    | cons f fs =>
      obtain ⟨hf, hrest⟩ := List.cons.inj h
      have hchildren : frame.children ++ f :: fs = (frame.add f).children ++ fs := by simp [Frame.add]
      rw [List.flatten_cons, run_append_eq_some, hchildren]
      exact ⟨_, run_filter hf frame stack, ih hrest (frame.add f)⟩

theorem parse_andText {texts : List (List Char)} {fs : List Filter} (h : texts.map parse = fs.map some) :
    parse (andText texts) = some (.and fs) := by
  rw [parse_eq_some]
  refine run_cons_eq_some.mpr ⟨.opened [], rfl, run_cons_eq_some.mpr ⟨.list ⟨.and, []⟩ [], rfl, ?_⟩⟩
  exact run_append_eq_some.mpr ⟨_, run_filters h _ _, rfl⟩

theorem parse_orText {texts : List (List Char)} {fs : List Filter} (h : texts.map parse = fs.map some) :
    parse (orText texts) = some (.or fs) := by
  rw [parse_eq_some]
  refine run_cons_eq_some.mpr ⟨.opened [], rfl, run_cons_eq_some.mpr ⟨.list ⟨.or, []⟩ [], rfl, ?_⟩⟩
  exact run_append_eq_some.mpr ⟨_, run_filters h _ _, rfl⟩

/-! ### Values -/

/-- What writes a text as an assertion value. -/
structure Escape where
  escape : List Char → List Char
  plain : ∀ text, ∀ c ∈ escape text, c ∉ special
  octets_escape : ∀ text, octets (escape text) = some (utf8 text)

theorem isAttr_char {attr : List Char} (h : isAttr attr = true) {c : Char} (hc : c ∈ attr) :
    c.isAlphanum = true ∨ c = '-' ∨ c = '.' ∨ c = ';' := by
  simp only [isAttr, Bool.and_eq_true, List.all_eq_true, Bool.or_eq_true, decide_eq_true_eq] at h
  have := h.2 c hc
  tauto

theorem isAttr_ne {attr : List Char} (h : isAttr attr = true) {c : Char} (hc : c ∈ attr) :
    c ≠ '=' ∧ c ≠ '(' ∧ c ≠ ')' ∧ c ≠ '&' ∧ c ≠ '|' ∧ c ≠ '!' := by
  have hchar := isAttr_char h hc
  refine ⟨?_, ?_, ?_, ?_, ?_, ?_⟩ <;> rintro rfl <;> exact absurd hchar (by decide)

theorem itemOf_attr {attr value : List Char} (h : isAttr attr = true) :
    itemOf (attr ++ '=' :: value) = match value.splitOn '*' with
      | [v] => (octets v).map (.equal attr)
      | pieces => if pieces = [[], []] then some (.present attr) else (pieces.mapM octets).map (.substrings attr) := by
  have hall : ∀ c ∈ attr, decide (c ≠ '=') = true := fun c hc => decide_eq_true (isAttr_ne h hc).1
  have hleft : (attr ++ '=' :: value).takeWhile (· ≠ '=') = attr := by
    rw [List.takeWhile_append_of_pos hall]
    simp
  have hright : (attr ++ '=' :: value).dropWhile (· ≠ '=') = '=' :: value := by
    rw [List.dropWhile_append_of_pos hall]
    simp
  simp only [itemOf, hleft, hright, h, if_true]

theorem parse_attr {attr value : List Char} {i : Item} (h : isAttr attr = true)
    (hvalue : ∀ c ∈ value, c ≠ '(' ∧ c ≠ ')') (hitem : itemOf (attr ++ '=' :: value) = some i) :
    parse ('(' :: (attr ++ '=' :: value) ++ [')']) = some (.item i) := by
  refine ItemText.parse ⟨?_, ?_, hitem⟩
  · intro c hc
    rcases List.mem_append.mp hc with hc | hc
    · exact ⟨(isAttr_ne h hc).2.1, (isAttr_ne h hc).2.2.1⟩
    · rcases List.mem_cons.mp hc with rfl | hc
      · decide
      · exact hvalue c hc
  · cases attr with
    | nil => cases h
    | cons a attr =>
      rintro c ⟨⟩
      exact (isAttr_ne h List.mem_cons_self).2.2.2

namespace Escape

variable (esc : Escape) {attr : List Char} (text : List Char)

theorem star_notMem : '*' ∉ esc.escape text := fun h => esc.plain text '*' h (by decide)

theorem paren_ne {c : Char} (hc : c ∈ esc.escape text) : c ≠ '(' ∧ c ≠ ')' := by
  have hplain := esc.plain text c hc
  constructor
  · rintro rfl
    exact hplain (by decide)
  · rintro rfl
    exact hplain (by decide)

theorem parse_equal (h : isAttr attr = true) :
    parse ('(' :: (attr ++ '=' :: esc.escape text) ++ [')']) = some (.item (.equal attr (utf8 text))) := by
  refine parse_attr h (fun c => esc.paren_ne text) ?_
  rw [itemOf_attr h, List.splitOn_eq_singleton (esc.star_notMem text)]
  simp only [esc.octets_escape, Option.map_some]

theorem parse_infix (h : isAttr attr = true) :
    parse ('(' :: (attr ++ '=' :: ('*' :: (esc.escape text ++ ['*']))) ++ [')']) =
      some (.item (.substrings attr [[], utf8 text, []])) := by
  have hpieces : ('*' :: (esc.escape text ++ ['*'])).splitOn '*' = [[], esc.escape text, []] := by
    have hfirst := List.splitOn_append_cons_self (a := '*') [] (esc.escape text ++ ['*'])
    rw [List.nil_append] at hfirst
    rw [hfirst, List.splitOn_append_cons_self, List.splitOn_eq_singleton (esc.star_notMem text)]
    rfl
  refine parse_attr h ?_ ?_
  · intro c hc
    rcases List.mem_cons.mp hc with rfl | hc
    · decide
    · rcases List.mem_append.mp hc with hc | hc
      · exact esc.paren_ne text hc
      · rw [List.mem_singleton.mp hc]
        decide
  · rw [itemOf_attr h, hpieces]
    simp [octets, esc.octets_escape]

end Escape

/-! ### Escaping by RFC 4515 -/

def lowerHex (n : Nat) : Char := if n < 10 then Char.ofNat (48 + n) else Char.ofNat (87 + n)

def escapeChar (c : Char) : List Char :=
  if c = '\\' ∨ c ∈ special then ['\\', lowerHex (c.toNat / 16), lowerHex (c.toNat % 16)] else [c]

theorem hexDigit_special {c : Char} (hc : c ∈ '\\' :: special) :
    hexDigit (lowerHex (c.toNat / 16)) = some (c.toNat / 16) ∧ hexDigit (lowerHex (c.toNat % 16)) = some (c.toNat % 16) ∧
      String.utf8EncodeChar c = [UInt8.ofNat (16 * (c.toNat / 16) + c.toNat % 16)] := by
  have hall : ('\\' :: special).all (fun c => hexDigit (lowerHex (c.toNat / 16)) = some (c.toNat / 16) ∧
      hexDigit (lowerHex (c.toNat % 16)) = some (c.toNat % 16) ∧
      String.utf8EncodeChar c = [UInt8.ofNat (16 * (c.toNat / 16) + c.toNat % 16)]) = true := by decide
  exact of_decide_eq_true (List.all_eq_true.mp hall c hc)

theorem octets_escapeChar (c : Char) (rest : List Char) :
    octets (escapeChar c ++ rest) = (octets rest).map fun bytes => String.utf8EncodeChar c ++ bytes := by
  unfold escapeChar
  split_ifs with hc
  · obtain ⟨hhigh, hlow, hbytes⟩ := hexDigit_special (List.mem_cons.mpr hc)
    have hstep : ∀ h l : Char, octets (['\\', h, l] ++ rest) = do
        let high ← hexDigit h
        let low ← hexDigit l
        let bytes ← octets rest
        return UInt8.ofNat (16 * high + low) :: bytes := fun _ _ => rfl
    rw [hstep, hhigh, hlow, hbytes]
    cases octets rest with
    | none => rfl
    | some bytes => rfl
  · have hslash : c ≠ '\\' := fun h => hc (Or.inl h)
    rw [List.singleton_append, octets]
    · rw [if_neg hc]
    · rintro h l rest' rfl
      exact absurd rfl hslash

theorem escapeChar_plain (c : Char) : ∀ x ∈ escapeChar c, x ∉ special := by
  have hhex : ∀ n < 16, lowerHex n ∉ special := by decide
  unfold escapeChar
  split_ifs with hc
  · have hsmall : c.toNat < 128 := by
      have hall : ('\\' :: special).all (fun c => c.toNat < 128) = true := by decide
      exact of_decide_eq_true (List.all_eq_true.mp hall c (List.mem_cons.mpr hc))
    intro x hx
    simp only [List.mem_cons, List.not_mem_nil, or_false] at hx
    rcases hx with rfl | rfl | rfl
    · decide
    · exact hhex _ (by omega)
    · exact hhex _ (by omega)
  · intro x hx
    rw [List.mem_singleton.mp hx]
    exact fun h => hc (Or.inr h)

def rfc4515 : Escape where
  escape text := text.flatMap escapeChar
  plain text c hc := by
    obtain ⟨x, _, hx⟩ := List.mem_flatMap.mp hc
    exact escapeChar_plain x c hx
  octets_escape text := by
    induction text with
    | nil => rfl
    | cons c text ih =>
      rw [List.flatMap_cons, octets_escapeChar, ih]
      rfl

/-! ### A list keeps its first member -/

/-- The outermost list is a conjunction that begins with `f`, and it may be closed. -/
def Reader.Begins (f : Filter) : Reader → Prop
  | .start => False
  | .opened stack => ∃ inner fs, stack = inner ++ [⟨.and, f :: fs⟩]
  | .list frame stack => ∃ inner fs, frame :: stack = inner ++ [⟨.and, f :: fs⟩]
  | .item _ stack => ∃ inner fs, stack = inner ++ [⟨.and, f :: fs⟩]
  | .done g => ∃ fs, g = .and (f :: fs)

theorem begins_deliver {f g : Filter} {inner : List Frame} {fs : List Filter} :
    (deliver g (inner ++ [⟨.and, f :: fs⟩])).Begins f := by
  cases inner with
  | nil => exact ⟨[], fs ++ [g], rfl⟩
  | cons frame inner => exact ⟨frame.add g :: inner, fs, rfl⟩

theorem feed_begins {f : Filter} {s s' : Reader} {c : Char} (hs : s.Begins f) (h : feed s c = some s') : s'.Begins f := by
  cases s with
  | start => exact hs.elim
  | opened stack =>
    obtain ⟨inner, fs, rfl⟩ := hs
    rw [feed] at h
    split_ifs at h
    · cases h
      exact ⟨⟨.and, []⟩ :: inner, fs, rfl⟩
    · cases h
      exact ⟨⟨.or, []⟩ :: inner, fs, rfl⟩
    · cases h
      exact ⟨⟨.not, []⟩ :: inner, fs, rfl⟩
    · cases h
      exact ⟨inner, fs, rfl⟩
  | list frame stack =>
    obtain ⟨inner, fs, hstack⟩ := hs
    rw [feed] at h
    split_ifs at h
    · cases h
      exact ⟨inner, fs, hstack⟩
    · obtain ⟨g, hclose, rfl⟩ := Option.map_eq_some_iff.mp h
      cases inner with
      | nil =>
        obtain ⟨rfl, rfl⟩ := List.cons.inj hstack
        cases hclose
        exact ⟨fs, rfl⟩
      | cons top inner =>
        obtain ⟨rfl, rfl⟩ := List.cons.inj hstack
        exact begins_deliver
  | item text stack =>
    obtain ⟨inner, fs, rfl⟩ := hs
    rw [feed] at h
    split_ifs at h
    · obtain ⟨i, _, rfl⟩ := Option.map_eq_some_iff.mp h
      exact begins_deliver
    · cases h
      exact ⟨inner, fs, rfl⟩
  | done g => cases h

/-- Whatever is written behind the first member of a conjunction, what it reads as is a conjunction with this member. -/
theorem parse_and_begins {text rest : List Char} {f g : Filter} (hf : parse text = some f)
    (hg : parse ('(' :: '&' :: text ++ rest) = some g) : ∃ fs, g = .and (f :: fs) := by
  rw [parse_eq_some] at hg
  obtain ⟨s₁, h₁, hg⟩ := run_cons_eq_some.mp hg
  cases h₁
  obtain ⟨s₂, h₂, hg⟩ := run_cons_eq_some.mp hg
  cases h₂
  obtain ⟨s₃, h₃, hg⟩ := run_append_eq_some.mp hg
  rw [run_filter hf] at h₃
  cases h₃
  have hbegins : (Reader.list (Frame.add ⟨.and, []⟩ f) []).Begins f := ⟨[], [], rfl⟩
  have hdone : (Reader.done g).Begins f := run_keeps (fun _ _ _ => feed_begins) hg hbegins
  exact hdone

end Ldap
