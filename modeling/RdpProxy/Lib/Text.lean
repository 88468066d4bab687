import Mathlib.Data.List.DropRight
import RdpProxy.Lib.Words

/-!
# Text in byte strings

The parts of Python's `bytes`, `str` and `re` that read text out of a packet. A `str` is its
list of characters.
-/

open Words

namespace Text

/-! ## ASCII -/

def ascii (s : String) : Bytes := s.toList.map fun c => UInt8.ofNat c.toNat

def chars (l : Bytes) : List Char := l.map fun b => Char.ofNat b.toNat

@[simp] theorem chars_length (l : Bytes) : (chars l).length = l.length := by simp [chars]

/-- `bytes.decode("ascii")`, where it does not raise. -/
def decodeAscii (l : Bytes) : Option (List Char) := if l.all fun b => b < 0x80 then some (chars l) else none

/-- `str.encode("ascii")` of ASCII text. -/
def encodeAscii (s : List Char) : Bytes := s.map fun c => UInt8.ofNat c.toNat

@[simp] theorem encodeAscii_length (s : List Char) : (encodeAscii s).length = s.length := by simp [encodeAscii]

@[simp] theorem encodeAscii_append (s t : List Char) : encodeAscii (s ++ t) = encodeAscii s ++ encodeAscii t := by
  simp [encodeAscii]

theorem toNat_ofNat_char {c : Char} (h : c.toNat < 128) : (UInt8.ofNat c.toNat).toNat = c.toNat := by
  rw [UInt8.toNat_ofNat']
  exact Nat.mod_eq_of_lt (by omega)

theorem decodeAscii_encodeAscii {s : List Char} (h : ∀ c ∈ s, c.toNat < 128) : decodeAscii (encodeAscii s) = some s := by
  have hall : (encodeAscii s).all (fun b => decide (b < 0x80)) = true := by
    unfold encodeAscii
    simp only [List.all_map, List.all_eq_true, Function.comp_apply, decide_eq_true_eq]
    intro c hc
    have hlt := h c hc
    rw [UInt8.lt_iff_toNat_lt, toNat_ofNat_char hlt]
    exact hlt
  have hchars : chars (encodeAscii s) = s := by
    unfold chars encodeAscii
    rw [List.map_map]
    conv_rhs => rw [← List.map_id s]
    refine List.map_congr_left ?_
    intro c hc
    show Char.ofNat (UInt8.ofNat c.toNat).toNat = c
    rw [toNat_ofNat_char (h c hc)]
    exact Char.ofNat_toNat c
  unfold decodeAscii
  rw [if_pos hall, hchars]

/-! ## UTF-8 -/

/-- The value with `n` continuation bytes appended, where they are there. -/
def continued : Nat → Nat → Bytes → Option Nat
  | 0, acc, _ => some acc
  | _ + 1, _, [] => none
  | n + 1, acc, b :: rest => if 0x80 ≤ b ∧ b < 0xC0 then continued n (64 * acc + b.toNat % 64) rest else none

def scalarAt (b : UInt8) (rest : Bytes) : Option Char :=
  if b < 0x80 then some (Char.ofNat b.toNat)
  else if 0xC2 ≤ b ∧ b < 0xE0 then (continued 1 (b.toNat - 0xC0) rest).map Char.ofNat
  else if 0xE0 ≤ b ∧ b < 0xF0 then
    ((continued 2 (b.toNat - 0xE0) rest).filter fun n => 0x800 ≤ n ∧ n.isValidChar).map Char.ofNat
  else if 0xF0 ≤ b ∧ b < 0xF5 then
    ((continued 3 (b.toNat - 0xF0) rest).filter fun n => 0x10000 ≤ n ∧ n.isValidChar).map Char.ofNat
  else none

/-- `bytes.decode("utf-8", errors="ignore")`. -/
def decodeIgnore : Bytes → List Char
  | [] => []
  -- The continuation bytes of a character start none, so they are passed over as ignored bytes are.
  | b :: rest => (scalarAt b rest).toList ++ decodeIgnore rest

theorem decodeIgnore_ascii (l : Bytes) (h : ∀ b ∈ l, b < 0x80) : decodeIgnore l = chars l := by
  induction l with
  | nil => rfl
  | cons b l ih =>
    rw [decodeIgnore, ih (fun c hc => h c (by simp [hc])), scalarAt, if_pos (h b (by simp))]
    rfl

theorem decodeIgnore_length_le (l : Bytes) : (decodeIgnore l).length ≤ l.length := by
  induction l with
  | nil => simp [decodeIgnore]
  | cons b l ih =>
    have : (scalarAt b l).toList.length ≤ 1 := by cases scalarAt b l <;> simp
    rw [decodeIgnore, List.length_append, List.length_cons]
    omega

theorem mem_decodeIgnore_of_ascii {l : Bytes} {b : UInt8} (hb : b < 0x80) (h : b ∈ l) :
    Char.ofNat b.toNat ∈ decodeIgnore l := by
  induction l with
  | nil => simp at h
  | cons c l ih =>
    rw [decodeIgnore, List.mem_append]
    rcases List.mem_cons.mp h with rfl | h
    · left
      rw [scalarAt, if_pos hb]
      simp
    · exact Or.inr (ih h)

/-- `str.encode("utf-8")`. -/
def utf8 (s : List Char) : Bytes := s.flatMap String.utf8EncodeChar

/-! ## White space -/

/-- `str.isspace` of one character. -/
def isSpace (c : Char) : Bool :=
  let n := c.toNat
  (0x09 ≤ n && n ≤ 0x0D) || (0x1C ≤ n && n ≤ 0x20) || n == 0x85 || n == 0xA0 || n == 0x1680 ||
    (0x2000 ≤ n && n ≤ 0x200A) || n == 0x2028 || n == 0x2029 || n == 0x202F || n == 0x205F || n == 0x3000

/-- `str.strip`. -/
def strip (s : List Char) : List Char := ((s.dropWhile isSpace).reverse.dropWhile isSpace).reverse

theorem strip_length_le (s : List Char) : (strip s).length ≤ s.length := by
  have h1 := (List.dropWhile_sublist (l := s) isSpace).length_le
  have h2 := (List.dropWhile_sublist (l := (s.dropWhile isSpace).reverse) isSpace).length_le
  simp only [strip, List.length_reverse] at *
  omega

theorem dropWhile_eq_self {s : List Char} (h : ∀ c ∈ s, isSpace c = false) : s.dropWhile isSpace = s := by
  cases s with
  | nil => rfl
  | cons c s => rw [List.dropWhile_cons, h c (by simp)]; rfl

theorem strip_eq_self {s : List Char} (h : ∀ c ∈ s, isSpace c = false) : strip s = s := by
  rw [strip, dropWhile_eq_self h, dropWhile_eq_self (by simpa using h), List.reverse_reverse]

theorem mem_dropWhile {s : List Char} {c : Char} (h : c ∈ s) (hc : isSpace c = false) :
    c ∈ s.dropWhile isSpace := by
  induction s with
  | nil => simp at h
  | cons d s ih =>
    rw [List.dropWhile_cons]
    split_ifs with hd
    · rcases List.mem_cons.mp h with rfl | h
      · rw [hc] at hd; exact absurd hd (by simp)
      · exact ih h
    · exact h

theorem mem_strip {s : List Char} {c : Char} (h : c ∈ s) (hc : isSpace c = false) : c ∈ strip s := by
  rw [strip, List.mem_reverse]
  exact mem_dropWhile (by rw [List.mem_reverse]; exact mem_dropWhile h hc) hc

theorem mem_of_mem_strip {s : List Char} {c : Char} (h : c ∈ strip s) : c ∈ s := by
  unfold strip at h
  rw [List.mem_reverse] at h
  have hdrop := (List.dropWhile_sublist isSpace).subset h
  rw [List.mem_reverse] at hdrop
  exact (List.dropWhile_sublist isSpace).subset hdrop

theorem strip_eq (s : List Char) : strip s = (s.dropWhile isSpace).rdropWhile isSpace := rfl

theorem isSpace_of_strip_eq {s rest : List Char} {c : Char} (h : strip s = c :: rest) : isSpace c = false := by
  have hprefix : strip s <+: s.dropWhile isSpace := List.rdropWhile_prefix ..
  obtain ⟨more, hmore⟩ := hprefix
  rw [h] at hmore
  have hhead := List.head?_dropWhile_not isSpace s
  rw [← hmore] at hhead
  simpa using hhead

theorem strip_strip (s : List Char) : strip (strip s) = strip s := by
  have hdrop : (strip s).dropWhile isSpace = strip s := by
    rcases hs : strip s with _ | ⟨c, rest⟩
    · rfl
    · rw [List.dropWhile_cons, isSpace_of_strip_eq hs]
      rfl
  rw [strip_eq (strip s), hdrop, strip_eq s]
  exact List.rdropWhile_idempotent ..

/-- `str.split`, with the part of the current word already read. -/
def splitFrom : List Char → List Char → List (List Char)
  | word, [] => if word = [] then [] else [word]
  | word, c :: rest =>
    if isSpace c then (if word = [] then [] else [word]) ++ splitFrom [] rest else splitFrom (word ++ [c]) rest

def split (s : List Char) : List (List Char) := splitFrom [] s

theorem splitFrom_word {w : List Char} (h : ∀ c ∈ w, isSpace c = false) (word rest : List Char) :
    splitFrom word (w ++ rest) = splitFrom (word ++ w) rest := by
  induction w generalizing word with
  | nil => rw [List.nil_append, List.append_nil]
  | cons c w ih =>
    rw [List.cons_append, splitFrom, h c (by simp), if_neg (by simp), ih (fun d hd => h d (by simp [hd])),
      List.append_assoc]
    rfl

theorem split_word {w : List Char} (h : ∀ c ∈ w, isSpace c = false) (hw : w ≠ []) (rest : List Char) :
    split (w ++ ' ' :: rest) = w :: split rest := by
  unfold split
  rw [splitFrom_word h, List.nil_append, splitFrom, if_pos (by decide), if_neg hw]
  rfl

theorem split_last {w : List Char} (h : ∀ c ∈ w, isSpace c = false) (hw : w ≠ []) : split w = [w] := by
  unfold split
  have hword := splitFrom_word h [] []
  rw [List.append_nil, List.nil_append] at hword
  rw [hword, splitFrom, if_neg hw]

/-! ## Numbers -/

/-- Decimal digits with single underscores between them. The first argument says whether a digit
has come last. -/
def digits : Bool → Nat → List Char → Option Nat
  | true, acc, [] => some acc
  | false, _, [] => none
  | afterDigit, acc, c :: rest =>
    if c.isDigit then digits true (10 * acc + (c.toNat - '0'.toNat)) rest
    else if c = '_' ∧ afterDigit then digits false acc rest
    else none

/-- `int(s)` of ASCII text, where it does not raise. -/
def int (s : List Char) : Option Int :=
  match strip s with
  | '+' :: rest => (digits false 0 rest).map fun n => (n : Int)
  | '-' :: rest => (digits false 0 rest).map fun n => -(n : Int)
  | rest => (digits false 0 rest).map fun n => (n : Int)

/-- The decimal text of a number. -/
def decimal (n : Nat) : List Char := Nat.toDigits 10 n

/-- `str(n)` -/
def intText (n : Int) : List Char := if n < 0 then '-' :: decimal n.natAbs else decimal n.natAbs

theorem digits_of_isDigit {s : List Char} (h : ∀ c ∈ s, c.isDigit = true) (acc : Nat) :
    digits true acc s = some (Nat.ofDigitChars 10 s acc) := by
  induction s generalizing acc with
  | nil => rfl
  | cons c s ih =>
    rw [digits, if_pos (h c (by simp)), ih (fun d hd => h d (by simp [hd])), Nat.ofDigitChars_cons]

theorem isDigit_of_mem_decimal {n : Nat} {c : Char} (h : c ∈ decimal n) : c.isDigit = true :=
  Nat.isDigit_of_mem_toDigits (by decide) (by decide) h

theorem decimal_ne_nil (n : Nat) : decimal n ≠ [] := Nat.toDigits_ne_nil

theorem digits_decimal (n : Nat) : digits false 0 (decimal n) = some n := by
  rcases hs : decimal n with _ | ⟨c, s⟩
  · exact absurd hs (decimal_ne_nil n)
  · have hall : ∀ d ∈ c :: s, d.isDigit = true := by
      intro d hd
      rw [← hs] at hd
      exact isDigit_of_mem_decimal hd
    rw [digits, if_pos (hall c (by simp)), digits_of_isDigit fun d hd => hall d (by simp [hd])]
    have hvalue := Nat.ofDigitChars_ten_toDigits (n := n)
    rw [show Nat.toDigits 10 n = c :: s from hs, Nat.ofDigitChars_cons] at hvalue
    rw [hvalue]

theorem toNat_of_isDigit {c : Char} (h : c.isDigit = true) : 48 ≤ c.toNat ∧ c.toNat ≤ 57 := by
  unfold Char.isDigit at h
  simp only [Bool.and_eq_true, decide_eq_true_eq] at h
  exact ⟨UInt32.le_iff_toNat_le.mp h.1, UInt32.le_iff_toNat_le.mp h.2⟩

theorem isSpace_of_isDigit {c : Char} (h : c.isDigit = true) : isSpace c = false := by
  obtain ⟨hlo, hhi⟩ := toNat_of_isDigit h
  unfold isSpace
  simp only [Bool.or_eq_false_iff, Bool.and_eq_false_iff, decide_eq_false_iff_not, beq_eq_false_iff_ne]
  omega

theorem int_decimal (n : Nat) : int (decimal n) = some (n : Int) := by
  have hstrip : strip (decimal n) = decimal n := strip_eq_self fun c hc => isSpace_of_isDigit (isDigit_of_mem_decimal hc)
  have hvalue := digits_decimal n
  unfold int
  rw [hstrip]
  split
  · rename_i rest hs
    have := isDigit_of_mem_decimal (n := n) (c := '+') (by rw [hs]; simp)
    simp at this
  · rename_i rest hs
    have := isDigit_of_mem_decimal (n := n) (c := '-') (by rw [hs]; simp)
    simp at this
  · rw [hvalue]
    rfl

/-! ## Lines -/

/-- `str.lower` of ASCII letters. -/
def lower (s : List Char) : List Char := s.map Char.toLower

/-- `"\n".join(ls) + "\n"` -/
def joinLines (ls : List (List Char)) : List Char := ['\n'].intercalate ls ++ ['\n']

/-- The lines of a text of which the last one is ended too. -/
def lines (text : List Char) : List (List Char) := (text.splitOn '\n').dropLast

theorem notMem_of_mem_splitOn {x : Char} {s piece : List Char} (h : piece ∈ s.splitOn x) : x ∉ piece := by
  induction s generalizing piece with
  | nil =>
    rw [List.splitOn_nil, List.mem_singleton] at h
    simp [h]
  | cons c s ih =>
    rw [List.splitOn_cons_eq_if_modifyHead] at h
    split_ifs at h with hc
    · rcases List.mem_cons.mp h with rfl | h
      · simp
      · exact ih h
    · rcases hs : s.splitOn x with _ | ⟨first, rest⟩
      · exact absurd hs (List.splitOn_ne_nil x s)
      · rw [hs] at h ih
        rcases List.mem_cons.mp h with rfl | h
        · have hfirst := ih (List.mem_cons_self (a := first))
          have hne : x ≠ c := by
            rintro rfl
            simp at hc
          simp [hne, hfirst]
        · exact ih (List.mem_cons_of_mem _ h)

theorem joinLines_eq {ls : List (List Char)} (hne : ls ≠ []) : joinLines ls = ['\n'].intercalate (ls ++ [[]]) := by
  unfold joinLines
  induction ls with
  | nil => exact absurd rfl hne
  | cons l ls ih =>
    rcases ls with _ | ⟨l', ls⟩
    · simp
    · rw [List.intercalate_cons_cons, List.append_assoc, ih (by simp)]
      simp only [List.cons_append, List.intercalate_cons_cons]

theorem notMem_intText {c : Char} (hdigit : c.isDigit = false) (hminus : c ≠ '-') (n : Int) : c ∉ intText n := by
  have hdigits : ∀ m, c ∉ decimal m := by
    intro m hmem
    rw [isDigit_of_mem_decimal hmem] at hdigit
    cases hdigit
  unfold intText
  split_ifs
  · simp [hdigits, hminus]
  · exact hdigits _

theorem newline_notMem_intText (n : Int) : '\n' ∉ intText n := notMem_intText (by decide) (by decide) n

theorem lines_joinLines {ls : List (List Char)} (hne : ls ≠ []) : lines (joinLines ls) = ls ↔ ∀ l ∈ ls, '\n' ∉ l := by
  unfold lines
  constructor
  · intro hsame l hl
    rw [← hsame] at hl
    exact notMem_of_mem_splitOn ((List.dropLast_sublist _).mem hl)
  · intro hplain
    rw [joinLines_eq hne, List.splitOn_intercalate '\n' ?_ (by simp), List.dropLast_concat]
    intro l hl
    rcases List.mem_append.mp hl with hl | hl
    · exact hplain l hl
    · simp [List.mem_singleton.mp hl]

/-! ## Runs -/

section
variable (p : UInt8 → Bool) (least : Nat)

/-- The matches of `[p]{least,}`, with the part of the current one already read. -/
def runsFrom : Bytes → Bytes → List Bytes
  | run, [] => if least ≤ run.length then [run] else []
  | run, b :: rest =>
    if p b then runsFrom (run ++ [b]) rest
    else (if least ≤ run.length then [run] else []) ++ runsFrom [] rest

/-- `re.findall` of `[p]{least,}`. -/
def findRuns (l : Bytes) : List Bytes := runsFrom p least [] l

variable {p least}

theorem runsFrom_append {l : Bytes} (h : ∀ b ∈ l, p b = true) (run rest : Bytes) :
    runsFrom p least run (l ++ rest) = runsFrom p least (run ++ l) rest := by
  induction l generalizing run with
  | nil => simp
  | cons b l ih =>
    rw [List.cons_append, runsFrom, if_pos (h b (by simp)), ih (fun c hc => h c (by simp [hc])),
      List.append_assoc]
    rfl

theorem runsFrom_short {l : Bytes} {b : UInt8} (hb : p b = false) (run rest : Bytes)
    (h : run.length + l.length < least) : runsFrom p least run (l ++ b :: rest) = findRuns p least rest := by
  induction l generalizing run with
  | nil =>
    rw [List.length_nil] at h
    rw [List.nil_append, runsFrom, hb, if_neg (by simp), if_neg (by omega)]
    rfl
  | cons c l ih =>
    rw [List.length_cons] at h
    rw [List.cons_append, runsFrom]
    split_ifs with hc hl
    · exact ih (run ++ [c]) (by simp; omega)
    · omega
    · exact ih [] (by simp; omega)

theorem runsFrom_eq_nil {l : Bytes} (run : Bytes) (h : run.length + l.length < least) :
    runsFrom p least run l = [] := by
  induction l generalizing run with
  | nil =>
    rw [List.length_nil] at h
    rw [runsFrom, if_neg (by omega)]
  | cons c l ih =>
    rw [List.length_cons] at h
    rw [runsFrom]
    split_ifs with hc hl
    · exact ih (run ++ [c]) (by simp; omega)
    · omega
    · exact ih [] (by simp; omega)

theorem findRuns_short {l : Bytes} {b : UInt8} (hb : p b = false) (rest : Bytes) (h : l.length < least) :
    findRuns p least (l ++ b :: rest) = findRuns p least rest :=
  runsFrom_short hb [] rest (by simpa using h)

theorem findRuns_eq_nil {l : Bytes} (h : l.length < least) : findRuns p least l = [] :=
  runsFrom_eq_nil [] (by simpa using h)

theorem findRuns_run {l : Bytes} {b : UInt8} (hl : ∀ c ∈ l, p c = true) (hb : p b = false) (rest : Bytes)
    (h : least ≤ l.length) : findRuns p least (l ++ b :: rest) = l :: findRuns p least rest := by
  rw [findRuns, runsFrom_append hl, List.nil_append, runsFrom, hb, if_neg (by simp), if_pos h]
  rfl

end

/-! ## Replacement -/

/-- `bytes.replace` of a nonempty `old`, with the number of bytes of an occurrence still to pass. -/
def replaceFrom (old new : Bytes) : Nat → Bytes → Bytes
  | _, [] => []
  | n + 1, _ :: rest => replaceFrom old new n rest
  | 0, b :: rest =>
    if old.isPrefixOf (b :: rest) then new ++ replaceFrom old new (old.length - 1) rest
    else b :: replaceFrom old new 0 rest

def replace (b old new : Bytes) : Bytes := replaceFrom old new 0 b

/-! ## Patterns and separators -/

theorem infix_split {pattern a b : Bytes} {x : UInt8} (hx : x ∉ pattern) :
    pattern <:+: a ++ x :: b ↔ pattern <:+: a ∨ pattern <:+: b := by
  constructor
  · rintro ⟨s, t, h⟩
    rw [List.append_assoc] at h
    rcases List.append_eq_append_iff.mp h with ⟨c, hc, hd⟩ | ⟨c, hc, hd⟩
    · -- The pattern starts in `a`.
      rcases List.append_eq_append_iff.mp hd with ⟨e, he, hf⟩ | ⟨e, he, hf⟩
      · left
        exact ⟨s, e, by rw [hc, he, List.append_assoc]⟩
      · cases e with
        | nil =>
          left
          exact ⟨s, [], by rw [hc, he, List.append_nil, List.append_nil]⟩
        | cons y e =>
          rw [List.cons_append, List.cons.injEq] at hf
          rw [he, hf.1] at hx
          simp at hx
    · right
      cases c with
      | nil =>
        cases pattern with
        | nil => exact List.nil_infix
        | cons y pattern =>
          rw [List.nil_append, List.cons_append, List.cons.injEq] at hd
          rw [hd.1] at hx
          simp at hx
      | cons y c =>
        rw [List.cons_append, List.cons.injEq] at hd
        exact ⟨c, t, by rw [List.append_assoc]; exact hd.2.symm⟩
  · rintro (h | h)
    · exact h.trans List.infix_append_left
    · exact h.trans ((List.infix_cons (List.infix_refl b)).trans List.infix_append_right)

theorem find_none_iff {b pattern : Bytes} (hp : pattern ≠ []) : find b pattern 0 = none ↔ ¬ pattern <:+: b := by
  rw [find_eq_none hp]
  constructor
  · rintro h ⟨s, t, rfl⟩
    apply h s.length (Nat.zero_le _)
    rw [List.append_assoc]
    have := window_append_right s (pattern ++ t) 0 pattern.length
    rw [Nat.add_zero] at this
    rw [this, window, List.drop_zero, List.take_left]
  · intro h i _ hw
    refine h ⟨b.take i, b.drop (i + pattern.length), ?_⟩
    conv_rhs => rw [← List.take_append_drop i b]
    rw [List.append_assoc, ← List.drop_drop]
    congr 1
    conv_lhs => rw [← hw]
    rw [window_length (by have := congrArg List.length hw; have := lt_of_window_eq hp hw; simp [window] at *; omega)]
    exact List.take_append_drop _ _

theorem find_append_left {a b pattern : Bytes} {i : Nat} (hp : pattern ≠ []) (h : find a pattern 0 = some i) :
    find (a ++ b) pattern 0 = some i ∧ i + pattern.length ≤ a.length := by
  obtain ⟨⟨_, hw⟩, hfirst⟩ := (find_eq_some hp).mp h
  have hlt := lt_of_window_eq hp hw
  have hlen : (window a i pattern.length).length = pattern.length := congrArg List.length hw
  have hroom : i + pattern.length ≤ a.length := by
    unfold window at hlen
    simp only [List.length_take, List.length_drop] at hlen
    omega
  refine ⟨(find_eq_some hp).mpr ⟨⟨Nat.zero_le i, ?_⟩, ?_⟩, hroom⟩
  · rw [window_append_left hroom]
    exact hw
  · rintro j hj ⟨_, hwindow⟩
    rw [window_append_left (by omega)] at hwindow
    exact hfirst j hj ⟨Nat.zero_le j, hwindow⟩

theorem find_reaches {a b pattern : Bytes} {i : Nat} (hp : pattern ≠ []) (ha : ¬ pattern <:+: a)
    (h : find (a ++ b) pattern 0 = some i) : a.length < i + pattern.length := by
  obtain ⟨⟨_, hw⟩, _⟩ := (find_eq_some hp).mp h
  by_contra hle
  rw [window_append_left (by omega)] at hw
  exact (find_eq_none hp).mp ((find_none_iff hp).mpr ha) i (Nat.zero_le i) hw

end Text
