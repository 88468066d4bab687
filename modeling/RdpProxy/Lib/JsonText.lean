import RdpProxy.Lib.Text
import RdpProxy.Lib.Uuid

/-!
# JSON text

`json.dumps` and `json.loads` for documents without floats. A dict is the list of its pairs as they
are written and read, and where a key comes twice the last pair counts.
-/

open Text

namespace JsonText

inductive Doc where
  | null
  | bool (b : Bool)
  | int (n : Int)
  | str (s : List Char)
  | list (items : List Doc)
  | dict (entries : List (List Char × Doc))

namespace Doc

/-- `d.get(k)` -/
def get? (k : List Char) : Doc → Option Doc
  | .dict entries => (entries.reverse.find? fun e => e.1 = k).map Prod.snd
  | _ => none

/-- `d[k] = v` of a dict -/
def set (k : List Char) (v : Doc) : Doc → Doc
  | .dict entries =>
    if entries.any fun e => e.1 = k then .dict (entries.map fun e => if e.1 = k then (k, v) else e)
    else .dict (entries ++ [(k, v)])
  | d => d

end Doc

/-! ## Writing -/

/-- `\uXXXX` -/
def escapeUnit (n : Nat) : List Char :=
  ['\\', 'u', Uuid.hexChar (Uuid.lastDigit (n / 4096)), Uuid.hexChar (Uuid.lastDigit (n / 256)),
    Uuid.hexChar (Uuid.lastDigit (n / 16)), Uuid.hexChar (Uuid.lastDigit n)]

/-- One character of a string. With `ensure_ascii` whatever is not printable ASCII is escaped, as two surrogates
beyond the first plane. -/
def escapeChar (ensureAscii : Bool) (c : Char) : List Char :=
  let n := c.toNat
  if c = '"' then ['\\', '"']
  else if c = '\\' then ['\\', '\\']
  else if n = 0x0A then ['\\', 'n']
  else if n = 0x0D then ['\\', 'r']
  else if n = 0x09 then ['\\', 't']
  else if n = 0x0C then ['\\', 'f']
  else if n = 0x08 then ['\\', 'b']
  else if n < 0x20 then escapeUnit n
  else if ensureAscii = true ∧ 0x7F ≤ n then
    if n < 0x10000 then escapeUnit n
    else escapeUnit (0xD800 + (n - 0x10000) / 0x400) ++ escapeUnit (0xDC00 + (n - 0x10000) % 0x400)
  else [c]

def body (ensureAscii : Bool) (s : List Char) : List Char := s.flatMap (escapeChar ensureAscii)

/-- `json.dumps(s)` of a string -/
def quote (ensureAscii : Bool) (s : List Char) : List Char := '"' :: (body ensureAscii s ++ ['"'])

mutual

def dumps (ensureAscii : Bool) : Doc → List Char
  | .null => ['n', 'u', 'l', 'l']
  | .bool true => ['t', 'r', 'u', 'e']
  | .bool false => ['f', 'a', 'l', 's', 'e']
  | .int n => intText n
  | .str s => quote ensureAscii s
  | .list [] => ['[', ']']
  | .list (v :: vs) => '[' :: (dumps ensureAscii v ++ dumpsItems ensureAscii vs)
  | .dict [] => ['{', '}']
  | .dict ((k, v) :: es) =>
    '{' :: (quote ensureAscii k ++ ':' :: ' ' :: (dumps ensureAscii v ++ dumpsEntries ensureAscii es))

/-- The items behind the first one, and the end of the list. -/
def dumpsItems (ensureAscii : Bool) : List Doc → List Char
  | [] => [']']
  | v :: vs => ',' :: ' ' :: (dumps ensureAscii v ++ dumpsItems ensureAscii vs)

/-- The pairs behind the first one, and the end of the dict. -/
def dumpsEntries (ensureAscii : Bool) : List (List Char × Doc) → List Char
  | [] => ['}']
  | (k, v) :: es =>
    ',' :: ' ' :: (quote ensureAscii k ++ ':' :: ' ' :: (dumps ensureAscii v ++ dumpsEntries ensureAscii es))

end

/-! ## Reading

Every reader gives what it read and what is left. The first argument of a recursive one bounds its depth,
and the length of the text is enough. -/

def hexUnit : List Char → Option (Nat × List Char)
  | a :: b :: c :: d :: rest =>
    match Uuid.hexValue a, Uuid.hexValue b, Uuid.hexValue c, Uuid.hexValue d with
    | some a, some b, some c, some d => some (4096 * a.val + 256 * b.val + 16 * c.val + d.val, rest)
    | _, _, _, _ => none
  | _ => none

/-- What follows `\u`. A surrogate without its partner is no character and is not read. -/
def unicodeEscape (s : List Char) : Option (Char × List Char) := do
  let (n, rest) ← hexUnit s
  if n < 0xD800 ∨ 0xDFFF < n then return (Char.ofNat n, rest)
  else if n ≤ 0xDBFF then
    match rest with
    | '\\' :: 'u' :: more =>
      let (m, rest) ← hexUnit more
      if 0xDC00 ≤ m ∧ m ≤ 0xDFFF then return (Char.ofNat (0x10000 + 0x400 * (n - 0xD800) + (m - 0xDC00)), rest)
      else none
    | _ => none
  else none

/-- What follows a backslash. -/
def simpleEscape (c : Char) : Option Char :=
  if c = '"' then some '"'
  else if c = '\\' then some '\\'
  else if c = '/' then some '/'
  else if c = 'n' then some '\n'
  else if c = 'r' then some '\r'
  else if c = 't' then some '\t'
  else if c = 'f' then some '\x0c'
  else if c = 'b' then some '\x08'
  else none

/-- One character of a string, escaped or not. Control characters must be escaped. -/
def readChar : List Char → Option (Char × List Char)
  | '\\' :: 'u' :: rest => unicodeEscape rest
  | '\\' :: c :: rest => (simpleEscape c).map fun d => (d, rest)
  | c :: rest => if c.toNat < 0x20 ∨ c = '\\' then none else some (c, rest)
  | [] => none

def stringBody : Nat → List Char → Option (List Char × List Char)
  | _, '"' :: rest => some ([], rest)
  | 0, _ => none
  | fuel + 1, s => do
    let (c, rest) ← readChar s
    let (cs, rest) ← stringBody fuel rest
    return (c :: cs, rest)

/-- A string whose opening quote has been read. -/
def string (s : List Char) : Option (List Char × List Char) := stringBody s.length s

def isWs (c : Char) : Bool := c = ' ' || c = '\t' || c = '\n' || c = '\r'

def skipWs (s : List Char) : List Char := s.dropWhile isWs

/-- `.` or `e` makes a number a float, which is not read. -/
def endsNumber : List Char → Bool
  | [] => true
  | c :: _ => c != '.' && c != 'e' && c != 'E'

/-- Digits without a leading zero. -/
def natural (s : List Char) : Option (Nat × List Char) :=
  match s with
  | '0' :: rest => if endsNumber rest then some (0, rest) else none
  | _ =>
    let rest := s.dropWhile Char.isDigit
    if s.takeWhile Char.isDigit = [] ∨ endsNumber rest = false then none
    else some (Nat.ofDigitChars 10 (s.takeWhile Char.isDigit) 0, rest)

def number : List Char → Option (Int × List Char)
  | '-' :: rest => (natural rest).map fun (n, rest) => (-(n : Int), rest)
  | s => (natural s).map fun (n, rest) => ((n : Int), rest)

def keyword : List Char → Option (Doc × List Char)
  | 'n' :: 'u' :: 'l' :: 'l' :: rest => some (.null, rest)
  | 't' :: 'r' :: 'u' :: 'e' :: rest => some (.bool true, rest)
  | 'f' :: 'a' :: 'l' :: 's' :: 'e' :: rest => some (.bool false, rest)
  | _ => none

mutual

def value : Nat → List Char → Option (Doc × List Char)
  | 0, _ => none
  | _ + 1, [] => none
  | fuel + 1, c :: rest =>
    if c = '"' then (string rest).map fun (s, rest) => (.str s, rest)
    else if c = '[' then
      match skipWs rest with
      | ']' :: rest => some (.list [], rest)
      | rest => do
        let (v, rest) ← value fuel rest
        let (vs, rest) ← items fuel (skipWs rest)
        return (.list (v :: vs), rest)
    else if c = '{' then
      match skipWs rest with
      | '}' :: rest => some (.dict [], rest)
      | rest => do
        let (e, rest) ← entry fuel rest
        let (es, rest) ← entries fuel (skipWs rest)
        return (.dict (e :: es), rest)
    else if c = 'n' ∨ c = 't' ∨ c = 'f' then keyword (c :: rest)
    else (number (c :: rest)).map fun (n, rest) => (.int n, rest)

/-- The items behind the first one, up to the end of the list. -/
def items : Nat → List Char → Option (List Doc × List Char)
  | 0, _ => none
  | fuel + 1, s =>
    match s with
    | ']' :: rest => some ([], rest)
    | ',' :: rest => do
      let (v, rest) ← value fuel (skipWs rest)
      let (vs, rest) ← items fuel (skipWs rest)
      return (v :: vs, rest)
    | _ => none

def entry : Nat → List Char → Option ((List Char × Doc) × List Char)
  | 0, _ => none
  | fuel + 1, s =>
    match s with
    | '"' :: rest => do
      let (k, rest) ← string rest
      match skipWs rest with
      | ':' :: rest => do
        let (v, rest) ← value fuel (skipWs rest)
        return ((k, v), rest)
      | _ => none
    | _ => none

def entries : Nat → List Char → Option (List (List Char × Doc) × List Char)
  | 0, _ => none
  | fuel + 1, s =>
    match s with
    | '}' :: rest => some ([], rest)
    | ',' :: rest => do
      let (e, rest) ← entry fuel (skipWs rest)
      let (es, rest) ← entries fuel (skipWs rest)
      return (e :: es, rest)
    | _ => none

end

/-- `json.loads`, where it does not raise. -/
def loads (s : List Char) : Option Doc :=
  match value s.length (skipWs s) with
  | some (v, rest) => if skipWs rest = [] then some v else none
  | none => none

/-! ## Strings are read back -/

theorem hexUnit_escapeUnit {n : Nat} (h : n < 0x10000) (rest : List Char) :
    readChar (escapeUnit n ++ rest) = unicodeEscape ((escapeUnit n).drop 2 ++ rest) ∧
      hexUnit ((escapeUnit n).drop 2 ++ rest) = some (n, rest) := by
  refine ⟨rfl, ?_⟩
  simp only [escapeUnit, List.drop_succ_cons, List.drop_zero, List.cons_append, List.nil_append, hexUnit,
    Uuid.hexValue_hexChar, Uuid.lastDigit]
  congr 2
  omega

theorem char_toNat_cases (c : Char) : c.toNat < 0xD800 ∨ 0xDFFF < c.toNat ∧ c.toNat < 0x110000 := c.valid

theorem readChar_escapeUnit {c : Char} (h : c.toNat < 0x10000) (rest : List Char) :
    readChar (escapeUnit c.toNat ++ rest) = some (c, rest) := by
  obtain ⟨hread, hunit⟩ := hexUnit_escapeUnit h rest
  have hplain : c.toNat < 0xD800 ∨ 0xDFFF < c.toNat := (char_toNat_cases c).imp_right And.left
  rw [hread, unicodeEscape, hunit]
  simp only [Option.bind_eq_bind, Option.bind_some, if_pos hplain, Char.ofNat_toNat]
  rfl

theorem escapeUnit_append (n : Nat) (rest : List Char) :
    escapeUnit n ++ rest = '\\' :: 'u' :: ((escapeUnit n).drop 2 ++ rest) := rfl

theorem readChar_surrogates {high low : Nat} (hhigh : 0xD800 ≤ high ∧ high ≤ 0xDBFF)
    (hlow : 0xDC00 ≤ low ∧ low ≤ 0xDFFF) (rest : List Char) :
    readChar (escapeUnit high ++ (escapeUnit low ++ rest)) =
      some (Char.ofNat (0x10000 + 0x400 * (high - 0xD800) + (low - 0xDC00)), rest) := by
  obtain ⟨hread, hunit⟩ := hexUnit_escapeUnit (n := high) (by omega) (escapeUnit low ++ rest)
  obtain ⟨_, hpartner⟩ := hexUnit_escapeUnit (n := low) (by omega) rest
  rw [hread, unicodeEscape, hunit]
  simp only [Option.bind_eq_bind, Option.bind_some, escapeUnit_append low, hpartner]
  rw [if_neg (by omega), if_pos hhigh.2, if_pos hlow]
  rfl

/-- The ways in which a character is written. -/
inductive Escaped (c : Char) : List Char → Prop where
  | short (d : Char) (hd : d ≠ 'u') (h : simpleEscape d = some c) : Escaped c ['\\', d]
  | unit (h : c.toNat < 0x10000) : Escaped c (escapeUnit c.toNat)
  | surrogates (h : 0x10000 ≤ c.toNat) :
      Escaped c (escapeUnit (0xD800 + (c.toNat - 0x10000) / 0x400) ++
        escapeUnit (0xDC00 + (c.toNat - 0x10000) % 0x400))
  | itself (hquote : c ≠ '"') (hslash : c ≠ '\\') (hctl : 0x20 ≤ c.toNat) : Escaped c [c]

theorem escaped_escapeChar (ensureAscii : Bool) (c : Char) : Escaped c (escapeChar ensureAscii c) := by
  have hcode : ∀ {n : Nat} {d : Char}, c.toNat = n → d.toNat = n → d = c :=
    fun h hd => Char.toNat_inj.mp (hd.trans h.symm)
  unfold escapeChar
  dsimp only
  by_cases hquote : c = '"'
  · rw [if_pos hquote]
    exact .short '"' (by decide) (by rw [hquote]; rfl)
  rw [if_neg hquote]
  by_cases hslash : c = '\\'
  · rw [if_pos hslash]
    exact .short '\\' (by decide) (by rw [hslash]; rfl)
  rw [if_neg hslash]
  by_cases hlf : c.toNat = 0x0A
  · rw [if_pos hlf]
    exact .short 'n' (by decide) (by rw [← hcode (d := '\n') hlf rfl]; rfl)
  rw [if_neg hlf]
  by_cases hcr : c.toNat = 0x0D
  · rw [if_pos hcr]
    exact .short 'r' (by decide) (by rw [← hcode (d := '\r') hcr rfl]; rfl)
  rw [if_neg hcr]
  by_cases htab : c.toNat = 0x09
  · rw [if_pos htab]
    exact .short 't' (by decide) (by rw [← hcode (d := '\t') htab rfl]; rfl)
  rw [if_neg htab]
  by_cases hff : c.toNat = 0x0C
  · rw [if_pos hff]
    exact .short 'f' (by decide) (by rw [← hcode (d := '\x0c') hff rfl]; rfl)
  rw [if_neg hff]
  by_cases hbs : c.toNat = 0x08
  · rw [if_pos hbs]
    exact .short 'b' (by decide) (by rw [← hcode (d := '\x08') hbs rfl]; rfl)
  rw [if_neg hbs]
  by_cases hctl : c.toNat < 0x20
  · rw [if_pos hctl]
    exact .unit (by omega)
  rw [if_neg hctl]
  by_cases hascii : ensureAscii = true ∧ 0x7F ≤ c.toNat
  · rw [if_pos hascii]
    by_cases hbmp : c.toNat < 0x10000
    · rw [if_pos hbmp]
      exact .unit hbmp
    · rw [if_neg hbmp]
      exact .surrogates (Nat.le_of_not_lt hbmp)
  · rw [if_neg hascii]
    exact .itself hquote hslash (Nat.le_of_not_lt hctl)

theorem Escaped.readChar {c : Char} {text : List Char} (h : Escaped c text) (rest : List Char) :
    readChar (text ++ rest) = some (c, rest) := by
  cases h with
  | short d hd h =>
    rw [List.cons_append, List.singleton_append, JsonText.readChar.eq_2 _ _ hd, h]
    rfl
  | unit h => exact readChar_escapeUnit h rest
  | surrogates h =>
    have hmax := char_toNat_cases c
    have hvalue : 0x10000 + 0x400 * (0xD800 + (c.toNat - 0x10000) / 0x400 - 0xD800) +
        (0xDC00 + (c.toNat - 0x10000) % 0x400 - 0xDC00) = c.toNat := by omega
    rw [List.append_assoc, readChar_surrogates (by omega) (by omega), hvalue, Char.ofNat_toNat]
  | itself hquote hslash hctl =>
    rw [List.singleton_append, JsonText.readChar.eq_3 _ _ (fun _ h _ => hslash h) (fun _ _ h _ => hslash h)]
    rw [if_neg (by rw [not_or]; exact ⟨Nat.not_lt.mpr hctl, hslash⟩)]

theorem readChar_escapeChar (ensureAscii : Bool) (c : Char) (rest : List Char) :
    readChar (escapeChar ensureAscii c ++ rest) = some (c, rest) :=
  (escaped_escapeChar ensureAscii c).readChar rest

theorem Escaped.head {c : Char} {text : List Char} (h : Escaped c text) :
    (c ≠ '"' ∧ c ≠ '\\' ∧ 0x20 ≤ c.toNat) ∧ text = [c] ∨ ∃ more, text = '\\' :: more := by
  cases h with
  | short d hd h => exact Or.inr ⟨_, rfl⟩
  | unit h => exact Or.inr ⟨_, rfl⟩
  | surrogates h => exact Or.inr ⟨_, rfl⟩
  | itself hquote hslash hctl => exact Or.inl ⟨⟨hquote, hslash, hctl⟩, rfl⟩

theorem escapeChar_cons (ensureAscii : Bool) (c : Char) : ∃ d more, escapeChar ensureAscii c = d :: more ∧ d ≠ '"' := by
  rcases (escaped_escapeChar ensureAscii c).head with ⟨hplain, htext⟩ | ⟨more, htext⟩
  · exact ⟨c, [], htext, hplain.1⟩
  · exact ⟨'\\', more, htext, by decide⟩

theorem stringBody_body (ensureAscii : Bool) (s rest : List Char) {fuel : Nat} (h : s.length ≤ fuel) :
    stringBody fuel (body ensureAscii s ++ '"' :: rest) = some (s, rest) := by
  induction s generalizing fuel with
  | nil => cases fuel <;> rfl
  | cons c s ih =>
    obtain ⟨fuel, rfl⟩ : ∃ n, fuel = n + 1 := ⟨fuel - 1, by rw [List.length_cons] at h; omega⟩
    have hbody : body ensureAscii (c :: s) ++ '"' :: rest =
        escapeChar ensureAscii c ++ (body ensureAscii s ++ '"' :: rest) := by simp [body]
    have hread := readChar_escapeChar ensureAscii c (body ensureAscii s ++ '"' :: rest)
    obtain ⟨d, more, hd, hne⟩ := escapeChar_cons ensureAscii c
    rw [hbody]
    rw [hd, List.cons_append] at hread ⊢
    rw [stringBody.eq_3 _ _ (fun _ h => hne (List.cons.inj h).1), hread]
    simp only [Option.bind_eq_bind, Option.bind_some]
    rw [ih (by rw [List.length_cons] at h; omega)]
    rfl

theorem length_le_body (ensureAscii : Bool) (s : List Char) : s.length ≤ (body ensureAscii s).length := by
  induction s with
  | nil => exact Nat.le_refl 0
  | cons c s ih =>
    obtain ⟨d, more, hd, _⟩ := escapeChar_cons ensureAscii c
    have hbody : body ensureAscii (c :: s) = escapeChar ensureAscii c ++ body ensureAscii s := by simp [body]
    rw [hbody, hd, List.length_append, List.length_cons, List.length_cons]
    omega

theorem string_body (ensureAscii : Bool) (s rest : List Char) :
    string (body ensureAscii s ++ '"' :: rest) = some (s, rest) := by
  have := length_le_body ensureAscii s
  exact stringBody_body ensureAscii s rest (by rw [List.length_append]; omega)

/-! ## Numbers are read back -/

/-- What may stand behind a number without becoming part of it. -/
def CanFollow (rest : List Char) : Prop :=
  ∀ c more, rest = c :: more → c.isDigit = false ∧ c ≠ '.' ∧ c ≠ 'e' ∧ c ≠ 'E'

theorem ne_of_isDigit {c d : Char} (hc : c.isDigit = true) (hd : d.isDigit = false) : c ≠ d := by
  rintro rfl
  rw [hc] at hd
  cases hd

theorem canFollow_nil : CanFollow [] := by
  intro c more h
  cases h

theorem canFollow_cons {c : Char} (h : c.isDigit = false ∧ c ≠ '.' ∧ c ≠ 'e' ∧ c ≠ 'E') (rest : List Char) :
    CanFollow (c :: rest) := by
  rintro d more ⟨⟩
  exact h

theorem CanFollow.endsNumber {rest : List Char} (h : CanFollow rest) : endsNumber rest = true := by
  cases rest with
  | nil => rfl
  | cons c rest =>
    obtain ⟨_, hdot, he, hE⟩ := h c rest rfl
    simp [JsonText.endsNumber, hdot, he, hE]

theorem CanFollow.takeWhile {rest : List Char} (h : CanFollow rest) (ds : List Char) (hds : ∀ c ∈ ds, c.isDigit = true) :
    (ds ++ rest).takeWhile Char.isDigit = ds ∧ (ds ++ rest).dropWhile Char.isDigit = rest := by
  rw [List.takeWhile_append_of_pos hds, List.dropWhile_append_of_pos hds]
  cases rest with
  | nil => simp
  | cons c rest =>
    obtain ⟨hdigit, _⟩ := h c rest rfl
    simp [hdigit]

theorem decimal_head (n : Nat) : ∃ c ds, decimal n = c :: ds ∧ (c = '0' → n = 0) := by
  induction n using Nat.strongRecOn with
  | ind n ih =>
    unfold decimal
    rw [Nat.toDigits_eq_if (by decide)]
    split_ifs with hn
    · refine ⟨_, [], rfl, fun hzero => ?_⟩
      have hall : ∀ d : Fin 10, d.val.digitChar = '0' → d.val = 0 := by decide
      exact hall ⟨n, hn⟩ hzero
    · obtain ⟨c, ds, hds, hzero⟩ := ih (n / 10) (by omega)
      rw [show Nat.toDigits 10 (n / 10) = c :: ds from hds]
      refine ⟨c, _, rfl, fun hc => ?_⟩
      have := hzero hc
      omega

theorem natural_decimal (n : Nat) {rest : List Char} (h : CanFollow rest) :
    natural (decimal n ++ rest) = some (n, rest) := by
  by_cases hn : n = 0
  · subst hn
    unfold natural
    exact if_pos h.endsNumber
  · obtain ⟨c, ds, hds, hzero⟩ := decimal_head n
    obtain ⟨htake, hdrop⟩ := h.takeWhile (decimal n) fun _ => isDigit_of_mem_decimal
    have hhead : ∀ more, decimal n ++ rest ≠ '0' :: more := by
      intro more heq
      rw [hds] at heq
      exact hn (hzero (List.cons.inj heq).1)
    have hvalue : Nat.ofDigitChars 10 (decimal n) 0 = n := Nat.ofDigitChars_ten_toDigits
    rw [natural.eq_2 _ hhead, htake, hdrop, if_neg (by simp [decimal_ne_nil, h.endsNumber]), hvalue]

theorem number_intText (n : Int) {rest : List Char} (h : CanFollow rest) :
    number (intText n ++ rest) = some (n, rest) := by
  unfold intText
  split_ifs with hneg
  · rw [List.cons_append, number, natural_decimal _ h]
    simp only [Option.map_some, Option.some.injEq, Prod.mk.injEq, and_true]
    omega
  · have hhead : ∀ more, decimal n.natAbs ++ rest ≠ '-' :: more := by
      intro more heq
      obtain ⟨c, ds, hds, _⟩ := decimal_head n.natAbs
      have hdigit := isDigit_of_mem_decimal (n := n.natAbs) (c := c) (by rw [hds]; simp)
      rw [hds] at heq
      exact ne_of_isDigit hdigit rfl (List.cons.inj heq).1
    rw [number.eq_2 _ hhead, natural_decimal _ h]
    simp only [Option.map_some, Option.some.injEq, Prod.mk.injEq, and_true]
    omega

theorem intText_head (n : Int) : ∃ c more, intText n = c :: more ∧ (c = '-' ∨ c.isDigit = true) := by
  unfold intText
  split_ifs
  · exact ⟨_, _, rfl, Or.inl rfl⟩
  · obtain ⟨c, ds, hds, _⟩ := decimal_head n.natAbs
    exact ⟨c, ds, hds, Or.inr (isDigit_of_mem_decimal (by rw [hds]; simp))⟩

/-! ## Documents are read back -/

theorem dumps_head (ensureAscii : Bool) (v : Doc) :
    ∃ c more, dumps ensureAscii v = c :: more ∧ isWs c = false ∧ c ≠ ']' ∧ c ≠ '}' := by
  cases v with
  | null => exact ⟨_, _, rfl, by decide⟩
  | bool b =>
    cases b
    · exact ⟨_, _, rfl, by decide⟩
    · exact ⟨_, _, rfl, by decide⟩
  | int n =>
    obtain ⟨c, more, hn, hc⟩ := intText_head n
    refine ⟨c, more, hn, ?_⟩
    rcases hc with rfl | hdigit
    · decide
    · have hne : ∀ {d : Char}, d.isDigit = false → c ≠ d := ne_of_isDigit hdigit
      refine ⟨?_, hne rfl, hne rfl⟩
      simp only [isWs, Bool.or_eq_false_iff, decide_eq_false_iff_not]
      exact ⟨⟨⟨hne rfl, hne rfl⟩, hne rfl⟩, hne rfl⟩
  | str s => exact ⟨_, _, rfl, by decide⟩
  | list items =>
    cases items
    · exact ⟨_, _, rfl, by decide⟩
    · exact ⟨_, _, rfl, by decide⟩
  | dict entries =>
    cases entries
    · exact ⟨_, _, rfl, by decide⟩
    · exact ⟨_, _, rfl, by decide⟩

theorem skipWs_dumps (ensureAscii : Bool) (v : Doc) (rest : List Char) :
    skipWs (dumps ensureAscii v ++ rest) = dumps ensureAscii v ++ rest := by
  obtain ⟨c, more, hv, hws, _⟩ := dumps_head ensureAscii v
  unfold skipWs
  rw [hv, List.cons_append, List.dropWhile_cons, hws]
  rfl

theorem skipWs_space_dumps (ensureAscii : Bool) (v : Doc) (rest : List Char) :
    skipWs (' ' :: (dumps ensureAscii v ++ rest)) = dumps ensureAscii v ++ rest := skipWs_dumps ensureAscii v rest

theorem dumpsItems_head (ensureAscii : Bool) (vs : List Doc) (rest : List Char) :
    skipWs (dumpsItems ensureAscii vs ++ rest) = dumpsItems ensureAscii vs ++ rest ∧
      CanFollow (dumpsItems ensureAscii vs ++ rest) := by
  cases vs with
  | nil => exact ⟨rfl, canFollow_cons (by decide) _⟩
  | cons v vs => exact ⟨rfl, canFollow_cons (by decide) _⟩

theorem dumpsEntries_head (ensureAscii : Bool) (es : List (List Char × Doc)) (rest : List Char) :
    skipWs (dumpsEntries ensureAscii es ++ rest) = dumpsEntries ensureAscii es ++ rest ∧
      CanFollow (dumpsEntries ensureAscii es ++ rest) := by
  cases es with
  | nil => exact ⟨rfl, canFollow_cons (by decide) _⟩
  | cons e es => exact ⟨rfl, canFollow_cons (by decide) _⟩

/-- The text of a pair. -/
def dumpsEntry (ensureAscii : Bool) (e : List Char × Doc) : List Char :=
  quote ensureAscii e.1 ++ ':' :: ' ' :: dumps ensureAscii e.2

theorem entry_dumpsEntry {ensureAscii : Bool} {v : Doc} {fuel : Nat} (k rest : List Char)
    (hv : value fuel (dumps ensureAscii v ++ rest) = some (v, rest)) :
    entry (fuel + 1) (dumpsEntry ensureAscii (k, v) ++ rest) = some ((k, v), rest) := by
  have htext : dumpsEntry ensureAscii (k, v) ++ rest =
      '"' :: (body ensureAscii k ++ '"' :: ':' :: ' ' :: (dumps ensureAscii v ++ rest)) := by
    simp [dumpsEntry, quote]
  rw [htext, entry]
  simp only [string_body, Option.bind_eq_bind, Option.bind_some]
  have hcolon : skipWs (':' :: ' ' :: (dumps ensureAscii v ++ rest)) = ':' :: ' ' :: (dumps ensureAscii v ++ rest) := rfl
  simp only [hcolon, skipWs_space_dumps, hv, Option.bind_some]
  rfl

theorem value_int (n : Int) {rest : List Char} (h : CanFollow rest) (fuel : Nat) :
    value (fuel + 1) (intText n ++ rest) = some (.int n, rest) := by
  obtain ⟨c, more, hn, hc⟩ := intText_head n
  have hread := number_intText n h
  have hother : c ≠ '"' ∧ c ≠ '[' ∧ c ≠ '{' ∧ ¬ (c = 'n' ∨ c = 't' ∨ c = 'f') := by
    rcases hc with rfl | hdigit
    · decide
    · have hne : ∀ {d : Char}, d.isDigit = false → c ≠ d := ne_of_isDigit hdigit
      exact ⟨hne rfl, hne rfl, hne rfl, not_or.mpr ⟨hne rfl, not_or.mpr ⟨hne rfl, hne rfl⟩⟩⟩
  obtain ⟨h1, h2, h3, h4⟩ := hother
  rw [hn, List.cons_append] at hread ⊢
  rw [value, if_neg h1, if_neg h2, if_neg h3, if_neg h4, hread]
  rfl

theorem value_str (ensureAscii : Bool) (s rest : List Char) (fuel : Nat) :
    value (fuel + 1) (quote ensureAscii s ++ rest) = some (.str s, rest) := by
  have htext : quote ensureAscii s ++ rest = '"' :: (body ensureAscii s ++ '"' :: rest) := by simp [quote]
  rw [htext, value, if_pos rfl, string_body]
  rfl

theorem value_list {ensureAscii : Bool} {v : Doc} {vs : List Doc} {fuel : Nat} {rest : List Char}
    (hv : value fuel (dumps ensureAscii v ++ (dumpsItems ensureAscii vs ++ rest)) =
      some (v, dumpsItems ensureAscii vs ++ rest))
    (hvs : items fuel (dumpsItems ensureAscii vs ++ rest) = some (vs, rest)) :
    value (fuel + 1) (dumps ensureAscii (.list (v :: vs)) ++ rest) = some (.list (v :: vs), rest) := by
  obtain ⟨c, more, hhead, _, hclose, _⟩ := dumps_head ensureAscii v
  have htext : dumps ensureAscii (.list (v :: vs)) ++ rest =
      '[' :: (dumps ensureAscii v ++ (dumpsItems ensureAscii vs ++ rest)) := by simp [dumps]
  have hskip := skipWs_dumps ensureAscii v (dumpsItems ensureAscii vs ++ rest)
  rw [htext, value, if_neg (by decide), if_pos rfl, hskip]
  rw [hhead, List.cons_append] at hv ⊢
  split
  · next hbracket => exact absurd (List.cons.inj hbracket).1 hclose
  · simp only [Option.bind_eq_bind, hv, Option.bind_some, (dumpsItems_head ensureAscii vs rest).1, hvs]
    rfl

theorem value_dict {ensureAscii : Bool} {k : List Char} {v : Doc} {es : List (List Char × Doc)} {fuel : Nat}
    {rest : List Char}
    (he : entry fuel (dumpsEntry ensureAscii (k, v) ++ (dumpsEntries ensureAscii es ++ rest)) =
      some ((k, v), dumpsEntries ensureAscii es ++ rest))
    (hes : entries fuel (dumpsEntries ensureAscii es ++ rest) = some (es, rest)) :
    value (fuel + 1) (dumps ensureAscii (.dict ((k, v) :: es)) ++ rest) = some (.dict ((k, v) :: es), rest) := by
  have htext : dumps ensureAscii (.dict ((k, v) :: es)) ++ rest =
      '{' :: (dumpsEntry ensureAscii (k, v) ++ (dumpsEntries ensureAscii es ++ rest)) := by simp [dumps, dumpsEntry]
  have hskip : skipWs (dumpsEntry ensureAscii (k, v) ++ (dumpsEntries ensureAscii es ++ rest)) =
      dumpsEntry ensureAscii (k, v) ++ (dumpsEntries ensureAscii es ++ rest) := rfl
  rw [htext, value, if_neg (by decide), if_neg (by decide), if_pos rfl, hskip]
  split
  · next hbrace => cases hbrace
  · simp only [Option.bind_eq_bind, he, Option.bind_some, (dumpsEntries_head ensureAscii es rest).1, hes]
    rfl

theorem dumps_length_pos (ensureAscii : Bool) (v : Doc) : 0 < (dumps ensureAscii v).length := by
  obtain ⟨c, more, hv, _⟩ := dumps_head ensureAscii v
  rw [hv, List.length_cons]
  omega

mutual

theorem value_dumps (ensureAscii : Bool) : ∀ (v : Doc) (fuel : Nat) (rest : List Char),
    (dumps ensureAscii v).length ≤ fuel → CanFollow rest → value fuel (dumps ensureAscii v ++ rest) = some (v, rest)
  | v, 0, rest, hfuel, _ => by
    have := dumps_length_pos ensureAscii v
    omega
  | .null, fuel + 1, rest, _, _ => rfl
  | .bool true, fuel + 1, rest, _, _ => rfl
  | .bool false, fuel + 1, rest, _, _ => rfl
  | .int n, fuel + 1, rest, _, hrest => value_int n hrest fuel
  | .str s, fuel + 1, rest, _, _ => value_str ensureAscii s rest fuel
  | .list [], fuel + 1, rest, _, _ => rfl
  | .list (v :: vs), fuel + 1, rest, hfuel, _ => by
    rw [dumps, List.length_cons, List.length_append] at hfuel
    have hv := value_dumps ensureAscii v fuel (dumpsItems ensureAscii vs ++ rest) (by omega)
      (dumpsItems_head ensureAscii vs rest).2
    exact value_list hv (items_dumps ensureAscii vs fuel rest (by omega))
  | .dict [], fuel + 1, rest, _, _ => rfl
  | .dict ((k, v) :: es), fuel + 1, rest, hfuel, _ => by
    simp only [dumps, List.length_cons, List.length_append] at hfuel
    obtain ⟨fuel, rfl⟩ : ∃ n, fuel = n + 1 := ⟨fuel - 1, by omega⟩
    have hv := value_dumps ensureAscii v fuel (dumpsEntries ensureAscii es ++ rest) (by omega)
      (dumpsEntries_head ensureAscii es rest).2
    exact value_dict (entry_dumpsEntry k _ hv) (entries_dumps ensureAscii es (fuel + 1) rest (by omega))

theorem items_dumps (ensureAscii : Bool) : ∀ (vs : List Doc) (fuel : Nat) (rest : List Char),
    (dumpsItems ensureAscii vs).length ≤ fuel → items fuel (dumpsItems ensureAscii vs ++ rest) = some (vs, rest)
  | [], 0, rest, hfuel => by
    rw [dumpsItems, List.length_singleton] at hfuel
    omega
  | [], fuel + 1, rest, _ => rfl
  | v :: vs, fuel, rest, hfuel => by
    simp only [dumpsItems, List.length_cons, List.length_append] at hfuel
    obtain ⟨fuel, rfl⟩ : ∃ n, fuel = n + 1 := ⟨fuel - 1, by omega⟩
    have hv := value_dumps ensureAscii v fuel (dumpsItems ensureAscii vs ++ rest) (by omega)
      (dumpsItems_head ensureAscii vs rest).2
    have htext : dumpsItems ensureAscii (v :: vs) ++ rest =
        ',' :: ' ' :: (dumps ensureAscii v ++ (dumpsItems ensureAscii vs ++ rest)) := by simp [dumpsItems]
    rw [htext, items]
    simp only [skipWs_space_dumps, Option.bind_eq_bind, hv, Option.bind_some, (dumpsItems_head ensureAscii vs rest).1,
      items_dumps ensureAscii vs fuel rest (by omega)]
    rfl

theorem entries_dumps (ensureAscii : Bool) : ∀ (es : List (List Char × Doc)) (fuel : Nat) (rest : List Char),
    (dumpsEntries ensureAscii es).length ≤ fuel → entries fuel (dumpsEntries ensureAscii es ++ rest) = some (es, rest)
  | [], 0, rest, hfuel => by
    rw [dumpsEntries, List.length_singleton] at hfuel
    omega
  | [], fuel + 1, rest, _ => rfl
  | (k, v) :: es, fuel, rest, hfuel => by
    simp only [dumpsEntries, List.length_cons, List.length_append] at hfuel
    obtain ⟨fuel, rfl⟩ : ∃ n, fuel = n + 2 := ⟨fuel - 2, by omega⟩
    have hv := value_dumps ensureAscii v fuel (dumpsEntries ensureAscii es ++ rest) (by omega)
      (dumpsEntries_head ensureAscii es rest).2
    have htext : dumpsEntries ensureAscii ((k, v) :: es) ++ rest =
        ',' :: ' ' :: (dumpsEntry ensureAscii (k, v) ++ (dumpsEntries ensureAscii es ++ rest)) := by
      simp [dumpsEntries, dumpsEntry]
    have hskip : skipWs (' ' :: (dumpsEntry ensureAscii (k, v) ++ (dumpsEntries ensureAscii es ++ rest))) =
        dumpsEntry ensureAscii (k, v) ++ (dumpsEntries ensureAscii es ++ rest) := rfl
    rw [htext, entries]
    simp only [hskip, Option.bind_eq_bind, entry_dumpsEntry k _ hv, Option.bind_some,
      (dumpsEntries_head ensureAscii es rest).1, entries_dumps ensureAscii es (fuel + 1) rest (by omega)]
    rfl

end

/-- Whatever `json.dumps` writes, `json.loads` reads back. -/
theorem loads_dumps (ensureAscii : Bool) (v : Doc) : loads (dumps ensureAscii v) = some v := by
  have hread := value_dumps ensureAscii v _ [] (Nat.le_refl _) canFollow_nil
  have hskip := skipWs_dumps ensureAscii v []
  rw [List.append_nil] at hread hskip
  unfold loads
  rw [hskip, hread]
  rfl

end JsonText
