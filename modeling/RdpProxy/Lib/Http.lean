import RdpProxy.Lib.TextLines

/-!
# Messages of HTTP/1.1

A first line, header lines, an empty line and a body whose length a header tells.
-/

open Words Heredoc

namespace Http

/-! ## Lines -/

/-- The bytes up to the first line feed, with it, and what is behind. -/
def cutLine : Bytes → Option (Bytes × Bytes)
  | [] => none
  | b :: rest =>
    if b = lineFeed then some ([b], rest) else (cutLine rest).map fun p => (b :: p.1, p.2)

variable {s line rest : Bytes}

theorem cutLine_line (h : lineFeed ∉ line) (rest : Bytes) :
    cutLine (line ++ lineFeed :: rest) = some (line ++ [lineFeed], rest) := by
  induction line with
  | nil => simp [cutLine]
  | cons b line ih =>
    have hb : b ≠ lineFeed := fun hb => h (by simp [hb])
    simp [cutLine, hb, ih fun hmem => h (List.mem_cons_of_mem b hmem)]

theorem cutLine_eq_none : cutLine s = none ↔ lineFeed ∉ s := by
  induction s with
  | nil => simp [cutLine]
  | cons b s ih =>
    unfold cutLine
    by_cases hb : b = lineFeed
    · simp [hb]
    · have hb' : lineFeed ≠ b := fun h => hb h.symm
      simp [hb, ih, hb']

theorem cutLine_append (h : cutLine s = some (line, rest)) (more : Bytes) :
    cutLine (s ++ more) = some (line, rest ++ more) := by
  induction s generalizing line with
  | nil => simp [cutLine] at h
  | cons b s ih =>
    simp only [cutLine, List.cons_append] at h ⊢
    split_ifs at h ⊢ with hb
    · simp_all
    · obtain ⟨⟨tail, rest'⟩, htail, heq⟩ := Option.map_eq_some_iff.mp h
      simp only [Prod.mk.injEq] at heq
      obtain ⟨rfl, rfl⟩ := heq
      simp [ih htail]

theorem lineFeed_mem_of_cutLine (h : cutLine s = some (line, rest)) : lineFeed ∈ s := by
  by_contra hnot
  rw [cutLine_eq_none.mpr hnot] at h
  cases h

theorem length_lt_of_cutLine_append {more : Bytes} (hs : lineFeed ∉ s) (h : cutLine (s ++ more) = some (line, rest)) :
    s.length < line.length := by
  induction s generalizing line with
  | nil =>
    cases more with
    | nil => simp [cutLine] at h
    | cons b more =>
      simp only [List.nil_append, cutLine] at h
      split_ifs at h
      · cases h
        simp
      · obtain ⟨⟨tail, rest'⟩, -, heq⟩ := Option.map_eq_some_iff.mp h
        cases heq
        simp
  | cons b s ih =>
    rw [List.mem_cons, not_or] at hs
    have hb : b ≠ lineFeed := fun h => hs.1 h.symm
    simp only [List.cons_append, cutLine, hb, if_false] at h
    obtain ⟨⟨tail, rest'⟩, htail, heq⟩ := Option.map_eq_some_iff.mp h
    cases heq
    have hlt := ih hs.2 htail
    simpa using hlt

/-- A line without its line feed, and without the carriage return in front of that. -/
def chomp (line : Bytes) : Bytes :=
  if line.dropLast.getLast? = some 13 then line.dropLast.dropLast else line.dropLast

def crlf : Bytes := [13, 10]

theorem chomp_crlf (content : Bytes) : chomp (content ++ crlf) = content := by
  have hsplit : content ++ crlf = (content ++ [13]) ++ [10] := by simp [crlf]
  simp [chomp, hsplit]

theorem cutLine_crlf {content : Bytes} (h : lineFeed ∉ content) (rest : Bytes) :
    cutLine (content ++ crlf ++ rest) = some (content ++ crlf, rest) := by
  have hcr : lineFeed ∉ content ++ [13] := by
    rw [List.mem_append, not_or]
    exact ⟨h, by decide⟩
  have hcut := cutLine_line hcr rest
  simpa [crlf, lineFeed] using hcut

/-! ## Header lines -/

structure Header where
  name : Bytes
  value : Bytes
  deriving DecidableEq

def isBlank (b : UInt8) : Bool := b == 32 || b == 9

/-- The value without the blanks around it. -/
def trim (value : Bytes) : Bytes := (value.dropWhile isBlank).rdropWhile isBlank

def Header.content (h : Header) : Bytes := h.name ++ Text.ascii ": " ++ h.value

structure Header.WellFormed (h : Header) : Prop where
  name_ne : h.name ≠ []
  name_colon : 58 ∉ h.name
  name_line : lineFeed ∉ h.name
  value_line : lineFeed ∉ h.value
  value_trim : trim h.value = h.value

def readHeader (content : Bytes) : Header :=
  ⟨content.takeWhile (· ≠ 58), trim ((content.dropWhile (· ≠ 58)).drop 1)⟩

theorem Header.WellFormed.content_ne {h : Header} (hh : h.WellFormed) : h.content ≠ [] := by
  simp [Header.content, hh.name_ne]

theorem Header.WellFormed.content_line {h : Header} (hh : h.WellFormed) : lineFeed ∉ h.content := by
  have hcolon : lineFeed ∉ Text.ascii ": " := by decide
  simp only [Header.content, List.mem_append, not_or]
  exact ⟨⟨hh.name_line, hcolon⟩, hh.value_line⟩

theorem readHeader_content {h : Header} (hh : h.WellFormed) : readHeader h.content = h := by
  have hname : ∀ b ∈ h.name, decide (b ≠ 58) = true := fun b hb => by
    simpa using fun heq : b = 58 => hh.name_colon (heq ▸ hb)
  have hcontent : h.content = h.name ++ 58 :: 32 :: h.value := by
    simp [Header.content, show Text.ascii ": " = [58, 32] by decide]
  have htake : h.content.takeWhile (· ≠ 58) = h.name := by
    rw [hcontent, List.takeWhile_append_of_pos hname]
    simp
  have hdrop : (h.content.dropWhile (· ≠ 58)).drop 1 = 32 :: h.value := by
    rw [hcontent, List.dropWhile_append_of_pos hname]
    simp
  have htrim : trim (32 :: h.value) = h.value := by
    rw [trim, List.dropWhile_cons_of_pos (by decide)]
    exact hh.value_trim
  rw [readHeader, htake, hdrop, htrim]

/-- The header lines up to an empty one. -/
def readHeaders : Nat → Bytes → Option (List Header × Bytes)
  | 0, _ => none
  | fuel + 1, s =>
    (cutLine s).bind fun p =>
      if chomp p.1 = [] then some ([], p.2)
      else (readHeaders fuel p.2).map fun r => (readHeader (chomp p.1) :: r.1, r.2)

def renderHeaders (headers : List Header) : Bytes := headers.flatMap (fun h => h.content ++ crlf) ++ crlf

theorem readHeaders_renderHeaders {headers : List Header} (hwf : ∀ h ∈ headers, h.WellFormed) {fuel : Nat}
    (hfuel : headers.length < fuel) (rest : Bytes) :
    readHeaders fuel (renderHeaders headers ++ rest) = some (headers, rest) := by
  induction headers generalizing fuel with
  | nil =>
    obtain ⟨fuel, rfl⟩ := Nat.exists_eq_add_one_of_ne_zero (by omega : fuel ≠ 0)
    have hcut := cutLine_crlf (List.not_mem_nil : lineFeed ∉ []) rest
    have hempty := chomp_crlf []
    simp only [List.nil_append] at hcut hempty
    simp [readHeaders, renderHeaders, hcut, hempty]
  | cons h headers ih =>
    obtain ⟨fuel, rfl⟩ := Nat.exists_eq_add_one_of_ne_zero (by omega : fuel ≠ 0)
    have hh := hwf h (by simp)
    have hshorter : headers.length < fuel := by simpa using hfuel
    have htail := ih (fun h' hmem => hwf h' (by simp [hmem])) hshorter
    have hsplit : renderHeaders (h :: headers) ++ rest = h.content ++ crlf ++ (renderHeaders headers ++ rest) := by
      simp [renderHeaders]
    rw [readHeaders, hsplit, cutLine_crlf hh.content_line]
    simp [chomp_crlf, hh.content_ne, htail, readHeader_content hh]

/-! ## Responses -/

structure Response where
  status : Nat
  reason : Bytes
  headers : List Header
  body : Bytes
  deriving DecidableEq

def Response.statusLine (r : Response) : Bytes :=
  Text.ascii "HTTP/1.1 " ++ Text.encodeAscii (Text.decimal r.status) ++ Text.ascii " " ++ r.reason

def Response.render (r : Response) : Bytes := r.statusLine ++ crlf ++ renderHeaders r.headers ++ r.body

/-- A decimal number and nothing else. -/
def readNumber (s : Bytes) : Option Nat :=
  (Text.decodeAscii s).bind fun text => if text.all Char.isDigit then Text.digits false 0 text else none

def lowerByte (b : UInt8) : UInt8 := if 65 ≤ b ∧ b ≤ 90 then b + 32 else b

def contentLength (headers : List Header) : Option Nat :=
  (headers.find? fun h => h.name.map lowerByte = Text.ascii "content-length").bind fun h => readNumber h.value

def readStatusLine (content : Bytes) : Option (Nat × Bytes) :=
  if Text.ascii "HTTP/1.1 " <+: content then
    let code := (content.drop 9).takeWhile (· ≠ 32)
    (readNumber code).map fun status => (status, (content.drop 9).drop (code.length + 1))
  else none

/-- What a client makes of the bytes of a connection: a response with its whole body, and what is behind it. -/
def readResponse (s : Bytes) : Option (Response × Bytes) := do
  let (line, afterLine) ← cutLine s
  let (status, reason) ← readStatusLine (chomp line)
  let (headers, afterHeaders) ← readHeaders afterLine.length afterLine
  let length ← contentLength headers
  if length ≤ afterHeaders.length then
    some (⟨status, reason, headers, afterHeaders.take length⟩, afterHeaders.drop length)
  else none

structure Response.WellFormed (r : Response) : Prop where
  reason_line : lineFeed ∉ r.reason
  headers : ∀ h ∈ r.headers, h.WellFormed
  length : contentLength r.headers = some r.body.length

theorem decimal_ascii {n : Nat} {c : Char} (h : c ∈ Text.decimal n) : c.toNat < 128 := by
  have := Text.toNat_of_isDigit (Text.isDigit_of_mem_decimal h)
  omega

@[simp] theorem readNumber_decimal (n : Nat) : readNumber (Text.encodeAscii (Text.decimal n)) = some n := by
  have hdigits : (Text.decimal n).all Char.isDigit = true :=
    List.all_eq_true.mpr fun c hc => Text.isDigit_of_mem_decimal hc
  rw [readNumber, Text.decodeAscii_encodeAscii fun c hc => decimal_ascii hc, Option.bind_some, if_pos hdigits,
    Text.digits_decimal]

theorem notMem_encodeAscii_decimal {b : UInt8} (hb : b.toNat < 48) (n : Nat) :
    b ∉ Text.encodeAscii (Text.decimal n) := by
  intro hmem
  obtain ⟨c, hc, hcb⟩ := List.mem_map.mp hmem
  have hdigit := Text.toNat_of_isDigit (Text.isDigit_of_mem_decimal hc)
  have hbyte := Text.toNat_ofNat_char (decimal_ascii hc)
  rw [hcb] at hbyte
  omega

theorem readStatusLine_statusLine (r : Response) : readStatusLine r.statusLine = some (r.status, r.reason) := by
  have hcode : ∀ b ∈ Text.encodeAscii (Text.decimal r.status), decide (b ≠ 32) = true := fun b hb => by
    simpa using fun heq : b = 32 => notMem_encodeAscii_decimal (by decide) r.status (heq ▸ hb)
  have hdrop : r.statusLine.drop 9 = Text.encodeAscii (Text.decimal r.status) ++ 32 :: r.reason := by
    simp [Response.statusLine, show Text.ascii "HTTP/1.1 " = [72, 84, 84, 80, 47, 49, 46, 49, 32] by decide,
      show Text.ascii " " = [32] by decide]
  have htake : (r.statusLine.drop 9).takeWhile (· ≠ 32) = Text.encodeAscii (Text.decimal r.status) := by
    rw [hdrop, List.takeWhile_append_of_pos hcode]
    simp
  have hversion : Text.ascii "HTTP/1.1 " <+: r.statusLine := by
    simp only [Response.statusLine, List.append_assoc]
    exact List.prefix_append ..
  have hreason : (r.statusLine.drop 9).drop ((Text.encodeAscii (Text.decimal r.status)).length + 1) = r.reason := by
    rw [hdrop, ← List.drop_drop, List.drop_left]
    rfl
  unfold readStatusLine
  simp only [hversion, if_true, htake, hreason, readNumber_decimal, Option.map_some]

theorem statusLine_line {r : Response} (h : r.WellFormed) : lineFeed ∉ r.statusLine := by
  have hversion : lineFeed ∉ Text.ascii "HTTP/1.1 " := by decide
  have hblank : lineFeed ∉ Text.ascii " " := by decide
  have hcode := notMem_encodeAscii_decimal (b := lineFeed) (by decide) r.status
  simp only [Response.statusLine, List.mem_append, not_or]
  exact ⟨⟨⟨hversion, hcode⟩, hblank⟩, h.reason_line⟩

theorem length_lt_renderHeaders (headers : List Header) : headers.length < (renderHeaders headers).length := by
  induction headers with
  | nil => decide
  | cons h headers ih =>
    have hcons : renderHeaders (h :: headers) = h.content ++ crlf ++ renderHeaders headers := by simp [renderHeaders]
    have hcrlf : crlf.length = 2 := rfl
    simp only [hcons, List.length_append, List.length_cons]
    omega

theorem readResponse_render {r : Response} (h : r.WellFormed) (rest : Bytes) :
    readResponse (r.render ++ rest) = some (r, rest) := by
  have hsplit : r.render ++ rest = r.statusLine ++ crlf ++ (renderHeaders r.headers ++ (r.body ++ rest)) := by
    simp [Response.render]
  have hfuel : r.headers.length < (renderHeaders r.headers ++ (r.body ++ rest)).length := by
    have hlt := length_lt_renderHeaders r.headers
    rw [List.length_append]
    omega
  have hcut := cutLine_crlf (statusLine_line h) (renderHeaders r.headers ++ (r.body ++ rest))
  have hheaders := readHeaders_renderHeaders h.headers hfuel (r.body ++ rest)
  rw [readResponse, hsplit, hcut]
  simp only [Option.bind_eq_bind, Option.bind_some, chomp_crlf, readStatusLine_statusLine, hheaders, h.length]
  simp

/-! ## Requests -/

/-- A word of the first line. -/
structure Word where
  text : List Char
  ne : text ≠ []
  ascii : ∀ c ∈ text, c.toNat < 128
  no_space : ∀ c ∈ text, Text.isSpace c = false

/-- A request as a client sends it. -/
structure Request where
  method : Word
  target : Word
  version : Word
  headers : List Header
  headers_ok : ∀ h ∈ headers, h.WellFormed

def Request.firstLine (r : Request) : List Char := r.method.text ++ ' ' :: (r.target.text ++ ' ' :: r.version.text)

def Request.render (r : Request) : Bytes := Text.encodeAscii r.firstLine ++ crlf ++ renderHeaders r.headers

theorem Word.newline_notMem (w : Word) : '\n' ∉ w.text := by
  intro hmem
  have hspace := w.no_space '\n' hmem
  revert hspace
  decide

theorem Request.newline_notMem (r : Request) : '\n' ∉ r.firstLine := by
  simp only [Request.firstLine, List.mem_append, List.mem_cons, not_or]
  exact ⟨r.method.newline_notMem, by decide, r.target.newline_notMem, by decide, r.version.newline_notMem⟩

end Http
