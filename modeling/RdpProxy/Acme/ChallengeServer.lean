import RdpProxy.Lib.Dict
import RdpProxy.Lib.Http
import RdpProxy.Lib.Steps

/-!
# Answering HTTP-01 challenges (`acme_client/challenge_server.py`, `client.py`)

The thread of the order has each token set in the event loop, and tells the certificate authority of it only when that
is done. Meanwhile the server's handlers read requests line by line, on any number of connections.
-/

open Words Heredoc Steps

namespace RdpProxy.Acme.ChallengeServer

/-! ## A connection -/

/-- Where `_handle` is. -/
inductive Phase where
  | requestLine
  | headers (path : List Char)
  /-- The writer is closed, behind the answer if there was one. -/
  | closed (answer : Option Bytes)
  deriving DecidableEq

structure Conn where
  buffer : Bytes
  eof : Bool
  phase : Phase

/-- The limit of a reader of `asyncio.start_server`. -/
def limit : Nat := 65536

inductive LineRead where
  | line (line rest : Bytes)
  | overrun
  | waiting

/-- `reader.readline()`. Without its line feed a line has at most `limit` bytes. -/
def Conn.readline (c : Conn) : LineRead :=
  match Http.cutLine c.buffer with
  | some (line, rest) => if line.length ≤ limit + 1 then .line line rest else .overrun
  | none => if limit < c.buffer.length then .overrun else if c.eof then .line c.buffer [] else .waiting

/-- `decode("ascii", errors="replace")` -/
def decodeReplace (l : Bytes) : List Char :=
  l.map fun b => if b < 0x80 then Char.ofNat b.toNat else Char.ofNat 0xFFFD

def requestPath (requestLine : Bytes) : List Char := (Text.split (decodeReplace requestLine))[1]?.getD []

def challengePath : List Char := "/.well-known/acme-challenge/".toList

def ok (body : Bytes) : Bytes :=
  Text.ascii "HTTP/1.1 200 OK\r\n" ++ Text.ascii "Content-Type: application/octet-stream\r\n" ++
    Text.ascii "Content-Length: " ++ Text.encodeAscii (Text.decimal body.length) ++ Text.ascii "\r\n" ++
    Text.ascii "\r\n" ++ body

def notFound : Bytes := Text.ascii "HTTP/1.1 404 Not Found\r\nContent-Length: 0\r\n\r\n"

/-- `_handle` from the look-up on. -/
def respond (tokens : Dict (List Char) (List Char)) (path : List Char) : Bytes :=
  if challengePath <+: path then
    match tokens.get? (path.drop challengePath.length) with
    | some keyAuthz => if keyAuthz ≠ [] then ok (Text.utf8 keyAuthz) else notFound
    | none => notFound
  else notFound

def Phase.next (tokens : Dict (List Char) (List Char)) (line : Bytes) : Phase → Phase
  | .requestLine => .headers (requestPath line)
  | .headers path =>
    if line = Http.crlf ∨ line = [lineFeed] ∨ line = [] then .closed (some (respond tokens path)) else .headers path
  | .closed answer => .closed answer

def Phase.isClosed : Phase → Bool
  | .closed _ => true
  | _ => false

inductive ConnEvent where
  | accept
  | receive (bytes : Bytes)
  | eof
  /-- The handler gets what its `readline` returns or raises. -/
  | read
  /-- The five seconds of `wait_for` are over, or the peer has reset the connection. -/
  | timeout
  deriving DecidableEq

def Conn.read (tokens : Dict (List Char) (List Char)) (c : Conn) : Option Conn :=
  match c.readline with
  | .line line rest => some { c with buffer := rest, phase := c.phase.next tokens line }
  | .overrun => some { c with phase := .closed none }
  | .waiting => none

def Conn.step (tokens : Dict (List Char) (List Char)) (c : Conn) : ConnEvent → Option Conn
  | .accept => none
  | .receive bytes => if c.eof then none else some { c with buffer := c.buffer ++ bytes }
  | .eof => if c.eof then none else some { c with eof := true }
  | .read => if c.phase.isClosed then none else c.read tokens
  | .timeout => if c.phase.isClosed then none else some { c with phase := .closed none }

/-! ## The order and the server -/

/-- A challenge of an authorization, and whether it is of the class `HTTP01`. -/
structure Challenge where
  http01 : Bool
  token : List Char
  deriving DecidableEq

/-- Where `_obtain_sync` is. -/
inductive Client where
  | next (todo : List Challenge)
  /-- Waits for the result of `_set_challenge`. -/
  | result (c : Challenge) (todo : List Challenge)
  | ended
  deriving DecidableEq

structure World where
  tokens : Dict (List Char) (List Char)
  listening : Bool
  conns : Nat → Option Conn
  client : Client
  /-- The `_set_challenge` that the loop has not run yet. -/
  scheduled : Option Challenge
  /-- The tokens of the challenges for which `answer_challenge` was called. -/
  answered : List (List Char)

def start (order : List (List Challenge)) : World :=
  ⟨.empty, true, fun _ => none, .next order.flatten, none, []⟩

inductive Event where
  /-- The thread of the order goes on. -/
  | client
  | setChallenge
  /-- The thread has returned or raised: `clear_tokens` and `stop`. -/
  | finish
  | conn (i : Nat) (e : ConnEvent)
  deriving DecidableEq

def World.put (w : World) (i : Nat) (c : Conn) : World := { w with conns := Function.update w.conns i (some c) }

/-- The loop of `_obtain_sync` over the challenges. -/
def World.proceed (w : World) : Option World :=
  match w.client with
  | .next (c :: todo) =>
    if c.http01 then some { w with client := .result c todo, scheduled := some c }
    else some { w with client := .next todo }
  | .result c todo =>
    if w.scheduled = none then some { w with client := .next todo, answered := c.token :: w.answered } else none
  | _ => none

/-- `validation` is `chall.validation(account_key)`, by the token. -/
def step (validation : List Char → List Char) (w : World) : Event → Option World
  | .client => w.proceed
  | .setChallenge => w.scheduled.map fun c =>
    { w with tokens := w.tokens.set c.token (validation c.token), scheduled := none }
  | .finish =>
    if w.client = .ended then none else some { w with client := .ended, tokens := .empty, listening := false }
  | .conn i e =>
    match w.conns i with
    | some c => (c.step w.tokens e).map (w.put i)
    | none => if e = .accept ∧ w.listening then some (w.put i ⟨[], false, .requestLine⟩) else none

/-! ## What a step does -/

variable {validation : List Char → List Char} {w w' : World} {e : Event} {es : List Event} {i : Nat}

inductive Moves (validation : List Char → List Char) (w : World) : Event → World → Prop where
  | skip {c todo} (hclient : w.client = .next (c :: todo)) (hother : c.http01 = false) :
    Moves validation w .client { w with client := .next todo }
  | submit {c todo} (hclient : w.client = .next (c :: todo)) (hhttp : c.http01 = true) :
    Moves validation w .client { w with client := .result c todo, scheduled := some c }
  | answer {c todo} (hclient : w.client = .result c todo) (hdone : w.scheduled = none) :
    Moves validation w .client { w with client := .next todo, answered := c.token :: w.answered }
  | set {c} (hscheduled : w.scheduled = some c) :
    Moves validation w .setChallenge
      { w with tokens := w.tokens.set c.token (validation c.token), scheduled := none }
  | finish (hlive : w.client ≠ .ended) :
    Moves validation w .finish { w with client := .ended, tokens := .empty, listening := false }
  | accept {i : Nat} (hnew : w.conns i = none) (hlistening : w.listening = true) :
    Moves validation w (.conn i .accept) (w.put i ⟨[], false, .requestLine⟩)
  | conn {i : Nat} {c c' e} (hconn : w.conns i = some c) (hstep : c.step w.tokens e = some c') :
    Moves validation w (.conn i e) (w.put i c')

theorem moves_of_step (h : step validation w e = some w') : Moves validation w e w' := by
  cases e with
  | client =>
    simp only [step, World.proceed] at h
    split at h
    next c todo hclient =>
      split_ifs at h with hhttp <;> cases h
      · exact .submit hclient hhttp
      · exact .skip hclient (by simpa using hhttp)
    next c todo hclient =>
      split_ifs at h with hdone
      cases h
      exact .answer hclient hdone
    next => cases h
  | setChallenge =>
    obtain ⟨c, hscheduled, rfl⟩ := Option.map_eq_some_iff.mp h
    exact .set hscheduled
  | finish =>
    simp only [step] at h
    split_ifs at h with hlive
    cases h
    exact .finish hlive
  | conn i e =>
    simp only [step] at h
    split at h
    next c hconn =>
      obtain ⟨c', hstep, rfl⟩ := Option.map_eq_some_iff.mp h
      exact .conn hconn hstep
    next hnew =>
      split_ifs at h with haccept
      cases h
      obtain ⟨rfl, hlistening⟩ := haccept
      exact .accept hnew hlistening

/-! ## The two answers -/

def okResponse (body : Bytes) : Http.Response where
  status := 200
  reason := Text.ascii "OK"
  headers := [⟨Text.ascii "Content-Type", Text.ascii "application/octet-stream"⟩,
    ⟨Text.ascii "Content-Length", Text.encodeAscii (Text.decimal body.length)⟩]
  body := body

def notFoundResponse : Http.Response where
  status := 404
  reason := Text.ascii "Not Found"
  headers := [⟨Text.ascii "Content-Length", Text.ascii "0"⟩]
  body := []

theorem trim_decimal (n : Nat) : Http.trim (Text.encodeAscii (Text.decimal n)) = Text.encodeAscii (Text.decimal n) := by
  have hblank : ∀ b ∈ Text.encodeAscii (Text.decimal n), ¬ Http.isBlank b = true := by
    intro b hb hblank
    have hnot := Http.notMem_encodeAscii_decimal (b := b) ?_ n
    · exact hnot hb
    · simp only [Http.isBlank, Bool.or_eq_true, beq_iff_eq] at hblank
      rcases hblank with rfl | rfl <;> decide
  have hstart : (Text.encodeAscii (Text.decimal n)).dropWhile Http.isBlank = Text.encodeAscii (Text.decimal n) :=
    List.dropWhile_eq_self_iff.mpr fun hlen => hblank _ (List.getElem_mem hlen)
  rw [Http.trim, hstart, List.rdropWhile_eq_self_iff]
  exact fun hne => hblank _ (List.getLast_mem hne)

theorem contentLength_wellFormed (n : Nat) :
    (⟨Text.ascii "Content-Length", Text.encodeAscii (Text.decimal n)⟩ : Http.Header).WellFormed where
  name_ne := by
    show Text.ascii "Content-Length" ≠ []
    decide
  name_colon := by
    show 58 ∉ Text.ascii "Content-Length"
    decide
  name_line := by
    show lineFeed ∉ Text.ascii "Content-Length"
    decide
  value_line := Http.notMem_encodeAscii_decimal (by decide) n
  value_trim := trim_decimal n

theorem contentType_wellFormed :
    (⟨Text.ascii "Content-Type", Text.ascii "application/octet-stream"⟩ : Http.Header).WellFormed where
  name_ne := by decide
  name_colon := by decide
  name_line := by decide
  value_line := by decide
  value_trim := by decide

theorem okResponse_wellFormed (body : Bytes) : (okResponse body).WellFormed where
  reason_line := by
    show lineFeed ∉ Text.ascii "OK"
    decide
  headers h hh := by
    rcases List.mem_pair.mp hh with rfl | rfl
    · exact contentType_wellFormed
    · exact contentLength_wellFormed body.length
  length := by
    have htype : ¬ (Text.ascii "Content-Type").map Http.lowerByte = Text.ascii "content-length" := by decide
    have hlength : (Text.ascii "Content-Length").map Http.lowerByte = Text.ascii "content-length" := by decide
    simp [Http.contentLength, okResponse, htype, hlength]

theorem render_okResponse (body : Bytes) : (okResponse body).render = ok body := by
  have hline : Text.ascii "HTTP/1.1 " ++ Text.encodeAscii (Text.decimal 200) ++ Text.ascii " " ++ Text.ascii "OK" ++
      Http.crlf = Text.ascii "HTTP/1.1 200 OK\r\n" := by decide
  have htype : Text.ascii "Content-Type" ++ Text.ascii ": " ++ Text.ascii "application/octet-stream" ++ Http.crlf =
      Text.ascii "Content-Type: application/octet-stream\r\n" := by decide
  have hlength : Text.ascii "Content-Length" ++ Text.ascii ": " = Text.ascii "Content-Length: " := by decide
  have hcrlf : Text.ascii "\r\n" = Http.crlf := by decide
  rw [ok, ← hline, ← htype, ← hlength, hcrlf]
  simp only [Http.Response.render, Http.Response.statusLine, Http.renderHeaders, Http.Header.content, okResponse,
    List.flatMap_cons, List.flatMap_nil, List.append_nil, List.append_assoc]

theorem readResponse_ok (body : Bytes) : Http.readResponse (ok body) = some (okResponse body, []) := by
  have hread := Http.readResponse_render (okResponse_wellFormed body) []
  rwa [render_okResponse, List.append_nil] at hread

theorem readResponse_notFound : Http.readResponse notFound = some (notFoundResponse, []) := by
  decide

/-! ## The tokens -/

/-- Every token that is set has its key authorization, and a challenge is reported only when its token is set. -/
structure Sound (validation : List Char → List Char) (order : List Challenge) (w : World) : Prop where
  tokens : ∀ t k, w.tokens.get? t = some k → k = validation t ∧ ⟨true, t⟩ ∈ order
  scheduled : ∀ c, w.scheduled = some c → ⟨true, c.token⟩ ∈ order
  idle : ∀ todo, w.client = .next todo → w.scheduled = none ∧ todo ⊆ order
  waits : ∀ c todo, w.client = .result c todo → todo ⊆ order ∧
    (w.scheduled = some c ∨ w.scheduled = none ∧ w.tokens.get? c.token = some (validation c.token))
  answered : w.client ≠ .ended → ∀ t ∈ w.answered, w.tokens.get? t = some (validation t)

variable {order : List Challenge}

theorem start_sound (order : List (List Challenge)) : Sound validation order.flatten (start order) where
  tokens t k h := by simp [start] at h
  scheduled c h := by simp [start] at h
  idle todo h := by
    cases h
    exact ⟨rfl, List.Subset.refl _⟩
  waits c todo h := by simp [start] at h
  answered _ t h := by simp [start] at h

theorem Moves.sound (h : Moves validation w e w') (hw : Sound validation order w) : Sound validation order w' := by
  cases h with
  | @skip c todo hclient hother =>
    obtain ⟨hnone, hsub⟩ := hw.idle _ hclient
    refine ⟨hw.tokens, hw.scheduled, ?_, ?_, ?_⟩
    · rintro todo' ⟨⟩
      exact ⟨hnone, fun x hx => hsub (List.mem_cons_of_mem c hx)⟩
    · rintro c' todo' ⟨⟩
    · intro _
      exact hw.answered (by simp [hclient])
  | @submit c todo hclient hhttp =>
    obtain ⟨hnone, hsub⟩ := hw.idle _ hclient
    have hc : (⟨true, c.token⟩ : Challenge) ∈ order := by
      have hmem := hsub List.mem_cons_self
      rwa [← hhttp]
    refine ⟨hw.tokens, ?_, ?_, ?_, ?_⟩
    · rintro c' ⟨⟩
      exact hc
    · rintro todo' ⟨⟩
    · rintro c' todo' ⟨⟩
      exact ⟨fun x hx => hsub (List.mem_cons_of_mem c hx), .inl rfl⟩
    · intro _
      exact hw.answered (by simp [hclient])
  | @answer c todo hclient hdone =>
    obtain ⟨hsub, hset⟩ := hw.waits _ _ hclient
    have htoken : w.tokens.get? c.token = some (validation c.token) := by simpa [hdone] using hset
    refine ⟨hw.tokens, hw.scheduled, ?_, ?_, ?_⟩
    · rintro todo' ⟨⟩
      exact ⟨hdone, hsub⟩
    · rintro c' todo' ⟨⟩
    · intro _ t ht
      rcases List.mem_cons.mp ht with rfl | ht
      · exact htoken
      · exact hw.answered (by simp [hclient]) t ht
  | @set c hscheduled =>
    have hc := hw.scheduled c hscheduled
    -- A token that was set already gets the same value again.
    have hkeep : ∀ t, w.tokens.get? t = some (validation t) →
        (w.tokens.set c.token (validation c.token)).get? t = some (validation t) := by
      intro t ht
      by_cases htc : t = c.token <;> simp [htc, ht]
    refine ⟨?_, ?_, ?_, ?_, ?_⟩
    · intro t k hk
      by_cases htc : t = c.token
      · subst htc
        simp only [Dict.get?_set, if_true, Option.some.injEq] at hk
        exact ⟨hk.symm, hc⟩
      · simp only [Dict.get?_set, htc, if_false] at hk
        exact hw.tokens t k hk
    · rintro c' ⟨⟩
    · intro todo hclient
      have hnone := (hw.idle todo hclient).1
      rw [hscheduled] at hnone
      cases hnone
    · intro c' todo hclient
      obtain ⟨hsub, hset⟩ := hw.waits c' todo hclient
      have hcc : c = c' := by simpa [hscheduled] using hset
      subst hcc
      exact ⟨hsub, .inr ⟨rfl, by simp⟩⟩
    · intro hlive t ht
      exact hkeep t (hw.answered hlive t ht)
  | finish hlive =>
    refine ⟨?_, hw.scheduled, ?_, ?_, ?_⟩
    · intro t k hk
      simp at hk
    · rintro todo ⟨⟩
    · rintro c todo ⟨⟩
    · intro hended
      exact absurd rfl hended
  | accept hnew hlistening => exact ⟨hw.tokens, hw.scheduled, hw.idle, hw.waits, hw.answered⟩
  | conn hconn hstep => exact ⟨hw.tokens, hw.scheduled, hw.idle, hw.waits, hw.answered⟩

/-! ## What a connection is answered -/

def ConnEvent.bytes : ConnEvent → Bytes
  | .receive bytes => bytes
  | _ => []

def Event.bytesOn (i : Nat) : Event → Bytes
  | .conn j e => if j = i then e.bytes else []
  | _ => []

def received (i : Nat) (es : List Event) : Bytes := es.flatMap (Event.bytesOn i)

/-- The path of the first line, or of all there is where no line ends. -/
def askedPath (got : Bytes) : List Char := requestPath (((Http.cutLine got).map Prod.fst).getD got)

/-- Nothing is found, or it is the key authorization of the challenge that the path names. -/
def Proper (validation : List Char → List Char) (order : List Challenge) (path : List Char) (answer : Bytes) : Prop :=
  answer = notFound ∨
    ∃ t, ⟨true, t⟩ ∈ order ∧ path = challengePath ++ t ∧ answer = ok (Text.utf8 (validation t))

/-- The connection has sent `got`, and no more if that has no line. -/
def Phase.Fits (validation : List Char → List Char) (order : List Challenge) (got buffer : Bytes) (eof : Bool) :
    Phase → Prop
  | .requestLine => buffer = got
  | .headers path => path = askedPath got ∧ (lineFeed ∈ got ∨ eof = true)
  | .closed none => True
  | .closed (some answer) => Proper validation order (askedPath got) answer ∧ (lineFeed ∈ got ∨ eof = true)

def Conn.Fits (validation : List Char → List Char) (order : List Challenge) (got : Bytes) (c : Conn) : Prop :=
  c.phase.Fits validation order got c.buffer c.eof

variable {c c' : Conn} {ce : ConnEvent} {got line rest : Bytes}

theorem Sound.proper_respond (hw : Sound validation order w) (path : List Char) :
    Proper validation order path (respond w.tokens path) := by
  unfold respond
  split_ifs with hpath
  · obtain ⟨t, rfl⟩ := hpath
    rw [List.drop_left]
    cases hget : w.tokens.get? t with
    | none => exact .inl rfl
    | some keyAuthz =>
      obtain ⟨rfl, hmem⟩ := hw.tokens t keyAuthz hget
      by_cases hempty : validation t = []
      · exact .inl (by simp [hempty])
      · exact .inr ⟨t, hmem, rfl, by simp [hempty]⟩
  · exact .inl rfl

theorem askedPath_of_cut (h : Http.cutLine got = some (line, rest)) : askedPath got = requestPath line := by
  simp [askedPath, h]

theorem askedPath_of_no_line (h : lineFeed ∉ got) : askedPath got = requestPath got := by
  simp [askedPath, Http.cutLine_eq_none.mpr h]

theorem askedPath_append (h : lineFeed ∈ got) (more : Bytes) : askedPath (got ++ more) = askedPath got := by
  cases hcut : Http.cutLine got with
  | none => exact absurd h (Http.cutLine_eq_none.mp hcut)
  | some p => rw [askedPath_of_cut (Http.cutLine_append hcut more), askedPath_of_cut hcut]

theorem readline_line (h : c.readline = .line line rest) :
    Http.cutLine c.buffer = some (line, rest) ∨ lineFeed ∉ c.buffer ∧ c.eof = true ∧ line = c.buffer := by
  simp only [Conn.readline] at h
  split at h
  next l r hcut =>
    split_ifs at h
    cases h
    exact .inl hcut
  next hcut =>
    split_ifs at h with hlimit heof
    cases h
    exact .inr ⟨Http.cutLine_eq_none.mp hcut, heof, rfl⟩

theorem Conn.Fits.read (h : c.Fits validation order got) (hw : Sound validation order w)
    (hstep : c.read w.tokens = some c') : c'.Fits validation order got := by
  simp only [Conn.read] at hstep
  split at hstep
  next line rest hline =>
    cases hstep
    cases hphase : c.phase with
    | requestLine =>
      simp only [Conn.Fits, hphase] at h
      subst h
      simp only [Conn.Fits, Phase.next]
      rcases readline_line hline with hcut | ⟨hnone, heof, rfl⟩
      · exact ⟨(askedPath_of_cut hcut).symm, .inl (Http.lineFeed_mem_of_cutLine hcut)⟩
      · exact ⟨(askedPath_of_no_line hnone).symm, .inr heof⟩
    | headers path =>
      simp only [Conn.Fits, hphase] at h
      simp only [Conn.Fits, Phase.next]
      split_ifs
      · exact ⟨h.1 ▸ hw.proper_respond path, h.2⟩
      · exact h
    | closed answer =>
      simp only [Conn.Fits, hphase] at h
      simp only [Conn.Fits, Phase.next]
      cases answer <;> exact h
  next =>
    cases hstep
    trivial
  next => cases hstep

theorem Conn.Fits.receive (h : c.Fits validation order got) (heof : c.eof = false) (bytes : Bytes) :
    Conn.Fits validation order (got ++ bytes) { c with buffer := c.buffer ++ bytes } := by
  obtain ⟨buffer, eof, phase⟩ := c
  subst heof
  rcases phase with _ | path | _ | answer
  · exact congrArg (· ++ bytes) h
  · obtain ⟨hpath, hline | hfalse⟩ := h
    · exact ⟨(askedPath_append hline bytes).symm ▸ hpath, .inl (List.mem_append_left bytes hline)⟩
    · cases hfalse
  · trivial
  · obtain ⟨hproper, hline | hfalse⟩ := h
    · exact ⟨(askedPath_append hline bytes).symm ▸ hproper, .inl (List.mem_append_left bytes hline)⟩
    · cases hfalse

theorem Conn.Fits.eof (h : c.Fits validation order got) : Conn.Fits validation order got { c with eof := true } := by
  obtain ⟨buffer, eof, phase⟩ := c
  rcases phase with _ | path | _ | answer
  · exact h
  · exact ⟨h.1, .inr rfl⟩
  · trivial
  · exact ⟨h.1, .inr rfl⟩

theorem Conn.Fits.step (h : c.Fits validation order got) (hw : Sound validation order w)
    (hstep : c.step w.tokens ce = some c') : c'.Fits validation order (got ++ ce.bytes) := by
  cases ce with
  | accept => cases hstep
  | receive bytes =>
    simp only [Conn.step] at hstep
    split_ifs at hstep with heof
    cases hstep
    exact h.receive (by simpa using heof) bytes
  | eof =>
    simp only [Conn.step] at hstep
    split_ifs at hstep
    cases hstep
    simpa [ConnEvent.bytes] using h.eof
  | read =>
    simp only [Conn.step] at hstep
    split_ifs at hstep
    simpa [ConnEvent.bytes] using h.read hw hstep
  | timeout =>
    simp only [Conn.step] at hstep
    split_ifs at hstep
    cases hstep
    trivial

/-- The state after `es`, seen from the connections. -/
structure Serves (validation : List Char → List Char) (order : List Challenge) (es : List Event) (w : World) :
    Prop where
  sound : Sound validation order w
  unused : ∀ i, w.conns i = none → received i es = []
  fits : ∀ i c, w.conns i = some c → c.Fits validation order (received i es)

theorem received_snoc (i : Nat) (es : List Event) (e : Event) :
    received i (es ++ [e]) = received i es ++ e.bytesOn i := by
  simp [received]

theorem Serves.of_conns (h : Serves validation order es w) (hsound : Sound validation order w')
    (hconns : w'.conns = w.conns) (he : ∀ i, e.bytesOn i = []) : Serves validation order (es ++ [e]) w' where
  sound := hsound
  unused i hnone := by
    rw [received_snoc, he i, List.append_nil]
    exact h.unused i (hconns ▸ hnone)
  fits i c hc := by
    rw [received_snoc, he i, List.append_nil]
    exact h.fits i c (hconns ▸ hc)

theorem Serves.of_put (h : Serves validation order es w) (hsound : Sound validation order (w.put i c'))
    (hfits : c'.Fits validation order (received i es ++ ce.bytes)) :
    Serves validation order (es ++ [.conn i ce]) (w.put i c') where
  sound := hsound
  unused j hnone := by
    rw [received_snoc]
    have hij : i ≠ j := by
      rintro rfl
      simp [World.put] at hnone
    simp only [World.put, Function.update_of_ne hij.symm] at hnone
    simp [Event.bytesOn, hij, h.unused j hnone]
  fits j c hc := by
    rw [received_snoc]
    by_cases hij : i = j
    · subst hij
      simp only [World.put, Function.update_self, Option.some.injEq] at hc
      subst hc
      simpa [Event.bytesOn] using hfits
    · simp only [World.put, Function.update_of_ne (Ne.symm hij)] at hc
      simpa [Event.bytesOn, hij] using h.fits j c hc

theorem Moves.serves (hmove : Moves validation w e w') (h : Serves validation order es w) :
    Serves validation order (es ++ [e]) w' := by
  have hsound := hmove.sound h.sound
  cases hmove with
  | skip => exact h.of_conns hsound rfl fun _ => rfl
  | submit => exact h.of_conns hsound rfl fun _ => rfl
  | answer => exact h.of_conns hsound rfl fun _ => rfl
  | set => exact h.of_conns hsound rfl fun _ => rfl
  | finish => exact h.of_conns hsound rfl fun _ => rfl
  | accept hnew hlistening =>
    apply h.of_put hsound
    rw [h.unused _ hnew]
    exact rfl
  | conn hconn hstep => exact h.of_put hsound ((h.fits _ _ hconn).step h.sound hstep)

theorem run_serves {order : List (List Challenge)} (hrun : run (step validation) (start order) es = some w) :
    Serves validation order.flatten es w := by
  refine run_history (I := Serves validation order.flatten) ?_ ?_ hrun
  · exact ⟨start_sound order, fun _ _ => rfl, fun i c hc => by simp [start] at hc⟩
  · intro done w₁ e w₂ _ hserves hstep
    exact (moves_of_step hstep).serves hserves

/-- Whatever is sent on a connection, its answer is that there is nothing, or the key authorization of the challenge of
the order that the path of its first line names. -/
theorem answers_proper {order : List (List Challenge)} {answer : Bytes}
    (hrun : run (step validation) (start order) es = some w) (hconn : w.conns i = some c)
    (hanswer : c.phase = .closed (some answer)) :
    Http.readResponse answer = some (notFoundResponse, []) ∨
      ∃ challenges ∈ order, ∃ t, ⟨true, t⟩ ∈ challenges ∧ askedPath (received i es) = challengePath ++ t ∧
        Http.readResponse answer = some (okResponse (Text.utf8 (validation t)), []) := by
  have hfits := (run_serves hrun).fits i c hconn
  simp only [Conn.Fits, hanswer, Phase.Fits] at hfits
  rcases hfits.1 with rfl | ⟨t, hmem, hpath, rfl⟩
  · exact .inl readResponse_notFound
  · obtain ⟨challenges, hin, ht⟩ := List.mem_flatten.mp hmem
    exact .inr ⟨challenges, hin, t, ht, hpath, readResponse_ok _⟩

/-! ### An order with one challenge -/

def keyed (t : List Char) : List Char := t ++ ".key".toList

def getTok : Bytes := Text.ascii "GET /.well-known/acme-challenge/tok HTTP/1.1\r\nHost: a\r\n\r\n"

/-- The token is set and reported, and a request comes in two pieces. -/
def tokRequested : List Event :=
  [.client, .client, .setChallenge, .client, .conn 0 .accept, .conn 0 (.receive (getTok.take 9)),
    .conn 0 (.receive (getTok.drop 9)), .conn 0 .read, .conn 0 .read, .conn 0 .read]

def tokOrder : List (List Challenge) := [[⟨false, "dns".toList⟩, ⟨true, "tok".toList⟩]]

theorem tok_answer_proper : Http.readResponse (ok (Text.utf8 "tok.key".toList)) = some (notFoundResponse, []) ∨
    ∃ challenges ∈ tokOrder, ∃ t, ⟨true, t⟩ ∈ challenges ∧ askedPath getTok = challengePath ++ t ∧
      Http.readResponse (ok (Text.utf8 "tok.key".toList)) = some (okResponse (Text.utf8 (keyed t)), []) := by
  have hrun : run (step keyed) (start tokOrder) tokRequested =
      some ((run (step keyed) (start tokOrder) tokRequested).getD (start [])) := rfl
  have hconn : ((run (step keyed) (start tokOrder) tokRequested).getD (start [])).conns 0 =
      some ⟨[], false, .closed (some (ok (Text.utf8 "tok.key".toList)))⟩ := rfl
  exact answers_proper hrun hconn rfl

end RdpProxy.Acme.ChallengeServer
