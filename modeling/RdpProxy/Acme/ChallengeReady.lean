import RdpProxy.Acme.ChallengeServer

/-!
# A challenge that is ready is answered

The certificate authority asks for a token after it was told that the challenge is ready. Its request comes in pieces,
among whatever else the loop does.
-/

open Words Heredoc Steps

namespace RdpProxy.Acme.ChallengeServer

variable {validation : List Char → List Char} {w w' : World} {e : Event} {es : List Event} {i : Nat}
  {order : List Challenge} {c c' : Conn} {ce : ConnEvent} {line rest : Bytes}

/-! ## The handler and its request -/

/-- What is still to be read brings the handler to the end of a request for `path`. -/
inductive Leads (path : List Char) : Phase → Bytes → Prop
  | blank (rest : Bytes) : Leads path (.headers path) (Http.crlf ++ rest)
  | header {content s : Bytes} (hline : lineFeed ∉ content) (hne : content ≠ [])
    (hlength : content.length < limit) (hrest : Leads path (.headers path) s) :
    Leads path (.headers path) (content ++ Http.crlf ++ s)
  | request {content s : Bytes} (hline : lineFeed ∉ content) (hlength : content.length < limit)
    (hpath : requestPath (content ++ Http.crlf) = path) (hrest : Leads path (.headers path) s) :
    Leads path .requestLine (content ++ Http.crlf ++ s)

variable {path : List Char} {phase : Phase} {s : Bytes} {tokens : Dict (List Char) (List Char)}

theorem Leads.next (tokens : Dict (List Char) (List Char)) (h : Leads path phase s) :
    ∃ line rest, Http.cutLine s = some (line, rest) ∧ line.length ≤ limit + 1 ∧ rest.length < s.length ∧
      (phase.next tokens line = .closed (some (respond tokens path)) ∨ Leads path (phase.next tokens line) rest) := by
  have hcrlf : Http.crlf.length = 2 := rfl
  cases h with
  | blank rest =>
    refine ⟨Http.crlf, rest, ?_, by decide, by simp [hcrlf], .inl ?_⟩
    · have hcut := Http.cutLine_crlf (List.not_mem_nil : lineFeed ∉ []) rest
      simpa using hcut
    · simp [Phase.next]
  | @header content s hline hne hlength hrest =>
    refine ⟨content ++ Http.crlf, s, Http.cutLine_crlf hline s, by simp [hcrlf]; omega, ?_, .inr ?_⟩
    · simp only [List.length_append, hcrlf]
      omega
    · have hlong : 2 < (content ++ Http.crlf).length := by
        have := List.length_pos_iff.mpr hne
        simp only [List.length_append, hcrlf]
        omega
      have hother : ¬ (content ++ Http.crlf = Http.crlf ∨ content ++ Http.crlf = [lineFeed] ∨
          content ++ Http.crlf = []) := by
        rintro (heq | heq | heq) <;> rw [heq] at hlong <;> revert hlong <;> decide
      rw [Phase.next, if_neg hother]
      exact hrest
  | @request content s hline hlength hpath hrest =>
    refine ⟨content ++ Http.crlf, s, Http.cutLine_crlf hline s, by simp [hcrlf]; omega, ?_, .inr ?_⟩
    · simp only [List.length_append, hcrlf]
      omega
    · rw [Phase.next, hpath]
      exact hrest

theorem readline_of_cut {future : Bytes} (hcut : Http.cutLine (c.buffer ++ future) = some (line, rest))
    (hlength : line.length ≤ limit + 1) (heof : c.eof = true → future = []) :
    c.readline = .waiting ∨ ∃ rest', c.readline = .line line rest' ∧ rest = rest' ++ future := by
  cases hbuffer : Http.cutLine c.buffer with
  | some p =>
    obtain ⟨line', rest'⟩ := p
    have happend := Http.cutLine_append hbuffer future
    rw [hcut] at happend
    cases happend
    exact .inr ⟨rest', by simp [Conn.readline, hbuffer, hlength], rfl⟩
  | none =>
    have hnone := Http.cutLine_eq_none.mp hbuffer
    have hshort : ¬ limit < c.buffer.length := by
      have := Http.length_lt_of_cutLine_append hnone hcut
      omega
    have hopen : ¬ c.eof = true := by
      intro hclosed
      rw [heof hclosed, List.append_nil, hbuffer] at hcut
      cases hcut
    exact .inl (by simp [Conn.readline, hbuffer, hshort, hopen])

/-- The connection has this answer, or what is to come leads to it. -/
def Conn.Ready (path : List Char) (answer future : Bytes) (c : Conn) : Prop :=
  c.phase = .closed (some answer) ∨ Leads path c.phase (c.buffer ++ future)

variable {answer future whole : Bytes} {t : List Char}

theorem Leads.isClosed (h : Leads path phase s) : phase.isClosed = false := by
  cases h <;> rfl

theorem Conn.Ready.read (h : c.Ready path (respond tokens path) future) (hopen : c.phase.isClosed = false)
    (heof : c.eof = true → future = []) (hstep : c.read tokens = some c') :
    c'.Ready path (respond tokens path) future := by
  rcases h with hclosed | hleads
  · rw [hclosed] at hopen
    cases hopen
  obtain ⟨line, rest, hcut, hlength, -, hnext⟩ := hleads.next tokens
  rcases readline_of_cut hcut hlength heof with hwait | ⟨rest', hline, rfl⟩
  · rw [Conn.read, hwait] at hstep
    cases hstep
  · rw [Conn.read, hline] at hstep
    cases hstep
    exact hnext

theorem Conn.Ready.step (h : (c.eof = true → ce.bytes ++ future = []) →
      c.Ready path (respond tokens path) (ce.bytes ++ future)) (htimeout : ce ≠ .timeout)
    (heof : c'.eof = true → future = []) (hstep : c.step tokens ce = some c') :
    c'.Ready path (respond tokens path) future := by
  cases ce with
  | accept => cases hstep
  | receive bytes =>
    simp only [Conn.step] at hstep
    split_ifs at hstep with hclosed
    cases hstep
    have hready := h fun heof => absurd heof hclosed
    simpa [Conn.Ready, ConnEvent.bytes] using hready
  | eof =>
    simp only [Conn.step] at hstep
    split_ifs at hstep with hclosed
    cases hstep
    exact h fun heof => absurd heof hclosed
  | read =>
    simp only [Conn.step] at hstep
    split_ifs at hstep with hopen
    have hsame : c'.eof = c.eof := by
      simp only [Conn.read] at hstep
      split at hstep <;> cases hstep <;> rfl
    rw [hsame] at heof
    exact (h heof).read (by simpa using hopen) heof hstep
  | timeout => exact absurd rfl htimeout

/-! ## The connection among the others -/

/-- Unless the order has ended, connection `i` is ready for the rest of `whole`, of which it has sent what `es` says. -/
structure Awaited (validation : List Char → List Char) (order : List Challenge) (t : List Char) (i : Nat)
    (whole : Bytes) (es : List Event) (w : World) : Prop where
  sound : Sound validation order w
  answered : t ∈ w.answered
  opened : w.conns i ≠ none
  ready : w.client ≠ .ended → .conn i .timeout ∉ es → ∃ c, w.conns i = some c ∧
    ∀ future, received i es ++ future = whole → (c.eof = true → future = []) →
      c.Ready (challengePath ++ t) (ok (Text.utf8 (validation t))) future

theorem Moves.answered_mem (h : Moves validation w e w') (ht : t ∈ w.answered) : t ∈ w'.answered := by
  cases h with
  | answer => exact List.mem_cons_of_mem _ ht
  | _ => exact ht

theorem Moves.live (h : Moves validation w e w') (hlive : w'.client ≠ .ended) : w.client ≠ .ended := by
  cases h with
  | skip hclient => simp [hclient]
  | submit hclient => simp [hclient]
  | answer hclient => simp [hclient]
  | finish => exact absurd rfl hlive
  | _ => exact hlive

theorem Awaited.of_conns (h : Awaited validation order t i whole es w) (hmove : Moves validation w e w')
    (hconns : w'.conns i = w.conns i) (he : e.bytesOn i = []) : Awaited validation order t i whole (es ++ [e]) w' where
  sound := hmove.sound h.sound
  answered := hmove.answered_mem h.answered
  opened := hconns ▸ h.opened
  ready hlive htimeout := by
    obtain ⟨c, hc, hready⟩ := h.ready (hmove.live hlive) fun hmem => htimeout (List.mem_append_left _ hmem)
    refine ⟨c, hconns ▸ hc, ?_⟩
    rwa [received_snoc, he, List.append_nil]

theorem Leads.answers (h : Leads path phase s) {eof : Bool} (hconn : w.conns i = some ⟨s, eof, phase⟩) :
    ∃ n w', Steps.run (step validation) w (List.replicate n (.conn i .read)) = some w' ∧
      ∃ c, w'.conns i = some c ∧ c.phase = .closed (some (respond w.tokens path)) := by
  induction hn : s.length using Nat.strong_induction_on generalizing s phase w with
  | _ k ih =>
    obtain ⟨line, rest, hcut, hlength, hrest, hnext⟩ := h.next w.tokens
    have hread : step validation w (.conn i .read) = some (w.put i ⟨rest, eof, phase.next w.tokens line⟩) := by
      simp [step, hconn, Conn.step, h.isClosed, Conn.read, Conn.readline, hcut, hlength]
    rcases hnext with hclosed | hleads
    · refine ⟨1, _, Steps.run_cons_eq_some.mpr ⟨_, hread, rfl⟩, ⟨rest, eof, phase.next w.tokens line⟩, ?_, hclosed⟩
      simp [World.put]
    · subst hn
      obtain ⟨n, w', hrun, hanswer⟩ := ih rest.length hrest hleads
        (w := w.put i ⟨rest, eof, phase.next w.tokens line⟩) (by simp [World.put]) rfl
      exact ⟨n + 1, w', Steps.run_cons_eq_some.mpr ⟨_, hread, hrun⟩, hanswer⟩

def word (text : String) (hne : text.toList ≠ [])
    (htext : (text.toList.all fun c => decide (c.toNat < 128) && !(Text.isSpace c)) = true) : Http.Word where
  text := text.toList
  ne := hne
  ascii c hc := by
    have hboth := List.all_eq_true.mp htext c hc
    rw [Bool.and_eq_true, decide_eq_true_eq] at hboth
    exact hboth.1
  no_space c hc := by
    have hboth := List.all_eq_true.mp htext c hc
    rw [Bool.and_eq_true, Bool.not_eq_true'] at hboth
    exact hboth.2

end RdpProxy.Acme.ChallengeServer
