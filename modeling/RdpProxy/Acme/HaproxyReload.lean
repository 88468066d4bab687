import Mathlib.Data.List.Infix
import RdpProxy.Lib.TextLines

/-!
# The hot update of the certificate (`acme_client/haproxy_reload.py`)

HAProxy takes the certificate as lines up to the first empty one. The text that is sent has no empty
line before its end, whatever the PEM text looks like.
-/

open Words Text

namespace RdpProxy.Acme

/-! ## The source -/

def HAPROXY_CERT_PATH : List Char := "/usr/local/etc/haproxy/certs/rdp.pem".toList

/-- `line.strip()` is not empty. -/
def notBlank (line : List Char) : Bool := strip line != []

def stripBlankLines (pem : List Char) : List Char := joinLines ((splitlines pem).filter notBlank)

inductive Command where
  | abort
  | set
  | commit
  deriving DecidableEq

def abortPayload (path : List Char) : Bytes := utf8 ("abort ssl cert ".toList ++ path ++ ['\n'])

/-- The line that opens a transaction. -/
def setCommand (path : List Char) : List Char := "set ssl cert ".toList ++ path ++ " <<".toList

def setPayload (path certStr : List Char) : Bytes := utf8 (setCommand path ++ ['\n'] ++ certStr ++ ['\n'])

def commitPayload (path : List Char) : Bytes := utf8 ("commit ssl cert ".toList ++ path ++ ['\n'])

/-- The other side of the socket: whether its path exists, and the text it answers to a payload after those it was
sent before. Without an answer `_send_command_sync` raises. -/
structure Haproxy where
  pathExists : Bool
  answer : List (Command × Bytes) → Bytes → Option (List Char)

structure HotUpdate where
  updated : Bool
  sent : List (Command × Bytes)

/-- `_send_command_sync`: what was sent so far and is now, and the answer. -/
def sendCommandSync (haproxy : Haproxy) (sent : List (Command × Bytes)) (command : Command) (payload : Bytes) :
    List (Command × Bytes) × Option (List Char) :=
  (sent ++ [(command, payload)], (haproxy.answer sent payload).map strip)

def hotUpdateSslCert (haproxy : Haproxy) (pemContent : Bytes) (path : List Char) : HotUpdate :=
  if haproxy.pathExists = false then ⟨false, []⟩
  else
    match decodeUtf8 pemContent with
    | none => ⟨false, []⟩
    | some pem =>
      let certStr := stripBlankLines pem
      -- The answer to `abort` is not looked at.
      match sendCommandSync haproxy [] .abort (abortPayload path) with
      | (sent, none) => ⟨false, sent⟩
      | (sent, some _) =>
        match sendCommandSync haproxy sent .set (setPayload path certStr) with
        | (sent, none) => ⟨false, sent⟩
        | (sent, some setResp) =>
          if ¬ "Transaction created".toList <:+: setResp ∧ ¬ "Transaction updated".toList <:+: setResp then
            ⟨false, sent⟩
          else
            match sendCommandSync haproxy sent .commit (commitPayload path) with
            | (sent, none) => ⟨false, sent⟩
            | (sent, some commitResp) =>
              ⟨decide ("Success".toList <:+: commitResp ∨ "New".toList <:+: commitResp), sent⟩

variable {pem path : List Char}

/-! ## The lines that are left -/

/-- The lines of the text that are not blank. -/
def keptLines (pem : List Char) : List (List Char) := (splitlines pem).filter notBlank

theorem oneLine_of_mem_keptLines {line : List Char} (h : line ∈ keptLines pem) : OneLine line :=
  oneLine_of_mem_splitlines (List.mem_of_mem_filter h)

theorem ne_nil_of_mem_keptLines {line : List Char} (h : line ∈ keptLines pem) : line ≠ [] := by
  have hblank := (List.mem_filter.mp h).2
  rintro rfl
  revert hblank
  decide

theorem stripBlankLines_eq_ended (h : keptLines pem ≠ []) : stripBlankLines pem = ended (keptLines pem) :=
  joinLines_eq_ended h

theorem stripBlankLines_stripBlankLines (pem : List Char) :
    stripBlankLines (stripBlankLines pem) = stripBlankLines pem := by
  by_cases h : keptLines pem = []
  · have hnone : stripBlankLines pem = ['\n'] := by
      unfold stripBlankLines
      rw [show (splitlines pem).filter notBlank = [] from h]
      rfl
    rw [hnone]
    decide
  · have hlines : splitlines (stripBlankLines pem) = keptLines pem := by
      rw [stripBlankLines_eq_ended h]
      exact splitlines_ended fun _ hl => oneLine_of_mem_keptLines hl
    have hagain : (keptLines pem).filter notBlank = keptLines pem := by simp [keptLines]
    rw [stripBlankLines, hlines, hagain]
    rfl

/-! ## The payload -/

theorem setCommand_ne_nil (path : List Char) : setCommand path ≠ [] :=
  List.append_ne_nil_of_right_ne_nil _ (by decide)

theorem newline_notMem_setCommand (h : '\n' ∉ path) : '\n' ∉ setCommand path := by
  unfold setCommand
  simp only [List.mem_append, not_or]
  exact ⟨⟨by decide, h⟩, by decide⟩

theorem utf8_ended (ls : List (List Char)) : utf8 (ended ls) = (ls.map utf8).flatMap (· ++ [Heredoc.lineFeed]) := by
  induction ls with
  | nil => rfl
  | cons l ls ih =>
    have hcons : ended (l :: ls) = (l ++ ['\n']) ++ ended ls := rfl
    rw [hcons, utf8_append, utf8_append, ih]
    rfl

theorem setPayload_eq (h : keptLines pem ≠ []) : setPayload path (stripBlankLines pem) =
    ((setCommand path :: keptLines pem).map utf8).flatMap (· ++ [Heredoc.lineFeed]) ++ Heredoc.lineFeed :: [] := by
  unfold setPayload
  rw [stripBlankLines_eq_ended h, ← utf8_ended, utf8_append]
  have hcons : ended (setCommand path :: keptLines pem) = (setCommand path ++ ['\n']) ++ ended (keptLines pem) := rfl
  rw [hcons]
  rfl

theorem read_setPayload (hpath : '\n' ∉ path) (h : keptLines pem ≠ []) :
    Heredoc.read (setPayload path (stripBlankLines pem)) = some ((setCommand path :: keptLines pem).map utf8, []) := by
  rw [setPayload_eq h]
  refine Heredoc.read_lines (fun line hline => ?_) []
  obtain ⟨l, hl, rfl⟩ := List.mem_map.mp hline
  have hplain : l ≠ [] ∧ '\n' ∉ l := by
    rcases List.mem_cons.mp hl with rfl | hl
    · exact ⟨setCommand_ne_nil path, newline_notMem_setCommand hpath⟩
    · exact ⟨ne_nil_of_mem_keptLines hl, (oneLine_of_mem_keptLines hl).newline_notMem⟩
  exact ⟨fun hnil => hplain.1 (utf8_eq_nil.mp hnil), Heredoc.lineFeed_notMem_utf8 hplain.2⟩

/-! ## What is sent -/

theorem sent_inOrder (haproxy : Haproxy) (pem path : List Char) :
    (hotUpdateSslCert haproxy (utf8 pem) path).sent <+:
      [(.abort, abortPayload path), (.set, setPayload path (stripBlankLines pem)), (.commit, commitPayload path)] := by
  unfold hotUpdateSslCert sendCommandSync
  rw [decodeUtf8_utf8]
  split_ifs with hexists
  · exact List.nil_prefix
  · dsimp only [List.nil_append, List.cons_append]
    rcases haproxy.answer [] (abortPayload path) with _ | abortResp
    · exact ⟨_, rfl⟩
    · dsimp only [Option.map_some]
      rcases haproxy.answer _ (setPayload path (stripBlankLines pem)) with _ | setResp
      · exact ⟨_, rfl⟩
      · dsimp only [Option.map_some]
        split_ifs with hcreated
        · exact ⟨_, rfl⟩
        · rcases haproxy.answer _ (commitPayload path) with _ | commitResp
          · exact ⟨_, rfl⟩
          · exact ⟨_, rfl⟩

theorem sent_set (haproxy : Haproxy) {payload : Bytes}
    (h : (Command.set, payload) ∈ (hotUpdateSslCert haproxy (utf8 pem) path).sent) :
    payload = setPayload path (stripBlankLines pem) := by
  have hmem := (sent_inOrder haproxy pem path).subset h
  simp only [List.mem_cons, Prod.mk.injEq, reduceCtorEq, false_and, true_and, List.not_mem_nil, or_false,
    false_or] at hmem
  exact hmem

theorem set_sent_iff (haproxy : Haproxy) (pem path : List Char) :
    (Command.set, setPayload path (stripBlankLines pem)) ∈ (hotUpdateSslCert haproxy (utf8 pem) path).sent ↔
      haproxy.pathExists = true ∧ haproxy.answer [] (abortPayload path) ≠ none := by
  unfold hotUpdateSslCert sendCommandSync
  rw [decodeUtf8_utf8]
  split_ifs with hexists
  · exact iff_of_false List.not_mem_nil fun h => Bool.false_ne_true (hexists.symm.trans h.1)
  · dsimp only [List.nil_append, List.cons_append]
    rcases haproxy.answer [] (abortPayload path) with _ | abortResp
    · refine iff_of_false ?_ fun h => h.2 rfl
      intro h
      cases List.mem_singleton.mp h
    · have hsent : haproxy.pathExists = true ∧ some abortResp ≠ none := ⟨eq_true_of_ne_false hexists, Option.some_ne_none _⟩
      have hsecond : ∀ sent : List (Command × Bytes), (Command.set, setPayload path (stripBlankLines pem)) ∈
          (.abort, abortPayload path) :: (.set, setPayload path (stripBlankLines pem)) :: sent :=
        fun sent => List.mem_cons_of_mem _ List.mem_cons_self
      dsimp only [Option.map_some]
      rcases haproxy.answer _ (setPayload path (stripBlankLines pem)) with _ | setResp
      · exact iff_of_true (hsecond _) hsent
      · dsimp only [Option.map_some]
        split_ifs with hcreated
        · exact iff_of_true (hsecond _) hsent
        · rcases haproxy.answer _ (commitPayload path) with _ | commitResp
          · exact iff_of_true (hsecond _) hsent
          · exact iff_of_true (hsecond _) hsent

/-- In whatever is sent as `set ssl cert` the first empty line is the end, and what stands before it is the command
and the lines of the PEM text that are not blank. -/
theorem haproxy_reads_every_line (haproxy : Haproxy) (pem path : List Char) (hpath : '\n' ∉ path)
    (hpem : ∃ line ∈ splitlines pem, strip line ≠ []) :
    (∀ payload, (Command.set, payload) ∈ (hotUpdateSslCert haproxy (utf8 pem) path).sent →
      Heredoc.read payload =
        some (utf8 (setCommand path) :: ((splitlines pem).filter fun line => strip line ≠ []).map utf8, [])) ∧
    (haproxy.pathExists = true → haproxy.answer [] (abortPayload path) ≠ none →
      ∃ payload, (Command.set, payload) ∈ (hotUpdateSslCert haproxy (utf8 pem) path).sent) ∧
    stripBlankLines (stripBlankLines pem) = stripBlankLines pem := by
  have hkept : keptLines pem = (splitlines pem).filter fun line => strip line ≠ [] := by
    refine List.filter_congr fun line _ => ?_
    rw [notBlank, Bool.eq_iff_iff]
    simp
  have hne : keptLines pem ≠ [] := by
    obtain ⟨line, hmem, hline⟩ := hpem
    rw [hkept]
    exact List.ne_nil_of_mem (List.mem_filter.mpr ⟨hmem, by simpa using hline⟩)
  refine ⟨fun payload hsent => ?_, fun hexists hanswer => ?_, stripBlankLines_stripBlankLines pem⟩
  · rw [sent_set haproxy hsent, read_setPayload hpath hne, hkept]
    rfl
  · exact ⟨_, (set_sent_iff haproxy pem path).mpr ⟨hexists, hanswer⟩⟩

/-- Two certificates with blank lines of both kinds between them, and line ends of three kinds. -/
def samplePem : List Char := "-- one\r\n\n \t\r-- two\n\n".toList

def sampleHaproxy : Haproxy where
  pathExists := true
  answer sent _ := some (match sent with
    | [] => "No transaction".toList
    | [_] => "Transaction created for certificate".toList
    | _ => "Success!\n".toList)

theorem keptLines_samplePem :
    ((splitlines samplePem).filter fun line => strip line ≠ []) = ["-- one".toList, "-- two".toList] := by decide

theorem haproxy_reads_every_line_sample :
    (∃ payload, (Command.set, payload) ∈ (hotUpdateSslCert sampleHaproxy (utf8 samplePem) HAPROXY_CERT_PATH).sent ∧
      Heredoc.read payload =
        some ([utf8 (setCommand HAPROXY_CERT_PATH), utf8 "-- one".toList, utf8 "-- two".toList], [])) ∧
    stripBlankLines (stripBlankLines samplePem) = stripBlankLines samplePem := by
  obtain ⟨hread, hsent, hagain⟩ := haproxy_reads_every_line sampleHaproxy samplePem HAPROXY_CERT_PATH (by decide)
    ⟨"-- one".toList, by decide, by decide⟩
  obtain ⟨payload, hpayload⟩ := hsent rfl (by decide)
  refine ⟨⟨payload, hpayload, ?_⟩, hagain⟩
  rw [hread payload hpayload, keptLines_samplePem]
  rfl

end RdpProxy.Acme
