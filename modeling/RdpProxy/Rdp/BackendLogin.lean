import RdpProxy.Lib.StreamScript
import RdpProxy.Rdp.Credssp

/-!
# Logging in to the backend (`connect_and_authenticate`)

Two of the reads are optional: they get a few seconds, and the relay goes on without them.
-/

open Words Ber StreamReader

namespace RdpProxy.Rdp

/-! ## The source -/

/-- `_read_tpkt` -/
def readBackendTpkt : Script TpktError Bytes :=
  .read 4 fun header =>
    if (header.getD 0 0).toNat ≠ TPKT_VERSION then .raise .invalidVersion
    else
      let totalLen := beNat (window header 2 2)
      if totalLen < 4 then .raise .negativeSize else .read (totalLen - 4) .pure

def lengthScript (first lenB : Bytes) : Script CredsspError (Bytes × Nat) :=
  let header := first ++ lenB
  let num := (lenB.getD 0 0).toNat % 128
  if 128 ≤ (lenB.getD 0 0).toNat then .read num fun lenExt => .pure (header ++ lenExt, beNat lenExt)
  else .pure (header, num)

/-- `readRecordHeader`, read by read. -/
def recordHeaderScript (first : Bytes) : Script CredsspError (Bytes × Nat) := .read 1 (lengthScript first)

/-- `readCredsspRecord`, read by read. -/
def credsspRecordScript : Script CredsspError Bytes :=
  .read 1 fun first =>
    if (first.getD 0 0).toNat = TPKT_VERSION then .read 3 fun _ => .raise .structError
    else if first.getD 0 0 ≠ ASN1_SEQUENCE then .raise .unexpectedTag
    else recordHeaderScript first >>= fun header =>
      if MAX_CREDSSP_RECORD_LEN < header.2 then .raise .tooLarge
      else .read header.2 fun payload => .pure (header.1 ++ payload)

/-- All that the backend sends, and whether it closes the stream then. -/
structure Backend where
  bytes : Bytes
  closes : Bool

/-- What a read has seen when its time is over. -/
structure Arrived (b : Backend) where
  count : Nat
  closed : Bool
  le : count ≤ b.bytes.length
  whole : closed = true → count = b.bytes.length ∧ b.closes = true

def Arrived.from {b : Backend} (a : Arrived b) (pos : Nat) : Stream := ⟨(b.bytes.take a.count).drop pos, a.closed⟩

/-- What raises nothing on the way: the TLS handshake, all that is made of the challenge, and the writing
of the credentials. -/
structure LoginEnv where
  startTls : Bool
  answersChallenge : Bytes → Bool
  sendsCredentials : Bool

structure BackendConnection where
  /-- What can still be read. -/
  reader : Bytes
  /-- What lies behind the last record that has been read. -/
  behindLast : Bytes
  deriving DecidableEq

/-- The positions are those in all that the backend sends. A read with no deadline that starves has the
caller wait for ever. -/
def connectAndAuthenticate (env : LoginEnv) (b : Backend) (echo post : Arrived b) : Option BackendConnection :=
  match readBackendTpkt.waitFor ⟨b.bytes, b.closes⟩ with
  | (.returned _, n₁) =>
    if env.startTls = false then none
    else
      match credsspRecordScript.waitFor ⟨b.bytes.drop n₁, b.closes⟩ with
      | (.returned buff, n₂) =>
        if env.answersChallenge buff = false then none
        else
          let echoed := credsspRecordScript.waitFor (echo.from (n₁ + n₂))
          let pos := n₁ + n₂ + echoed.2
          let last := if echoed.1.isReturned then pos else n₁ + n₂
          if env.sendsCredentials = false then none
          else
            let posted := credsspRecordScript.waitFor (post.from pos)
            let pos' := pos + posted.2
            some ⟨b.bytes.drop pos', b.bytes.drop (if posted.1.isReturned then pos' else last)⟩
      | _ => none
  | _ => none

/-! ## Whole records -/

/-- The octets behind the first one of a length. -/
def lengthOctets (len : UInt8) : Nat := if len.toNat < 128 then 0 else len.toNat % 128

def contentLength (len : UInt8) (rest : Bytes) : Nat :=
  if len.toNat < 128 then len.toNat else beNat (rest.take (lengthOctets len))

/-- The size of the record that the bytes begin with, where they tell it and it may be read. -/
def recordSize : Bytes → Option Nat
  | tag :: len :: rest =>
    if tag ≠ ASN1_SEQUENCE ∨ rest.length < lengthOctets len ∨
        MAX_CREDSSP_RECORD_LEN < contentLength len rest then none
    else some (2 + lengthOctets len + contentLength len rest)
  | _ => none

def beginsWithRecord (s : Bytes) : Bool := (recordSize s).any fun n => n ≤ s.length

/-- What a read takes of bytes that do not begin with a whole record. A read that starves leaves its own
bytes, unless the stream ends. -/
def lost (s : Stream) : Nat :=
  let starved (n : Nat) := if s.closed then s.bytes.length else n
  match s.bytes with
  | [] => 0
  | tag :: rest =>
    if tag.toNat = TPKT_VERSION then if rest.length < 3 then starved 1 else 4
    else if tag ≠ ASN1_SEQUENCE then 1
    else
      match rest with
      | [] => 1
      | len :: rest =>
        if rest.length < lengthOctets len then starved 2
        else if MAX_CREDSSP_RECORD_LEN < contentLength len rest then 2 + lengthOctets len
        else starved (2 + lengthOctets len)

def taken (s : Stream) : Nat := if beginsWithRecord s.bytes then (recordSize s.bytes).getD 0 else lost s

/-! ## The condition -/

/-- Where the stream goes on behind the frame and the challenge. -/
def challengeEnd (s : Bytes) : Nat :=
  let frame := beNat (window s 2 2)
  frame + (recordSize (s.drop frame)).getD 0

def NothingOrRecord (s : Bytes) : Prop := s = [] ∨ beginsWithRecord s = true

/-- Each of the optional reads sees nothing or a whole record, or the second one sees a whole
record where the first one has stopped. -/
def Undamaged {b : Backend} (echo post : Arrived b) : Prop :=
  let start := challengeEnd b.bytes
  let behind := post.from (start + taken (echo.from start))
  NothingOrRecord (echo.from start).bytes ∧ NothingOrRecord behind.bytes ∨ beginsWithRecord behind.bytes = true

/-! ## One read of a record -/

theorem recordHeaderScript_reader (first : Bytes) : (recordHeaderScript first).reader = readRecordHeader first := by
  unfold recordHeaderScript readRecordHeader
  rw [Script.reader]
  congr 1
  funext lenB
  unfold lengthScript
  dsimp only
  split_ifs <;> rfl

theorem credsspRecordScript_reader : credsspRecordScript.reader = readCredsspRecord := by
  unfold credsspRecordScript readCredsspRecord
  rw [Script.reader]
  congr 1
  funext first
  split_ifs
  · rfl
  · rfl
  · rw [Script.reader_bind, recordHeaderScript_reader]
    congr 1
    funext header
    split_ifs <;> rfl

theorem readCredsspRecord_apply (s : Stream) : readCredsspRecord s =
    match credsspRecordScript.waitFor s with
    | (.returned record, n) => .returned record ⟨s.bytes.drop n, s.closed⟩
    | (.raised e, n) => .raised e ⟨s.bytes.drop n, s.closed⟩
    | (.timedOut, _) => .waiting := by
  rw [← credsspRecordScript_reader, Script.reader_apply]
  rcases credsspRecordScript.waitFor s with ⟨_ | _ | _, n⟩ <;> rfl

/-- The reads behind a tag of a record: the header and the content. -/
def contentScript (header : Bytes × Nat) : Script CredsspError Bytes :=
  if MAX_CREDSSP_RECORD_LEN < header.2 then .raise .tooLarge
  else .read header.2 fun payload => .pure (header.1 ++ payload)

theorem content_waitFor (header : Bytes × Nat) (s : Stream) :
    ((contentScript header).waitFor s).1.isReturned =
        decide (header.2 ≤ MAX_CREDSSP_RECORD_LEN ∧ header.2 ≤ s.bytes.length) ∧
      ((contentScript header).waitFor s).2 =
        if MAX_CREDSSP_RECORD_LEN < header.2 then 0
        else if header.2 ≤ s.bytes.length then header.2
        else if s.closed then s.bytes.length else 0 := by
  unfold contentScript
  rcases Nat.lt_or_ge MAX_CREDSSP_RECORD_LEN header.2 with hmax | hmax
  · simp [hmax, Script.waitFor, Ending.isReturned, Nat.not_le.mpr hmax]
  · rw [if_neg (Nat.not_lt.mpr hmax), if_neg (Nat.not_lt.mpr hmax)]
    rcases Nat.lt_or_ge s.bytes.length header.2 with hlen | hlen
    · rw [if_neg (Nat.not_le.mpr hlen)]
      obtain ⟨hnot, htaken⟩ : ((Script.read header.2 fun payload => .pure (header.1 ++ payload) :
          Script CredsspError Bytes).waitFor s).1.isReturned = false ∧ _ := Script.waitFor_starved hlen
      rw [hnot, htaken]
      simp [Nat.not_le.mpr hlen]
    · rw [Script.waitFor_read hlen]
      simp [Script.waitFor, Ending.isReturned, hmax, hlen]

theorem beginsWithRecord_of_ne {tag : UInt8} (h : tag ≠ ASN1_SEQUENCE) (rest : Bytes) :
    beginsWithRecord (tag :: rest) = false := by
  unfold beginsWithRecord
  rcases rest with _ | ⟨len, rest⟩
  · rfl
  · simp [recordSize, h]

theorem length_short (first : Bytes) {len : UInt8} (h : len.toNat < 128) :
    lengthScript first [len] >>= contentScript = contentScript (first ++ [len], len.toNat) := by
  have hmod : len.toNat % 128 = len.toNat := Nat.mod_eq_of_lt h
  unfold lengthScript
  rw [List.getD_cons_zero, if_neg (Nat.not_le.mpr h), hmod]
  rfl

theorem length_long (first : Bytes) {len : UInt8} (h : 128 ≤ len.toNat) :
    lengthScript first [len] >>= contentScript =
      .read (len.toNat % 128) fun lenExt => contentScript (first ++ [len] ++ lenExt, beNat lenExt) := by
  unfold lengthScript
  rw [List.getD_cons_zero, if_pos h]
  rfl

theorem header_waitFor (first : Bytes) (len : UInt8) (rest : Bytes) (closed : Bool) :
    ((recordHeaderScript first >>= contentScript).waitFor ⟨len :: rest, closed⟩).1.isReturned =
        decide (lengthOctets len ≤ rest.length ∧ contentLength len rest ≤ MAX_CREDSSP_RECORD_LEN ∧
          lengthOctets len + contentLength len rest ≤ rest.length) ∧
      ((recordHeaderScript first >>= contentScript).waitFor ⟨len :: rest, closed⟩).2 =
        if rest.length < lengthOctets len then if closed then 1 + rest.length else 1
        else if MAX_CREDSSP_RECORD_LEN < contentLength len rest then 1 + lengthOctets len
        else if lengthOctets len + contentLength len rest ≤ rest.length then
          1 + lengthOctets len + contentLength len rest
        else if closed then 1 + rest.length else 1 + lengthOctets len := by
  have hone : 1 ≤ (len :: rest).length := Nat.le_add_left ..
  have hscript : recordHeaderScript first >>= contentScript =
      .read 1 fun lenB => lengthScript first lenB >>= contentScript := rfl
  rw [hscript, Script.waitFor_read hone]
  simp only [List.take_succ_cons, List.take_zero, List.drop_succ_cons, List.drop_zero]
  rcases Nat.lt_or_ge len.toNat 128 with hshort | hlong
  · have hoctets : lengthOctets len = 0 := if_pos hshort
    have hlength : contentLength len rest = len.toNat := if_pos hshort
    obtain ⟨hreturned, htaken⟩ := content_waitFor (first ++ [len], len.toNat) ⟨rest, closed⟩
    rw [length_short first hshort, hreturned, htaken, hoctets, hlength]
    refine ⟨by simp, ?_⟩
    simp only [Nat.not_lt_zero, if_false, Nat.zero_add, Nat.add_zero]
    split_ifs <;> rfl
  · have hoctets : lengthOctets len = len.toNat % 128 := if_neg (Nat.not_lt.mpr hlong)
    have hlength : contentLength len rest = beNat (rest.take (len.toNat % 128)) := by
      rw [contentLength, if_neg (Nat.not_lt.mpr hlong), hoctets]
    rw [length_long first hlong, hoctets, hlength]
    rcases Nat.lt_or_ge rest.length (len.toNat % 128) with hnum | hnum
    · obtain ⟨hnot, htaken⟩ : ((Script.read (len.toNat % 128) fun lenExt => contentScript
          (first ++ [len] ++ lenExt, beNat lenExt)).waitFor ⟨rest, closed⟩).1.isReturned = false ∧ _ :=
        Script.waitFor_starved hnum
      rw [hnot, htaken, if_pos hnum]
      refine ⟨by simp [Nat.not_le.mpr hnum], ?_⟩
      split_ifs <;> rfl
    · rw [Script.waitFor_read hnum]
      obtain ⟨hreturned, htaken⟩ := content_waitFor
        (first ++ [len] ++ rest.take (len.toNat % 128), beNat (rest.take (len.toNat % 128)))
        ⟨rest.drop (len.toNat % 128), closed⟩
      dsimp only at hreturned htaken ⊢
      rw [hreturned, htaken, List.length_drop]
      constructor
      · refine decide_eq_decide.mpr ?_
        omega
      · split_ifs <;> omega

theorem sequence_waitFor {tag : UInt8} (hseq : tag = ASN1_SEQUENCE) (rest : Bytes) (closed : Bool) :
    ((recordHeaderScript [tag] >>= contentScript).waitFor ⟨rest, closed⟩).1.isReturned =
        beginsWithRecord (tag :: rest) ∧
      1 + ((recordHeaderScript [tag] >>= contentScript).waitFor ⟨rest, closed⟩).2 =
        taken ⟨tag :: rest, closed⟩ := by
  subst hseq
  rcases rest with _ | ⟨len, rest⟩
  · cases closed <;> exact ⟨rfl, rfl⟩
  · obtain ⟨hreturned, htaken⟩ := header_waitFor [ASN1_SEQUENCE] len rest closed
    have hsize : recordSize (ASN1_SEQUENCE :: len :: rest) =
        if rest.length < lengthOctets len ∨ MAX_CREDSSP_RECORD_LEN < contentLength len rest then none
        else some (2 + lengthOctets len + contentLength len rest) := by simp [recordSize]
    have hlost : lost ⟨ASN1_SEQUENCE :: len :: rest, closed⟩ =
        if rest.length < lengthOctets len then if closed then 2 + rest.length else 2
        else if MAX_CREDSSP_RECORD_LEN < contentLength len rest then 2 + lengthOctets len
        else if closed then 2 + rest.length else 2 + lengthOctets len := by
      unfold lost
      dsimp only
      rw [if_neg (by decide), if_neg (by simp), List.length_cons, List.length_cons, Nat.add_comm 2 rest.length]
    have hbegins : beginsWithRecord (ASN1_SEQUENCE :: len :: rest) =
        decide (lengthOctets len ≤ rest.length ∧ contentLength len rest ≤ MAX_CREDSSP_RECORD_LEN ∧
          lengthOctets len + contentLength len rest ≤ rest.length) := by
      unfold beginsWithRecord
      rw [hsize]
      split_ifs with hnone
      · refine (decide_eq_false ?_).symm
        omega
      · simp only [Option.any_some, List.length_cons]
        refine decide_eq_decide.mpr ?_
        omega
    refine ⟨hreturned.trans hbegins.symm, ?_⟩
    rw [htaken]
    unfold taken
    dsimp only
    rw [hbegins, hlost, hsize]
    simp only [decide_eq_true_eq]
    rcases Decidable.em (lengthOctets len ≤ rest.length ∧ contentLength len rest ≤ MAX_CREDSSP_RECORD_LEN ∧
        lengthOctets len + contentLength len rest ≤ rest.length) with hwhole | hnot
    · obtain ⟨hnum, hmax, hfits⟩ := hwhole
      simp only [hnum, hmax, hfits, Nat.not_lt.mpr hnum, Nat.not_lt.mpr hmax, and_self, or_self, if_true, if_false,
        Option.getD_some]
      omega
    · rw [if_neg hnot]
      split_ifs <;> omega

theorem record_waitFor (s : Stream) :
    (credsspRecordScript.waitFor s).1.isReturned = beginsWithRecord s.bytes ∧
      (credsspRecordScript.waitFor s).2 = taken s := by
  obtain ⟨bytes, closed⟩ := s
  rcases bytes with _ | ⟨tag, rest⟩
  · rcases closed with _ | _ <;> decide
  · have hone : 1 ≤ (tag :: rest).length := Nat.le_add_left ..
    unfold credsspRecordScript
    rw [Script.waitFor_read hone]
    simp only [List.take_succ_cons, List.take_zero, List.drop_succ_cons, List.drop_zero, List.getD_cons_zero]
    rcases eq_or_ne tag.toNat TPKT_VERSION with htpkt | htpkt
    · have hne : tag ≠ ASN1_SEQUENCE := by
        rintro rfl
        exact absurd htpkt (by decide)
      unfold taken lost
      rw [if_pos htpkt, beginsWithRecord_of_ne hne]
      simp only [htpkt, if_true, Bool.false_eq_true, if_false]
      rcases Nat.lt_or_ge rest.length 3 with hlen | hlen
      · obtain ⟨hnot, htaken⟩ : ((Script.read 3 fun _ => .raise .structError :
            Script CredsspError Bytes).waitFor ⟨rest, closed⟩).1.isReturned = false ∧ _ :=
          Script.waitFor_starved hlen
        rw [hnot, htaken, if_pos hlen]
        refine ⟨rfl, ?_⟩
        cases closed <;> simp [Nat.add_comm]
      · rw [Script.waitFor_read hlen, if_neg (Nat.not_lt.mpr hlen)]
        exact ⟨rfl, rfl⟩
    · rw [if_neg htpkt]
      rcases eq_or_ne tag ASN1_SEQUENCE with hseq | hseq
      · rw [if_neg (not_not.mpr hseq)]
        exact sequence_waitFor hseq rest closed
      · unfold taken lost
        rw [if_pos hseq, beginsWithRecord_of_ne hseq]
        simp only [htpkt, hseq, if_false, Bool.false_eq_true, ne_eq, not_false_eq_true, if_true]
        exact ⟨rfl, rfl⟩

/-! ## The login -/

theorem lost_pos {s : Stream} (h : s.bytes ≠ []) : 0 < lost s := by
  obtain ⟨bytes, closed⟩ := s
  rcases bytes with _ | ⟨tag, rest⟩
  · exact absurd rfl h
  · unfold lost
    dsimp only
    rw [List.length_cons]
    rcases rest with _ | ⟨len, rest⟩
    · dsimp only
      split_ifs <;> simp
    · dsimp only
      split_ifs <;> omega

theorem taken_of_begins {s : Stream} (h : beginsWithRecord s.bytes = true) : taken s = (recordSize s.bytes).getD 0 :=
  if_pos h

theorem taken_eq_zero {s : Stream} (hnot : beginsWithRecord s.bytes = false) : taken s = 0 ↔ s.bytes = [] := by
  have htaken : taken s = lost s := if_neg (ne_true_of_eq_false hnot)
  rw [htaken]
  constructor
  · intro hzero
    by_contra hne
    have hpos := lost_pos hne
    omega
  · intro hnil
    unfold lost
    rw [hnil]

theorem readBackendTpkt_taken {s : Stream} {cc : Bytes} {n : Nat}
    (h : readBackendTpkt.waitFor s = (.returned cc, n)) :
    n = beNat (window s.bytes 2 2) := by
  have hreturned : (readBackendTpkt.waitFor s).1.isReturned = true := by rw [h]; rfl
  have htaken : (readBackendTpkt.waitFor s).2 = n := by rw [h]
  unfold readBackendTpkt at hreturned htaken
  rcases Nat.lt_or_ge s.bytes.length 4 with hlen | hlen
  · rw [(Script.waitFor_starved hlen).1] at hreturned
    cases hreturned
  · have hwindow : window (s.bytes.take 4) 2 2 = window s.bytes 2 2 := by
      unfold window
      rw [List.drop_take, List.take_take]
      rfl
    rw [Script.waitFor_read hlen] at hreturned htaken
    dsimp only at hreturned htaken
    rw [hwindow] at hreturned htaken
    split_ifs at hreturned htaken with hversion hsize
    · cases hreturned
    · cases hreturned
    · rcases Nat.lt_or_ge (s.bytes.drop 4).length (beNat (window s.bytes 2 2) - 4) with hshort | hwhole
      · rw [(Script.waitFor_starved (s := ⟨s.bytes.drop 4, s.closed⟩) hshort).1] at hreturned
        cases hreturned
      · rw [Script.waitFor_read (s := ⟨s.bytes.drop 4, s.closed⟩) hwhole] at htaken
        simp only [Script.waitFor] at htaken
        omega

theorem drop_eq_drop_iff {l : Bytes} {m n : Nat} (hm : m ≤ l.length) (hn : n ≤ l.length) :
    l.drop m = l.drop n ↔ m = n := by
  constructor
  · intro h
    have hlen := congrArg List.length h
    rw [List.length_drop, List.length_drop] at hlen
    omega
  · rintro rfl
    rfl

theorem taken_le (s : Stream) : taken s ≤ s.bytes.length := by
  rw [← (record_waitFor s).2]
  exact Script.waitFor_le ..

variable {b : Backend}

theorem from_le (a : Arrived b) {pos : Nat} (h : pos ≤ b.bytes.length) :
    pos + taken (a.from pos) ≤ b.bytes.length := by
  have hle := taken_le (a.from pos)
  have hlength : (a.from pos).bytes.length = min a.count b.bytes.length - pos := by
    unfold Arrived.from
    rw [List.length_drop, List.length_take]
  omega

theorem connectAndAuthenticate_some {env : LoginEnv} {echo post : Arrived b} {c : BackendConnection}
    (h : connectAndAuthenticate env b echo post = some c) :
    let start := challengeEnd b.bytes
    let pos := start + taken (echo.from start)
    let pos' := pos + taken (post.from pos)
    start ≤ b.bytes.length ∧ c = ⟨b.bytes.drop pos', b.bytes.drop
      (if beginsWithRecord (post.from pos).bytes then pos'
        else if beginsWithRecord (echo.from start).bytes then pos else start)⟩ := by
  unfold connectAndAuthenticate at h
  rcases htpkt : readBackendTpkt.waitFor ⟨b.bytes, b.closes⟩ with ⟨cc | _ | _, n₁⟩
  · rw [htpkt] at h
    dsimp only at h
    split at h
    · cases h
    · rcases hchallenge : credsspRecordScript.waitFor ⟨b.bytes.drop n₁, b.closes⟩ with ⟨buff | _ | _, n₂⟩
      · rw [hchallenge] at h
        dsimp only at h
        split at h
        · cases h
        · split at h
          · cases h
          · cases h
            have hn₁ : n₁ ≤ b.bytes.length := by
              have hle := Script.waitFor_le readBackendTpkt ⟨b.bytes, b.closes⟩
              rwa [htpkt] at hle
            have hn₂ : n₂ ≤ b.bytes.length - n₁ := by
              have hle := Script.waitFor_le credsspRecordScript ⟨b.bytes.drop n₁, b.closes⟩
              rwa [hchallenge, List.length_drop] at hle
            have hstart : n₁ + n₂ = challengeEnd b.bytes := by
              obtain ⟨hbegins, htaken⟩ := record_waitFor ⟨b.bytes.drop n₁, b.closes⟩
              rw [hchallenge] at hbegins htaken
              unfold challengeEnd
              dsimp only
              rw [← readBackendTpkt_taken htpkt, ← taken_of_begins (s := ⟨b.bytes.drop n₁, b.closes⟩) hbegins.symm]
              exact congrArg (n₁ + ·) htaken
            simp only [(record_waitFor _).1, (record_waitFor _).2, hstart]
            exact ⟨by omega, trivial⟩
      · rw [hchallenge] at h
        cases h
      · rw [hchallenge] at h
        cases h
  · rw [htpkt] at h
    cases h
  · rw [htpkt] at h
    cases h

/-- What the relay reads begins behind the last record that has been read, exactly where nothing has
been damaged. -/
theorem reader_eq_iff {env : LoginEnv} {echo post : Arrived b} {c : BackendConnection}
    (h : connectAndAuthenticate env b echo post = some c) : c.reader = c.behindLast ↔ Undamaged echo post := by
  obtain ⟨hstart, rfl⟩ := connectAndAuthenticate_some h
  unfold Undamaged NothingOrRecord
  dsimp only
  have hpos := from_le echo hstart
  have hpos' := from_le post hpos
  rw [drop_eq_drop_iff hpos' (by split_ifs <;> omega)]
  rcases hpost : beginsWithRecord (post.from (challengeEnd b.bytes + taken (echo.from (challengeEnd b.bytes)))).bytes
  · have hnone := taken_eq_zero hpost
    rcases hecho : beginsWithRecord (echo.from (challengeEnd b.bytes)).bytes
    · have hnone' := taken_eq_zero hecho
      simp only [Bool.false_eq_true, if_false, or_false]
      rw [← hnone, ← hnone']
      omega
    · simp only [Bool.false_eq_true, if_false, if_true, or_true, or_false, true_and]
      rw [← hnone]
      omega
  · simp

/-! ## An echo in time and a late one -/

def sampleEnv : LoginEnv := ⟨true, fun _ => true, true⟩

/-- A connection confirm, a challenge, an echo of the key, and two bytes for the relay. -/
def sampleBackend : Backend where
  bytes := [3, 0, 0, 7, 2, 0xD0, 0, 0x30, 1, 0xA0, 0x30, 3, 0xA0, 0xA3, 4, 3, 0]
  closes := false

def sampleArrived (count : Nat) (le : count ≤ 17) : Arrived sampleBackend := ⟨count, false, le, by simp⟩

theorem echo_in_time : ∃ c, connectAndAuthenticate sampleEnv sampleBackend (sampleArrived 15 (by decide))
    (sampleArrived 15 (by decide)) = some c ∧ c.reader = c.behindLast ∧ c.reader = [3, 0] := by
  have hconnected : connectAndAuthenticate sampleEnv sampleBackend (sampleArrived 15 (by decide))
      (sampleArrived 15 (by decide)) = some ⟨[3, 0], [3, 0]⟩ := by decide +kernel
  refine ⟨_, hconnected, (reader_eq_iff hconnected).mpr ?_, rfl⟩
  exact Or.inl ⟨Or.inr (by decide +kernel), Or.inl (by decide +kernel)⟩

/-- Two bytes of the echo come before the first deadline and the rest of it before the second one: the
relay begins in the middle of the record. -/
theorem torn_echo : ∃ c, connectAndAuthenticate sampleEnv sampleBackend (sampleArrived 12 (by decide))
    (sampleArrived 15 (by decide)) = some c ∧ c.reader = [0xA3, 4, 3, 0] ∧
      c.behindLast = [0x30, 3, 0xA0, 0xA3, 4, 3, 0] ∧ c.reader ≠ c.behindLast := by
  have hconnected : connectAndAuthenticate sampleEnv sampleBackend (sampleArrived 12 (by decide))
      (sampleArrived 15 (by decide)) = some ⟨[0xA3, 4, 3, 0], [0x30, 3, 0xA0, 0xA3, 4, 3, 0]⟩ := by decide +kernel
  exact ⟨_, hconnected, rfl, rfl, by decide⟩

end RdpProxy.Rdp
