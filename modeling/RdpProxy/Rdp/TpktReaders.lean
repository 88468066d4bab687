import RdpProxy.Rdp.BackendLogin

/-!
# The three readers of TPKT frames

`read_tpkt`, `_read_tpkt` and the TPKT branch of `_read_credssp_record`, in front of one frame.
-/

open Words Ber StreamReader

namespace RdpProxy.Rdp

/-- Each reader returns the payload and leaves the tail. `read_tpkt` is given the beginning of the frame. -/
structure ReadersAgree (frame payload tail : Bytes) (closed : Bool) : Prop where
  tpkt : ∀ initial rest, initial ++ rest = frame →
    readTpkt initial ⟨rest ++ tail, closed⟩ = .returned payload ⟨tail, closed⟩
  backend : readBackendTpkt.reader ⟨frame ++ tail, closed⟩ = .returned payload ⟨tail, closed⟩
  credssp : readCredsspRecord ⟨frame ++ tail, closed⟩ = .returned payload ⟨tail, closed⟩

variable {payload tail initial rest : Bytes} {closed : Bool}

/-! ## The header -/

theorem tpktHeader_length (payload : Bytes) : (tpktHeader payload).length = 4 := by
  unfold tpktHeader
  rw [List.length_append, beBytes_length]
  rfl

theorem tpktHeader_version (payload : Bytes) : ((tpktHeader payload).getD 0 0).toNat = TPKT_VERSION := rfl

theorem tpktHeader_totalLen (h : payload.length ≤ 65531) :
    beNat (window (tpktHeader payload) 2 2) = payload.length + 4 := by
  have hwindow : window (tpktHeader payload) 2 2 = beBytes 2 (payload.length + 4) :=
    List.take_of_length_le (by rw [List.length_drop, tpktHeader_length])
  rw [hwindow, beNat_beBytes (by omega)]

/-! ## `read_tpkt` -/

theorem readTpkt_of_header {header : Bytes} (h : 4 ≤ header.length) : readTpkt header =
    if (header.getD 0 0).toNat ≠ TPKT_VERSION then raise .invalidVersion
    else if beNat (window header 2 2) < 4 then raise .negativeSize
    else readexactly (beNat (window header 2 2) - 4) := by
  unfold readTpkt
  rw [if_neg (by omega)]
  rfl

theorem readTpkt_tpktHeader (h : payload.length ≤ 65531) :
    readTpkt (tpktHeader payload) = readexactly payload.length := by
  rw [readTpkt_of_header (by rw [tpktHeader_length]), tpktHeader_version, if_neg (by simp), tpktHeader_totalLen h,
    if_neg (by omega), Nat.add_sub_cancel]

theorem readTpkt_append {header : Bytes} (more : Bytes) (h : header.length = 4) :
    readTpkt (header ++ more) = readTpkt header := by
  rw [readTpkt_of_header (by rw [List.length_append]; omega), readTpkt_of_header (by omega),
    window_append_left (by omega)]
  have hversion : (header ++ more).getD 0 0 = header.getD 0 0 := by
    rw [List.getD_eq_getElem?_getD, List.getD_eq_getElem?_getD, List.getElem?_append_left (by omega)]
  rw [hversion]

theorem readTpkt_rest {more : Bytes} (h : (initial ++ more).length = 4) (s : Bytes) :
    readTpkt initial ⟨more ++ s, closed⟩ = readTpkt (initial ++ more) ⟨s, closed⟩ := by
  have hlength : initial.length + more.length = 4 := by rwa [List.length_append] at h
  by_cases hmore : initial.length < 4
  · have hreads : Reads (readexactly (4 - initial.length) : Reader TpktError Bytes) more more :=
      readexactly_reads (by omega)
    have hread := hreads s closed
    have hwhole : 4 ≤ (initial ++ more).length := by omega
    rw [readTpkt_of_header hwhole]
    unfold readTpkt
    rw [if_pos hmore, bind_apply, hread]
    rfl
  · rw [List.length_eq_zero_iff.mp (show more.length = 0 by omega), List.append_nil, List.nil_append]

theorem readTpkt_within_header (h : payload.length ≤ 65531)
    (hframe : initial ++ rest = tpktHeader payload ++ payload) (hinitial : initial.length ≤ 4) :
    readTpkt initial ⟨rest ++ tail, closed⟩ = .returned payload ⟨tail, closed⟩ := by
  have hprefix : initial <+: tpktHeader payload :=
    List.prefix_of_prefix_length_le ⟨rest, hframe⟩ (List.prefix_append ..) (by rwa [tpktHeader_length])
  obtain ⟨more, hmore⟩ := hprefix
  have hrest : rest = more ++ payload := by
    rw [← hmore, List.append_assoc] at hframe
    exact List.append_cancel_left hframe
  rw [hrest, List.append_assoc, readTpkt_rest (by rw [hmore, tpktHeader_length]), hmore, readTpkt_tpktHeader h]
  exact readexactly_reads rfl tail closed

/-- Bytes of the payload that have been handed over are missing, and as many of the tail are read for them. -/
theorem readTpkt_beyond_header (h : payload.length ≤ 65531)
    (hframe : initial ++ rest = tpktHeader payload ++ payload) (hinitial : 4 < initial.length) :
    readTpkt initial ⟨rest ++ tail, closed⟩ ≠ .returned payload ⟨tail, closed⟩ := by
  have hprefix : tpktHeader payload <+: initial :=
    List.prefix_of_prefix_length_le (List.prefix_append _ payload) ⟨rest, hframe⟩ (by rw [tpktHeader_length]; omega)
  obtain ⟨more, rfl⟩ := hprefix
  have hpayload : more ++ rest = payload := by
    rw [List.append_assoc] at hframe
    exact List.append_cancel_left hframe
  have hmore : 0 < more.length := by
    rw [List.length_append, tpktHeader_length] at hinitial
    omega
  have hlength := congrArg List.length hpayload
  rw [List.length_append] at hlength
  rw [readTpkt_append more (tpktHeader_length payload), readTpkt_tpktHeader h]
  intro hreturned
  unfold readexactly at hreturned
  split_ifs at hreturned with hlong
  · have htail := congrArg (fun o : Outcome TpktError Bytes => o.rest.map fun s => s.bytes.length) hreturned
    simp only [Outcome.rest, Option.map_some, List.length_drop, List.length_append, Option.some.injEq] at htail
    simp only [List.length_append] at hlong
    omega

/-! ## The readers of the backend -/

theorem readBackendTpkt_frame (h : payload.length ≤ 65531) :
    readBackendTpkt.reader ⟨tpktHeader payload ++ payload ++ tail, closed⟩ = .returned payload ⟨tail, closed⟩ := by
  have hheader := readexactly_reads (E := TpktError) (tpktHeader_length payload) (payload ++ tail) closed
  unfold readBackendTpkt
  rw [Script.reader, bind_apply, List.append_assoc, hheader]
  dsimp only
  rw [tpktHeader_version, if_neg (by simp), tpktHeader_totalLen h, if_neg (by omega), Nat.add_sub_cancel, Script.reader]
  exact (readexactly_reads rfl).bind_pure (Reads.pure payload) tail closed

theorem readCredsspRecord_frame (s : Bytes) :
    readCredsspRecord ⟨tpktHeader payload ++ s, closed⟩ = .raised (.own .structError) ⟨s, closed⟩ := by
  have hversion : Reads (readexactly 1 : Reader CredsspError Bytes) [3] [3] := readexactly_reads rfl
  have hthree : Reads (readexactly 3 : Reader CredsspError Bytes) ((tpktHeader payload).drop 1)
      ((tpktHeader payload).drop 1) := readexactly_reads (by rw [List.length_drop, tpktHeader_length])
  have hfirst := hversion ((tpktHeader payload).drop 1 ++ s) closed
  have hrest := hthree s closed
  have hsplit : tpktHeader payload ++ s = [3] ++ ((tpktHeader payload).drop 1 ++ s) := rfl
  unfold readCredsspRecord
  rw [hsplit, bind_apply, hfirst]
  show (readexactly 3 >>= fun _ => raise CredsspError.structError) ⟨(tpktHeader payload).drop 1 ++ s, closed⟩ = _
  rw [bind_apply, hrest]
  rfl

/-- In front of no frame do the three readers agree. `_read_tpkt` reads every frame, `read_tpkt` those of which
it has been given no more than the header, and `_read_credssp_record` none. -/
theorem tpkt_readers (payload tail : Bytes) (closed : Bool) (h : payload.length ≤ 65531) :
    ∃ frame, buildTpkt payload = some frame ∧ ¬ ReadersAgree frame payload tail closed ∧
      (∀ initial rest, initial ++ rest = frame →
        (readTpkt initial ⟨rest ++ tail, closed⟩ = .returned payload ⟨tail, closed⟩ ↔ initial.length ≤ 4)) ∧
      readBackendTpkt.reader ⟨frame ++ tail, closed⟩ = .returned payload ⟨tail, closed⟩ ∧
      readCredsspRecord ⟨frame ++ tail, closed⟩ = .raised (.own .structError) ⟨payload ++ tail, closed⟩ := by
  have hcredssp : readCredsspRecord ⟨tpktHeader payload ++ payload ++ tail, closed⟩ =
      .raised (.own .structError) ⟨payload ++ tail, closed⟩ := by
    rw [List.append_assoc]
    exact readCredsspRecord_frame (payload ++ tail)
  refine ⟨tpktHeader payload ++ payload, if_pos (by omega), fun hagree => ?_, fun initial rest hframe => ?_,
    readBackendTpkt_frame h, hcredssp⟩
  · have hreturned := hagree.credssp
    rw [hcredssp] at hreturned
    cases hreturned
  · constructor
    · intro hreturned
      by_contra hinitial
      exact readTpkt_beyond_header h hframe (by omega) hreturned
    · exact readTpkt_within_header h hframe

theorem tpkt_readers_three : ∃ frame, buildTpkt [1, 2, 3] = some frame ∧ ¬ ReadersAgree frame [1, 2, 3] [9] false :=
  let ⟨frame, hframe, hagree, _⟩ := tpkt_readers [1, 2, 3] [9] false (by decide)
  ⟨frame, hframe, hagree⟩

/-- The negotiation response of a backend without TLS. Given five bytes of it, `read_tpkt` waits for one more. -/
theorem confirm_unread : ∃ frame, buildTpkt [6, 0xD0, 0, 0, 0, 0, 0] = some frame ∧
    ¬ ReadersAgree frame [6, 0xD0, 0, 0, 0, 0, 0] [] false ∧
    readTpkt (frame.take 5) ⟨frame.drop 5, false⟩ = .waiting ∧
    readCredsspRecord ⟨frame, false⟩ = .raised (.own .structError) ⟨frame.drop 4, false⟩ := by
  refine ⟨_, rfl, fun hagree => ?_, rfl, rfl⟩
  cases hagree.credssp

end RdpProxy.Rdp
