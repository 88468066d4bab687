import RdpProxy.Rdp.Tpkt
import RdpProxy.Relay.ProxyProtocol

/-!
# The address of the client (`_resolve_client_ip` of `services/rdp_relay/handler.py`)

A header is looked for only behind a trusted proxy. Where none is found, the address is that of
the TCP peer; the bytes that were read to find out are gone.
-/

open Words Ber Text StreamReader

namespace RdpProxy.Relay.ClientIp

open Rdp

/-! ## The source -/

structure RdpRelayConfig where
  proxyProtocol : Bool
  trustedProxies : List (List Char)

variable (cfg : RdpRelayConfig) (peername : Option (List Char)) (s : Stream)

/-- `_is_trusted_proxy`. A text that is no network is skipped. -/
def isTrustedProxy (ipStr : List Char) : Bool :=
  match IpAddress.ipAddress ipStr with
  | none => false
  | some addr =>
    cfg.trustedProxies.any fun netStr =>
      match IpAddress.ipNetwork netStr with
      | none => false
      | some net => net.contains addr

/-- The first member of `peername`, where that is a tuple with one. -/
def peerIp : List Char := peername.getD "unknown".toList

def resolveClientIp : Reader TpktError (List Char) :=
  if cfg.proxyProtocol ∧ isTrustedProxy cfg (peerIp peername) then do
    match ← attempt readProxyProtocol with
    | .ok info => pure info.srcAddr
    | .error _ => pure (peerIp peername)
  else pure (peerIp peername)

/-! ## What is left behind a header that was not there -/

theorem readLine_advances (room : Nat) (buf : Bytes) : Advances (readLine room buf) := by
  induction room generalizing buf with
  | zero =>
    unfold readLine
    split_ifs
    · exact Advances.pure buf
    · exact (readexactly_advances 1).bind fun _ => Advances.raise _
  | succ room ih =>
    unfold readLine
    split_ifs
    · exact Advances.pure buf
    · exact (readexactly_advances 1).bind fun chunk => ih (buf ++ chunk)

theorem parseV1_advances (initial : Bytes) : Advances (parseV1 initial) :=
  (readLine_advances _ initial).bind fun _ => Advances.ofExcept _

theorem parseV2_advances (initial : Bytes) : Advances (parseV2 initial) := by
  unfold parseV2
  refine (readexactly_advances 3).bind fun more => ?_
  simp only
  split_ifs
  · exact (readexactly_advances _).bind fun _ => Advances.ofExcept _
  · exact (Advances.pure _).bind fun _ => Advances.ofExcept _

theorem readProxyProtocol_rest {rest : Stream} (h : (readProxyProtocol s).rest = some rest) :
    rest = s ↔ s.bytes = [] := by
  refine readexactly_bind_rest (by decide) (fun peeked => ?_) h
  split_ifs
  · exact parseV2_advances peeked
  · exact parseV1_advances peeked
  · exact Advances.raise _

/-! ## Falling back -/

def TrustedPeer : Prop := cfg.proxyProtocol = true ∧ isTrustedProxy cfg (peerIp peername) = true

def HeaderParsed : Prop := TrustedPeer cfg peername ∧ ∃ info rest, readProxyProtocol s = .returned info rest

/-- Without a header from a trusted peer, the call and the frame read after it are as they are
with `proxy_protocol` off. -/
def FallsBack : Prop :=
  ¬ HeaderParsed cfg peername s → ∀ ip rest, resolveClientIp cfg peername s = .returned ip rest →
    ip = peerIp peername ∧ rest = s ∧
      (resolveClientIp cfg peername >>= fun _ => readTpkt []) s =
        (resolveClientIp { cfg with proxyProtocol := false } peername >>= fun _ => readTpkt []) s

variable {cfg peername s}

theorem resolveClientIp_untrusted (h : ¬ TrustedPeer cfg peername) :
    resolveClientIp cfg peername s = .returned (peerIp peername) s := by
  have hpure : resolveClientIp cfg peername = pure (peerIp peername) := if_neg h
  rw [hpure]
  rfl

theorem resolveClientIp_off :
    resolveClientIp { cfg with proxyProtocol := false } peername s = .returned (peerIp peername) s := by
  refine resolveClientIp_untrusted ?_
  rintro ⟨hoff, -⟩
  cases hoff

theorem resolveClientIp_trusted (h : TrustedPeer cfg peername) : resolveClientIp cfg peername s =
    match readProxyProtocol s with
    | .returned info rest => .returned info.srcAddr rest
    | .raised _ rest => .returned (peerIp peername) rest
    | .waiting => .waiting := by
  have hread : resolveClientIp cfg peername = attempt readProxyProtocol >>= fun r =>
      match r with
      | .ok info => pure info.srcAddr
      | .error _ => pure (peerIp peername) := if_pos h
  rw [hread, bind_apply]
  unfold attempt
  rcases readProxyProtocol s with ⟨info, rest⟩ | ⟨e, rest⟩ | _ <;> rfl

theorem readProxyProtocol_frame {rest : Bytes} (hversion : s.bytes = UInt8.ofNat TPKT_VERSION :: rest)
    (hlen : 12 ≤ rest.length) : readProxyProtocol s = .raised (.own .notAHeader) ⟨rest.drop 12, s.closed⟩ := by
  have hfirst : (readexactly 13 : PpReader Bytes) s =
      .returned (UInt8.ofNat TPKT_VERSION :: rest.take 12) ⟨rest.drop 12, s.closed⟩ := by
    unfold readexactly
    rw [hversion, if_pos (by simpa using hlen)]
    rfl
  unfold readProxyProtocol
  rw [bind_apply, hfirst]
  simp only
  rw [if_neg, if_neg]
  · rfl
  · intro hsame
    have hhead := congrArg List.head? hsame
    cases hhead
  · intro hsame
    have hhead := congrArg List.head? hsame
    cases hhead

theorem fallsBack_of_untouched (h : ∀ ip rest, ¬ HeaderParsed cfg peername s →
    resolveClientIp cfg peername s = .returned ip rest → ip = peerIp peername ∧ rest = s) :
    FallsBack cfg peername s := by
  intro hnone ip rest hcall
  obtain ⟨rfl, rfl⟩ := h ip rest hnone hcall
  refine ⟨rfl, rfl, ?_⟩
  rw [bind_apply, bind_apply, hcall, resolveClientIp_off]

theorem FallsBack.empty (h : FallsBack cfg peername s) (htrusted : TrustedPeer cfg peername)
    (hraises : Raises readProxyProtocol s) : s.bytes = [] := by
  obtain ⟨e, rest, hraised⟩ := hraises
  have hcall := resolveClientIp_trusted (s := s) htrusted
  rw [hraised] at hcall
  have hnone : ¬ HeaderParsed cfg peername s := by
    rintro ⟨-, info, rest', hreturned⟩
    rw [hraised] at hreturned
    cases hreturned
  obtain ⟨-, hrest, -⟩ := h hnone _ _ hcall
  have hleft : (readProxyProtocol s).rest = some rest := by
    rw [hraised]
    rfl
  exact (readProxyProtocol_rest s hleft).mp hrest

/-- The fallback leaves the stream alone unless a trusted peer has sent something that is no header,
or has ended within one. -/
theorem fallsBack_iff (cfg : RdpRelayConfig) (peername : Option (List Char)) (s : Stream) :
    FallsBack cfg peername s ↔ ¬ (TrustedPeer cfg peername ∧ s.bytes ≠ [] ∧
      (Malformed s.bytes ∨ s.closed = true ∧ Unfinished s.bytes)) := by
  rw [← raises_readProxyProtocol]
  constructor
  · rintro h ⟨htrusted, hne, hraises⟩
    exact hne (h.empty htrusted hraises)
  · intro h
    refine fallsBack_of_untouched ?_
    intro ip rest hnone hcall
    by_cases htrusted : TrustedPeer cfg peername
    · rw [resolveClientIp_trusted htrusted] at hcall
      rcases hparse : readProxyProtocol s with ⟨info, rest'⟩ | ⟨e, rest'⟩ | _
      · exact absurd ⟨htrusted, info, rest', hparse⟩ hnone
      · rw [hparse] at hcall
        cases hcall
        have hleft : (readProxyProtocol s).rest = some rest := by
          rw [hparse]
          rfl
        have hempty : s.bytes = [] := by
          by_contra hne
          exact h ⟨htrusted, hne, e, rest, hparse⟩
        exact ⟨rfl, (readProxyProtocol_rest s hleft).mpr hempty⟩
      · rw [hparse] at hcall
        cases hcall
    · rw [resolveClientIp_untrusted htrusted] at hcall
      cases hcall
      exact ⟨rfl, rfl⟩

theorem request_not_fallen_back :
    ¬ FallsBack ⟨true, ["10.0.0.0/8".toList]⟩ (some "10.0.0.5".toList)
      ⟨[3, 0, 0, 19, 14, 0xE0, 0, 0, 0, 0, 0, 1, 0, 8, 0, 1, 0, 0, 0], false⟩ := by
  intro h
  have hempty := h.empty ⟨rfl, by decide +kernel⟩ ⟨_, _, readProxyProtocol_frame rfl (by decide)⟩
  cases hempty

end RdpProxy.Relay.ClientIp
