import RdpProxy.Config.SessionTtl
import RdpProxy.Relay.ConnectionLimit

/-!
# Listening for settings (`_settings_listener`)

The loops of the relay and of the portal are each inside one `try`: the first turn that raises is the last one.
-/

open Steps

namespace RdpProxy.Config

variable {N σ : Type}

/-! ## One turn -/

/-- What the services share, with the constructors that may raise. -/
structure Libraries (N : Type) extends Installation N where
  dnsResolver : Setting Json → Bool
  ldapAuthenticator : Setting Json → Bool

def Held.of (s : Settings Json) : Held := ⟨s.cache, s.loadedAt, s.seeded⟩

/-- How `settings_mgr.load` ends, with the rows that it finds. An exception comes before the cache is replaced,
or behind it: when the session is closed, or when the YAML password is encrypted. -/
inductive Loading where
  | done (rows : String → Option (RowValue Json)) (l : Load)
  | raisedEarly
  | raisedLate (rows : String → Option (RowValue Json)) (now : Int)

inductive Turn where
  /-- `get_message` returns nothing, or no message of the channel. -/
  | noMessage
  | redisRaises
  | message (loading : Loading)

structure Process (σ : Type) where
  held : Held
  service : σ
  listening : Bool

/-- What a listener does behind `load`, and whether that comes to its end. -/
structure Listener (lib : Libraries N) (σ : Type) where
  install : σ → Settings Json → σ × Bool
  /-- Whether the constructors take what has been loaded. -/
  accepts : Settings Json → Bool
  InForce : Held → σ → Settings Json → Prop
  ttls : σ → Ttls
  install_accepts : ∀ r s, (install r s).2 = accepts s
  install_inForce : ∀ r s, accepts s = true → InForce (.of s) (install r s).1 s
  accepts_congr : ∀ s s', (∀ k ∈ ["ldap", "dns", "relay"], s.cache k = s'.cache k) → accepts s = accepts s'
  inForce_webTtl : ∀ h r s, InForce h r s → (s.redisTtl lib.backing).get? "web_session_ttl" = some (ttls r).webTtl

namespace Process

variable {lib : Libraries N} (L : Listener lib σ)

def reloaded (lib : Libraries N) (p : Process σ) (rows : String → Option (RowValue Json)) (l : Load) : Settings Json :=
  lib.load l (p.held.on rows)

/-- A turn of the loop in `_settings_listener`. -/
def turn (p : Process σ) : Turn → Process σ
  | .noMessage => p
  | .redisRaises => { p with listening := false }
  | .message loading =>
    if p.listening then
      match loading with
      | .done rows l =>
        let s := p.reloaded lib rows l
        let (service, ended) := L.install p.service s
        ⟨.of s, service, ended⟩
      | .raisedEarly => { p with listening := false }
      | .raisedLate rows now => { p with held := .of ((p.held.on rows).refresh now), listening := false }
    else p

def step (p : Process σ) (t : Turn) : Option (Process σ) := some (p.turn L t)

/-- The next notification whose reload succeeds brings its settings into force. -/
def HotReloads (p : Process σ) : Prop :=
  ∀ rows l, L.accepts (p.reloaded lib rows l) = true →
    let p' := p.turn L (.message (.done rows l))
    L.InForce p'.held p'.service (p.reloaded lib rows l)

/-- No call of the turn raises. -/
def Quiet (p : Process σ) : Turn → Prop
  | .noMessage => True
  | .message (.done rows l) => L.accepts (p.reloaded lib rows l) = true
  | _ => False

end Process

/-! ## The relay -/

/-- What `_settings_listener` of the relay installs. The handler looks up LDAP in the manager. -/
structure RelayService where
  dns : Setting Json
  ttls : Ttls
  idleTimeout : Json
  maxSessionDuration : Json
  limiter : Relay.Limiter

namespace RelayService

variable (lib : Libraries N)

/-- The difference of two limits is a `TypeError` where one is no number. -/
def install (r : RelayService) (s : Settings Json) : RelayService × Bool :=
  let dnsCfg := s.dns lib.backing
  if lib.dnsResolver dnsCfg then
    let ttl := s.redisTtl lib.backing
    let rp := s.relayParams lib.backing
    let r' := { r with
      dns := dnsCfg
      ttls := r.ttls.update ttl.get?
      idleTimeout := (rp.get? "idle_timeout").getD r.idleTimeout
      maxSessionDuration := (rp.get? "max_session_duration").getD r.maxSessionDuration }
    match rp.get? "max_connections" with
    | none => (r', true)
    | some (.int newMax) => ({ r' with limiter := r.limiter.settingsListener newMax }, true)
    | some _ => (r', false)
  else (r, false)

def accepts (s : Settings Json) : Bool :=
  lib.dnsResolver (s.dns lib.backing) &&
    match (s.relayParams lib.backing).get? "max_connections" with
    | some (.int _) => true
    | _ => false

structure InForce (h : Held) (r : RelayService) (s : Settings Json) : Prop where
  ldap : (h.on fun _ => none).ldap lib.backing = s.ldap lib.backing
  dns : r.dns = s.dns lib.backing
  webTtl : (s.redisTtl lib.backing).get? "web_session_ttl" = some r.ttls.webTtl
  rdpTokenTtl : (s.redisTtl lib.backing).get? "rdp_token_ttl" = some r.ttls.rdpTokenTtl
  webIdleTtl : (s.redisTtl lib.backing).get? "web_idle_ttl" = some r.ttls.webIdleTtl
  idleTimeout : (s.relayParams lib.backing).get? "idle_timeout" = some r.idleTimeout
  maxSessionDuration : (s.relayParams lib.backing).get? "max_session_duration" = some r.maxSessionDuration
  connLimit : (s.relayParams lib.backing).get? "max_connections" = some (.int r.limiter.connLimit)

end RelayService

/-- The start of `run_server`, where nothing raises. `asyncio.Semaphore` takes no negative value. -/
def runServer (lib : Libraries N) (rows : String → Option (RowValue Json)) (l : Load) :
    Option (Process RelayService) :=
  let s := lib.load l (Held.fresh.on rows)
  let ttl := s.redisTtl lib.backing
  let rp := s.relayParams lib.backing
  if lib.dnsResolver (s.dns lib.backing) then
    match (rp.get? "max_connections").getD lib.base.maxConnections with
    | .int (.ofNat maxConn) => some
      { held := .of s
        service :=
          { dns := s.dns lib.backing
            ttls := lib.yamlTtls.update ttl.get?
            idleTimeout := (rp.get? "idle_timeout").getD lib.base.idleTimeout
            maxSessionDuration := (rp.get? "max_session_duration").getD lib.base.maxSessionDuration
            limiter := .initial maxConn }
        listening := true }
    | _ => none
  else none

/-! ## The portal -/

/-- What `_settings_listener` of the portal installs. -/
structure PortalService where
  /-- The settings of `ldap_auth`. -/
  ldap : Option (Setting Json)
  ttls : Ttls

namespace PortalService

variable (lib : Libraries N)

def accepts (s : Settings Json) : Bool := (s.ldap lib.backing).all lib.ldapAuthenticator

def install (r : PortalService) (s : Settings Json) : PortalService × Bool :=
  if (s.ldap lib.backing).all lib.ldapAuthenticator then
    (⟨s.ldap lib.backing, r.ttls.update (s.redisTtl lib.backing).get?⟩, true)
  else (r, false)

structure InForce (r : PortalService) (s : Settings Json) : Prop where
  ldap : r.ldap = s.ldap lib.backing
  webTtl : (s.redisTtl lib.backing).get? "web_session_ttl" = some r.ttls.webTtl
  rdpTokenTtl : (s.redisTtl lib.backing).get? "rdp_token_ttl" = some r.ttls.rdpTokenTtl
  webIdleTtl : (s.redisTtl lib.backing).get? "web_idle_ttl" = some r.ttls.webIdleTtl

end PortalService

/-- `_bootstrap` of the portal, where nothing raises. -/
def bootstrap (lib : Libraries N) (rows : String → Option (RowValue Json)) (l : Load) :
    Option (Process PortalService) :=
  let s := lib.load l (Held.fresh.on rows)
  if (s.ldap lib.backing).all lib.ldapAuthenticator then
    some ⟨.of s, ⟨s.ldap lib.backing, lib.yamlTtls.update (s.redisTtl lib.backing).get?⟩, true⟩
  else none

/-! ## What a reload installs -/

variable {lib : Libraries N}

theorem settingsListener_connLimit (limiter : Relay.Limiter) (newMax : Int) :
    (limiter.settingsListener newMax).connLimit = newMax := by
  unfold Relay.Limiter.settingsListener
  split
  · dsimp only
    split_ifs
    · rw [Relay.Limiter.repeat_release]
    · rfl
  · rename_i hsame
    exact (not_not.mp hsame).symm

variable (lib) in
theorem update_redisTtl (t : Ttls) (s : Settings Json) :
    let t' := t.update (s.redisTtl lib.backing).get?
    (s.redisTtl lib.backing).get? "web_session_ttl" = some t'.webTtl ∧
      (s.redisTtl lib.backing).get? "rdp_token_ttl" = some t'.rdpTokenTtl ∧
      (s.redisTtl lib.backing).get? "web_idle_ttl" = some t'.webIdleTtl := ⟨rfl, rfl, rfl⟩

variable (lib) in
theorem relayParams_some (s : Settings Json) :
    ∃ limit idle duration, (s.relayParams lib.backing).get? "max_connections" = some limit ∧
      (s.relayParams lib.backing).get? "idle_timeout" = some idle ∧
      (s.relayParams lib.backing).get? "max_session_duration" = some duration :=
  ⟨_, _, _, rfl, rfl, rfl⟩

namespace RelayService

theorem install_accepts (r : RelayService) (s : Settings Json) : (install lib r s).2 = accepts lib s := by
  obtain ⟨limit, idle, duration, hlimit, _⟩ := relayParams_some lib s
  unfold install accepts
  dsimp only
  rw [hlimit]
  rcases lib.dnsResolver (s.dns lib.backing) with _ | _
  · rfl
  · rcases limit with _ | _ | _ | _ | _ | _ | _ <;> rfl

theorem install_inForce (r : RelayService) (s : Settings Json) (h : accepts lib s = true) :
    InForce lib (.of s) (install lib r s).1 s := by
  obtain ⟨limit, idle, duration, hlimit, hidle, hduration⟩ := relayParams_some lib s
  obtain ⟨hweb, hrdp, hweb'⟩ := update_redisTtl lib r.ttls s
  unfold accepts at h
  rw [Bool.and_eq_true, hlimit] at h
  obtain ⟨hdns, hint⟩ := h
  unfold install
  dsimp only
  rw [if_pos hdns, hlimit]
  rcases limit with _ | _ | n | _ | _ | _ | _
  case int =>
    refine ⟨rfl, rfl, hweb, hrdp, hweb', ?_, ?_, ?_⟩
    · rw [hidle]
      rfl
    · rw [hduration]
      rfl
    · rw [hlimit, settingsListener_connLimit]
  all_goals cases hint

theorem accepts_congr (s s' : Settings Json) (h : ∀ k ∈ ["ldap", "dns", "relay"], s.cache k = s'.cache k) :
    accepts lib s = accepts lib s' := by
  have hdns : s.dns lib.backing = s'.dns lib.backing := by
    unfold Settings.dns
    rw [h "dns" (by decide)]
  have hrelay : s.relayParams lib.backing = s'.relayParams lib.backing := by
    unfold Settings.relayParams
    rw [h "relay" (by decide)]
  unfold accepts
  rw [hdns, hrelay]

end RelayService

def relayListener (lib : Libraries N) : Listener lib RelayService where
  install := RelayService.install lib
  accepts := RelayService.accepts lib
  InForce := RelayService.InForce lib
  ttls := RelayService.ttls
  install_accepts := RelayService.install_accepts
  install_inForce := RelayService.install_inForce
  accepts_congr := RelayService.accepts_congr
  inForce_webTtl := fun _ _ _ h => h.webTtl

namespace PortalService

theorem install_accepts (r : PortalService) (s : Settings Json) : (install lib r s).2 = accepts lib s := by
  unfold install accepts
  split
  · rename_i h
    exact h.symm
  · rename_i h
    exact (Bool.eq_false_iff.mpr h).symm

theorem install_inForce (r : PortalService) (s : Settings Json) (h : accepts lib s = true) :
    InForce lib (install lib r s).1 s := by
  obtain ⟨hweb, hrdp, hidle⟩ := update_redisTtl lib r.ttls s
  unfold accepts at h
  unfold install
  rw [if_pos h]
  exact ⟨rfl, hweb, hrdp, hidle⟩

theorem accepts_congr (s s' : Settings Json) (h : ∀ k ∈ ["ldap", "dns", "relay"], s.cache k = s'.cache k) :
    accepts lib s = accepts lib s' := by
  have hldap : s.ldap lib.backing = s'.ldap lib.backing := by
    unfold Settings.ldap
    rw [h "ldap" (by decide)]
  unfold accepts
  rw [hldap]

end PortalService

def portalListener (lib : Libraries N) : Listener lib PortalService where
  install := PortalService.install lib
  accepts := PortalService.accepts lib
  InForce := fun _ => PortalService.InForce lib
  ttls := PortalService.ttls
  install_accepts := PortalService.install_accepts
  install_inForce := fun r s => PortalService.install_inForce r s
  accepts_congr := PortalService.accepts_congr
  inForce_webTtl := fun _ _ _ h => h.webTtl

/-! ## Runs -/

namespace Process

variable {L : Listener lib σ} {p p' : Process σ}

/-- The manager has been loaded before, and some settings are known to be accepted. -/
structure Started (L : Listener lib σ) (p : Process σ) : Prop where
  seeded : p.held.seeded = true
  accepted : ∃ s, L.accepts s = true

theorem load_seeded (s : Settings Json) (l : Load) : (lib.load l s).seeded = true := by
  unfold Installation.load Settings.loadReaching
  split
  · rename_i h
    exact h
  · rfl

theorem turn_started (h : Started L p) (t : Turn) : Started L (p.turn L t) := by
  obtain ⟨hseeded, haccepted⟩ := h
  refine ⟨?_, haccepted⟩
  rcases t with _ | _ | loading
  · exact hseeded
  · exact hseeded
  · unfold turn
    dsimp only
    split
    · rcases loading with ⟨rows, l⟩ | _ | ⟨rows, now⟩
      · exact load_seeded _ l
      · exact hseeded
      · exact hseeded
    · exact hseeded

theorem exists_other (h : Started L p) (x : Json) : ∃ rows l, L.accepts (p.reloaded lib rows l) = true ∧
    ((p.reloaded lib rows l).redisTtl lib.backing).get? "web_session_ttl" ≠ some x := by
  obtain ⟨hseeded, s, hs⟩ := h
  obtain ⟨n, hn⟩ : ∃ n, Json.int n ≠ x := by
    rcases x with _ | _ | m | _ | _ | _ | _
    case int => exact ⟨m + 1, fun he => absurd (Json.int.inj he) (by omega)⟩
    all_goals exact ⟨0, fun he => by cases he⟩
  let rows (k : String) : Option (RowValue Json) :=
    if k = "redis_ttl" then some (.dict (.ofList [("web_session_ttl", .int n)])) else (s.cache k).map .dict
  have hload : p.reloaded lib rows ⟨0, .null, fun _ => true⟩ = (p.held.on rows).refresh 0 := by
    unfold reloaded Installation.load Settings.loadReaching
    exact if_pos hseeded
  refine ⟨rows, ⟨0, .null, fun _ => true⟩, ?_, ?_⟩
  · rw [hload]
    refine (L.accepts_congr _ s fun k hk => ?_).trans hs
    have hne : k ≠ "redis_ttl" ∧ k ≠ "proxy" := by
      simp only [List.mem_cons, List.not_mem_nil, or_false] at hk
      rcases hk with rfl | rfl | rfl <;> decide
    have hrow : rows k = (s.cache k).map .dict := if_neg hne.1
    show loadedRow k (rows k) = s.cache k
    rw [hrow]
    rcases s.cache k with _ | d
    · rfl
    · exact congrArg some (if_neg fun h => hne.2 h.1)
  · rw [hload]
    intro hsame
    exact hn (Option.some.inj hsame)

theorem hotReloads_iff (h : Started L p) : p.HotReloads L ↔ p.listening = true := by
  constructor
  · intro hreloads
    by_contra hleft
    obtain ⟨rows, l, haccepts, hother⟩ := exists_other h (L.ttls p.service).webTtl
    have hinForce := L.inForce_webTtl _ _ _ (hreloads rows l haccepts)
    have hsame : p.turn L (.message (.done rows l)) = p := if_neg hleft
    rw [hsame] at hinForce
    exact hother hinForce
  · intro hlistening rows l haccepts
    have hturn : p.turn L (.message (.done rows l)) = _ := if_pos hlistening
    rw [hturn]
    exact L.install_inForce p.service _ haccepts

theorem turn_listening_iff (h : p.listening = true) (t : Turn) : (p.turn L t).listening = true ↔ Quiet L p t := by
  rcases t with _ | _ | loading
  · exact iff_of_true h trivial
  · exact iff_of_false (by simp [turn]) id
  · unfold turn
    dsimp only
    rw [if_pos h]
    rcases loading with ⟨rows, l⟩ | _ | ⟨rows, now⟩
    · have hended := L.install_accepts p.service (p.reloaded lib rows l)
      exact Iff.of_eq (congrArg (· = true) hended)
    · exact iff_of_false (by simp) id
    · exact iff_of_false (by simp) id

theorem run_hotReloads_iff (h : Started L p) (hlistening : p.listening = true) (turns : List Turn) :
    Throughout (step L) (HotReloads L) p turns ↔ Along (step L) (Quiet L) p turns := by
  obtain ⟨p', hrun⟩ := exists_run (fun p t => ⟨p.turn L t, rfl⟩) p turns
  refine throughout_iff_along (I := fun p => Started L p ∧ p.listening = true) ?_ hrun ⟨h, hlistening⟩
    ((hotReloads_iff h).mpr hlistening)
  rintro q t q' ⟨hq, hqlistening⟩ _ hstep
  cases hstep
  have hq' := turn_started hq t
  have hiff := hotReloads_iff hq'
  exact ⟨hiff.trans (turn_listening_iff hqlistening t), fun hreloads => ⟨hq', hiff.mp hreloads⟩⟩

end Process

/-! ## The two listeners -/

theorem runServer_started {rows : String → Option (RowValue Json)} {l : Load} {p : Process RelayService}
    (h : runServer lib rows l = some p) : p.Started (relayListener lib) ∧ p.listening = true := by
  obtain ⟨limit, _, _, hlimit, _⟩ := relayParams_some lib (lib.load l (Held.fresh.on rows))
  unfold runServer at h
  dsimp only at h
  rw [hlimit, Option.getD_some] at h
  split at h
  · rename_i hdns
    rcases limit with _ | _ | (n | n) | _ | _ | _ | _
    case int.ofNat =>
      cases h
      refine ⟨⟨Process.load_seeded _ l, lib.load l (Held.fresh.on rows), ?_⟩, rfl⟩
      show RelayService.accepts lib (lib.load l (Held.fresh.on rows)) = true
      unfold RelayService.accepts
      rw [hdns, hlimit]
      rfl
    all_goals cases h
  · cases h

theorem bootstrap_started {rows : String → Option (RowValue Json)} {l : Load} {p : Process PortalService}
    (h : bootstrap lib rows l = some p) : p.Started (portalListener lib) ∧ p.listening = true := by
  unfold bootstrap at h
  dsimp only at h
  split at h
  · rename_i hldap
    cases h
    exact ⟨⟨Process.load_seeded _ l, _, hldap⟩, rfl⟩
  · cases h

/-- From the start of a service on, the next reload that succeeds is always taken over, exactly when no turn of
its listener has raised. -/
theorem hot_reloads_iff (lib : Libraries N) (rows : String → Option (RowValue Json)) (l : Load) (turns : List Turn) :
    (∀ p, runServer lib rows l = some p →
      (Throughout (Process.step (relayListener lib)) (Process.HotReloads (relayListener lib)) p turns ↔
        Along (Process.step (relayListener lib)) (Process.Quiet (relayListener lib)) p turns)) ∧
    ∀ p, bootstrap lib rows l = some p →
      (Throughout (Process.step (portalListener lib)) (Process.HotReloads (portalListener lib)) p turns ↔
        Along (Process.step (portalListener lib)) (Process.Quiet (portalListener lib)) p turns) := by
  constructor
  · intro p hp
    obtain ⟨hstarted, hlistening⟩ := runServer_started hp
    exact Process.run_hotReloads_iff hstarted hlistening turns
  · intro p hp
    obtain ⟨hstarted, hlistening⟩ := bootstrap_started hp
    exact Process.run_hotReloads_iff hstarted hlistening turns

/-! ## A database that is away once -/

def sampleLibraries : Libraries Unit := ⟨sampleInstallation, fun _ => true, fun _ => true⟩

def hourRows (key : String) : Option (RowValue Json) :=
  if key = "redis_ttl" then some (.dict (.ofList [("web_session_ttl", .int 3600)])) else none

def sampleStart : Option (Process RelayService) := runServer sampleLibraries (fun _ => none) sampleLoad

theorem hour_taken_over : ∃ p, sampleStart = some p ∧
    Throughout (Process.step (relayListener sampleLibraries)) (Process.HotReloads (relayListener sampleLibraries)) p
      [.noMessage, .message (.done hourRows sampleLoad)] ∧
    (p.turn (relayListener sampleLibraries) (.message (.done hourRows sampleLoad))).service.ttls.webTtl =
      .int 3600 := by
  have hstart : ∃ p, sampleStart = some p ∧
      (p.turn (relayListener sampleLibraries) (.message (.done hourRows sampleLoad))).service.ttls.webTtl =
        .int 3600 := ⟨_, rfl, rfl⟩
  obtain ⟨p, hp, hhour⟩ := hstart
  refine ⟨p, hp, ((hot_reloads_iff sampleLibraries _ sampleLoad _).1 p hp).mpr ?_, hhour⟩
  refine along_cons.mpr ⟨trivial, fun p₁ h₁ => along_cons.mpr ⟨?_, fun _ _ => trivial⟩⟩
  cases h₁
  cases hp
  rfl

theorem hour_never_comes : ∃ p p', sampleStart = some p ∧
    run (Process.step (relayListener sampleLibraries)) p [.message .raisedEarly] = some p' ∧
    (relayListener sampleLibraries).accepts (p'.reloaded sampleLibraries hourRows sampleLoad) = true ∧
    (p'.turn (relayListener sampleLibraries) (.message (.done hourRows sampleLoad))).service.ttls.webTtl =
      .int 28800 ∧
    ¬ p'.HotReloads (relayListener sampleLibraries) := by
  refine ⟨_, _, rfl, rfl, rfl, rfl, fun h => ?_⟩
  have hinForce := h hourRows sampleLoad rfl
  cases hinForce.webTtl

end RdpProxy.Config
