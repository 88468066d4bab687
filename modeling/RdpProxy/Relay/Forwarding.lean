import RdpProxy.Relay.Segmentation

/-!
# What a leg writes

A hook that raises leaves a packet as the plugin before it has made it, so nothing but the patch of the first
packet shows in what `_pipe` writes.
-/

open Words Steps RdpProxy.Rdp

namespace RdpProxy.Relay

/-! ## Hooks that raise -/

/-- A plugin whose call number `k` raises where `raises k` says so. A packet hook has had its effect on the
plugin by then: `McsPatchPlugin` clears its flag before it patches, and what the other plugins keep touches no
packet. -/
structure Raising (P : Type) where
  plugin : P
  raises : Nat → Bool
  calls : Nat

instance {P : Type} [RdpPlugin P] : RdpPlugin (Raising P) where
  onSessionStart r now ctx :=
    { r with
      plugin := if r.raises r.calls then r.plugin else RdpPlugin.onSessionStart r.plugin now ctx
      calls := r.calls + 1 }
  onClientPacket r now data ctx :=
    let (plugin, result) := RdpPlugin.onClientPacket r.plugin now data ctx
    ({ r with plugin := plugin, calls := r.calls + 1 }, if r.raises r.calls then none else result)
  onBackendPacket r now data ctx :=
    let (plugin, result) := RdpPlugin.onBackendPacket r.plugin now data ctx
    ({ r with plugin := plugin, calls := r.calls + 1 }, if r.raises r.calls then none else result)
  onSessionEnd r now ctx :=
    { r with
      plugin := if r.raises r.calls then r.plugin else RdpPlugin.onSessionEnd r.plugin now ctx
      calls := r.calls + 1 }

/-- The registry with a pattern for each of its plugins. -/
def PluginRegistry.raising {P : Type} (registry : PluginRegistry P) (raises : Nat → Nat → Bool) :
    PluginRegistry (Raising P) :=
  ⟨registry.plugins.mapIdx fun i p => ⟨p, raises i, 0⟩⟩

/-! ## What is forwarded -/

def SameOutside (pos n : Nat) (b b' : Bytes) : Prop := ∀ k, ¬ (pos ≤ k ∧ k < pos + n) → b'[k]? = b[k]?

/-- A packet that is changed at most in one window of four bytes. -/
structure Patched (read write : Bytes) : Prop where
  length : write.length = read.length
  window : ∃ pos, SameOutside pos 4 read write

/-- Write for read: as long as it, and the same but for a window in the first one. -/
structure Forwarded (reads writes : List Bytes) : Prop where
  lengths : writes.map List.length = reads.map List.length
  later : ∀ i, 0 < i → writes[i]? = reads[i]?
  first : Patched (reads.headD []) (writes.headD [])

def total (writes : List Bytes) : Nat := (writes.map List.length).sum

/-! ## A packet -/

theorem Patched.refl (b : Bytes) : Patched b b := ⟨rfl, 0, fun _ _ => rfl⟩

theorem patched_splice {b s : Bytes} {off : Nat} (hs : s.length = 4) (h : off + 4 ≤ b.length) :
    Patched b (splice b off s) := by
  refine ⟨splice_length (by omega), off, fun k hk => ?_⟩
  rw [getElem?_splice (by omega), hs, if_neg hk]

theorem patch_patched (d : Direction) (data : Bytes) (ctx : SessionContext) :
    Patched data ((McsPatchPlugin.patch d data ctx).getD data) := by
  rcases d with _ | _
  · rcases patchMcsClient_cases data with ⟨i, hi, hres⟩ | ⟨_, hres⟩
    · have hroom := hi.1.room (n := 216) (Nat.le_refl _)
      simp only [McsPatchPlugin.patch, hres, Option.getD_some]
      unfold bridgeAt
      split_ifs
      · exact patched_splice (leBytes_length ..) (by omega)
      · exact Patched.refl data
    · simp only [McsPatchPlugin.patch, hres, Option.getD_some]
      exact Patched.refl data
  · rcases patchMcsServer_cases data ctx.target_lt with ⟨i, hi, hres⟩ | ⟨_, hres⟩
    · have hroom := hi.1.room (n := 12) (Nat.le_refl _)
      simp only [McsPatchPlugin.patch, hres, Option.getD_some]
      exact patched_splice (leBytes_length ..) (by omega)
    · simp only [McsPatchPlugin.patch, hres, Option.getD_some]
      exact Patched.refl data

/-- The plugins of `run_server`, the patch with the state `m`. -/
def Patches (m : McsPatchPlugin) (registry : PluginRegistry (Raising RelayPlugin)) : Prop :=
  ∃ mon q, registry.plugins.map Raising.plugin = [.mcsPatch m, .sessionMonitor mon, .connectionQuality q]

variable {ctx : SessionContext} {d : Direction} {m : McsPatchPlugin}

theorem patches_eq {registry : PluginRegistry (Raising RelayPlugin)} (h : Patches m registry) :
    ∃ a b c mon q, registry = ⟨[a, b, c]⟩ ∧ a.plugin = .mcsPatch m ∧ b.plugin = .sessionMonitor mon ∧
      c.plugin = .connectionQuality q := by
  obtain ⟨plugins⟩ := registry
  obtain ⟨mon, q, hplugins⟩ := h
  simp only [List.map_eq_cons_iff, List.map_eq_nil_iff] at hplugins
  obtain ⟨a, _, rfl, ha, b, _, rfl, hb, c, _, rfl, hc, rfl⟩ := hplugins
  exact ⟨a, b, c, mon, q, rfl, ha, hb, hc⟩

variable (ctx) in
theorem raising_packet {registry : PluginRegistry (Raising RelayPlugin)} (h : Patches m registry) (now : Rat)
    (d : Direction) (data : Bytes) :
    Patches (m.onPacket d data ctx).1 (registry.onPacket now d data ctx).1 ∧
      ((registry.onPacket now d data ctx).2 = data ∨
        (registry.onPacket now d data ctx).2 = (m.onPacket d data ctx).2.getD data) := by
  obtain ⟨⟨_, ra, na⟩, ⟨_, rb, nb⟩, ⟨_, rc, nc⟩, mon, q, rfl, rfl, rfl, rfl⟩ := patches_eq h
  have hget (raised : Bool) (out : Bytes) : (if raised then none else some out).getD out = out := by
    rcases raised with _ | _ <;> rfl
  have hout : ((⟨[⟨.mcsPatch m, ra, na⟩, ⟨.sessionMonitor mon, rb, nb⟩, ⟨.connectionQuality q, rc, nc⟩]⟩ :
      PluginRegistry (Raising RelayPlugin)).onPacket now d data ctx).2 =
      (if ra na then none else (m.onPacket d data ctx).2).getD data := by
    rcases d with _ | _ <;> exact (hget (rc nc) _).trans (hget (rb nb) _)
  constructor
  · rcases d with _ | _ <;> exact ⟨{ mon with lastActivity := now }, q, rfl⟩
  · rw [hout]
    split_ifs
    · exact Or.inl rfl
    · exact Or.inr rfl

variable (ctx) in
theorem raising_patched {registry : PluginRegistry (Raising RelayPlugin)} (h : Patches m registry) (now : Rat)
    (d : Direction) (data : Bytes) :
    Patched data (registry.onPacket now d data ctx).2 ∧
      (m.first d = false → (registry.onPacket now d data ctx).2 = data) := by
  rcases (raising_packet ctx h now d data).2 with hout | hout
  · rw [hout]
    exact ⟨Patched.refl data, fun _ => rfl⟩
  · rw [hout, McsPatchPlugin.onPacket_out]
    split_ifs with hfirst
    · exact ⟨patch_patched d data ctx, fun hnot => absurd (hfirst.symm.trans hnot) (by simp)⟩
    · exact ⟨Patched.refl data, fun _ => rfl⟩

/-! ## One more read -/

theorem chunks_append (d : Direction) (reads : List Read) (r : Read) :
    chunks d (reads ++ [r]) = chunks d reads ++ if r.direction = d then [r.data] else [] := by
  unfold chunks
  rw [List.filter_append, List.map_append]
  congr 1
  split_ifs with h
  · simp [h]
  · simp [h]

theorem forwarded_nil : Forwarded [] [] := ⟨rfl, fun _ _ => rfl, Patched.refl []⟩

theorem Forwarded.snoc {reads writes : List Bytes} {read write : Bytes} (h : Forwarded reads writes)
    (hpatched : Patched read write) (hlater : reads ≠ [] → write = read) :
    Forwarded (reads ++ [read]) (writes ++ [write]) := by
  obtain ⟨hlengths, hothers, hfirst⟩ := h
  have hcount : writes.length = reads.length := by simpa using congrArg List.length hlengths
  refine ⟨by simp [hlengths, hpatched.length], fun i hi => ?_, ?_⟩
  · rcases Nat.lt_trichotomy i reads.length with hlt | rfl | hgt
    · rw [List.getElem?_append_left hlt, List.getElem?_append_left (by omega)]
      exact hothers i hi
    · rw [List.getElem?_concat_length, ← hcount, List.getElem?_concat_length,
        hlater (List.ne_nil_of_length_pos hi)]
    · rw [List.getElem?_eq_none (by simp; omega), List.getElem?_eq_none (by simp; omega)]
  · rcases reads with _ | ⟨r, reads⟩
    · obtain rfl : writes = [] := List.length_eq_zero_iff.mp hcount
      exact hpatched
    · rcases writes with _ | ⟨w, writes⟩
      · simp at hcount
      · exact hfirst

theorem total_append (writes : List Bytes) (write : Bytes) :
    total (writes ++ [write]) = total writes + write.length := by
  unfold total
  rw [List.map_append, List.sum_append]
  simp

/-! ## Runs -/

/-- The flag of a direction is still up only where nothing has been read. -/
structure Log (s : RelayState (Raising RelayPlugin)) : Prop where
  plugins : ∃ m, Patches m s.registry ∧ ∀ d, m.first d = true → chunks d s.reads = []
  legs : ∀ d, Forwarded (chunks d s.reads) (s.writes d)

theorem Log.same {s s' : RelayState (Raising RelayPlugin)} (h : Log s) (hregistry : s'.registry = s.registry)
    (hreads : s'.reads = s.reads) (hwrites : s'.writes = s.writes) : Log s' := by
  constructor
  · rw [hregistry, hreads]
    exact h.plugins
  · rw [hreads, hwrites]
    exact h.legs

theorem Log.deliver {s : RelayState (Raising RelayPlugin)} (h : Log s) (d : Direction) (now : Rat) (accepted : Nat) :
    Log (s.deliver ctx d now accepted) := by
  obtain ⟨⟨m, hm, hflags⟩, hlegs⟩ := h
  have hreads : (s.deliver ctx d now accepted).reads =
      s.reads ++ [⟨now, d, (s.conn d.source).buffer.take READ_CHUNK⟩] := rfl
  obtain ⟨hpatched, hlater⟩ : Patched ((s.conn d.source).buffer.take READ_CHUNK) _ ∧ _ :=
    raising_patched ctx hm now d _
  constructor
  · refine ⟨_, (raising_packet ctx hm now d _).1, fun d' hfirst => ?_⟩
    rw [McsPatchPlugin.onPacket_first, Bool.and_eq_true, decide_eq_true_eq] at hfirst
    obtain ⟨hup, hd⟩ := hfirst
    rw [hreads, chunks_append, hflags d' hup]
    exact if_neg (Ne.symm hd)
  · intro d'
    rw [hreads, chunks_append]
    rcases eq_or_ne d d' with rfl | hd
    · have hwrites : (s.deliver ctx d now accepted).writes d = s.writes d ++
          [(s.registry.onPacket now d ((s.conn d.source).buffer.take READ_CHUNK) ctx).2] := by
        simp [RelayState.deliver, RelayState.setPhase, RelayState.setConn]
      rw [hwrites, if_pos rfl]
      refine (hlegs d).snoc hpatched fun hne => hlater ?_
      rw [← Bool.not_eq_true]
      exact fun hup => hne (hflags d hup)
    · have hwrites : (s.deliver ctx d now accepted).writes d' = s.writes d' := by
        simp [RelayState.deliver, RelayState.setPhase, RelayState.setConn, Ne.symm hd]
      rw [hwrites, if_neg hd, List.append_nil]
      exact hlegs d'

theorem step_log (s : RelayState (Raising RelayPlugin)) (a : Act) (s' : RelayState (Raising RelayPlugin)) (h : Log s)
    (hstep : RelayState.step ctx s a = some s') : Log s' := by
  rcases RelayState.step_moves hstep with _ | _ | _ | _ | _ | hturn | _ | _ | _ | _
  case turn =>
    rcases RelayState.turn_cases hturn with ⟨_, rfl⟩ | ⟨phase, rfl⟩
    · exact h.deliver _ _ _
    · exact h.same rfl rfl rfl
  all_goals exact h.same rfl rfl rfl

section
variable {P : Type} [RdpPlugin P] {s s' : RelayState P}

/-- What each leg has transferred is what it has written, and the result says the same. -/
structure Counted (s : RelayState P) : Prop where
  legs : ∀ d, (s.leg d).transferred = total (s.writes d)
  result : ∀ result, s.main = .returned result → (∀ d, (s.reasonOf d).isSome = true) ∧
    ∀ leg ∈ result.legs, leg.transferred = total (s.writes leg.direction)

omit [RdpPlugin P] in
theorem Counted.same (h : Counted s) (hleg : s'.leg = s.leg) (hmain : s'.main = s.main)
    (hwrites : s'.writes = s.writes) : Counted s' := by
  obtain ⟨hlegs, hresult⟩ := h
  constructor
  · rw [hleg, hwrites]
    exact hlegs
  · intro result hreturned
    rw [hmain] at hreturned
    obtain ⟨hdone, hcounts⟩ := hresult result hreturned
    refine ⟨fun d => ?_, by rw [hwrites]; exact hcounts⟩
    have hsame : s'.reasonOf d = s.reasonOf d := by
      unfold RelayState.reasonOf
      rw [hleg]
    rw [hsame]
    exact hdone d

theorem turn_open {now : Rat} {accepted : Nat} (h : s.turn ctx d now accepted = some s') : s.reasonOf d = none := by
  unfold RelayState.turn at h
  unfold RelayState.reasonOf
  rcases hphase : (s.leg d).phase with _ | _ | _ | reason
  · rfl
  · rfl
  · rfl
  · rw [hphase] at h
    cases h

theorem Counted.turn {now : Rat} {accepted : Nat} (h : Counted s) (hturn : s.turn ctx d now accepted = some s') :
    Counted s' := by
  obtain ⟨hlegs, hresult⟩ := h
  constructor
  · intro d'
    rcases RelayState.turn_cases hturn with ⟨_, rfl⟩ | ⟨phase, rfl⟩
    · rcases eq_or_ne d' d with rfl | hd
      · simp [RelayState.deliver, RelayState.setPhase, RelayState.setConn, total_append, hlegs]
      · simpa [RelayState.deliver, RelayState.setPhase, RelayState.setConn, hd] using hlegs d'
    · rcases eq_or_ne d' d with rfl | hd
      · simpa [RelayState.setPhase] using hlegs d'
      · simpa [RelayState.setPhase, hd] using hlegs d'
  · intro result hreturned
    rw [(RelayState.turn_frame hturn).main] at hreturned
    have hdone := (hresult result hreturned).1 d
    rw [turn_open hturn] at hdone
    cases hdone

theorem step_counted (s : RelayState P) (a : Act) (s' : RelayState P) (h : Counted s)
    (hstep : RelayState.step ctx s a = some s') : Counted s' := by
  rcases RelayState.step_moves hstep with _ | _ | _ | _ | _ | hturn | _ | _ | _ | ⟨_, h1, h2⟩
  case turn => exact h.turn hturn
  case mainWake => exact ⟨h.legs, fun _ hreturned => by cases hreturned⟩
  case mainReturn =>
    refine ⟨h.legs, fun result hreturned => ?_⟩
    cases hreturned
    constructor
    · rintro (_ | _)
      · exact Option.isSome_iff_exists.mpr ⟨_, h1⟩
      · exact Option.isSome_iff_exists.mpr ⟨_, h2⟩
    · intro leg hleg
      simp only [List.mem_cons, List.not_mem_nil, or_false] at hleg
      rcases hleg with rfl | rfl
      · exact h.legs .clientToBackend
      · exact h.legs .backendToClient
  all_goals exact h.same rfl rfl rfl

end

variable (ctx) in
theorem patches_start (m : McsPatchPlugin) (mon : SessionMonitorPlugin) (q : ConnectionQualityPlugin)
    (raises : Nat → Nat → Bool) (now : Rat) :
    ∃ m', Patches m' (((relayRegistry m mon q).raising raises).onSessionStart now ctx) := by
  refine ⟨if raises 0 0 then m else m.onSessionStart ctx,
    if raises 1 0 then mon else mon.onSessionStart now, if raises 2 0 then q else q.onSessionStart ctx, ?_⟩
  have hstart (r : Raising RelayPlugin) : (RdpPlugin.onSessionStart r now ctx).plugin =
      if r.raises r.calls then r.plugin else RdpPlugin.onSessionStart r.plugin now ctx := rfl
  simp only [relayRegistry, PluginRegistry.raising, PluginRegistry.onSessionStart, List.mapIdx_cons, List.mapIdx_nil,
    List.map_cons, List.map_nil, hstart]
  split_ifs <;> rfl

/-- Whatever hooks raise, a leg writes what it reads, chunk for chunk, but for one word of the first one. -/
theorem pipe_forwards (ctx : SessionContext) (conn : Side → Conn) (m : McsPatchPlugin) (mon : SessionMonitorPlugin)
    (q : ConnectionQualityPlugin) (raises : Nat → Nat → Bool) (now : Rat) (acts : List Act)
    (s : RelayState (Raising RelayPlugin))
    (hrun : run (RelayState.step ctx)
      (.initial conn (((relayRegistry m mon q).raising raises).onSessionStart now ctx)) acts = some s)
    (d : Direction) :
    Forwarded (chunks d s.reads) (s.writes d) ∧ (s.leg d).transferred = total (s.writes d) ∧
      ∀ result, s.main = .returned result →
        ∀ leg ∈ result.legs, leg.transferred = total (s.writes leg.direction) := by
  have hlog : Log s := by
    obtain ⟨m', hm'⟩ := patches_start ctx m mon q raises now
    exact run_keeps step_log hrun ⟨⟨m', hm', fun _ _ => rfl⟩, fun _ => forwarded_nil⟩
  have hcounted : Counted s := by
    refine run_keeps step_counted hrun ⟨fun _ => rfl, fun _ hreturned => ?_⟩
    cases hreturned
  exact ⟨hlog.legs d, hcounted.legs d, fun result hreturned => (hcounted.result result hreturned).2⟩

/-! ## A patched response -/

/-- A block of the response with the protocols of the client at its end. -/
def scCore : Bytes := [0x01, 0x0C, 12, 0, 4, 0, 8, 0, 1, 0, 0, 0]

theorem patched_past_failing_monitor : ∃ s : RelayState (Raising RelayPlugin),
    run (RelayState.step idleContext) (.initial (fun _ => idleConn)
      (((runServerPlugins 3600 0).raising fun i k => i = 1 && k = 1).onSessionStart 0 idleContext))
      [.feed .backend scCore, .turn .backendToClient 1 12, .feed .backend [7], .turn .backendToClient 2 1] = some s ∧
    s.writes .backendToClient = [[0x01, 0x0C, 12, 0, 4, 0, 8, 0, 3, 0, 0, 0], [7]] ∧
    Forwarded (chunks .backendToClient s.reads) (s.writes .backendToClient) := by
  have hrun : ∃ s, run (RelayState.step idleContext) (.initial (fun _ => idleConn)
      (((runServerPlugins 3600 0).raising fun i k => i = 1 && k = 1).onSessionStart 0 idleContext))
      [.feed .backend scCore, .turn .backendToClient 1 12, .feed .backend [7], .turn .backendToClient 2 1] = some s ∧
      s.writes .backendToClient = [[0x01, 0x0C, 12, 0, 4, 0, 8, 0, 3, 0, 0, 0], [7]] := ⟨_, rfl, by decide +kernel⟩
  obtain ⟨s, hrun, hwrites⟩ := hrun
  exact ⟨s, hrun, hwrites, (pipe_forwards idleContext _ {} _ {} _ 0 _ s hrun .backendToClient).1⟩

end RdpProxy.Relay
