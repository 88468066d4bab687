import RdpProxy.Relay.Pipe
import RdpProxy.Rdp.ConnectInitial

/-!
# What the transport's reads do to a stream

`_pipe` hands every read to the plugins as it comes. The patch of a direction sees the first
read alone, wherever it was cut off.
-/

open Words RdpProxy.Rdp

namespace RdpProxy.Relay

/-! ## Reads -/

/-- The reads of a session, both pipes together. The end of a stream is no read. -/
structure Reads where
  reads : List Read
  nonEmpty : ∀ r ∈ reads, r.data ≠ []
  bounded : ∀ r ∈ reads, r.data.length ≤ READ_CHUNK

def chunks (d : Direction) (reads : List Read) : List Bytes :=
  (reads.filter fun r => r.direction = d).map Read.data

theorem chunks_cons (d : Direction) (r : Read) (reads : List Read) : chunks d (r :: reads) =
    if r.direction = d then r.data :: chunks d reads else chunks d reads := by
  by_cases h : r.direction = d <;> simp [chunks, h]

def Reads.stream (r : Reads) (d : Direction) : Bytes := (chunks d r.reads).flatten

def Reads.firstLength (r : Reads) (d : Direction) : Nat := ((chunks d r.reads).head?.getD []).length

/-- What the pipe of a direction writes for these reads. -/
def pipeWrites {P : Type} [RdpPlugin P] (ctx : SessionContext) (d : Direction) (registry : PluginRegistry P) :
    List Read → Bytes
  | [] => []
  | r :: rest =>
    let result := registry.onPacket r.now r.direction r.data ctx
    (if r.direction = d then result.2 else []) ++ pipeWrites ctx d result.1 rest

def patched (d : Direction) (ctx : SessionContext) (data : Bytes) : Bytes :=
  (McsPatchPlugin.patch d data ctx).getD data

variable {ctx : SessionContext} {d : Direction}

theorem pipeWrites_later (p : McsPatchPlugin) (m : SessionMonitorPlugin) (q : ConnectionQualityPlugin)
    (reads : List Read) (h : p.first d = false) :
    pipeWrites ctx d (relayRegistry p m q) reads = (chunks d reads).flatten := by
  induction reads generalizing p m with
  | nil => rfl
  | cons r reads ih =>
    have hfirst : (p.onPacket r.direction r.data ctx).1.first d = false := by
      rw [McsPatchPlugin.onPacket_first, h, Bool.false_and]
    rw [pipeWrites, relayRegistry_packet]
    simp only
    rw [ih _ _ hfirst, McsPatchPlugin.onPacket_out, chunks_cons]
    by_cases hd : r.direction = d
    · rw [if_pos hd, if_pos hd, hd, h]
      rfl
    · rw [if_neg hd, if_neg hd]
      rfl

theorem pipeWrites_first (p : McsPatchPlugin) (m : SessionMonitorPlugin) (q : ConnectionQualityPlugin)
    (reads : List Read) (h : p.first d = true) : pipeWrites ctx d (relayRegistry p m q) reads =
      patched d ctx ((chunks d reads).head?.getD []) ++ (chunks d reads).tail.flatten := by
  induction reads generalizing p m with
  | nil => cases d <;> rfl
  | cons r reads ih =>
    rw [pipeWrites, relayRegistry_packet]
    simp only
    rw [McsPatchPlugin.onPacket_out, chunks_cons]
    by_cases hd : r.direction = d
    · have hfirst : (p.onPacket r.direction r.data ctx).1.first d = false := by
        rw [McsPatchPlugin.onPacket_first, hd]
        simp
      rw [pipeWrites_later _ _ _ _ hfirst, if_pos hd, if_pos hd, hd, h]
      rfl
    · have hfirst : (p.onPacket r.direction r.data ctx).1.first d = true := by
        rw [McsPatchPlugin.onPacket_first, h]
        simpa using fun he => hd he.symm
      rw [ih _ _ hfirst, if_neg hd, if_neg hd]
      rfl

/-- The output depends on a stream and the length of its first read. -/
def cutOutput (d : Direction) (ctx : SessionContext) (stream : Bytes) (n : Nat) : Bytes :=
  patched d ctx (stream.take n) ++ stream.drop n

theorem pipeWrites_start (p : McsPatchPlugin) (m : SessionMonitorPlugin) (q : ConnectionQualityPlugin) (now : Rat)
    (r : Reads) : pipeWrites ctx d ((relayRegistry p m q).onSessionStart now ctx) r.reads =
      cutOutput d ctx (r.stream d) (r.firstLength d) := by
  have hfirst : (p.onSessionStart ctx).first d = true := by cases d <;> rfl
  rw [relayRegistry_start, pipeWrites_first _ _ _ _ hfirst, cutOutput, Reads.stream, Reads.firstLength]
  cases chunks d r.reads with
  | nil => simp
  | cons c rest => simp

theorem Reads.firstLength_le (r : Reads) (d : Direction) : r.firstLength d ≤ (r.stream d).length := by
  rw [firstLength, stream]
  cases chunks d r.reads with
  | nil => simp
  | cons c rest => simp

/-! ## The reads of a run -/

section
variable {P : Type} [RdpPlugin P]

def registryAfter (ctx : SessionContext) (registry : PluginRegistry P) : List Read → PluginRegistry P
  | [] => registry
  | r :: rest => registryAfter ctx (registry.onPacket r.now r.direction r.data ctx).1 rest

theorem registryAfter_append (registry : PluginRegistry P) (reads : List Read) (r : Read) :
    registryAfter ctx registry (reads ++ [r]) =
      ((registryAfter ctx registry reads).onPacket r.now r.direction r.data ctx).1 := by
  induction reads generalizing registry with
  | nil => rfl
  | cons a reads ih => exact ih _

theorem pipeWrites_append (registry : PluginRegistry P) (reads : List Read) (r : Read) :
    pipeWrites ctx d registry (reads ++ [r]) = pipeWrites ctx d registry reads ++
      if r.direction = d then ((registryAfter ctx registry reads).onPacket r.now r.direction r.data ctx).2
      else [] := by
  induction reads generalizing registry with
  | nil => simp [pipeWrites, registryAfter]
  | cons a reads ih =>
    simp only [List.cons_append, pipeWrites, registryAfter, ih, List.append_assoc]

/-- The reads of a relay are reads of a transport, and its writes are what the plugins make of them. -/
structure Logged (ctx : SessionContext) (registry : PluginRegistry P) (s : RelayState P) : Prop where
  plugins : s.registry = registryAfter ctx registry s.reads
  writes : ∀ d, (s.writes d).flatten = pipeWrites ctx d registry s.reads
  nonEmpty : ∀ r ∈ s.reads, r.data ≠ []
  bounded : ∀ r ∈ s.reads, r.data.length ≤ READ_CHUNK

variable {registry : PluginRegistry P} {s s' : RelayState P}

theorem Logged.same (h : Logged ctx registry s) (hregistry : s'.registry = s.registry)
    (hreads : s'.reads = s.reads) (hwrites : s'.writes = s.writes) : Logged ctx registry s' := by
  constructor
  · rw [hregistry, hreads]; exact h.plugins
  · rw [hwrites, hreads]; exact h.writes
  · rw [hreads]; exact h.nonEmpty
  · rw [hreads]; exact h.bounded

theorem Logged.deliver (h : Logged ctx registry s) (d : Direction) (now : Rat) (accepted : Nat)
    (hbuffer : (s.conn d.source).buffer ≠ []) : Logged ctx registry (s.deliver ctx d now accepted) := by
  have hreads : (s.deliver ctx d now accepted).reads =
      s.reads ++ [⟨now, d, (s.conn d.source).buffer.take READ_CHUNK⟩] := rfl
  constructor
  · rw [hreads, registryAfter_append, ← h.plugins]
    rfl
  · intro d'
    rw [hreads, pipeWrites_append, ← h.plugins, ← h.writes d']
    by_cases hd : d = d'
    · subst hd
      simp [RelayState.deliver, RelayState.setPhase, RelayState.setConn]
    · simp [RelayState.deliver, RelayState.setPhase, RelayState.setConn, hd, Ne.symm hd]
  · rw [hreads]
    intro r hr
    rcases List.mem_append.mp hr with hr | hr
    · exact h.nonEmpty r hr
    · rw [List.mem_singleton.mp hr]
      simpa [READ_CHUNK] using hbuffer
  · rw [hreads]
    intro r hr
    rcases List.mem_append.mp hr with hr | hr
    · exact h.bounded r hr
    · rw [List.mem_singleton.mp hr]
      exact List.length_take_le _ _

theorem step_logged (s : RelayState P) (a : Act) (s' : RelayState P) (h : Logged ctx registry s)
    (hstep : RelayState.step ctx s a = some s') : Logged ctx registry s' := by
  cases RelayState.step_moves hstep with
  | @turn d now accepted _ hturn =>
    rcases RelayState.turn_cases hturn with ⟨hbuffer, rfl⟩ | ⟨phase, rfl⟩
    · exact h.deliver d now accepted hbuffer
    · exact h.same rfl rfl rfl
  | _ => exact h.same rfl rfl rfl

theorem run_writes (ctx : SessionContext) (conn : Side → Conn) (registry : PluginRegistry P) (acts : List Act)
    (s : RelayState P) (hrun : Steps.run (RelayState.step ctx) (.initial conn registry) acts = some s) :
    ∃ r : Reads, r.reads = s.reads ∧ ∀ d, (s.writes d).flatten = pipeWrites ctx d registry r.reads := by
  have hlog : Logged ctx registry s := by
    apply Steps.run_keeps step_logged hrun
    exact ⟨rfl, fun _ => rfl, by simp [RelayState.initial], by simp [RelayState.initial]⟩
  exact ⟨⟨s.reads, hlog.nonEmpty, hlog.bounded⟩, rfl, hlog.writes⟩

end

/-! ## Cuts -/

/-- The patch of the first `n` bytes of a stream changes the word at `pos`. -/
def ChangesIn (d : Direction) (ctx : SessionContext) (stream : Bytes) (n pos : Nat) : Prop :=
  match d with
  | .clientToBackend => ∃ i, FirstAt (CsCoreAt (stream.take n)) i ∧ pos = i + 212 ∧
      unpackLE 4 stream pos = some PROTOCOL_SSL
  | .backendToClient => ∃ i, FirstAt (ScCoreAt (stream.take n)) i ∧ pos = i + 8 ∧
      unpackLE 4 stream pos ≠ some ctx.target

def written (d : Direction) (ctx : SessionContext) : Bytes :=
  match d with
  | .clientToBackend => leBytes 4 PROTOCOL_HYBRID
  | .backendToClient => leBytes 4 ctx.target

theorem written_length (d : Direction) (ctx : SessionContext) : (written d ctx).length = 4 := by
  cases d <;> exact leBytes_length 4 _

/-- Two cuts change the stream alike: neither does, or they come to the same bytes. -/
def CutsAgree (d : Direction) (ctx : SessionContext) (stream : Bytes) (n m : Nat) : Prop :=
  ((∃ pos, ChangesIn d ctx stream n pos) ↔ ∃ pos, ChangesIn d ctx stream m pos) ∧
    ∀ pos pos', ChangesIn d ctx stream n pos → ChangesIn d ctx stream m pos' →
      SameWrite stream pos (written d ctx) pos' (written d ctx)

variable {stream : Bytes} {n m pos pos' : Nat}

theorem ChangesIn.unique (h : ChangesIn d ctx stream n pos) (h' : ChangesIn d ctx stream n pos') : pos = pos' := by
  cases d with
  | clientToBackend =>
    obtain ⟨i, hi, rfl, _⟩ := h
    obtain ⟨j, hj, rfl, _⟩ := h'
    rw [hi.unique hj]
  | backendToClient =>
    obtain ⟨i, hi, rfl, _⟩ := h
    obtain ⟨j, hj, rfl, _⟩ := h'
    rw [hi.unique hj]

theorem ChangesIn.room (h : ChangesIn d ctx stream n pos) (hn : n ≤ stream.length) :
    pos + 4 ≤ n := by
  cases d with
  | clientToBackend =>
    obtain ⟨i, hi, rfl, _⟩ := h
    have := hi.1.room (n := 216) (Nat.le_refl _)
    rw [List.length_take_of_le hn] at this
    omega
  | backendToClient =>
    obtain ⟨i, hi, rfl, _⟩ := h
    have := hi.1.room (n := 12) (Nat.le_refl _)
    rw [List.length_take_of_le hn] at this
    omega

theorem ChangesIn.ne (h : ChangesIn d ctx stream n pos) (hn : n ≤ stream.length) :
    splice stream pos (written d ctx) ≠ stream := by
  have hroom := h.room hn
  rw [Ne, splice_eq_iff (by rw [written_length]; omega), written_length]
  intro hw
  cases d with
  | clientToBackend =>
    obtain ⟨_, _, _, hssl⟩ := h
    have hhyb : unpackLE 4 stream pos = some PROTOCOL_HYBRID :=
      (unpackLE_iff_window (by decide)).mpr ⟨by omega, hw⟩
    rw [hssl] at hhyb
    exact absurd hhyb (by decide)
  | backendToClient =>
    obtain ⟨_, _, _, hother⟩ := h
    exact hother ((unpackLE_iff_window ctx.target_lt).mpr ⟨by omega, hw⟩)

theorem bridgeAt_take (h : pos + 4 ≤ n) (hn : n ≤ stream.length) :
    bridgeAt (stream.take n) pos ++ stream.drop n = bridgeAt stream pos := by
  rw [bridgeAt, bridgeAt, unpackLE_take h hn]
  split_ifs
  · exact splice_take_append_drop (by rw [leBytes_length]; exact h) hn
  · exact List.take_append_drop n stream

theorem cutOutput_cases (d : Direction) (ctx : SessionContext) (hn : n ≤ stream.length) :
    (∃ pos, ChangesIn d ctx stream n pos ∧ cutOutput d ctx stream n = splice stream pos (written d ctx)) ∨
      (∀ pos, ¬ ChangesIn d ctx stream n pos) ∧ cutOutput d ctx stream n = stream := by
  cases d with
  | clientToBackend =>
    simp only [cutOutput, patched, McsPatchPlugin.patch]
    rcases patchMcsClient_cases (stream.take n) with ⟨i, hi, hres⟩ | ⟨hno, hres⟩
    · have hroom := hi.1.room (n := 216) (Nat.le_refl _)
      rw [List.length_take_of_le hn] at hroom
      rw [hres, Option.getD_some, bridgeAt_take (by omega) hn]
      by_cases hssl : unpackLE 4 stream (i + 212) = some PROTOCOL_SSL
      · exact Or.inl ⟨i + 212, ⟨i, hi, rfl, hssl⟩, if_pos hssl⟩
      · refine Or.inr ⟨?_, bridgeAt_same hssl⟩
        rintro pos ⟨j, hj, rfl, hj'⟩
        rw [hj.unique hi] at hj'
        exact hssl hj'
    · refine Or.inr ⟨?_, by rw [hres, Option.getD_some, List.take_append_drop]⟩
      rintro pos ⟨j, hj, _⟩
      exact hno j hj.1
  | backendToClient =>
    simp only [cutOutput, patched, McsPatchPlugin.patch]
    rcases patchMcsServer_cases (stream.take n) ctx.target_lt with ⟨i, hi, hres⟩ | ⟨hno, hres⟩
    · have hroom := hi.1.room (n := 12) (Nat.le_refl _)
      rw [List.length_take_of_le hn] at hroom
      rw [hres, Option.getD_some, splice_take_append_drop (by rw [leBytes_length]; omega) hn]
      by_cases hsame : unpackLE 4 stream (i + 8) = some ctx.target
      · have hw := ((unpackLE_iff_window ctx.target_lt).mp hsame).2
        refine Or.inr ⟨?_, splice_window (by rw [leBytes_length]; exact hw)⟩
        rintro pos ⟨j, hj, rfl, hj'⟩
        rw [hj.unique hi] at hj'
        exact hj' hsame
      · exact Or.inl ⟨i + 8, ⟨i, hi, rfl, hsame⟩, rfl⟩
    · refine Or.inr ⟨?_, by rw [hres, Option.getD_some, List.take_append_drop]⟩
      rintro pos ⟨j, hj, _⟩
      exact hno j hj.1

theorem cutOutput_eq_iff (d : Direction) (ctx : SessionContext) (hn : n ≤ stream.length) (hm : m ≤ stream.length) :
    cutOutput d ctx stream n = cutOutput d ctx stream m ↔ CutsAgree d ctx stream n m := by
  rcases cutOutput_cases d ctx hn with ⟨a, ha, hna⟩ | ⟨hna, hna'⟩
  · rcases cutOutput_cases d ctx hm with ⟨b, hb, hmb⟩ | ⟨hmb, hmb'⟩
    · have hra := ha.room hn
      have hrb := hb.room hm
      rw [hna, hmb, splice_eq_splice_iff (by rw [written_length]; omega) (by rw [written_length]; omega)]
      constructor
      · intro h
        refine ⟨⟨fun _ => ⟨b, hb⟩, fun _ => ⟨a, ha⟩⟩, fun pos pos' hp hp' => ?_⟩
        rw [hp.unique ha, hp'.unique hb]
        exact h
      · exact fun h => h.2 a b ha hb
    · rw [hna, hmb']
      constructor
      · exact fun h => absurd h (ha.ne hn)
      · intro h
        obtain ⟨b, hb⟩ := h.1.mp ⟨a, ha⟩
        exact absurd hb (hmb b)
  · rcases cutOutput_cases d ctx hm with ⟨b, hb, hmb⟩ | ⟨hmb, hmb'⟩
    · rw [hna', hmb]
      constructor
      · exact fun h => absurd h.symm (hb.ne hm)
      · intro h
        obtain ⟨a, ha⟩ := h.1.mpr ⟨b, hb⟩
        exact absurd ha (hna a)
    · rw [hna', hmb']
      refine ⟨fun _ => ⟨⟨?_, ?_⟩, fun pos _ hp => absurd hp (hna pos)⟩, fun _ => rfl⟩
      · rintro ⟨pos, hp⟩
        exact absurd hp (hna pos)
      · rintro ⟨pos, hp⟩
        exact absurd hp (hmb pos)

/-! ## Segmentations -/

theorem splits_agree_iff (ctx : SessionContext) (p : McsPatchPlugin) (m : SessionMonitorPlugin)
    (q : ConnectionQualityPlugin) (now : Rat) (a b : Reads) (hstream : ∀ d, a.stream d = b.stream d) :
    (∀ d, pipeWrites ctx d ((relayRegistry p m q).onSessionStart now ctx) a.reads =
      pipeWrites ctx d ((relayRegistry p m q).onSessionStart now ctx) b.reads) ↔
      ∀ d, CutsAgree d ctx (a.stream d) (a.firstLength d) (b.firstLength d) := by
  apply forall_congr'
  intro d
  rw [pipeWrites_start, pipeWrites_start, ← hstream d]
  apply cutOutput_eq_iff d ctx (a.firstLength_le d)
  rw [hstream d]
  exact b.firstLength_le d

/-! ## A Connect-Initial in two reads -/

def sslContext : SessionContext := handlerContext "c0" 1 (by decide)

/-- The Connect-Initial and two bytes more, with the first read of `n` bytes. -/
def cutAt (n : Nat) : List Read :=
  let stream := usualClient.bytes ++ [0x03, 0x00]
  [⟨0, .clientToBackend, stream.take n⟩, ⟨1, .clientToBackend, stream.drop n⟩]

def inHeader : Reads := ⟨cutAt 100, by decide +kernel, by decide +kernel⟩
def behindPacket : Reads := ⟨cutAt usualClient.bytes.length, by decide +kernel, by decide +kernel⟩
def insideTail : Reads := ⟨cutAt (usualClient.bytes.length + 1), by decide +kernel, by decide +kernel⟩

def startedRegistry : PluginRegistry RelayPlugin := (runServerPlugins 3600 0).onSessionStart 0 sslContext

theorem split_unpatched : (∀ d, inHeader.stream d = behindPacket.stream d) ∧
    pipeWrites sslContext .clientToBackend startedRegistry inHeader.reads ≠
      pipeWrites sslContext .clientToBackend startedRegistry behindPacket.reads :=
  ⟨by decide +kernel, by decide +kernel⟩

theorem splits_agree_behind_packet : (∀ d, behindPacket.stream d = insideTail.stream d) ∧
    ∀ d, CutsAgree d sslContext (behindPacket.stream d) (behindPacket.firstLength d) (insideTail.firstLength d) := by
  have hstream : ∀ d, behindPacket.stream d = insideTail.stream d := by decide +kernel
  refine ⟨hstream, ?_⟩
  apply (splits_agree_iff sslContext {} {} {} 0 behindPacket insideTail hstream).mp
  decide +kernel

end RdpProxy.Relay
