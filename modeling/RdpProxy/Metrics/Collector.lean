import Mathlib.Data.List.Nodup
import RdpProxy.Lib.CappedList
import RdpProxy.Lib.Steps

/-!
# The metrics of the hosts (`collector.py`, `routes/stats.py`)

The four commands of a snapshot go in one pipeline that is no transaction: those of other pipelines run between them,
and a connection may be lost behind any of them.
-/

open Steps CappedList

namespace RdpProxy.Metrics

variable {S Raw : Type}

/-! ## The source -/

def seriesMaxLen : Nat := 24 * 60 * 6

/-- In seconds. -/
def metricsLatestTtl : Int := 120

def heartbeatRedisTtl : Int := 60

inductive Command where
  | setexLatest
  | lpushSeries
  | ltrimSeries
  | setexHeartbeat
  deriving DecidableEq

/-- The pipeline of `_publish_redis`. -/
def publishRedis : List Command := [.setexLatest, .lpushSeries, .ltrimSeries, .setexHeartbeat]

/-- `json.dumps` of a snapshot, and `json.loads` where it does not raise. -/
structure Codec (S Raw : Type) where
  dumps : S → Raw
  loads : Raw → Option S
  loads_dumps : ∀ snap, loads (dumps snap) = some snap

structure Expiring (Raw : Type) where
  raw : Raw
  deadline : Int

def Expiring.get (now : Int) (key : Option (Expiring Raw)) : Option Raw :=
  (key.filter fun e => now < e.deadline).map Expiring.raw

/-- The keys of an instance. -/
structure InstanceKeys (Raw : Type) where
  latest : Option (Expiring Raw)
  series : List Raw
  heartbeat : Option (Expiring Raw)

def Command.run (raw : Raw) (now : Int) (k : InstanceKeys Raw) : Command → InstanceKeys Raw
  | .setexLatest => { k with latest := some ⟨raw, now + metricsLatestTtl⟩ }
  | .lpushSeries => { k with series := lpush raw k.series }
  | .ltrimSeries => { k with series := ltrim seriesMaxLen k.series }
  | .setexHeartbeat => { k with heartbeat := some ⟨raw, now + heartbeatRedisTtl⟩ }

def periodPoints (period : String) : Nat :=
  ([("1h", 360), ("6h", 2160), ("24h", 8640)].lookup period).getD 360

structure Resources (S : Type) where
  /-- `{}` where there is none. -/
  latest : Option S
  points : List S

/-- What `resources` makes of the two keys that it reads. -/
def resources (codec : Codec S Raw) (period : String) (raw : Option Raw) (series : List Raw) : Resources S where
  latest := raw.bind codec.loads
  points := (lrange (periodPoints period) series).filterMap codec.loads

/-! ## Pipelines -/

structure Pipeline (S : Type) where
  instanceId : String
  snap : S
  /-- How many of its commands have run. -/
  ran : Nat

/-- A command that has run, of the pipeline with the number. -/
structure Ran (S : Type) where
  pipeline : Nat
  instanceId : String
  command : Command
  snap : S
  time : Int

structure World (S Raw : Type) where
  now : Int
  keys : String → InstanceKeys Raw
  pipelines : List (Pipeline S)
  /-- The newest in front. -/
  log : List (Ran S)

inductive Act (S : Type) where
  | publish (instanceId : String) (snap : S)
  | execute (i : Nat) (now : Int)

def World.initial : World S Raw := ⟨0, fun _ => ⟨none, [], none⟩, [], []⟩

namespace World

variable (codec : Codec S Raw)

def execute (w : World S Raw) (i : Nat) (p : Pipeline S) (c : Command) (now : Int) : World S Raw where
  now := now
  keys := Function.update w.keys p.instanceId (c.run (codec.dumps p.snap) now (w.keys p.instanceId))
  pipelines := w.pipelines.set i { p with ran := p.ran + 1 }
  log := ⟨i, p.instanceId, c, p.snap, now⟩ :: w.log

def step (w : World S Raw) : Act S → Option (World S Raw)
  | .publish instanceId snap => some { w with pipelines := w.pipelines ++ [⟨instanceId, snap, 0⟩] }
  | .execute i now => do
    let p ← w.pipelines[i]?
    let c ← publishRedis[p.ran]?
    if w.now ≤ now then some (w.execute codec i p c now) else none

/-- What has been pushed for the instance, the newest in front. -/
def pushes (w : World S Raw) (instanceId : String) : List (Ran S) :=
  w.log.filter fun e => e.instanceId = instanceId ∧ e.command = .lpushSeries

/-- The last command that has set `latest`. -/
def lastLatest (w : World S Raw) (instanceId : String) : Option (Ran S) :=
  w.log.find? fun e => e.instanceId = instanceId ∧ e.command = .setexLatest

/-- Pipelines between `LPUSH` and `LTRIM`. -/
def untrimmed (w : World S Raw) (instanceId : String) : Nat :=
  w.pipelines.countP fun p => p.instanceId = instanceId ∧ p.ran = 2

end World

/-! ## A step -/

variable {codec : Codec S Raw} {w w' : World S Raw} {a : Act S} {i : Nat} {p : Pipeline S} {c : Command} {now : Int}
  {instanceId : String} {as : List (Act S)}

def Command.index : Command → Nat
  | .setexLatest => 0
  | .lpushSeries => 1
  | .ltrimSeries => 2
  | .setexHeartbeat => 3

theorem publishRedis_index {k : Nat} (h : publishRedis[k]? = some c) : k = c.index := by
  have hk : k < 4 := (List.getElem?_eq_some_iff.mp h).1
  obtain rfl | rfl | rfl | rfl : k = 0 ∨ k = 1 ∨ k = 2 ∨ k = 3 := by omega
  all_goals
    cases h
    rfl

theorem index_inj {c c' : Command} (h : c.index = c'.index) : c = c' := by
  cases c <;> cases c' <;> simp [Command.index] at h ⊢

theorem step_cases (h : w.step codec a = some w') :
    (∃ instanceId snap, w' = { w with pipelines := w.pipelines ++ [⟨instanceId, snap, 0⟩] }) ∨
    ∃ i p c now, w.pipelines[i]? = some p ∧ p.ran = c.index ∧ w' = w.execute codec i p c now := by
  cases a with
  | publish instanceId snap => exact .inl ⟨instanceId, snap, (Option.some_inj.mp h).symm⟩
  | execute i now =>
    simp only [World.step, Option.bind_eq_bind, Option.bind_eq_some_iff, Option.ite_none_right_eq_some,
      Option.some.injEq] at h
    obtain ⟨p, hp, c, hc, -, rfl⟩ := h
    exact .inr ⟨i, p, c, now, hp, publishRedis_index hc, rfl⟩

namespace World

/-- Every command in the log is one of a pipeline, which has run it once. -/
structure Logged (w : World S Raw) : Prop where
  own : ∀ e ∈ w.log, ∃ p, w.pipelines[e.pipeline]? = some p ∧ p.instanceId = e.instanceId ∧ p.snap = e.snap ∧
    e.command.index < p.ran
  once : (w.log.map fun e => (e.pipeline, e.command)).Nodup
  every : ∀ i p c, w.pipelines[i]? = some p → c.index < p.ran →
    ∃ e ∈ w.log, e.pipeline = i ∧ e.command = c

structure Kept (codec : Codec S Raw) (w : World S Raw) (instanceId : String) : Prop where
  series : Holds seriesMaxLen (w.untrimmed instanceId) ((w.pushes instanceId).map fun e => codec.dumps e.snap)
    (w.keys instanceId).series
  latest : (w.keys instanceId).latest =
    (w.lastLatest instanceId).map fun e => ⟨codec.dumps e.snap, e.time + metricsLatestTtl⟩

theorem logged_initial : (initial : World S Raw).Logged := by
  constructor <;> simp [initial]

theorem Logged.publish (h : w.Logged) (instanceId : String) (snap : S) :
    ({ w with pipelines := w.pipelines ++ [⟨instanceId, snap, 0⟩] } : World S Raw).Logged := by
  refine ⟨fun e he => ?_, h.once, fun i p c hp hc => ?_⟩
  · obtain ⟨p, hp, hrest⟩ := h.own e he
    obtain ⟨hlt, -⟩ := List.getElem?_eq_some_iff.mp hp
    exact ⟨p, by rw [List.getElem?_append_left hlt, hp], hrest⟩
  · rw [List.getElem?_append] at hp
    split_ifs at hp
    · exact h.every i p c hp hc
    · have hnew := List.mem_singleton.mp (List.mem_of_getElem? hp)
      simp [hnew] at hc

theorem execute_pipelines (w : World S Raw) (hp : w.pipelines[i]? = some p) (j : Nat) :
    (w.execute codec i p c now).pipelines[j]? =
      if i = j then some { p with ran := p.ran + 1 } else w.pipelines[j]? := by
  obtain ⟨hlt, -⟩ := List.getElem?_eq_some_iff.mp hp
  by_cases hij : i = j
  · subst hij
    simp [execute, hlt]
  · simp [execute, hij]

theorem Logged.execute (h : w.Logged) (hp : w.pipelines[i]? = some p) (hran : p.ran = c.index) :
    (w.execute codec i p c now).Logged := by
  refine ⟨fun e he => ?_, ?_, fun j q c' hq hc' => ?_⟩
  · rcases List.mem_cons.mp he with rfl | he
    · exact ⟨{ p with ran := p.ran + 1 }, by rw [execute_pipelines w hp, if_pos rfl], rfl, rfl, by simp [hran]⟩
    · obtain ⟨q, hq, hid, hsnap, hindex⟩ := h.own e he
      rw [execute_pipelines w hp]
      split_ifs with hi
      · obtain rfl : p = q := Option.some_inj.mp (hp.symm.trans (hi ▸ hq))
        exact ⟨_, rfl, hid, hsnap, Nat.lt_succ_of_lt hindex⟩
      · exact ⟨q, hq, hid, hsnap, hindex⟩
  · -- The pipeline has run the commands in front of this one only.
    refine List.nodup_cons.mpr ⟨fun hmem => ?_, h.once⟩
    obtain ⟨e, he, hpair⟩ := List.mem_map.mp hmem
    obtain ⟨hi, hc⟩ : e.pipeline = i ∧ e.command = c := Prod.mk.inj hpair
    obtain ⟨q, hq, -, -, hindex⟩ := h.own e he
    obtain rfl : p = q := Option.some_inj.mp (hp.symm.trans (hi ▸ hq))
    rw [hc, hran] at hindex
    exact Nat.lt_irrefl _ hindex
  · rw [execute_pipelines w hp] at hq
    split_ifs at hq with hi
    · obtain rfl := Option.some_inj.mp hq
      rcases Nat.lt_succ_iff_lt_or_eq.mp hc' with hlt | heq
      · obtain ⟨e, he, hrest⟩ := h.every i p c' hp hlt
        exact ⟨e, List.mem_cons_of_mem _ he, hi ▸ hrest⟩
      · obtain rfl := index_inj (heq.trans hran)
        exact ⟨_, List.mem_cons_self, hi, rfl⟩
    · obtain ⟨e, he, hrest⟩ := h.every j q c' hq hc'
      exact ⟨e, List.mem_cons_of_mem _ he, hrest⟩

theorem run_logged (h : run (step codec) initial as = some w) : w.Logged := by
  refine run_keeps (fun w a w' hw hstep => ?_) h logged_initial
  obtain ⟨instanceId, snap, rfl⟩ | ⟨i, p, c, now, hp, hran, rfl⟩ := step_cases hstep
  · exact hw.publish instanceId snap
  · exact hw.execute hp hran

/-! ## The keys -/

theorem execute_keys (w : World S Raw) : (w.execute codec i p c now).keys instanceId =
    if p.instanceId = instanceId then c.run (codec.dumps p.snap) now (w.keys instanceId) else w.keys instanceId := by
  by_cases hid : instanceId = p.instanceId
  · subst hid
    simp [execute]
  · simp [execute, hid, Ne.symm hid]

theorem execute_pushes (w : World S Raw) : (w.execute codec i p c now).pushes instanceId =
    if p.instanceId = instanceId ∧ c = .lpushSeries then ⟨i, p.instanceId, c, p.snap, now⟩ :: w.pushes instanceId
    else w.pushes instanceId := by
  simp only [pushes, execute, List.filter_cons, decide_eq_true_eq]

theorem execute_lastLatest (w : World S Raw) : (w.execute codec i p c now).lastLatest instanceId =
    if p.instanceId = instanceId ∧ c = .setexLatest then some ⟨i, p.instanceId, c, p.snap, now⟩
    else w.lastLatest instanceId := by
  simp only [lastLatest, execute, List.find?_cons]
  by_cases hset : p.instanceId = instanceId ∧ c = .setexLatest
  · simp [hset]
  · simp [hset]

theorem execute_untrimmed (w : World S Raw) (codec : Codec S Raw) (now : Int) (instanceId : String)
    (hp : w.pipelines[i]? = some p) (hran : p.ran = c.index) :
    (w.execute codec i p c now).untrimmed instanceId + (if p.instanceId = instanceId ∧ c = .ltrimSeries then 1 else 0) =
      w.untrimmed instanceId + if p.instanceId = instanceId ∧ c = .lpushSeries then 1 else 0 := by
  obtain ⟨hlt, hget⟩ := List.getElem?_eq_some_iff.mp hp
  have hpos : p.instanceId = instanceId ∧ c = .ltrimSeries → 0 < w.untrimmed instanceId := by
    rintro ⟨hid, rfl⟩
    exact List.countP_pos_iff.mpr ⟨p, List.mem_of_getElem? hp, by simp [hid, hran, Command.index]⟩
  unfold untrimmed at hpos ⊢
  simp only [World.execute, List.countP_set hlt, hget, hran]
  generalize List.countP _ w.pipelines = n at hpos ⊢
  by_cases hid : p.instanceId = instanceId
  · cases c <;> simp [hid, Command.index] at hpos ⊢
    omega
  · simp [hid]

theorem Kept.execute_series (h : w.Kept codec instanceId) (hp : w.pipelines[i]? = some p) (hran : p.ran = c.index) :
    Holds seriesMaxLen ((w.execute codec i p c now).untrimmed instanceId)
      (((w.execute codec i p c now).pushes instanceId).map fun e => codec.dumps e.snap)
      ((w.execute codec i p c now).keys instanceId).series := by
  have hseries := h.series
  have huntrimmed := w.execute_untrimmed codec now instanceId hp hran
  rw [execute_keys, execute_pushes]
  by_cases hid : p.instanceId = instanceId
  · rw [if_pos hid]
    cases c with
    | setexLatest =>
      have hcount : (w.execute codec i p .setexLatest now).untrimmed instanceId = w.untrimmed instanceId := by
        simpa using huntrimmed
      rw [hcount]
      simpa [Command.run] using hseries
    | lpushSeries =>
      have hcount : (w.execute codec i p .lpushSeries now).untrimmed instanceId = w.untrimmed instanceId + 1 := by
        simpa [hid] using huntrimmed
      rw [hcount]
      simpa [hid, Command.run] using hseries.lpush (codec.dumps p.snap)
    | ltrimSeries => simpa [Command.run] using hseries.ltrim _
    | setexHeartbeat =>
      have hcount : (w.execute codec i p .setexHeartbeat now).untrimmed instanceId = w.untrimmed instanceId := by
        simpa using huntrimmed
      rw [hcount]
      simpa [Command.run] using hseries
  · have hcount : (w.execute codec i p c now).untrimmed instanceId = w.untrimmed instanceId := by
      simpa [hid] using huntrimmed
    rw [hcount]
    simpa [hid] using hseries

theorem Kept.execute_latest (h : w.Kept codec instanceId) : ((w.execute codec i p c now).keys instanceId).latest =
    ((w.execute codec i p c now).lastLatest instanceId).map fun e =>
      ⟨codec.dumps e.snap, e.time + metricsLatestTtl⟩ := by
  have hlatest := h.latest
  rw [execute_keys, execute_lastLatest]
  by_cases hid : p.instanceId = instanceId
  · cases c <;> simp [hid, Command.run, hlatest]
  · simp [hid, hlatest]

theorem Kept.publish (h : w.Kept codec instanceId) (publisher : String) (snap : S) :
    ({ w with pipelines := w.pipelines ++ [⟨publisher, snap, 0⟩] } : World S Raw).Kept codec instanceId where
  series := by
    have hcount : ({ w with pipelines := w.pipelines ++ [⟨publisher, snap, 0⟩] } : World S Raw).untrimmed instanceId =
        w.untrimmed instanceId := by simp [untrimmed]
    rw [hcount]
    exact h.series
  latest := h.latest

theorem run_kept (h : run (step codec) initial as = some w) (instanceId : String) : w.Kept codec instanceId := by
  refine run_keeps (I := fun w => w.Kept codec instanceId) (fun w a w' hw hstep => ?_) h
    ⟨holds_nil seriesMaxLen, rfl⟩
  obtain ⟨publisher, snap, rfl⟩ | ⟨i, p, c, now, hp, hran, rfl⟩ := step_cases hstep
  · exact hw.publish publisher snap
  · exact ⟨hw.execute_series hp hran, hw.execute_latest⟩

end World

/-! ## What the panel shows -/

theorem periodPoints_le (period : String) : periodPoints period ≤ seriesMaxLen := by
  simp only [periodPoints, List.lookup_cons, List.lookup_nil]
  repeat' split
  all_goals simp [seriesMaxLen]

theorem latest_shown (h : w.Kept codec instanceId) (now : Int) :
    (Expiring.get now (w.keys instanceId).latest).bind codec.loads =
      ((w.lastLatest instanceId).filter fun e => now < e.time + metricsLatestTtl).map Ran.snap := by
  rw [h.latest]
  cases w.lastLatest instanceId with
  | none => rfl
  | some e =>
    simp only [Expiring.get, Option.map_some, Option.filter_some]
    split_ifs
    · exact codec.loads_dumps e.snap
    · rfl

theorem points_shown (h : w.Kept codec instanceId) (period : String) :
    (lrange (periodPoints period) (w.keys instanceId).series).filterMap codec.loads =
      ((w.pushes instanceId).take (periodPoints period + 1)).map Ran.snap := by
  have hloads : codec.loads ∘ (fun e : Ran S => codec.dumps e.snap) = fun e => some e.snap :=
    funext fun e => codec.loads_dumps e.snap
  rw [h.series.lrange (periodPoints_le period), ← List.map_take, List.filterMap_map, hloads]
  exact congrFun List.filterMap_eq_map' _

theorem pushes_once (h : w.Logged) : ((w.pushes instanceId).map Ran.pipeline).Nodup := by
  have hpair : ((w.pushes instanceId).map fun e => (e.pipeline, e.command)).Nodup :=
    h.once.sublist (List.filter_sublist.map _)
  have hcommand : (w.pushes instanceId).map (fun e => (e.pipeline, e.command)) =
      ((w.pushes instanceId).map Ran.pipeline).map fun i => (i, Command.lpushSeries) := by
    rw [List.map_map]
    refine List.map_congr_left fun e he => ?_
    have hpush := (List.mem_filter.mp he).2
    simp only [decide_eq_true_eq] at hpush
    simp [hpush.2]
  rw [hcommand] at hpair
  exact List.Nodup.of_map _ hpair

theorem push_of_ran (h : w.Logged) (hp : w.pipelines[i]? = some p) (hran : 1 < p.ran) :
    ∃ e ∈ w.pushes p.instanceId, e.pipeline = i ∧ e.snap = p.snap := by
  obtain ⟨e, he, rfl, hcommand⟩ := h.every i p .lpushSeries hp hran
  obtain ⟨q, hq, hid, hsnap, -⟩ := h.own e he
  obtain rfl : p = q := Option.some_inj.mp (hp.symm.trans hq)
  exact ⟨e, List.mem_filter.mpr ⟨he, by simp [hid, hcommand]⟩, rfl, hsnap.symm⟩

/-- `resources`, whose two reads are in two states of a run. It shows the newest snapshots that have been pushed, each
of a pipeline of its own, and of `latest` the one that has been set last, unless it has expired. The list is longer than
its cap by no more than the pipelines that have stopped in front of `LTRIM`. -/
theorem resources_shown {w₁ w₂ : World S Raw} {as₁ as₂ : List (Act S)}
    (h₁ : run (World.step codec) .initial as₁ = some w₁) (h₂ : run (World.step codec) w₁ as₂ = some w₂) (now : Int)
    (instanceId period : String) :
    resources codec period (Expiring.get now (w₁.keys instanceId).latest) (w₂.keys instanceId).series =
        { latest := ((w₁.lastLatest instanceId).filter fun e => now < e.time + metricsLatestTtl).map Ran.snap
          points := ((w₂.pushes instanceId).take (periodPoints period + 1)).map Ran.snap } ∧
      ((w₂.pushes instanceId).map Ran.pipeline).Nodup ∧
      (∀ i p, w₂.pipelines[i]? = some p → p.instanceId = instanceId → 1 < p.ran →
        ∃ e ∈ w₂.pushes instanceId, e.pipeline = i ∧ e.snap = p.snap) ∧
      (w₂.keys instanceId).series.length ≤ seriesMaxLen + 1 + w₂.untrimmed instanceId := by
  have hrun : run (World.step codec) .initial (as₁ ++ as₂) = some w₂ := run_append_eq_some.mpr ⟨w₁, h₁, h₂⟩
  have hlogged := World.run_logged hrun
  have hkept := World.run_kept hrun instanceId
  refine ⟨?_, pushes_once hlogged, ?_, hkept.series.length⟩
  · unfold resources
    rw [latest_shown (World.run_kept h₁ instanceId) now, points_shown hkept period]
  · rintro i p hp rfl hran
    exact push_of_ran hlogged hp hran

def sampleCodec : Codec Nat (List Nat) where
  dumps n := [n]
  loads
    | [n] => some n
    | _ => none
  loads_dumps _ := rfl

/-- A collector has been replaced by another one, whose first pipeline runs between the commands of the last one. -/
def replaced : List (Act Nat) :=
  [.publish "node-1" 7, .publish "node-1" 8, .execute 0 10, .execute 1 10, .execute 1 10, .execute 0 11]

def replacedWorld : World Nat (List Nat) := (run (World.step sampleCodec) .initial replaced).getD .initial

theorem replaced_shown :
    resources sampleCodec "1h" (Expiring.get 100 (replacedWorld.keys "node-1").latest)
      (replacedWorld.keys "node-1").series = ⟨some 8, [7, 8]⟩ := by
  have hrun : run (World.step sampleCodec) .initial replaced = some replacedWorld := rfl
  have hread : run (World.step sampleCodec) replacedWorld [] = some replacedWorld := rfl
  rw [(resources_shown hrun hread 100 "node-1" "1h").1]
  rfl

end RdpProxy.Metrics
