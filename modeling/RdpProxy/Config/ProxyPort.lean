import RdpProxy.Config.SettingsManager

/-!
# The public port of the proxy

`proxy` has had its port under `listen_port` before, and has it under `public_port` now.
Calls of the manager one after the other, beside what the administrator has stored.
-/

open Steps

namespace RdpProxy.Config

variable {V : Type}

/-! ## The two keys -/

structure Ports (V : Type) where
  publicPort : Option V
  listenPort : Option V

namespace Ports

def ofSetting (d : Setting V) : Ports V := ⟨d.get? "public_port", d.get? "listen_port"⟩

def ofRow : Option (RowValue V) → Ports V
  | some (.dict d) => ofSetting d
  | _ => ⟨none, none⟩

/-- What is set in `q` replaces what is set in `p`. -/
def merge (p q : Ports V) : Ports V := ⟨q.publicPort.or p.publicPort, q.listenPort.or p.listenPort⟩

/-- `listen_port` goes where `stored` has the new key. -/
def drop (stored p : Ports V) : Ports V := if stored.publicPort.isSome then ⟨p.publicPort, none⟩ else p

def Single (p : Ports V) : Prop := p.publicPort = none ∨ p.listenPort = none

/-- The port that counts, with the one of the YAML file behind the two. -/
def effective (p : Ports V) (yaml : V) : V := p.publicPort.getD (p.listenPort.getD yaml)

theorem ofSetting_merge (d e : Setting V) : ofSetting (d.merge e) = (ofSetting d).merge (ofSetting e) := by
  unfold ofSetting merge
  rw [Dict.get?_merge, Dict.get?_merge]

theorem ofSetting_drop (stored d : Setting V) :
    ofSetting (dropListenPort "proxy" stored d) = drop (ofSetting stored) (ofSetting d) := by
  unfold dropListenPort drop ofSetting Dict.has
  split_ifs with h hs hs
  · simp
  · exact absurd h.2 hs
  · exact absurd ⟨rfl, hs⟩ h
  · rfl

/-- The cache is what the row gives with its clean-up, and says which port is in force. -/
structure Agree (row cached stored : Ports V) (yaml : V) : Prop where
  clean : cached = drop row row
  effective : cached.effective yaml = stored.effective yaml
  unset : cached.publicPort = none → stored.publicPort = none

theorem single_clean (p : Ports V) : (drop p p).Single := by
  obtain ⟨p, l⟩ := p
  unfold Single drop
  cases p with
  | none => exact Or.inl rfl
  | some v => exact Or.inr rfl

theorem effective_clean (p : Ports V) (yaml : V) : (drop p p).effective yaml = p.effective yaml := by
  obtain ⟨p, l⟩ := p
  cases p <;> rfl

theorem unset_clean (p : Ports V) : (drop p p).publicPort = none → p.publicPort = none := by
  unfold drop
  split_ifs <;> exact id

theorem Agree.save {row cached stored : Ports V} {yaml : V} (h : Agree row cached stored yaml) (value : Ports V) :
    let row' := drop value (row.merge value)
    let cached' := drop value (cached.merge value)
    (cached'.Single ↔ (value.listenPort.isSome = true → value.publicPort = none → cached.publicPort = none)) ∧
      (cached'.Single → Agree row' cached' (stored.merge value) yaml) := by
  obtain ⟨hclean, heff, hunset⟩ := h
  obtain ⟨rp, rl⟩ := row
  obtain ⟨sp, sl⟩ := stored
  obtain ⟨vp, vl⟩ := value
  subst hclean
  intro row' cached'
  constructor
  · unfold Single cached' drop merge
    cases vp <;> cases vl <;> cases rp <;> simp
  · intro hs
    unfold Single cached' drop merge at hs
    unfold Ports.effective drop at heff
    unfold drop at hunset
    refine ⟨?_, ?_, ?_⟩
    · unfold cached' row' drop merge
      cases vp <;> cases vl <;> cases rp <;> simp_all
    · unfold cached' drop merge Ports.effective
      cases vp <;> cases vl <;> cases rp <;> simp_all
    · unfold cached' drop merge
      cases vp <;> cases vl <;> cases rp <;> simp_all

end Ports

/-! ## Calls one after the other -/

structure PortState (V : Type) where
  settings : Settings V
  /-- What the administrator has stored last under each of the two keys. -/
  stored : Ports V

inductive Call (V : Type) where
  | load (now : Int)
  | get (now : Int) (key : String)
  | save (key : String) (value : Setting V) (now : Int) (cipher : V)

/-- The parts of the process that stay as they are. -/
structure Deployment (V : Type) where
  base : AppConfig V
  vals : Values V
  /-- The ciphertext of the LDAP password in the YAML file. -/
  cipher : V

namespace PortState

def step (env : Deployment V) (s : PortState V) : Call V → Option (PortState V)
  | .load now => some { s with settings := s.settings.load env.base env.vals now env.cipher }
  | .get now _ => some { s with settings := s.settings.refreshIfStale env.base env.vals now env.cipher }
  | .save key value now cipher =>
    some ⟨s.settings.save env.vals key value now cipher,
      if key = "proxy" then s.stored.merge (.ofSetting value) else s.stored⟩

/-- The manager after its first call, which is `load`. -/
def start (env : Deployment V) (rows : String → Option (RowValue V)) (now : Int) : PortState V :=
  ⟨(Settings.initial rows).load env.base env.vals now env.cipher, .ofRow (rows "proxy")⟩

/-- The cache has one of the two keys at most, and the port in force is the one stored. -/
def PortRight (base : AppConfig V) (s : PortState V) : Prop :=
  (∀ d, s.settings.cache "proxy" = some d → ¬ (d.has "public_port" = true ∧ d.has "listen_port" = true)) ∧
    (s.settings.proxyParams base).publicPort = s.stored.effective base.publicPort

/-- A saved value that has only the legacy key meets a cache that has no `public_port`. -/
def LegacyPortAlone (s : PortState V) : Call V → Prop
  | .save key value _ _ =>
    key = "proxy" → value.has "listen_port" = true → value.has "public_port" = false →
      ∀ d, s.settings.cache "proxy" = some d → d.has "public_port" = false
  | _ => True

/-- A row with the legacy key lacks nothing that the seeding would add. -/
def NothingToPatch (row : Option (RowValue V)) : Prop :=
  ∀ d, row = some (.dict d) → d.has "listen_port" = true → d.has "public_port" = true ∧ d.has "public_host" = true

/-- The row, the cache and what has been stored, once the manager has loaded. -/
def Synced (base : AppConfig V) (s : PortState V) : Prop :=
  s.settings.seeded = true ∧
    match s.settings.rows "proxy" with
    | none => False
    | some .other => s.settings.cache "proxy" = none ∧ s.stored = ⟨none, none⟩
    | some (.dict d) => ∃ c, s.settings.cache "proxy" = some c ∧
        Ports.Agree (.ofSetting d) (.ofSetting c) s.stored base.publicPort

variable {base : AppConfig V} {s : PortState V}

theorem portRight_of_cached {c : Setting V} (hc : s.settings.cache "proxy" = some c) :
    s.PortRight base ↔ (Ports.ofSetting c).Single ∧
      (Ports.ofSetting c).effective base.publicPort = s.stored.effective base.publicPort := by
  unfold PortRight Settings.proxyParams Ports.Single Ports.ofSetting Ports.effective
  rw [hc]
  simp only [Option.some.injEq, forall_eq', not_and, Bool.not_eq_true, Dict.has_eq_false]
  refine and_congr_left fun _ => ?_
  unfold Dict.has
  cases c.get? "public_port" <;> simp

theorem Synced.portRight_eq {d c : Setting V} (hc : s.settings.cache "proxy" = some c)
    (h : Ports.Agree (.ofSetting d) (.ofSetting c) s.stored base.publicPort) :
    s.PortRight base ↔ (Ports.ofSetting c).Single :=
  (portRight_of_cached hc).trans (and_iff_left h.effective)

theorem portRight_of_uncached (hc : s.settings.cache "proxy" = none) (hs : s.stored = ⟨none, none⟩) :
    s.PortRight base := by
  unfold PortRight Settings.proxyParams
  rw [hc, hs]
  refine ⟨?_, rfl⟩
  rintro d ⟨⟩

/-! ### The first load -/

theorem proxyFallback_get? (env : Deployment V) {fallback : Setting V}
    (h : env.base.getFallback env.vals "proxy" = some fallback) (k : String) :
    fallback.get? k = if k = "public_port" then some env.base.publicPort
      else if k = "public_host" then some env.base.publicHost else none := by
  cases h
  exact (Dict.get?_set _ _ _ k).trans (by rw [Dict.get?_set]; rfl)

theorem missing_get? (env : Deployment V) {fallback : Setting V}
    (h : env.base.getFallback env.vals "proxy" = some fallback) (d : Setting V) (k : String) :
    (missing "proxy" fallback (dropListenPort "proxy" d d)).get? k = if d.has k then none else fallback.get? k := by
  unfold missing
  rw [if_neg (by decide), Dict.get?_filterKeys, proxyFallback_get? env h]
  unfold dropListenPort
  by_cases hk : k = "listen_port"
  · simp [hk]
  · split_ifs <;> simp_all [Dict.has]

theorem seedValue_dict (env : Deployment V) (d : Setting V) :
    (seedValue env.base env.vals env.cipher "proxy" (loadedRow "proxy" (some (.dict d))) (some (.dict d)) = none ∧
        d.has "public_host" = true ∧ d.has "public_port" = true) ∨
      ∃ p, seedValue env.base env.vals env.cipher "proxy" (loadedRow "proxy" (some (.dict d))) (some (.dict d)) =
          some p ∧ ¬ (d.has "public_host" = true ∧ d.has "public_port" = true) ∧
        Ports.ofSetting p = ⟨some ((d.get? "public_port").getD env.base.publicPort), d.get? "listen_port"⟩ := by
  obtain ⟨fallback, hf⟩ : ∃ fallback, env.base.getFallback env.vals "proxy" = some fallback := ⟨_, rfl⟩
  have hget := proxyFallback_get? env hf
  have hmissing := missing_get? env hf d
  have hnonempty : ¬ fallback.entries.isEmpty = true := by
    rw [Dict.isEmpty_iff]
    intro h
    have hport := hget "public_port"
    rw [h] at hport
    cases hport
  unfold seedValue loadedRow
  simp only [hf, if_neg hnonempty]
  by_cases hall : d.has "public_host" = true ∧ d.has "public_port" = true
  · left
    refine ⟨if_pos ?_, hall⟩
    rw [Dict.isEmpty_iff]
    intro k
    rw [hmissing, hget]
    split_ifs with hd hport hhost
    · rfl
    · exact absurd (hport ▸ hall.2) hd
    · exact absurd (hhost ▸ hall.1) hd
    · rfl
  · right
    refine ⟨d.merge (missing "proxy" fallback (dropListenPort "proxy" d d)), if_neg ?_, hall, ?_⟩
    · rw [Dict.isEmpty_iff]
      intro h
      have hhas : ∀ k v, fallback.get? k = some v → d.has k = true := by
        intro k v hk
        have := (hmissing k).symm.trans (h k)
        by_contra hd
        rw [if_neg hd, hk] at this
        cases this
      exact hall ⟨hhas _ _ (hget "public_host"), hhas _ _ (hget "public_port")⟩
    · unfold Ports.ofSetting
      rw [Dict.get?_merge, Dict.get?_merge, hmissing, hmissing, hget, hget]
      unfold Dict.has
      cases d.get? "public_port" <;> simp

section

variable (env : Deployment V) {rows : String → Option (RowValue V)} (now : Int)

theorem start_proxy (rows : String → Option (RowValue V)) :
    let written := seedValue env.base env.vals env.cipher "proxy" (loadedRow "proxy" (rows "proxy")) (rows "proxy")
    (start env rows now).settings.rows "proxy" = (written.map RowValue.dict).or (rows "proxy") ∧
      (start env rows now).settings.cache "proxy" = written.or (loadedRow "proxy" (rows "proxy")) :=
  Settings.foldl_seedKey env.base env.vals env.cipher "proxy" managedKeys (by decide)
    ((Settings.initial rows).refresh now) (by decide)

theorem start_of_none (hrow : rows "proxy" = none) :
    (start env rows now).PortRight env.base ∧ Synced env.base (start env rows now) := by
  obtain ⟨fallback, hf⟩ : ∃ fallback, env.base.getFallback env.vals "proxy" = some fallback := ⟨_, rfl⟩
  have hvalue : seedValue env.base env.vals env.cipher "proxy" (loadedRow "proxy" none) none = some fallback := by
    cases hf
    rfl
  have hports : Ports.ofSetting fallback = ⟨some env.base.publicPort, none⟩ := by
    unfold Ports.ofSetting
    rw [proxyFallback_get? env hf, proxyFallback_get? env hf]
    rfl
  obtain ⟨hrows, hcache⟩ := start_proxy env now rows
  have hstored : (start env rows now).stored = .ofRow (rows "proxy") := rfl
  rw [hrow] at hstored
  rw [hrow, hvalue] at hrows hcache
  have hagree : Ports.Agree (.ofSetting fallback) (.ofSetting fallback) (start env rows now).stored
      env.base.publicPort := by
    rw [hports, hstored]
    exact ⟨rfl, rfl, fun _ => rfl⟩
  refine ⟨(Synced.portRight_eq hcache hagree).mpr ?_, rfl, ?_⟩
  · rw [hports]
    exact Or.inr rfl
  · rw [hrows]
    exact ⟨fallback, hcache, hagree⟩

theorem start_of_other (hrow : rows "proxy" = some .other) :
    (start env rows now).PortRight env.base ∧ Synced env.base (start env rows now) := by
  obtain ⟨hrows, hcache⟩ := start_proxy env now rows
  have hstored : (start env rows now).stored = .ofRow (rows "proxy") := rfl
  have hnone : (start env rows now).settings.cache "proxy" = none := by
    rw [hcache, hrow]
    rfl
  rw [hrow] at hstored
  refine ⟨portRight_of_uncached hnone hstored, rfl, ?_⟩
  rw [hrows, hrow]
  exact ⟨hnone, hstored⟩

theorem start_of_whole {d : Setting V} (hrow : rows "proxy" = some (.dict d)) (hhost : d.has "public_host" = true)
    (hport : d.has "public_port" = true) :
    (start env rows now).PortRight env.base ∧ Synced env.base (start env rows now) := by
  obtain ⟨hrows, hcache⟩ := start_proxy env now rows
  have hstored : (start env rows now).stored = .ofRow (rows "proxy") := rfl
  obtain ⟨v, hv⟩ := Dict.has_iff.mp hport
  rcases seedValue_dict env d with ⟨hvalue, _⟩ | ⟨p, _, hlacks, _⟩
  · rw [hrow] at hstored
    rw [hrow, hvalue] at hrows hcache
    have hclean : Ports.ofSetting (dropListenPort "proxy" d d) = Ports.drop (.ofSetting d) (.ofSetting d) :=
      Ports.ofSetting_drop d d
    have hagree : Ports.Agree (.ofSetting d) (.ofSetting (dropListenPort "proxy" d d)) (start env rows now).stored
        env.base.publicPort := by
      rw [hclean, hstored]
      refine ⟨rfl, ?_, ?_⟩
      · simp [Ports.drop, Ports.effective, Ports.ofSetting, Ports.ofRow, hv]
      · simp [Ports.drop, Ports.ofSetting, hv]
    refine ⟨(Synced.portRight_eq hcache hagree).mpr ?_, rfl, ?_⟩
    · rw [hclean]
      exact Ports.single_clean _
    · rw [hrows]
      exact ⟨_, hcache, hagree⟩
  · exact absurd ⟨hhost, hport⟩ hlacks

/-- A row that lacks a key is patched, and its legacy key comes back with the patch. -/
theorem start_of_patched {d : Setting V} (hrow : rows "proxy" = some (.dict d))
    (hlacks : ¬ (d.has "public_host" = true ∧ d.has "public_port" = true)) :
    ((start env rows now).PortRight env.base ↔ d.get? "listen_port" = none) ∧
      (d.get? "listen_port" = none → Synced env.base (start env rows now)) := by
  obtain ⟨hrows, hcache⟩ := start_proxy env now rows
  have hstored : (start env rows now).stored = .ofRow (rows "proxy") := rfl
  rcases seedValue_dict env d with ⟨_, hwhole⟩ | ⟨p, hvalue, _, hports⟩
  · exact absurd hwhole hlacks
  · rw [hrow] at hstored
    rw [hrow, hvalue] at hrows hcache
    have hsame : d.get? "listen_port" = none →
        (Ports.ofSetting p).effective env.base.publicPort =
          (start env rows now).stored.effective env.base.publicPort := by
      intro hd
      rw [hports, hstored]
      simp [Ports.effective, Ports.ofRow, Ports.ofSetting, hd]
    constructor
    · rw [portRight_of_cached hcache]
      refine ⟨?_, fun hd => ⟨?_, hsame hd⟩⟩
      · rintro ⟨hsingle, _⟩
        simpa [Ports.Single, hports] using hsingle
      · rw [hports]
        exact Or.inr hd
    · intro hd
      refine ⟨rfl, ?_⟩
      rw [hrows]
      refine ⟨p, hcache, ?_, hsame hd, ?_⟩
      · rw [hports, hd]
        rfl
      · rw [hports]
        rintro ⟨⟩

theorem start_portRight_iff (rows : String → Option (RowValue V)) :
    ((start env rows now).PortRight env.base ↔ NothingToPatch (rows "proxy")) ∧
      ((start env rows now).PortRight env.base → Synced env.base (start env rows now)) := by
  rcases hrow : rows "proxy" with _ | d | _
  · obtain ⟨hright, hsynced⟩ := start_of_none env now hrow
    refine ⟨iff_of_true hright ?_, fun _ => hsynced⟩
    rintro d ⟨⟩
  · by_cases hwhole : d.has "public_host" = true ∧ d.has "public_port" = true
    · obtain ⟨hright, hsynced⟩ := start_of_whole env now hrow hwhole.1 hwhole.2
      refine ⟨iff_of_true hright ?_, fun _ => hsynced⟩
      rintro _ ⟨⟩ _
      exact hwhole.symm
    · obtain ⟨hright, hsynced⟩ := start_of_patched env now hrow hwhole
      refine ⟨hright.trans ?_, fun h => hsynced (hright.mp h)⟩
      rw [← Dict.has_eq_false]
      constructor
      · rintro hd _ ⟨⟩ hl
        rw [hl] at hd
        cases hd
      · intro h
        by_contra hd
        rw [Bool.not_eq_false] at hd
        exact hwhole (h d rfl hd).symm
  · obtain ⟨hright, hsynced⟩ := start_of_other env now hrow
    refine ⟨iff_of_true hright ?_, fun _ => hsynced⟩
    rintro d ⟨⟩

end

/-! ### Later calls -/

theorem refresh_keeps (now : Int) (hs : Synced base s) :
    (PortRight base ⟨s.settings.refresh now, s.stored⟩ ↔ s.PortRight base) ∧
      Synced base ⟨s.settings.refresh now, s.stored⟩ := by
  obtain ⟨hseeded, hs⟩ := hs
  have hcache : (s.settings.refresh now).cache "proxy" = loadedRow "proxy" (s.settings.rows "proxy") := rfl
  have hrows : (s.settings.refresh now).rows "proxy" = s.settings.rows "proxy" := rfl
  unfold Synced
  rw [hrows]
  rcases hrow : s.settings.rows "proxy" with _ | d | _
  · rw [hrow] at hs
    exact hs.elim
  · rw [hrow] at hs hcache
    obtain ⟨c, hc, hagree⟩ := hs
    have hsame : Ports.ofSetting (dropListenPort "proxy" d d) = Ports.ofSetting c :=
      (Ports.ofSetting_drop d d).trans hagree.clean.symm
    have hagree' : Ports.Agree (.ofSetting d) (.ofSetting (dropListenPort "proxy" d d)) s.stored base.publicPort := by
      rw [hsame]
      exact hagree
    refine ⟨?_, hseeded, _, hcache, hagree'⟩
    rw [Synced.portRight_eq hc hagree, Synced.portRight_eq (s := ⟨s.settings.refresh now, s.stored⟩) hcache hagree',
      hsame]
  · rw [hrow] at hs hcache
    exact ⟨iff_of_true (portRight_of_uncached hcache hs.2) (portRight_of_uncached hs.1 hs.2), hseeded, hcache, hs.2⟩

theorem load_seeded {vals : Values V} {now : Int} {cipher : V} {settings : Settings V}
    (h : settings.seeded = true) : settings.load base vals now cipher = settings.refresh now := by
  unfold Settings.load
  rw [if_pos h]

theorem save_other (vals : Values V) {key : String} (value : Setting V) (now : Int) (cipher : V)
    (hkey : key ≠ "proxy") (hs : Synced base s) :
    (PortRight base ⟨s.settings.save vals key value now cipher, s.stored⟩ ↔ s.PortRight base) ∧
      Synced base ⟨s.settings.save vals key value now cipher, s.stored⟩ := by
  unfold PortRight Synced Settings.proxyParams
  rw [Settings.save_cache, Settings.save_rows, if_neg hkey.symm, if_neg hkey.symm]
  exact ⟨Iff.rfl, hs⟩

theorem save_proxy {vals : Values V} {value : Setting V} {now : Int} {cipher : V} (hs : Synced base s) :
    let s' : PortState V := ⟨s.settings.save vals "proxy" value now cipher, s.stored.merge (.ofSetting value)⟩
    (s'.PortRight base ↔ s.LegacyPortAlone (.save "proxy" value now cipher)) ∧ (s'.PortRight base → Synced base s') := by
  intro s'
  have hvalue : storeValue vals "proxy" value cipher = value := if_neg (by decide)
  have hcache : s'.settings.cache "proxy" = some (savedCache "proxy" value (s.settings.cache "proxy")) := by
    rw [Settings.save_cache, if_pos rfl, hvalue]
  have hrows : s'.settings.rows "proxy" = some (.dict (savedRow "proxy" value (s.settings.rows "proxy"))) := by
    rw [Settings.save_rows, if_pos rfl, hvalue]
  obtain ⟨hseeded, hs⟩ := hs
  unfold LegacyPortAlone Synced
  rw [hrows]
  rcases hrow : s.settings.rows "proxy" with _ | d | _
  · rw [hrow] at hs
    exact hs.elim
  · rw [hrow] at hs
    obtain ⟨c, hc, hagree⟩ := hs
    rw [hc] at hcache
    obtain ⟨hsingle, hkeep⟩ := hagree.save (.ofSetting value)
    have hrow' : Ports.ofSetting (savedRow "proxy" value (some (.dict d))) =
        Ports.drop (.ofSetting value) ((Ports.ofSetting d).merge (.ofSetting value)) := by
      rw [← Ports.ofSetting_merge, ← Ports.ofSetting_drop]
      rfl
    have hcache' : Ports.ofSetting (savedCache "proxy" value (some c)) =
        Ports.drop (.ofSetting value) ((Ports.ofSetting c).merge (.ofSetting value)) := by
      rw [← Ports.ofSetting_merge, ← Ports.ofSetting_drop]
      rfl
    rw [← hcache', ← hrow'] at hkeep
    rw [← hcache'] at hsingle
    have hright : s'.PortRight base ↔ (Ports.ofSetting (savedCache "proxy" value (some c))).Single := by
      rw [portRight_of_cached hcache]
      exact ⟨fun h => h.1, fun h => ⟨h, (hkeep h).effective⟩⟩
    refine ⟨?_, fun h => ⟨hseeded, _, hcache, hkeep (hright.mp h)⟩⟩
    rw [hright, hsingle, hc]
    simp only [Option.some.injEq, forall_eq', Dict.has_eq_false, true_implies]
    rfl
  · rw [hrow] at hs
    obtain ⟨hnone, hstored⟩ := hs
    rw [hnone] at hcache
    have hcache' : Ports.ofSetting (savedCache "proxy" value none) = Ports.drop (.ofSetting value) (.ofSetting value) :=
      Ports.ofSetting_drop value value
    have hagree : Ports.Agree (.ofSetting value) (.ofSetting (savedCache "proxy" value none)) s'.stored
        base.publicPort := by
      have hstored' : s'.stored = .ofSetting value := by
        unfold s'
        rw [hstored]
        unfold Ports.merge
        rw [Option.or_none, Option.or_none]
      rw [hcache', hstored']
      exact ⟨rfl, Ports.effective_clean _ _, Ports.unset_clean _⟩
    have hright : s'.PortRight base := by
      rw [Synced.portRight_eq hcache hagree, hcache']
      exact Ports.single_clean _
    refine ⟨iff_of_true hright ?_, fun _ => ⟨hseeded, _, hcache, hagree⟩⟩
    rw [hnone]
    rintro _ _ _ d ⟨⟩

theorem step_portRight (env : Deployment V) (s : PortState V) (call : Call V) (s' : PortState V)
    (hs : Synced env.base s) (hp : s.PortRight env.base) (h : s.step env call = some s') :
    (s'.PortRight env.base ↔ s.LegacyPortAlone call) ∧ (s'.PortRight env.base → Synced env.base s') := by
  have hrefresh : ∀ now, (PortRight env.base ⟨s.settings.refresh now, s.stored⟩ ↔ True) ∧
      (PortRight env.base ⟨s.settings.refresh now, s.stored⟩ →
        Synced env.base ⟨s.settings.refresh now, s.stored⟩) := by
    intro now
    obtain ⟨hright, hsynced⟩ := refresh_keeps now hs
    exact ⟨iff_true_intro (hright.mpr hp), fun _ => hsynced⟩
  cases call with
  | load now =>
    cases h
    simp only [load_seeded hs.1]
    exact hrefresh now
  | get now key =>
    cases h
    unfold Settings.refreshIfStale
    split_ifs
    · rw [load_seeded hs.1]
      exact hrefresh now
    · exact ⟨iff_true_intro hp, fun _ => hs⟩
  | save key value now cipher =>
    cases h
    by_cases hkey : key = "proxy"
    · subst hkey
      rw [if_pos rfl]
      exact save_proxy hs
    · rw [if_neg hkey]
      obtain ⟨hright, hsynced⟩ := save_other env.vals value now cipher hkey hs
      exact ⟨iff_of_true (hright.mpr hp) fun h => absurd h hkey, fun _ => hsynced⟩

/-- The port is right in all states of a run exactly when the seeding of the first load had no
legacy row to patch and no legacy key is saved alone beside a new one. -/
theorem portRight_iff (env : Deployment V) (rows : String → Option (RowValue V)) (now : Int)
    (calls : List (Call V)) (s : PortState V) (hrun : run (step env) (start env rows now) calls = some s) :
    Throughout (step env) (PortRight env.base) (start env rows now) calls ↔
      NothingToPatch (rows "proxy") ∧ Along (step env) LegacyPortAlone (start env rows now) calls := by
  obtain ⟨hstart, hsynced⟩ := start_portRight_iff env now rows
  have hlater : (start env rows now).PortRight env.base →
      (Throughout (step env) (PortRight env.base) (start env rows now) calls ↔
        Along (step env) LegacyPortAlone (start env rows now) calls) :=
    fun hp => throughout_iff_along (I := Synced env.base) (step_portRight env) hrun (hsynced hp) hp
  constructor
  · intro h
    exact ⟨hstart.mp h.head, (hlater h.head).mp h⟩
  · rintro ⟨hrow, h⟩
    exact (hlater (hstart.mpr hrow)).mpr h

/-! ### Two deployments -/

def sampleConfig : AppConfig String where
  ldap := none
  dns := .empty
  publicHost := "rdp.example"
  publicPort := "3389"
  security := .empty
  webSessionTtl := "28800"
  webIdleTtl := "1800"
  rdpTokenTtl := "300"
  maxConnections := "100"
  idleTimeout := "3600"
  maxSessionDuration := "28800"

def sampleDeployment : Deployment String := ⟨sampleConfig, ⟨fun s => s, fun s => s ≠ ""⟩, ""⟩

/-- A row of the time before `public_port`. -/
def legacyRows (key : String) : Option (RowValue String) :=
  if key = "proxy" then some (.dict (.ofList [("public_host", "rdp.example"), ("listen_port", "3390")])) else none

theorem legacy_port_lost :
    let s := start sampleDeployment legacyRows 40000
    ¬ s.PortRight sampleConfig ∧ (s.settings.proxyParams sampleConfig).publicPort = "3389" ∧
      s.stored.effective sampleConfig.publicPort = "3390" := by
  intro s
  have hport : (s.settings.proxyParams sampleConfig).publicPort = "3389" := rfl
  refine ⟨?_, hport, rfl⟩
  rintro ⟨_, h⟩
  rw [hport] at h
  exact absurd h (by decide : ("3389" : String) ≠ "3390")

def saveAndLoad : List (Call String) :=
  [.save "proxy" (.ofList [("public_port", "3390"), ("listen_port", "3391")]) 50000 "", .load 60000, .get 100000 "dns"]

theorem portRight_saveAndLoad :
    ∃ s, run (step sampleDeployment) (start sampleDeployment (fun _ => none) 40000) saveAndLoad = some s ∧
      Throughout (step sampleDeployment) (PortRight sampleConfig) (start sampleDeployment (fun _ => none) 40000)
        saveAndLoad := by
  refine ⟨_, rfl, ?_⟩
  apply (portRight_iff sampleDeployment (fun _ => none) 40000 saveAndLoad _ rfl).mpr
  refine ⟨?_, ?_, trivial, trivial, trivial⟩
  · rintro d ⟨⟩
  · rintro _ _ ⟨⟩

end PortState

end RdpProxy.Config
