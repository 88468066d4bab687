import RdpProxy.Config.Accessors

/-!
# Loads and saves on one manager

The calls of `settings_manager.py`, cut at their awaits. The lock lets one `load` at a
time into the table; the saves know nothing of it.
-/

open Steps

namespace RdpProxy.Config

variable {T N V : Type}

/-! ## The calls in progress -/

/-- A call of `save`. -/
structure Saving (N V : Type) where
  key : String
  value : Setting V
  nonce : N

def Saving.stored (b : Backing N V) (c : Saving N V) : Setting V := Settings.sealedValue b c.key c.value c.nonce

inductive SavePhase (N V : Type) where
  | idle
  /-- It has read the row. -/
  | read (c : Saving N V) (row : Option (RowValue V))
  /-- It has committed, and the cache does not know yet. -/
  | committed (c : Saving N V)

/-- The `load` that has the lock. Beside what it works with, it keeps which saves it has seen:
in the table (`written`) and in the cache (`reached`). -/
inductive Loader (N V : Type) where
  | free
  | selected (rows : String → Option (RowValue V)) (written : List (Saving N V))
  /-- `_seed_from_yaml`, with the keys to come. -/
  | seeding (keys : List String)
  | looked (key : String) (rest : List String) (cached : Option (Setting V)) (reached : List (Saving N V))
  | rowRead (key : String) (rest : List String) (row : Option (RowValue V)) (value : Setting V)
    (reached written : List (Saving N V))
  | seeded (key : String) (rest : List String) (value : Setting V) (reached written : List (Saving N V))

structure Manager (T N V : Type) where
  settings : Settings V
  saves : T → SavePhase N V
  loader : Loader N V
  /-- The saves whose value was in the row at their COMMIT, the last one first. -/
  written : List (Saving N V)
  /-- The saves that have reached the cache, the last one first. -/
  reached : List (Saving N V)

/-- The last save of the key. -/
def lastOf (key : String) (saves : List (Saving N V)) : Option (Saving N V) := saves.find? fun c => c.key = key

theorem lastOf_cons (key : String) (c : Saving N V) (saves : List (Saving N V)) :
    lastOf key (c :: saves) = if c.key = key then some c else lastOf key saves := by
  unfold lastOf
  rw [List.find?_cons]
  split_ifs with h <;> simp [h]

theorem key_of_lastOf {key : String} {saves : List (Saving N V)} {c : Saving N V} (h : lastOf key saves = some c) :
    c.key = key := by
  unfold lastOf at h
  simpa using List.find?_some h

theorem mem_of_lastOf {key : String} {saves : List (Saving N V)} {c : Saving N V} (h : lastOf key saves = some c) :
    c ∈ saves := List.mem_of_find?_eq_some h

inductive ManagerAct (T N V : Type) where
  /-- `save` up to the answer of `session.get`. -/
  | read (t : T) (c : Saving N V)
  | commit (t : T)
  /-- `save` behind its COMMIT. -/
  | store (t : T) (now : Int)
  /-- The save ends with an exception. -/
  | drop (t : T)
  /-- The SELECT of a `load`, of its own or in a `get` that has found the cache stale. -/
  | select
  | assign (now : Int)
  | look
  | readRow (cipher : V)
  | commitSeed
  | storeSeed
  /-- The seeding of the key ends with an exception, which is logged. -/
  | skip
  | finish
  /-- The load ends with an exception. -/
  | abort

namespace Manager

section

variable [DecidableEq T]

def setSave (m : Manager T N V) (t : T) (phase : SavePhase N V) : Manager T N V :=
  { m with saves := Function.update m.saves t phase }

end

def setRow (m : Manager T N V) (key : String) (d : Setting V) : Manager T N V :=
  { m with settings := { m.settings with rows := Function.update m.settings.rows key (some (.dict d)) } }

def setCache (m : Manager T N V) (key : String) (d : Setting V) : Manager T N V :=
  { m with settings := { m.settings with cache := Function.update m.settings.cache key (some d) } }

variable [DecidableEq V]

/-- The COMMIT of `value` where `row` has been read: no statement for a value that is there already, and
none for a new row where another one is in its place. -/
def commitRow (m : Manager T N V) (key : String) (row : Option (RowValue V)) (value : Setting V) :
    Option (Manager T N V) :=
  match row, m.settings.rows key with
  | none, some _ => none
  | none, none => some (m.setRow key value)
  | some r, _ => if r = .dict value then some m else some (m.setRow key value)

/-- A save takes its place among those in the table if its value is there. -/
def noteWritten (m : Manager T N V) (c : Saving N V) (value : Setting V) : Manager T N V :=
  if m.settings.rows c.key = some (.dict value) then { m with written := c :: m.written } else m

variable [DecidableEq T]

def step (b : Backing N V) (m : Manager T N V) : ManagerAct T N V → Option (Manager T N V)
  | .read t c =>
    match m.saves t with
    | .idle => some (m.setSave t (.read c (m.settings.rows c.key)))
    | _ => none
  | .commit t =>
    match m.saves t with
    | .read c row =>
      let value := savedRow c.key (c.stored b) row
      match m.commitRow c.key row value with
      | none => some (m.setSave t .idle)
      | some m' => some ((m'.noteWritten c value).setSave t (.committed c))
    | _ => none
  | .store t now =>
    match m.saves t with
    | .committed c =>
      let m' := m.setCache c.key (savedCache c.key (c.stored b) (m.settings.cache c.key))
      some { m'.setSave t .idle with settings := { m'.settings with loadedAt := now }, reached := c :: m.reached }
    | _ => none
  | .drop t => some (m.setSave t .idle)
  | .select =>
    match m.loader with
    | .free => some { m with loader := .selected m.settings.rows m.written }
    | _ => none
  | .assign now =>
    match m.loader with
    | .selected rows _ =>
      some { m with
        settings := { m.settings with cache := fun key => loadedRow key (rows key), loadedAt := now }
        loader := if m.settings.seeded then .free else .seeding managedKeys }
    | _ => none
  | .look =>
    match m.loader with
    | .seeding (key :: rest) => some { m with loader := .looked key rest (m.settings.cache key) m.reached }
    | _ => none
  | .readRow cipher =>
    match m.loader with
    | .looked key rest cached reached =>
      match seedValue b.base b.vals cipher key cached (m.settings.rows key) with
      | none => some { m with loader := .seeding rest }
      | some value => some { m with loader := .rowRead key rest (m.settings.rows key) value reached m.written }
    | _ => none
  | .commitSeed =>
    match m.loader with
    | .rowRead key rest row value reached written =>
      match m.commitRow key row value with
      | none => some { m with loader := .seeding rest }
      | some m' => some { m' with loader := .seeded key rest value reached written }
    | _ => none
  | .storeSeed =>
    match m.loader with
    | .seeded key rest value _ _ => some { m.setCache key value with loader := .seeding rest }
    | _ => none
  | .skip =>
    match m.loader with
    | .looked _ rest _ _ => some { m with loader := .seeding rest }
    | .rowRead _ rest _ _ _ _ => some { m with loader := .seeding rest }
    | .seeded _ rest _ _ _ => some { m with loader := .seeding rest }
    | _ => none
  | .finish =>
    match m.loader with
    | .seeding [] => some { m with settings := { m.settings with seeded := true }, loader := .free }
    | _ => none
  | .abort => some { m with loader := .free }

omit [DecidableEq T] [DecidableEq V] in
/-- A manager that has just been made. -/
def initial (rows : String → Option (RowValue V)) : Manager T N V :=
  ⟨.initial rows, fun _ => .idle, .free, [], []⟩

/-! ## Calls that nobody disturbs -/

section

variable {m : Manager T N V} {t : T}

omit [DecidableEq T] in
theorem commitRow_current (m : Manager T N V) (key : String) (value : Setting V) :
    ∃ m', m.commitRow key (m.settings.rows key) value = some m' ∧
      m'.settings = { m.settings with rows := Function.update m.settings.rows key (some (.dict value)) } ∧
      m'.saves = m.saves := by
  unfold commitRow
  rcases hrow : m.settings.rows key with _ | r
  · exact ⟨_, rfl, rfl, rfl⟩
  · by_cases hr : r = .dict value
    · subst hr
      have hsame : Function.update m.settings.rows key (some (.dict value)) = m.settings.rows := by
        rw [← hrow]
        exact Function.update_eq_self ..
      refine ⟨m, if_pos rfl, ?_, rfl⟩
      rw [hsame]
    · exact ⟨_, if_neg hr, rfl, rfl⟩

/-- The steps of one save come to what `Settings.save` says. -/
theorem save_undisturbed (b : Backing N V) (c : Saving N V) (now : Int) (h : m.saves t = .idle) :
    ∃ m', run (step b) m [.read t c, .commit t, .store t now] = some m' ∧
      m'.settings = m.settings.save b.vals c.key c.value now (Settings.cipherOf b c.value c.nonce) := by
  obtain ⟨m₁, hcommit, hsettings, hsaves⟩ := commitRow_current (m.setSave t (.read c (m.settings.rows c.key))) c.key
    (savedRow c.key (c.stored b) (m.settings.rows c.key))
  have hread : (m.setSave t (.read c (m.settings.rows c.key))).saves t = .read c (m.settings.rows c.key) :=
    Function.update_self ..
  have hcommitted : ∀ m₂ : Manager T N V, (m₂.setSave t (.committed c)).saves t = .committed c :=
    fun m₂ => Function.update_self ..
  have hnote : (m₁.noteWritten c (savedRow c.key (c.stored b) (m.settings.rows c.key))).settings = m₁.settings := by
    unfold noteWritten
    split_ifs <;> rfl
  have hrows : (m.setSave t (.read c (m.settings.rows c.key))).settings = m.settings := rfl
  simp only [run_cons, step, h, hread, Option.bind_some]
  rw [hrows] at hcommit
  rw [hcommit]
  simp only [Option.bind_some, hcommitted]
  refine ⟨_, rfl, ?_⟩
  simp only [setCache, setSave, hnote, hsettings]
  rfl

theorem load_undisturbed (b : Backing N V) (now : Int) (cipher : V) (h : m.loader = .free)
    (hseeded : m.settings.seeded = true) :
    ∃ m', run (step b) m [.select, .assign now] = some m' ∧ m'.settings = m.settings.load b.base b.vals now cipher := by
  simp only [run_cons, step, h, Option.bind_some, hseeded]
  refine ⟨_, rfl, ?_⟩
  unfold Settings.load Settings.refresh
  rw [if_pos hseeded, hseeded]

end

/-! ## When the cache is right -/

omit [DecidableEq T] [DecidableEq V] in
/-- Every read of a key gives the value of the last save that has reached the cache. -/
def Reflected (b : Backing N V) (m : Manager T N V) : Prop :=
  ∀ key c, lastOf key m.reached = some c → m.settings.Reflects b key c.value

omit [DecidableEq T] [DecidableEq V] in
/-- What a step needs so as not to bring an older value back: a load assigns when the last save of each
key in the cache is the last that its SELECT has seen, and the seeding, which works with what it has seen
of a key in the cache and then in the row, writes when there is no later save of the key. -/
def Meets (b : Backing N V) (m : Manager T N V) : ManagerAct T N V → Prop
  | .read _ c => Settings.PlainValue b c.key c.value
  | .assign _ =>
    match m.loader with
    | .selected _ written => ∀ key c, lastOf key m.reached = some c → lastOf key written = some c
    | _ => True
  | .commitSeed =>
    match m.loader with
    | .rowRead key _ (some row) value reached written =>
      row = .dict value ∨ ∀ c, lastOf key m.written = some c → lastOf key reached = some c ∧ lastOf key written = some c
    | _ => True
  | .storeSeed =>
    match m.loader with
    | .seeded key _ _ reached written =>
      ∀ c, lastOf key m.reached = some c → lastOf key reached = some c ∧ lastOf key written = some c
    | _ => True
  | _ => True

/-! ### What the rows and the cache hold -/

section

variable (b : Backing N V)

omit [DecidableEq T] [DecidableEq V]

def InTable (rows : String → Option (RowValue V)) (saves : List (Saving N V)) : Prop :=
  ∀ key c, lastOf key saves = some c → ∃ d, rows key = some (.dict d) ∧ (c.stored b).Within d

def InCache (cache : String → Option (Setting V)) (saves : List (Saving N V)) : Prop :=
  ∀ key c, lastOf key saves = some c → ∃ d, cache key = some d ∧ (c.stored b).Within d

/-- What the load works with has the saves that it has seen. -/
def LoaderSound : Loader N V → Prop
  | .selected rows written => InTable b rows written
  | .looked key _ cached reached =>
    ∀ c, lastOf key reached = some c → ∃ d, cached = some d ∧ (c.stored b).Within d
  | .rowRead key _ _ value reached written =>
    ∀ c, lastOf key reached = some c → lastOf key written = some c → (c.stored b).Within value
  | .seeded key _ value reached written =>
    ∀ c, lastOf key reached = some c → lastOf key written = some c → (c.stored b).Within value
  | _ => True

def Saving.Plain (c : Saving N V) : Prop := Settings.PlainValue b c.key c.value

def PhasePlain : SavePhase N V → Prop
  | .idle => True
  | .read c _ => Saving.Plain b c
  | .committed c => Saving.Plain b c

structure Sound (m : Manager T N V) : Prop where
  table : InTable b m.settings.rows m.written
  cache : InCache b m.settings.cache m.reached
  loader : LoaderSound b m.loader
  plain : ∀ c ∈ m.reached, Saving.Plain b c
  phase : ∀ t, PhasePlain b (m.saves t)

end

section

variable {b : Backing N V} {m m' : Manager T N V} {t : T} {c : Saving N V} {key : String} {d value : Setting V}
  {row : Option (RowValue V)}

omit [DecidableEq T] [DecidableEq V]

theorem Saving.Plain.drop (h : Saving.Plain b c) (stored : Setting V) (hd : (c.stored b).Within d) :
    (c.stored b).Within (dropListenPort c.key stored d) := by
  unfold dropListenPort
  split_ifs with hproxy
  · refine hd.pop ?_
    unfold Saving.stored
    rw [Settings.sealedValue_of_ne (by rw [hproxy.1]; decide)]
    exact h.2 hproxy.1
  · exact hd

theorem Saving.Plain.within_savedRow (h : Saving.Plain b c) (row : Option (RowValue V)) :
    (c.stored b).Within (savedRow c.key (c.stored b) row) := by
  unfold savedRow
  rcases row with _ | d | _
  · exact h.drop _ (Dict.within_refl _)
  · exact h.drop _ (Dict.within_merge d _)
  · exact Dict.within_refl _

theorem Saving.Plain.within_savedCache (h : Saving.Plain b c) (cached : Option (Setting V)) :
    (c.stored b).Within (savedCache c.key (c.stored b) cached) := by
  unfold savedCache
  rcases cached with _ | d
  · exact h.drop _ (Dict.within_refl _)
  · exact h.drop _ (Dict.within_merge d _)

theorem Sound.reflected (h : Sound b m) : Reflected b m := by
  intro key c hc
  obtain ⟨d, hd, hwithin⟩ := h.cache key c hc
  have hplain := h.plain c (mem_of_lastOf hc)
  have hkey := key_of_lastOf hc
  subst hkey
  exact Settings.reflects_of_cached hplain hd hwithin

theorem initial_sound (rows : String → Option (RowValue V)) : Sound b (initial rows : Manager T N V) := by
  constructor
  · rintro key c ⟨⟩
  · rintro key c ⟨⟩
  · trivial
  · rintro c ⟨⟩
  · exact fun t => trivial

/-! ### One step -/

theorem Sound.setSave [DecidableEq T] (h : Sound b m) {phase : SavePhase N V} (hphase : PhasePlain b phase) :
    Sound b (m.setSave t phase) where
  table := h.table
  cache := h.cache
  loader := h.loader
  plain := h.plain
  phase := by
    intro t'
    show PhasePlain b (Function.update m.saves t phase t')
    rw [Function.update_apply]
    split_ifs
    · exact hphase
    · exact h.phase t'

theorem Sound.setLoader (h : Sound b m) {loader : Loader N V} (hloader : LoaderSound b loader) :
    Sound b { m with loader := loader } := ⟨h.table, h.cache, hloader, h.plain, h.phase⟩

theorem Sound.setRow (h : Sound b m) (hvalue : ∀ c, lastOf key m.written = some c → (c.stored b).Within value) :
    Sound b (m.setRow key value) where
  table := by
    intro k c hc
    unfold Manager.setRow
    simp only [Function.update_apply]
    split_ifs with hk
    · subst hk
      exact ⟨value, rfl, hvalue c hc⟩
    · exact h.table k c hc
  cache := h.cache
  loader := h.loader
  plain := h.plain
  phase := h.phase

theorem Sound.setCache (h : Sound b m) (hvalue : ∀ c, lastOf key m.reached = some c → (c.stored b).Within value) :
    Sound b (m.setCache key value) where
  table := h.table
  cache := by
    intro k c hc
    unfold Manager.setCache
    simp only [Function.update_apply]
    split_ifs with hk
    · subst hk
      exact ⟨value, rfl, hvalue c hc⟩
    · exact h.cache k c hc
  loader := h.loader
  plain := h.plain
  phase := h.phase

theorem commitRow_cases [DecidableEq V] (h : m.commitRow key row value = some m') :
    m' = m ∧ row = some (.dict value) ∨
      m' = m.setRow key value ∧ (row = none → m.settings.rows key = none) ∧ row ≠ some (.dict value) := by
  unfold commitRow at h
  rcases row with _ | r
  · rcases hrow : m.settings.rows key with _ | r
    · rw [hrow] at h
      cases h
      exact Or.inr ⟨rfl, fun _ => rfl, nofun⟩
    · rw [hrow] at h
      cases h
  · simp only at h
    split_ifs at h with hr
    · cases h
      exact Or.inl ⟨rfl, congrArg some hr⟩
    · cases h
      exact Or.inr ⟨rfl, nofun, fun he => hr (Option.some.inj he)⟩

theorem Sound.commitSave [DecidableEq V] (h : Sound b m) (hc : Saving.Plain b c)
    (hm : m.commitRow c.key row (savedRow c.key (c.stored b) row) = some m') :
    Sound b (m'.noteWritten c (savedRow c.key (c.stored b) row)) := by
  have hwithin := hc.within_savedRow row
  have hnote : ∀ {m' : Manager T N V}, (∀ k ≠ c.key, m'.settings.rows k = m.settings.rows k) →
      m'.written = m.written → m'.settings.rows c.key = some (.dict (savedRow c.key (c.stored b) row)) →
      InTable b m'.settings.rows (c :: m'.written) := by
    intro m' hrows hwritten hrow k c' hc'
    rw [lastOf_cons] at hc'
    split_ifs at hc' with hk
    · cases hc'
      subst hk
      exact ⟨_, hrow, hwithin⟩
    · rw [hrows k (Ne.symm hk)]
      rw [hwritten] at hc'
      exact h.table k c' hc'
  unfold noteWritten
  rcases commitRow_cases hm with ⟨rfl, _⟩ | ⟨rfl, _⟩
  · split_ifs with hrow
    · exact ⟨hnote (fun _ _ => rfl) rfl hrow, h.cache, h.loader, h.plain, h.phase⟩
    · exact h
  · have hrow : (m.setRow c.key (savedRow c.key (c.stored b) row)).settings.rows c.key =
        some (.dict (savedRow c.key (c.stored b) row)) := Function.update_self ..
    rw [if_pos hrow]
    exact ⟨hnote (fun k hk => Function.update_of_ne hk ..) rfl hrow, h.cache, h.loader, h.plain, h.phase⟩

theorem Sound.store (h : Sound b m) (hc : Saving.Plain b c) (now : Int) :
    Sound b { m.setCache c.key (savedCache c.key (c.stored b) (m.settings.cache c.key)) with
      settings := { (m.setCache c.key (savedCache c.key (c.stored b) (m.settings.cache c.key))).settings with loadedAt := now }
      reached := c :: m.reached } where
  table := h.table
  cache := by
    intro k c' hc'
    unfold Manager.setCache
    simp only [Function.update_apply]
    rw [lastOf_cons] at hc'
    split_ifs at hc' with hk
    · cases hc'
      rw [if_pos hk.symm]
      exact ⟨_, rfl, hc.within_savedCache _⟩
    · rw [if_neg (Ne.symm hk)]
      exact h.cache k c' hc'
  loader := h.loader
  plain := by
    intro c' hc'
    rcases List.mem_cons.mp hc' with rfl | hc'
    · exact hc
    · exact h.plain c' hc'
  phase := h.phase

theorem Sound.assign (h : Sound b m) {rows : String → Option (RowValue V)} {written : List (Saving N V)}
    (hloader : m.loader = .selected rows written)
    (hlast : ∀ key c, lastOf key m.reached = some c → lastOf key written = some c) (now : Int) {loader : Loader N V}
    (hnext : LoaderSound b loader) :
    Sound b { m with
      settings := { m.settings with cache := fun key => loadedRow key (rows key), loadedAt := now }
      loader := loader } where
  table := h.table
  cache := by
    intro k c hc
    have hsound := h.loader
    rw [hloader] at hsound
    obtain ⟨d, hd, hwithin⟩ := hsound k c (hlast k c hc)
    have hkey := key_of_lastOf hc
    subst hkey
    refine ⟨dropListenPort c.key d d, ?_, (h.plain c (mem_of_lastOf hc)).drop d hwithin⟩
    show loadedRow c.key (rows c.key) = _
    rw [hd]
    rfl
  loader := hnext
  plain := h.plain
  phase := h.phase

theorem Sound.readRow (h : Sound b m) {rest : List String} {cached : Option (Setting V)} {reached : List (Saving N V)}
    (hloader : m.loader = .looked key rest cached reached) {cipher : V}
    (hvalue : seedValue b.base b.vals cipher key cached (m.settings.rows key) = some value) :
    LoaderSound b (.rowRead key rest (m.settings.rows key) value reached m.written) := by
  intro c hreached hwritten
  have hsound := h.loader
  rw [hloader] at hsound
  obtain ⟨cd', hcd, hin⟩ := hsound c hreached
  obtain ⟨d', hd', hrow⟩ := h.table key c hwritten
  obtain ⟨fallback, _, ⟨hnone, _⟩ | ⟨cd, d, hcached, hd, rfl⟩⟩ := seedValue_cases hvalue
  · rw [hcd] at hnone
    cases hnone
  · rw [hcd] at hcached
    cases hcached
    rw [hd'] at hd
    cases hd
    exact hrow.merge fun f x hf => missing_of_cached (hin f x hf)

theorem Sound.commitSeed [DecidableEq T] [DecidableEq V] (h : Sound b m) {rest : List String}
    {reached written : List (Saving N V)} (hread : m.loader = .rowRead key rest row value reached written)
    (hmeets : Meets b m .commitSeed) (hm : m.commitRow key row value = some m') :
    Sound b { m' with loader := .seeded key rest value reached written } := by
  have hvalue : LoaderSound b (.rowRead key rest row value reached written) := by
    have hloader := h.loader
    rwa [hread] at hloader
  rcases commitRow_cases hm with ⟨rfl, _⟩ | ⟨rfl, hinsert, hnew⟩
  · exact h.setLoader hvalue
  · refine (h.setRow ?_).setLoader hvalue
    intro c hc
    rcases row with _ | r
    · -- No save has been there where there is no row.
      obtain ⟨d, hd, _⟩ := h.table key c hc
      rw [hinsert rfl] at hd
      cases hd
    · simp only [Meets, hread] at hmeets
      rcases hmeets with rfl | hlast
      · exact absurd rfl hnew
      · exact hvalue c (hlast c hc).1 (hlast c hc).2

theorem step_sound [DecidableEq T] [DecidableEq V] (h : Sound b m) {a : ManagerAct T N V} (hmeets : Meets b m a)
    (hstep : m.step b a = some m') : Sound b m' := by
  have hphase := h.phase
  have hloader := h.loader
  cases a with
  | read t c =>
    simp only [step] at hstep
    split at hstep
    · cases hstep
      exact h.setSave hmeets
    · cases hstep
  | commit t =>
    simp only [step] at hstep
    split at hstep
    · rename_i c row hsave
      have hplain := hphase t
      rw [hsave] at hplain
      rcases hcommit : m.commitRow c.key row (savedRow c.key (c.stored b) row) with _ | m₁
      · rw [hcommit] at hstep
        cases hstep
        exact h.setSave trivial
      · rw [hcommit] at hstep
        cases hstep
        exact (h.commitSave hplain hcommit).setSave hplain
    · cases hstep
  | store t now =>
    simp only [step] at hstep
    split at hstep
    · rename_i c hsave
      have hplain := hphase t
      rw [hsave] at hplain
      cases hstep
      exact (h.store hplain now).setSave trivial
    · cases hstep
  | drop t =>
    cases hstep
    exact h.setSave trivial
  | select =>
    simp only [step] at hstep
    split at hstep
    · cases hstep
      exact h.setLoader h.table
    · cases hstep
  | assign now =>
    simp only [step] at hstep
    split at hstep
    · rename_i rows written hselected
      cases hstep
      simp only [Meets, hselected] at hmeets
      refine h.assign hselected hmeets now ?_
      split_ifs <;> trivial
    · cases hstep
  | look =>
    simp only [step] at hstep
    split at hstep
    · cases hstep
      exact h.setLoader fun c hc => h.cache _ c hc
    · cases hstep
  | readRow cipher =>
    simp only [step] at hstep
    split at hstep
    · rename_i key rest cached reached hlooked
      rcases hvalue : seedValue b.base b.vals cipher key cached (m.settings.rows key) with _ | value
      · rw [hvalue] at hstep
        cases hstep
        exact h.setLoader trivial
      · rw [hvalue] at hstep
        cases hstep
        exact h.setLoader (h.readRow hlooked hvalue)
    · cases hstep
  | commitSeed =>
    simp only [step] at hstep
    split at hstep
    · rename_i key rest row value reached written hread
      rcases hcommit : m.commitRow key row value with _ | m₁
      · rw [hcommit] at hstep
        cases hstep
        exact h.setLoader trivial
      · rw [hcommit] at hstep
        cases hstep
        exact h.commitSeed hread hmeets hcommit
    · cases hstep
  | storeSeed =>
    simp only [step] at hstep
    split at hstep
    · rename_i key rest value reached written hseeded
      have hvalue : LoaderSound b (.seeded key rest value reached written) := by simpa only [hseeded] using hloader
      cases hstep
      simp only [Meets, hseeded] at hmeets
      exact (h.setCache fun c hc => hvalue c (hmeets c hc).1 (hmeets c hc).2).setLoader trivial
    · cases hstep
  | skip =>
    simp only [step] at hstep
    split at hstep
    · cases hstep
      exact h.setLoader trivial
    · cases hstep
      exact h.setLoader trivial
    · cases hstep
      exact h.setLoader trivial
    · cases hstep
  | finish =>
    simp only [step] at hstep
    split at hstep
    · cases hstep
      exact ⟨h.table, h.cache, trivial, h.plain, h.phase⟩
    · cases hstep
  | abort =>
    cases hstep
    exact h.setLoader trivial

/-- In a run whose steps all meet the condition, no read of a key falls back behind the last save
that has reached the cache. -/
theorem reflected_of_meets [DecidableEq T] [DecidableEq V] (b : Backing N V) (rows : String → Option (RowValue V))
    (acts : List (ManagerAct T N V)) (m : Manager T N V) (hrun : run (step b) (initial rows) acts = some m)
    (hall : Along (step b) (Meets b) (initial rows) acts) : Reflected b m := by
  have hsound : Sound b m := by
    refine run_inv (I := Sound b) ?_ hrun hall (initial_sound rows)
    intro m a m' h hmeets hstep
    exact step_sound h hmeets hstep
  exact hsound.reflected

end

/-! ### A save while a load is on its way -/

def sampleBacking : Backing Unit String where
  base := ⟨none, .empty, "0.0.0.0", "8443", .empty, "28800", "7200", "300", "0", "0", "0"⟩
  vals := ⟨id, fun v => v ≠ ""⟩
  encryptor := ⟨fun _ p => p, id, fun _ _ => rfl⟩
  number := some
  ldapConfig := some
  dnsConfig := some

/-- The first load, on an empty table. -/
def firstLoad : List (ManagerAct Unit Unit String) :=
  [.select, .assign 0] ++ managedKeys.flatMap (fun key =>
    if (sampleBacking.base.getFallback sampleBacking.vals key).any fun d => !d.entries.isEmpty then
      [.look, .readRow "", .commitSeed, .storeSeed]
    else [.look, .readRow ""]) ++ [.finish]

def renamePortal : Saving Unit String := ⟨"portal", .ofList [("name", "Desk")], ()⟩

/-- The whole save falls between the SELECT of a later load and its assignment. -/
def saveInsideLoad : List (ManagerAct Unit Unit String) :=
  firstLoad ++ [.select, .read () renamePortal, .commit (), .store () 31000, .assign 31000]

def saveThenLoad : List (ManagerAct Unit Unit String) :=
  [.read () renamePortal, .commit (), .store () 1000, .select, .assign 32000]

theorem older_name_back : ∃ m, run (step sampleBacking) (initial fun _ => none) saveInsideLoad = some m ∧
    m.settings.get sampleBacking "portal" = .ofList [("name", "RDP-Proxy")] ∧ ¬ Reflected sampleBacking m := by
  refine ⟨_, rfl, rfl, ?_⟩
  intro h
  have hname := (h "portal" renamePortal rfl).get "name" "Desk" rfl
  revert hname
  decide

theorem new_name_stays : ∃ m, run (step sampleBacking) (initial fun _ => none) saveThenLoad = some m ∧
    Reflected sampleBacking m := by
  refine ⟨_, rfl, ?_⟩
  refine reflected_of_meets sampleBacking (fun _ => none) saveThenLoad _ rfl ?_
  have hplain : Settings.PlainValue sampleBacking "portal" renamePortal.value := ⟨nofun, nofun⟩
  exact ⟨hplain, trivial, trivial, trivial, fun _ _ h => h, trivial⟩

end Manager

end RdpProxy.Config
