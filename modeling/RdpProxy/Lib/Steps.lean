import Mathlib.Tactic.Common

/-!
# Labelled step functions and their runs

`step s l` is the state after the label `l`, or `none` where `l` is not enabled.
A run is a list of labels, so a schedule is data and can be evaluated.
-/

namespace Steps

variable {σ ℓ : Type*} {step : σ → ℓ → Option σ} {s s' : σ} {l : ℓ} {ls ls' : List ℓ}

/-! ## Runs -/

def run (step : σ → ℓ → Option σ) (s : σ) : List ℓ → Option σ
  | [] => some s
  | l :: ls => (step s l).bind fun s' => run step s' ls

theorem run_cons : run step s (l :: ls) = (step s l).bind fun s' => run step s' ls := rfl

theorem run_cons_eq_some : run step s (l :: ls) = some s' ↔
    ∃ s₁, step s l = some s₁ ∧ run step s₁ ls = some s' := by
  rw [run_cons, Option.bind_eq_some_iff]

theorem run_append : run step s (ls ++ ls') = (run step s ls).bind fun s₁ => run step s₁ ls' := by
  induction ls generalizing s with
  | nil => rfl
  | cons l ls ih =>
    rw [List.cons_append, run_cons, run_cons]
    cases step s l with
    | none => rfl
    | some s₁ => exact ih

theorem run_append_eq_some : run step s (ls ++ ls') = some s' ↔
    ∃ s₁, run step s ls = some s₁ ∧ run step s₁ ls' = some s' := by
  rw [run_append, Option.bind_eq_some_iff]

theorem exists_run (htotal : ∀ s l, ∃ s', step s l = some s') (s : σ) (ls : List ℓ) : ∃ s', run step s ls = some s' := by
  induction ls generalizing s with
  | nil => exact ⟨s, rfl⟩
  | cons l ls ih =>
    obtain ⟨s₁, h₁⟩ := htotal s l
    obtain ⟨s', hrun⟩ := ih s₁
    exact ⟨s', run_cons_eq_some.mpr ⟨s₁, h₁, hrun⟩⟩

/-! ## Invariants -/

/-- `G` holds of every step of the run, at the state before it. -/
def Along (step : σ → ℓ → Option σ) (G : σ → ℓ → Prop) (s : σ) : List ℓ → Prop
  | [] => True
  | l :: ls => G s l ∧ match step s l with
    | none => True
    | some s' => Along step G s' ls

instance Along.decidable (step : σ → ℓ → Option σ) (G : σ → ℓ → Prop) [∀ s l, Decidable (G s l)] :
    ∀ (ls : List ℓ) (s : σ), Decidable (Along step G s ls)
  | [], _ => .isTrue trivial
  | l :: ls, s =>
    have : Decidable (match step s l with
        | none => True
        | some s' => Along step G s' ls) :=
      match step s l with
      | none => .isTrue trivial
      | some s' => Along.decidable step G ls s'
    inferInstanceAs (Decidable (_ ∧ _))

theorem along_cons {G : σ → ℓ → Prop} : Along step G s (l :: ls) ↔
    G s l ∧ ∀ s', step s l = some s' → Along step G s' ls := by
  rw [Along]
  cases step s l <;> simp

theorem Along.of_append {G : σ → ℓ → Prop} (h : Along step G s (ls ++ ls')) : Along step G s ls := by
  induction ls generalizing s with
  | nil => trivial
  | cons l ls ih =>
    obtain ⟨hg, htail⟩ := along_cons.mp h
    exact along_cons.mpr ⟨hg, fun s' hs => ih (htail s' hs)⟩

/-- The invariant rule: what every guarded step keeps, a guarded run keeps. -/
theorem run_inv {I : σ → Prop} {G : σ → ℓ → Prop}
    (hstep : ∀ s l s', I s → G s l → step s l = some s' → I s')
    (hrun : run step s ls = some s') (hall : Along step G s ls) (h : I s) : I s' := by
  induction ls generalizing s with
  | nil => cases hrun; exact h
  | cons l ls ih =>
    obtain ⟨s₁, h₁, hrest⟩ := run_cons_eq_some.mp hrun
    obtain ⟨hg, htail⟩ := along_cons.mp hall
    exact ih hrest (htail s₁ h₁) (hstep s l s₁ h hg h₁)

theorem run_keeps {I : σ → Prop} (hstep : ∀ s l s', I s → step s l = some s' → I s')
    (hrun : run step s ls = some s') (h : I s) : I s' := by
  induction ls generalizing s with
  | nil => cases hrun; exact h
  | cons l ls ih =>
    obtain ⟨s₁, h₁, hrest⟩ := run_cons_eq_some.mp hrun
    exact ih hrest (hstep s l s₁ h h₁)

theorem run_history {I : List ℓ → σ → Prop} (hstart : I [] s)
    (hstep : ∀ ls s₁ l s₂, run step s ls = some s₁ → I ls s₁ → step s₁ l = some s₂ → I (ls ++ [l]) s₂)
    (hrun : run step s ls = some s') : I ls s' := by
  have hfrom : ∀ rest done s₁, run step s done = some s₁ → I done s₁ → run step s₁ rest = some s' →
      I (done ++ rest) s' := by
    intro rest
    induction rest with
    | nil =>
      intro done s₁ _ hi hrest
      cases hrest
      rwa [List.append_nil]
    | cons l rest ih =>
      intro done s₁ hdone hi hrest
      obtain ⟨s₂, h₂, hrest⟩ := run_cons_eq_some.mp hrest
      rw [List.append_cons]
      refine ih (done ++ [l]) s₂ ?_ (hstep done s₁ l s₂ hdone hi h₂) hrest
      exact run_append_eq_some.mpr ⟨s₁, hdone, run_cons_eq_some.mpr ⟨s₂, h₂, rfl⟩⟩
  exact hfrom ls [] s rfl hstart hrun

theorem along_congr_of_mem {I : σ → Prop} {G H : σ → ℓ → Prop}
    (hstep : ∀ s, ∀ l ∈ ls, ∀ s', I s → step s l = some s' → I s')
    (hGH : ∀ s, ∀ l ∈ ls, ∀ s', I s → step s l = some s' → (G s l ↔ H s l)) (hrun : run step s ls = some s')
    (h : I s) : Along step G s ls ↔ Along step H s ls := by
  induction ls generalizing s with
  | nil => exact Iff.rfl
  | cons l ls ih =>
    obtain ⟨s₁, h₁, hrest⟩ := run_cons_eq_some.mp hrun
    have hl : l ∈ l :: ls := List.mem_cons_self
    rw [along_cons, along_cons, hGH s l hl s₁ h h₁, h₁]
    simp only [Option.some.injEq, forall_eq']
    rw [ih (fun s l' hl' => hstep s l' (List.mem_cons_of_mem l hl'))
      (fun s l' hl' => hGH s l' (List.mem_cons_of_mem l hl')) hrest (hstep s l hl s₁ h h₁)]

theorem along_congr {I : σ → Prop} {G H : σ → ℓ → Prop} (hstep : ∀ s l s', I s → step s l = some s' → I s')
    (hGH : ∀ s l s', I s → step s l = some s' → (G s l ↔ H s l)) (hrun : run step s ls = some s') (h : I s) :
    Along step G s ls ↔ Along step H s ls :=
  along_congr_of_mem (fun s l _ => hstep s l) (fun s l _ => hGH s l) hrun h

theorem Along.mono {G H : σ → ℓ → Prop} (h : Along step G s ls) (hGH : ∀ s l, G s l → H s l) : Along step H s ls := by
  induction ls generalizing s with
  | nil => trivial
  | cons l ls ih =>
    obtain ⟨hg, htail⟩ := along_cons.mp h
    exact along_cons.mpr ⟨hGH s l hg, fun s' hs => ih (htail s' hs)⟩

theorem exists_of_not_along {G : σ → ℓ → Prop} (h : ¬ Along step G s ls) :
    ∃ pre l post s₁, ls = pre ++ l :: post ∧ run step s pre = some s₁ ∧ ¬ G s₁ l := by
  induction ls generalizing s with
  | nil => exact absurd trivial h
  | cons l ls ih =>
    by_cases hg : G s l
    · have hrest : ¬ ∀ s', step s l = some s' → Along step G s' ls := fun hr => h (along_cons.mpr ⟨hg, hr⟩)
      obtain ⟨s₁, hs⟩ := Classical.not_forall.mp hrest
      obtain ⟨h₁, hnot⟩ := Classical.not_imp.mp hs
      obtain ⟨pre, l', post, s₂, rfl, hpre, hb⟩ := ih hnot
      exact ⟨l :: pre, l', post, s₂, rfl, run_cons_eq_some.mpr ⟨s₁, h₁, hpre⟩, hb⟩
    · exact ⟨[], l, ls, s, rfl, rfl, hg⟩

/-! ## Properties of every state of a run -/

/-- `P` holds of every state of the run, the first and the last one too. -/
def Throughout (step : σ → ℓ → Option σ) (P : σ → Prop) (s : σ) (ls : List ℓ) : Prop :=
  ∀ pre post s', ls = pre ++ post → run step s pre = some s' → P s'

theorem Throughout.head {P : σ → Prop} (h : Throughout step P s ls) : P s := h [] ls s rfl rfl

theorem throughout_nil {P : σ → Prop} : Throughout step P s [] ↔ P s := by
  constructor
  · exact Throughout.head
  · rintro h pre post s' he hrun
    obtain ⟨rfl, rfl⟩ := List.append_eq_nil_iff.mp he.symm
    cases hrun; exact h

theorem throughout_cons {P : σ → Prop} (h₁ : step s l = some s') :
    Throughout step P s (l :: ls) ↔ P s ∧ Throughout step P s' ls := by
  constructor
  · intro h
    refine ⟨h.head, ?_⟩
    rintro pre post s₂ rfl hrun
    exact h (l :: pre) post s₂ rfl (run_cons_eq_some.mpr ⟨s', h₁, hrun⟩)
  · rintro ⟨hs, h⟩ pre post s₂ he hrun
    rcases List.cons_eq_append_iff.mp he with ⟨rfl, rfl⟩ | ⟨pre', rfl, rfl⟩
    · cases hrun; exact hs
    · obtain ⟨s₃, h₃, hrest⟩ := run_cons_eq_some.mp hrun
      rw [h₁] at h₃
      cases h₃
      exact h pre' post s₂ rfl hrest

/-- Where one step that satisfies `H` keeps `P` exactly when it is guarded, a run of such steps
keeps `P` in all its states exactly when all its steps are guarded. The invariant need only
last as long as `P` does. -/
theorem throughout_iff_along_of {I P : σ → Prop} {G H : σ → ℓ → Prop}
    (hstep : ∀ s l s', I s → P s → H s l → step s l = some s' → (P s' ↔ G s l) ∧ (P s' → I s'))
    (hrun : run step s ls = some s') (hall : Along step H s ls) (hi : I s) (hp : P s) :
    Throughout step P s ls ↔ Along step G s ls := by
  induction ls generalizing s with
  | nil => exact iff_of_true (throughout_nil.mpr hp) trivial
  | cons l ls ih =>
    obtain ⟨s₁, h₁, hrest⟩ := run_cons_eq_some.mp hrun
    obtain ⟨hh, htail⟩ := along_cons.mp hall
    obtain ⟨hiff, hinv⟩ := hstep s l s₁ hi hp hh h₁
    rw [throughout_cons h₁, along_cons, h₁]
    simp only [Option.some.injEq, forall_eq']
    constructor
    · rintro ⟨_, h⟩
      exact ⟨hiff.mp h.head, (ih hrest (htail s₁ h₁) (hinv h.head) h.head).mp h⟩
    · rintro ⟨hg, h⟩
      have hp₁ := hiff.mpr hg
      exact ⟨hp, (ih hrest (htail s₁ h₁) (hinv hp₁) hp₁).mpr h⟩

theorem along_true (step : σ → ℓ → Option σ) (s : σ) (ls : List ℓ) : Along step (fun _ _ => True) s ls := by
  induction ls generalizing s with
  | nil => trivial
  | cons l ls ih => exact along_cons.mpr ⟨trivial, fun s' _ => ih s'⟩

theorem throughout_iff_along {I P : σ → Prop} {G : σ → ℓ → Prop}
    (hstep : ∀ s l s', I s → P s → step s l = some s' → (P s' ↔ G s l) ∧ (P s' → I s'))
    (hrun : run step s ls = some s') (hi : I s) (hp : P s) :
    Throughout step P s ls ↔ Along step G s ls :=
  throughout_iff_along_of (fun s l s' hi hp _ => hstep s l s' hi hp) hrun (along_true step s ls) hi hp

/-! ## A log beside the state -/

variable {η : Type*} {note : σ → ℓ → σ → η → η}

/-- Each step also writes to a log, which no step reads. -/
def logged (step : σ → ℓ → Option σ) (note : σ → ℓ → σ → η → η) (p : σ × η) (l : ℓ) : Option (σ × η) :=
  (step p.1 l).map fun s' => (s', note p.1 l s' p.2)

theorem logged_of_step {e : η} (h : step s l = some s') : logged step note (s, e) l = some (s', note s l s' e) := by
  unfold logged
  rw [h]
  rfl

/-- The invariant may speak of the log, and what it gives holds of the run without one. -/
theorem throughout_of_logged {I : σ → η → Prop} {P : σ → Prop} {G : σ × η → ℓ → Prop}
    (hstep : ∀ s e l s', I s e → G (s, e) l → step s l = some s' → I s' (note s l s' e))
    (hp : ∀ s e, I s e → P s) {e : η} (hall : Along (logged step note) G (s, e) ls) (h : I s e) :
    Throughout step P s ls := by
  intro pre post s' he hrun
  induction pre generalizing s e ls with
  | nil =>
    cases hrun
    exact hp _ e h
  | cons l pre ih =>
    subst he
    obtain ⟨s₁, h₁, hrest⟩ := run_cons_eq_some.mp hrun
    obtain ⟨hg, htail⟩ := along_cons.mp hall
    exact ih (htail _ (logged_of_step h₁)) (hstep s e l s₁ h hg h₁) rfl hrest

/-! ## Reachability -/

def Reachable (step : σ → ℓ → Option σ) (s s' : σ) : Prop := ∃ ls, run step s ls = some s'

theorem Reachable.inv {I : σ → Prop} (h : Reachable step s s')
    (hstep : ∀ s l s', I s → step s l = some s' → I s') (h₀ : I s) : I s' := by
  obtain ⟨ls, hrun⟩ := h
  exact run_keeps hstep hrun h₀

/-- `P` can be reached with steps whose labels all satisfy `A`. -/
def CanReach (step : σ → ℓ → Option σ) (A : ℓ → Prop) (s : σ) (P : σ → Prop) : Prop :=
  ∃ ls, (∀ l ∈ ls, A l) ∧ ∃ s', run step s ls = some s' ∧ P s'

variable {A : ℓ → Prop} {P : σ → Prop}

theorem CanReach.now (h : P s) : CanReach step A s P := ⟨[], by simp, s, rfl, h⟩

theorem CanReach.cons (hl : A l) (h₁ : step s l = some s') (h : CanReach step A s' P) :
    CanReach step A s P := by
  obtain ⟨ls, hls, s₂, hrun, hp⟩ := h
  refine ⟨l :: ls, ?_, s₂, run_cons_eq_some.mpr ⟨s', h₁, hrun⟩, hp⟩
  intro x hx
  rcases List.mem_cons.mp hx with rfl | hx
  · exact hl
  · exact hls x hx

theorem CanReach.trans {Q : σ → Prop} (h : CanReach step A s Q)
    (hq : ∀ s', Q s' → CanReach step A s' P) : CanReach step A s P := by
  obtain ⟨ls, hls, s₁, hrun, h₁⟩ := h
  obtain ⟨ls', hls', s₂, hrun', h₂⟩ := hq s₁ h₁
  refine ⟨ls ++ ls', ?_, s₂, run_append_eq_some.mpr ⟨s₁, hrun, hrun'⟩, h₂⟩
  intro x hx
  rcases List.mem_append.mp hx with hx | hx
  · exact hls x hx
  · exact hls' x hx

/-- A trap: a set that the allowed steps do not leave and that `P` does not meet. -/
theorem not_canReach_of_trap {T : σ → Prop} (hkeep : ∀ s l s', T s → A l → step s l = some s' → T s')
    (hmiss : ∀ s, T s → ¬ P s) (h : T s) : ¬ CanReach step A s P := by
  rintro ⟨ls, hls, s', hrun, hp⟩
  refine hmiss s' ?_ hp
  induction ls generalizing s with
  | nil => cases hrun; exact h
  | cons l ls ih =>
    obtain ⟨s₁, h₁, hrest⟩ := run_cons_eq_some.mp hrun
    exact ih (hkeep s l s₁ h (hls l (by simp)) h₁) (fun x hx => hls x (by simp [hx])) hrest

end Steps
