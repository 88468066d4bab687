import Mathlib.Tactic.Common

/-!
# Programs in which one call may fail

A program makes its calls on a state that others change in between. The call that fails
raises, and may have taken effect before it does.
-/

namespace Faulty

variable {C E M σ α β : Type}

/-! ## Programs -/

structure Fault (C E : Type) where
  call : C
  /-- Whether the call takes effect all the same. -/
  applied : Bool
  error : E

/-- What a program runs in. -/
structure World (C E M σ : Type) where
  state : σ
  /-- The moves of the others, a list for each call to come. -/
  others : List (List M)
  /-- The fault to come, at the first call of its name. -/
  fault : Option (Fault C E)

abbrev Prog (C E M σ : Type) := ExceptT E (StateM (World C E M σ))

def exec (x : Prog C E M σ α) (w : World C E M σ) : Except E α × World C E M σ := x w

class Acts (M σ : Type) where
  act : M → σ → σ

/-- The others take their turn. -/
def World.turn [Acts M σ] (w : World C E M σ) : World C E M σ :=
  { w with state := (w.others.headD []).foldl (fun s m => Acts.act m s) w.state, others := w.others.tail }

/-- A step of the program itself, which cannot fail. -/
def own (op : σ → α × σ) : Prog C E M σ α := fun w => (.ok (op w.state).1, { w with state := (op w.state).2 })

/-- A call that does not raise, whatever comes up in it. -/
def wait [Acts M σ] (op : σ → α × σ) : Prog C E M σ α := fun w => own op w.turn

def call [DecidableEq C] [Acts M σ] (c : C) (op : σ → α × σ) : Prog C E M σ α := fun w =>
  match w.fault with
  | some f =>
    if f.call = c then
      (.error f.error, { w.turn with state := if f.applied then (op w.turn.state).2 else w.turn.state, fault := none })
    else own op w.turn
  | none => own op w.turn

/-- A call that answers `a` and leaves the state alone. -/
def ask [DecidableEq C] [Acts M σ] (c : C) (a : α) : Prog C E M σ α := call c fun s => (a, s)

/-- `try: x; except Exception: pass` -/
def guarded (x : Prog C E M σ Unit) : Prog C E M σ Unit := tryCatch x fun _ => pure ()

/-- A call either meets the fault that bears its name, or does its work behind the others' turn. -/
theorem exec_call_cases [DecidableEq C] [Acts M σ] (c : C) (op : σ → α × σ) (w : World C E M σ) :
    (∃ f, w.fault = some f ∧ f.call = c ∧ exec (call c op) w = (.error f.error,
      { w.turn with state := if f.applied then (op w.turn.state).2 else w.turn.state, fault := none })) ∨
    (∀ f, w.fault = some f → f.call ≠ c) ∧ exec (call c op) w = exec (own op) w.turn := by
  unfold exec call
  rcases hw : w.fault with _ | f
  · exact Or.inr ⟨nofun, rfl⟩
  · by_cases hf : f.call = c
    · exact Or.inl ⟨f, rfl, hf, if_pos hf⟩
    · refine Or.inr ⟨?_, if_neg hf⟩
      rintro g ⟨⟩
      exact hf

theorem exec_bind (x : Prog C E M σ α) (f : α → Prog C E M σ β) (w : World C E M σ) :
    exec (x >>= f) w = match exec x w with
      | (.ok a, w') => exec (f a) w'
      | (.error e, w') => (.error e, w') := by
  show (ExceptT.bindCont f (exec x w).1) (exec x w).2 = _
  rcases exec x w with ⟨_ | _, w'⟩ <;> rfl

theorem exec_tryCatch (x : Prog C E M σ α) (handler : E → Prog C E M σ α) (w : World C E M σ) :
    exec (tryCatch x handler) w = match exec x w with
      | (.ok a, w') => (.ok a, w')
      | (.error e, w') => exec (handler e) w' := by
  show (match (exec x w).1 with
    | .ok a => (Pure.pure (Except.ok a) : StateM _ _)
    | .error e => handler e) (exec x w).2 = _
  rcases exec x w with ⟨_ | _, w'⟩ <;> rfl

/-! ## Triples -/

/-- From `P` the program returns with `Q` or raises with `R`. -/
def Triple (P : World C E M σ → Prop) (x : Prog C E M σ α) (Q : α → World C E M σ → Prop)
    (R : E → World C E M σ → Prop) : Prop :=
  ∀ w, P w → match exec x w with
    | (.ok a, w') => Q a w'
    | (.error e, w') => R e w'

section

variable {P P' : World C E M σ → Prop} {Q Q' : α → World C E M σ → Prop} {R R' : E → World C E M σ → Prop}
  {x : Prog C E M σ α}

theorem Triple.mono (h : Triple P x Q R) (hQ : ∀ a w, Q a w → Q' a w) (hR : ∀ e w, R e w → R' e w) :
    Triple P x Q' R' := by
  intro w hw
  have hx := h w hw
  rcases hrun : exec x w with ⟨_ | _, w'⟩
  · rw [hrun] at hx
    exact hR _ _ hx
  · rw [hrun] at hx
    exact hQ _ _ hx

theorem Triple.of_never (h : Triple P x Q R) (hR : ∀ e w, ¬ R e w) : Triple P x Q R' :=
  h.mono (fun _ _ => id) fun e w he => (hR e w he).elim

theorem Triple.assume {H : Prop} (h : H → Triple P x Q R) : Triple (fun w => P w ∧ H) x Q R :=
  fun w hw => h hw.2 w hw.1

theorem Triple.pure {a : α} (h : ∀ w, P w → Q a w) : Triple P (pure a : Prog C E M σ α) Q R := h

theorem Triple.throw {e : E} (h : ∀ w, P w → R e w) : Triple P (throw e : Prog C E M σ α) Q R := h

theorem Triple.bind {f : α → Prog C E M σ β} {Q' : β → World C E M σ → Prop} (hx : Triple P x Q R)
    (hf : ∀ a, Triple (Q a) (f a) Q' R) : Triple P (x >>= f) Q' R := by
  intro w hw
  have h := hx w hw
  rw [exec_bind]
  rcases hrun : exec x w with ⟨e | a, w'⟩
  · rw [hrun] at h
    exact h
  · rw [hrun] at h
    exact hf a w' h

theorem Triple.tryCatch {handler : E → Prog C E M σ α} {R' : E → World C E M σ → Prop} (hx : Triple P x Q R)
    (hh : ∀ e, Triple (R e) (handler e) Q R') : Triple P (tryCatch x handler) Q R' := by
  intro w hw
  have h := hx w hw
  rw [exec_tryCatch]
  rcases hrun : exec x w with ⟨e | a, w'⟩
  · rw [hrun] at h
    exact hh e w' h
  · rw [hrun] at h
    exact h

end

/-! ## One fault in a run -/

def Stable (M : Type) [Acts M σ] (P : σ → Prop) : Prop := ∀ (m : M) (s : σ), P s → P (Acts.act m s)

theorem Stable.turn [Acts M σ] {P : σ → Prop} (hP : Stable M P) {w : World C E M σ} (h : P w.state) :
    P w.turn.state := by
  have hmoves : ∀ (ms : List M) (s : σ), P s → P (ms.foldl (fun s m => Acts.act m s) s) := by
    intro ms
    induction ms with
    | nil => exact fun _ => id
    | cons m ms ih => exact fun s hs => ih _ (hP m s hs)
  exact hmoves _ _ h

/-- `P` holds, and the fault `φ` of the run is still to come or has been swallowed, as those of the calls
in `S` are. -/
structure On (S : C → Prop) (P : σ → Prop) (φ : Option (Fault C E)) (w : World C E M σ) : Prop where
  state : P w.state
  fault : w.fault = φ ∨ w.fault = none ∧ ∃ f, φ = some f ∧ S f.call

/-- The call `c`, made at `P`, has met the fault of the run. -/
def Failed (c : C) (op : σ → α × σ) (P : σ → Prop) (φ : Option (Fault C E)) (w : World C E M σ) : Prop :=
  w.fault = none ∧ ∃ f s, φ = some f ∧ f.call = c ∧ P s ∧ w.state = if f.applied then (op s).2 else s

section

variable {S : C → Prop} {P P' : σ → Prop} {Q : α → σ → Prop} {φ : Option (Fault C E)} {op : σ → α × σ} {c : C}
  {R : E → World C E M σ → Prop} {w : World C E M σ}

theorem On.mono (h : On S P φ w) (hP : ∀ s, P s → P' s) : On S P' φ w := ⟨hP _ h.state, h.fault⟩

theorem On.spent (h : P w.state) (hw : w.fault = none) : On S P none w := ⟨h, Or.inl hw⟩

theorem Triple.assume_on {H : Prop} {x : Prog C E M σ α} {Q : α → World C E M σ → Prop}
    (h : H → Triple (On S P φ) x Q R) : Triple (On S (fun s => P s ∧ H) φ) x Q R :=
  fun w hw => h hw.state.2 w (hw.mono fun _ => And.left)

theorem Failed.on (h : Failed c op P φ w) (hbefore : ∀ s, P s → P' s) (hafter : ∀ s, P s → P' (op s).2) :
    On S P' none w := by
  obtain ⟨hw, f, s, _, _, hs, hstate⟩ := h
  refine .spent ?_ hw
  rw [hstate]
  split_ifs
  · exact hafter s hs
  · exact hbefore s hs

theorem Failed.call (h : Failed c op P φ w) : ∃ f, φ = some f ∧ f.call = c := by
  obtain ⟨_, f, _, hφ, hc, _⟩ := h
  exact ⟨f, hφ, hc⟩

theorem own_on (hop : ∀ s, P s → Q (op s).1 (op s).2) :
    Triple (On S P φ) (own op : Prog C E M σ α) (fun a => On S (Q a) φ) R :=
  fun _ h => ⟨hop _ h.state, h.fault⟩

variable [Acts M σ]

theorem wait_on (hP : Stable M P) (hop : ∀ s, P s → Q (op s).1 (op s).2) :
    Triple (On S P φ) (wait op : Prog C E M σ α) (fun a => On S (Q a) φ) R :=
  fun _ h => ⟨hop _ (hP.turn h.state), h.fault⟩

variable [DecidableEq C]

theorem call_on (hP : Stable M P) (hc : ¬ S c) (hop : ∀ s, P s → Q (op s).1 (op s).2) :
    Triple (On S P φ) (call c op : Prog C E M σ α)
      (fun a w => On S (Q a) φ w ∧ ∀ f, φ = some f → f.call ≠ c) (fun _ => Failed c op P φ) := by
  intro w h
  have hstate := hP.turn h.state
  rcases exec_call_cases c op w with ⟨f, hw, hf, hrun⟩ | ⟨hmiss, hrun⟩
  · rw [hrun]
    rcases h.fault with hφ | ⟨hnone, _⟩
    · exact ⟨rfl, f, _, hφ ▸ hw, hf, hstate, rfl⟩
    · rw [hnone] at hw
      cases hw
  · rw [hrun]
    refine ⟨⟨hop _ hstate, h.fault⟩, ?_⟩
    intro f hφ hf
    rcases h.fault with hw | ⟨_, g, hg, hS⟩
    · exact hmiss f (hw.trans hφ) hf
    · rw [hφ] at hg
      cases hg
      exact hc (hf ▸ hS)

theorem ask_on (hP : Stable M P) (hc : ¬ S c) (a : α) :
    Triple (On S P φ) (ask c a : Prog C E M σ α)
      (fun b w => (On S P φ w ∧ ∀ f, φ = some f → f.call ≠ c) ∧ b = a)
      (fun _ w => On S P none w ∧ ∃ f, φ = some f ∧ f.call = c) :=
  (call_on (Q := fun b s => P s ∧ b = a) hP hc fun _ hs => ⟨hs, rfl⟩).mono
    (fun _ _ h => ⟨⟨h.1.mono fun _ => And.left, h.2⟩, h.1.state.2⟩)
    fun _ _ h => ⟨h.on (fun _ => id) fun _ => id, h.call⟩

theorem caught_ask_on (hP : Stable M P) (hc : S c) (a b : α) :
    Triple (On S P φ) (tryCatch (ask c a : Prog C E M σ α) fun _ => pure b) (fun _ => On S P φ) R := by
  apply Triple.tryCatch (R := fun _ => On S P φ)
  · intro w h
    have hstate := hP.turn h.state
    unfold ask
    rcases exec_call_cases c (fun s => (a, s)) w with ⟨f, hw, hf, hrun⟩ | ⟨_, hrun⟩
    · rw [hrun]
      refine ⟨?_, Or.inr ⟨rfl, ?_⟩⟩
      · split_ifs <;> exact hstate
      · rcases h.fault with hφ | ⟨_, hg⟩
        · exact ⟨f, hφ ▸ hw, hf ▸ hc⟩
        · exact hg
    · rw [hrun]
      exact ⟨hstate, h.fault⟩
  · exact fun _ => Triple.pure fun _ => id

theorem guarded_ask_on (hP : Stable M P) (hc : S c) :
    Triple (On S P φ) (guarded (ask c ()) : Prog C E M σ Unit) (fun _ => On S P φ) R := caught_ask_on hP hc () ()

/-! ### Programs that keep an assertion -/

/-- Wherever the program ends, `P` holds. -/
def Keeps (S : C → Prop) (P : σ → Prop) (φ : Option (Fault C E)) (x : Prog C E M σ α) : Prop :=
  Triple (On S P φ) x (fun _ => On S P φ) fun _ => On S P none

omit [Acts M σ] [DecidableEq C] in
theorem Keeps.pure (a : α) : Keeps S P φ (pure a : Prog C E M σ α) := Triple.pure fun _ => id

omit [Acts M σ] [DecidableEq C] in
theorem Keeps.bind {x : Prog C E M σ α} {f : α → Prog C E M σ β} (hx : Keeps S P φ x) (hf : ∀ a, Keeps S P φ (f a)) :
    Keeps S P φ (x >>= f) := Triple.bind hx hf

theorem keeps_call (hP : Stable M P) (hc : ¬ S c) (hop : ∀ s, P s → P (op s).2) :
    Keeps S P φ (call c op : Prog C E M σ α) :=
  (call_on hP hc hop).mono (fun _ _ h => h.1) fun _ _ h => h.on (fun _ => id) hop

theorem keeps_ask (hP : Stable M P) (hc : ¬ S c) (a : α) : Keeps S P φ (ask c a : Prog C E M σ α) :=
  keeps_call hP hc fun _ => id

end

/-! ## What no fault can break -/

/-- Whether the program returns or raises, and whatever faults there are, `P` goes on holding. -/
def Preserves (P : σ → Prop) (x : Prog C E M σ α) : Prop :=
  Triple (fun w => P w.state) x (fun _ w => P w.state) fun _ w => P w.state

section

variable {P : σ → Prop} {op : σ → α × σ} {c : C}

theorem Preserves.pure (a : α) : Preserves P (pure a : Prog C E M σ α) := Triple.pure fun _ => id

theorem Preserves.throw (e : E) : Preserves P (throw e : Prog C E M σ α) := Triple.throw fun _ => id

theorem Preserves.bind {x : Prog C E M σ α} {f : α → Prog C E M σ β} (hx : Preserves P x) (hf : ∀ a, Preserves P (f a)) :
    Preserves P (x >>= f) := Triple.bind hx hf

theorem Preserves.call [DecidableEq C] [Acts M σ] (hP : Stable M P) (hop : ∀ s, P s → P (op s).2) :
    Preserves P (call c op : Prog C E M σ α) := by
  intro w h
  have hturn := hP.turn h
  rcases exec_call_cases c op w with ⟨f, _, _, hrun⟩ | ⟨_, hrun⟩
  · rw [hrun]
    show P (if f.applied then (op w.turn.state).2 else w.turn.state)
    split_ifs
    · exact hop _ hturn
    · exact hturn
  · rw [hrun]
    exact hop _ hturn

end

/-! ## Runs with nobody else at work -/

/-- From `s` the program makes the calls `cs` and ends with `r` in `s'`, and where the fault of the
run is at one of them it raises. -/
structure Makes (x : Prog C E M σ α) (s : σ) (cs : List C) (r : Except E α) (s' : σ) : Prop where
  quiet : ∀ w, w.state = s → w.others = [] → (∀ f, w.fault = some f → f.call ∉ cs) →
    exec x w = (r, { w with state := s' })
  hit : ∀ w f, w.state = s → w.others = [] → w.fault = some f → f.call ∈ cs →
    ∃ s'', exec x w = (.error f.error, { w with state := s'', fault := none })

section

variable {s s₁ s' : σ} {cs cs' : List C} {x : Prog C E M σ α}

theorem Makes.pure (a : α) : Makes (pure a : Prog C E M σ α) s [] (.ok a) s where
  quiet := by
    rintro w rfl _ _
    rfl
  hit := by
    intro w f _ _ _ hf
    cases hf

theorem Makes.throw (e : E) : Makes (throw e : Prog C E M σ α) s [] (.error e) s where
  quiet := by
    rintro w rfl _ _
    rfl
  hit := by
    intro w f _ _ _ hf
    cases hf

theorem Makes.exec_bind {a : α} (hx : Makes x s cs (.ok a) s₁) (f : α → Prog C E M σ β) {w : World C E M σ}
    (hs : w.state = s) (ho : w.others = []) (hfault : ∀ f, w.fault = some f → f.call ∉ cs) :
    exec (x >>= f) w = exec (f a) { w with state := s₁ } := by
  rw [Faulty.exec_bind, hx.quiet w hs ho hfault]

theorem Makes.bind {a : α} {f : α → Prog C E M σ β} {r : Except E β} (hx : Makes x s cs (.ok a) s₁)
    (hf : Makes (f a) s₁ cs' r s') : Makes (x >>= f) s (cs ++ cs') r s' where
  quiet := by
    intro w hs ho hfault
    rw [hx.exec_bind f hs ho fun g hg h => hfault g hg (List.mem_append_left _ h)]
    exact hf.quiet _ rfl ho fun g hg h => hfault g hg (List.mem_append_right _ h)
  hit := by
    intro w g hs ho hg hmem
    by_cases hfirst : g.call ∈ cs
    · obtain ⟨s'', hrun⟩ := hx.hit w g hs ho hg hfirst
      rw [Faulty.exec_bind, hrun]
      exact ⟨s'', rfl⟩
    · have hquiet : ∀ f, w.fault = some f → f.call ∉ cs := by
        intro f hf
        rw [hg] at hf
        cases hf
        exact hfirst
      rw [hx.exec_bind f hs ho hquiet]
      exact hf.hit { w with state := s₁ } g rfl ho hg ((List.mem_append.mp hmem).resolve_left hfirst)

theorem Makes.bind_error {e : E} {f : α → Prog C E M σ β} (hx : Makes x s cs (.error e) s') :
    Makes (x >>= f) s cs (.error e) s' where
  quiet := by
    intro w hs ho hfault
    rw [Faulty.exec_bind, hx.quiet w hs ho hfault]
  hit := by
    intro w g hs ho hg hmem
    obtain ⟨s'', hrun⟩ := hx.hit w g hs ho hg hmem
    rw [Faulty.exec_bind, hrun]
    exact ⟨s'', rfl⟩

theorem turn_eq_self [Acts M σ] {w : World C E M σ} (h : w.others = []) : w.turn = w := by
  unfold World.turn
  obtain ⟨state, others, fault⟩ := w
  cases h
  rfl

theorem exec_call_hit [DecidableEq C] [Acts M σ] (op : σ → α × σ) {w : World C E M σ} {f : Fault C E}
    (hf : w.fault = some f) (ho : w.others = []) : exec (call f.call op) w =
      (.error f.error, { w with state := if f.applied then (op w.state).2 else w.state, fault := none }) := by
  rcases exec_call_cases f.call op w with ⟨g, hg, _, hrun⟩ | ⟨hmiss, _⟩
  · rw [hf] at hg
    cases hg
    rw [hrun, turn_eq_self ho]
  · exact absurd rfl (hmiss f hf)

theorem Makes.call [DecidableEq C] [Acts M σ] (c : C) (op : σ → α × σ) :
    Makes (call c op : Prog C E M σ α) s [c] (.ok (op s).1) (op s).2 where
  quiet := by
    rintro w rfl ho hfault
    rcases exec_call_cases c op w with ⟨f, hw, hf, _⟩ | ⟨_, hrun⟩
    · exact absurd (List.mem_singleton.mpr hf) (hfault f hw)
    · rw [hrun, turn_eq_self ho]
      rfl
  hit := by
    rintro w g rfl ho hg hmem
    rw [← List.mem_singleton.mp hmem, exec_call_hit op hg ho]
    exact ⟨_, rfl⟩

end

end Faulty
