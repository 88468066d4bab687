import RdpProxy.Lib.TableTxn

/-!
# At most one marked row

Transactions that keep at most one row marked by taking the mark from every row before they
set their own. An UPDATE of all rows goes through those that it sees when it begins, so it
passes by the rows that are inserted later.
-/

open Steps

namespace TableTxn

variable {ι K V A : Type} [DecidableEq ι] [DecidableEq K] {marked : V → Bool}

/-! ## The mark -/

def AtMostOne (marked : V → Bool) (t : K → Option V) : Prop :=
  ∀ k k' v v', t k = some v → t k' = some v' → marked v = true → marked v' = true → k = k'

def OwnNone (marked : V → Bool) (own : Own K V) : Prop := ∀ k v, own k = some (some v) → marked v = false

def OwnOne (marked : V → Bool) (own : Own K V) : Prop :=
  ∀ k k' v v', own k = some (some v) → own k' = some (some v') → marked v = true → marked v' = true → k = k'

/-- A transaction that leaves a row marked has written to the marked one. -/
def MarkWritten (marked : V → Bool) (t : K → Option V) (own : Own K V) : Prop :=
  (∃ k v, own k = some (some v) ∧ marked v = true) → ∀ k v, t k = some v → marked v = true → own k ≠ none

omit [DecidableEq K] in
theorem atMostOne_over {t : K → Option V} {own : Own K V} (ht : AtMostOne marked t) (hown : OwnOne marked own) :
    AtMostOne marked (own.over t) ↔ MarkWritten marked t own := by
  unfold Own.over
  constructor
  · rintro h ⟨k, v, hk, hv⟩ k' v' hk' hv' hnone
    have hsame : k = k' := h k k' v v' (by simp [hk]) (by simp [hnone, hk']) hv hv'
    rw [hsame, hnone] at hk
    cases hk
  · intro h k k' v v' hk hk' hv hv'
    simp only at hk hk'
    rcases ho : own k with _ | o
    · rcases ho' : own k' with _ | o'
      · rw [ho] at hk
        rw [ho'] at hk'
        exact ht k k' v v' hk hk' hv hv'
      · rw [ho] at hk
        rw [ho'] at hk'
        have hset : own k' = some (some v') := ho'.trans (congrArg some hk')
        exact absurd ho (h ⟨k', v', hset, hv'⟩ k v hk hv)
    · rcases ho' : own k' with _ | o'
      · rw [ho] at hk
        rw [ho'] at hk'
        have hset : own k = some (some v) := ho.trans (congrArg some hk)
        exact absurd ho' (h ⟨k, v, hset, hv⟩ k' v' hk' hv')
      · rw [ho] at hk
        rw [ho'] at hk'
        exact hown k k' v v' (ho.trans (congrArg some hk)) (ho'.trans (congrArg some hk')) hv hv'

omit [DecidableEq K] in
theorem OwnNone.one {own : Own K V} (h : OwnNone marked own) : OwnOne marked own := by
  intro k k' v v' hk _ hv
  rw [h k v hk] at hv
  cases hv

omit [DecidableEq K] in
theorem ownNone_clean : OwnNone marked (Own.clean : Own K V) := by
  intro k v hk
  cases hk

theorem OwnNone.update_one {own : Own K V} (h : OwnNone marked own) (k : K) (o : Option V) :
    OwnOne marked (Function.update own k (some o)) := by
  have hothers : ∀ k' v', Function.update own k (some o) k' = some (some v') → marked v' = true → k' = k := by
    intro k' v' hk' hv'
    by_contra hne
    rw [Function.update_of_ne hne] at hk'
    rw [h k' v' hk'] at hv'
    cases hv'
  intro k₁ k₂ v₁ v₂ h₁ h₂ hv₁ hv₂
  rw [hothers k₁ v₁ h₁ hv₁, hothers k₂ v₂ h₂ hv₂]

theorem OwnNone.update_unmarked {own : Own K V} (h : OwnNone marked own) (k : K) {v : V} (hv : marked v = false) :
    OwnNone marked (Function.update own k (some (some v))) := by
  intro k' v' hk
  rw [Function.update_apply] at hk
  split_ifs at hk
  · cases hk
    exact hv
  · exact h k' v' hk

/-! ## Who marks a row -/

/-- The statement marks no row that is not marked already. -/
def Write.AddsNoMark (marked : V → Bool) : Write K V → Prop
  | .insert _ v => marked v = false
  | .update _ f => ∀ v, marked (f v) = true → marked v = true
  | .delete _ => True

/-- A transaction takes every mark away before it writes one row, and without that it adds no mark. -/
def Work.MarksOne (marked : V → Bool) : Bool → Bool → Work K V A → Prop
  | _, _, .reply _ => True
  | swept, wrote, .select next => ∀ view, (next view).MarksOne marked swept wrote
  | _, wrote, .updateAll f next => wrote = false ∧ (∀ v, marked (f v) = false) ∧ next.MarksOne marked true false
  | swept, wrote, .write w next =>
    wrote = false ∧ (swept = true ∨ w.AddsNoMark marked) ∧ (next .done).MarksOne marked swept true ∧
      ∀ v, v ≠ .done → (next v).MarksOne marked swept false
  | swept, wrote, .elsewhere next => ∀ v, (next v).MarksOne marked swept wrote
  | _, _, .commit next => next.MarksOne marked false false
  | _, _, .rollback next => next.MarksOne marked false false

/-- A row is marked only behind an UPDATE of all rows in the same transaction. -/
def Work.Sweeps (marked : V → Bool) : Bool → Work K V A → Prop
  | _, .reply _ => True
  | swept, .select next => ∀ view, (next view).Sweeps marked swept
  | _, .updateAll _ next => next.Sweeps marked true
  | swept, .write w next => (swept = true ∨ w.AddsNoMark marked) ∧ ∀ v, (next v).Sweeps marked swept
  | swept, .elsewhere next => ∀ v, (next v).Sweeps marked swept
  | _, .commit next => next.Sweeps marked false
  | _, .rollback next => next.Sweeps marked false

omit [DecidableEq K] in
theorem Work.MarksOne.sweeps {work : Work K V A} {swept wrote : Bool} (h : work.MarksOne marked swept wrote) :
    work.Sweeps marked swept := by
  induction work generalizing swept wrote with
  | reply a => trivial
  | select next ih => exact fun view => ih view (h view)
  | updateAll f next ih => exact ih h.2.2
  | write w next ih =>
    obtain ⟨_, hadds, hdone, hnot⟩ := h
    refine ⟨hadds, fun v => ?_⟩
    by_cases hv : v = .done
    · rw [hv]
      exact ih .done hdone
    · exact ih v (hnot v hv)
  | elsewhere next ih => exact fun v => ih v (h v)
  | commit next ih => exact ih h
  | rollback next ih => exact ih h

theorem Work.MarksOne.outline {work : Work K V A} {swept wrote : Bool} (h : work.MarksOne marked swept wrote) :
    work.Outline (OwnOne marked) (if wrote then OwnOne marked else OwnNone marked) := by
  induction work generalizing swept wrote with
  | reply a => trivial
  | select next ih => exact fun view => ih view (h view)
  | updateAll f next ih =>
    obtain ⟨rfl, hcleared, hnext⟩ := h
    exact ⟨fun own k v hown => OwnNone.update_unmarked hown k (hcleared v), ih hnext⟩
  | write w next ih =>
    obtain ⟨rfl, _, hdone, hnot⟩ := h
    exact ⟨⟨OwnOne marked, fun _ o hown _ => OwnNone.update_one hown w.key o, ih .done hdone⟩,
      fun v hv => ih v (hnot v hv)⟩
  | elsewhere next ih => exact fun v => ih v (h v)
  | commit next ih =>
    refine ⟨fun own hown => ?_, OwnNone marked, ownNone_clean, ih h⟩
    cases wrote with
    | true => exact hown
    | false => exact OwnNone.one hown
  | rollback next ih => exact ⟨OwnNone marked, ownNone_clean, ih h⟩

def Session.Sweeps (marked : V → Bool) (swept : Bool) : Session K V A → Prop
  | .working work => work.Sweeps marked swept
  | .scanning _ _ rest => swept = true ∧ rest.Sweeps marked true

def Session.todo : Session K V A → List K
  | .working _ => []
  | .scanning _ todo _ => todo

/-! ## The rows that an UPDATE of all rows cannot see -/

/-- The keys of the rows that a COMMIT adds to the table. -/
def Db.added (s : Db ι K V A) (i : ι) : List K :=
  s.pending.keys.filter fun k => (s.own i k).any Option.isSome ∧ s.committed.get? k = none

/-- For a transaction that has begun its UPDATE of all rows: the rows that others have added since. -/
abbrev Fresh (ι K : Type) := ι → Option (List K)

def noteFresh (s : Db ι K V A) (a : Act ι A) (_ : Db ι K V A) (fresh : Fresh ι K) : Fresh ι K :=
  match a with
  | .go i =>
    match s.session i with
    | .working (.updateAll _ _) => Function.update fresh i (some [])
    | .working (.commit _) => Function.update (fun j => (fresh j).map (s.added i ++ ·)) i none
    | .working (.rollback _) => Function.update fresh i none
    | _ => fresh
  | .elsewhere _ _ => fresh
  | .drop i _ => Function.update fresh i none

/-- At the COMMIT of a transaction that leaves a row marked, no row is marked that has been added
since its UPDATE of all rows began. -/
def MarksSeen (marked : V → Bool) (p : Db ι K V A × Fresh ι K) : Act ι A → Prop
  | .go i =>
    match p.1.session i with
    | .working (.commit _) =>
      (∃ e ∈ p.1.pending.entries, e.2.1 = i ∧ e.2.2.any marked = true) →
        ∀ fresh ∈ p.2 i, ∀ e ∈ p.1.committed.entries, marked e.2 = true → e.1 ∉ fresh
    | _ => True
  | _ => True

instance (p : Db ι K V A × Fresh ι K) (a : Act ι A) : Decidable (MarksSeen marked p a) := by
  unfold MarksSeen
  cases a with
  | go i =>
    simp only
    split <;> infer_instance
  | elsewhere i v => exact .isTrue trivial
  | drop i a => exact .isTrue trivial

/-- What an UPDATE of all rows has not visited yet it still has before it, or it was added later.
And without one, a row is left marked only where it was. -/
structure Swept (marked : V → Bool) (s : Db ι K V A) (fresh : Fresh ι K) (i : ι) : Prop where
  sweeps : (s.session i).Sweeps marked (fresh i).isSome
  unswept : fresh i = none → ∀ k v, s.own i k = some (some v) → marked v = true →
    ∃ v₀, s.committed.get? k = some v₀ ∧ marked v₀ = true
  swept : ∀ l, fresh i = some l → ∀ k v, s.committed.get? k = some v →
    k ∈ l ∨ s.own i k ≠ none ∨ k ∈ (s.session i).todo

section

variable {s s' : Db ι K V A} {fresh fresh' : Fresh ι K} {i j : ι} {clash : V → V → Bool}

theorem Db.own_eq_none_of_own {k : K} (h : s.own i k ≠ none) (hj : j ≠ i) : s.own j k = none := by
  unfold Db.own at h ⊢
  rcases hp : s.pending.get? k with _ | p
  · rfl
  · rw [hp] at h
    have howner : p.1 = i := by
      by_contra hne
      simp [hne] at h
    simp [howner, hj.symm]

theorem swept_setSession {t : Db ι K V A} {session : Session K V A} (h : ∀ j, Swept marked s fresh j)
    (hcommitted : t.committed = s.committed) (hothers : ∀ j ≠ i, t.own j = s.own j) (hsame : t.session = s.session)
    (hfresh : ∀ j ≠ i, fresh' j = fresh j) (hi : Swept marked (t.setSession i session) fresh' i) (j : ι) :
    Swept marked (t.setSession i session) fresh' j := by
  by_cases hj : j = i
  · rw [hj]
    exact hi
  · have hold := h j
    refine ⟨?_, ?_, ?_⟩
    all_goals
      simp only [Db.setSession_session, if_neg hj, hfresh j hj, Db.setSession_own, Db.setSession_committed, hothers j hj,
        hcommitted, hsame]
    · exact hold.sweeps
    · exact hold.unswept
    · exact hold.swept

theorem attempt_marked {w : Write K V} {v : V} (h : s.attempt clash i w = some (.ok (some v)))
    (hadds : w.AddsNoMark marked) (hv : marked v = true) : ∃ v₀, s.visible i w.key = some v₀ ∧ marked v₀ = true := by
  unfold Db.attempt at h
  cases w with
  | insert k u =>
    simp only at h
    split_ifs at h <;> cases h
    rw [hadds] at hv
    cases hv
  | update k f =>
    simp only at h
    split_ifs at h
    split at h
    · cases h
    · rename_i u hu
      split_ifs at h <;> cases h
      exact ⟨u, hu, hadds u hv⟩
  | delete k =>
    simp only at h
    split_ifs at h
    split at h <;> cases h

theorem Swept.working (h : Swept marked s fresh i) {work : Work K V A} (hwork : work.Sweeps marked (fresh i).isSome)
    (htodo : (s.session i).todo = []) : Swept marked (s.setSession i (.working work)) fresh i := by
  refine ⟨?_, h.unswept, ?_⟩
  · rw [Db.setSession_session, if_pos rfl]
    exact hwork
  · intro l hl k v hk
    rw [Db.setSession_session, if_pos rfl]
    have hold := h.swept l hl k v hk
    rw [htodo] at hold
    exact hold

theorem swept_begins (h : Swept marked s fresh i) {f : V → V} {next : Work K V A}
    (hw : s.session i = .working (.updateAll f next)) :
    Swept marked (s.setSession i (.scanning f (s.visibleKeys i) next)) (Function.update fresh i (some [])) i := by
  have hsweeps := h.sweeps
  rw [hw] at hsweeps
  refine ⟨?_, ?_, ?_⟩
  · rw [Db.setSession_session, if_pos rfl, Function.update_self]
    exact ⟨rfl, hsweeps⟩
  · rw [Function.update_self]
    intro hnone
    cases hnone
  · rw [Function.update_self]
    rintro l ⟨⟩ k v hk
    rw [Db.setSession_session, if_pos rfl, Db.setSession_own]
    rw [Db.setSession_committed] at hk
    by_cases hown : s.own i k = none
    · refine .inr (.inr ?_)
      have hsees : s.visible i k = some v := by
        unfold Db.visible Own.over
        rw [hown]
        exact hk
      have hkey : k ∈ s.committed.keys := Dict.mem_keys.mpr (Dict.has_iff.mpr ⟨v, hk⟩)
      unfold Session.todo Db.visibleKeys
      rw [List.mem_filter, List.mem_dedup, hsees]
      exact ⟨List.mem_append_left _ hkey, rfl⟩
    · exact .inr (.inl hown)

theorem swept_writes (h : Swept marked s fresh i) {w : Write K V} {next : UnitOfWork.Verdict → Work K V A}
    {o : Option V} (hw : s.session i = .working (.write w next)) (ho : s.attempt clash i w = some (.ok o)) :
    Swept marked ((s.put i w.key o).setSession i (.working (next .done))) fresh i := by
  have hsweeps := h.sweeps
  rw [hw] at hsweeps
  refine ⟨?_, ?_, ?_⟩
  · rw [Db.setSession_session, if_pos rfl]
    exact hsweeps.2 .done
  · intro hnone k v hk hv
    have hadds : w.AddsNoMark marked := by
      rcases hsweeps.1 with hswept | hadds
      · rw [hnone] at hswept
        cases hswept
      · exact hadds
    rw [Db.setSession_own, Db.own_put_self, Function.update_apply] at hk
    split_ifs at hk with hkey
    · cases hk
      obtain ⟨v₀, hsees, hv₀⟩ := attempt_marked ho hadds hv
      rw [hkey]
      unfold Db.visible Own.over at hsees
      rcases hown : s.own i w.key with _ | u
      · rw [hown] at hsees
        exact ⟨v₀, hsees, hv₀⟩
      · rw [hown] at hsees
        exact h.unswept hnone w.key v₀ (hown.trans (congrArg some hsees)) hv₀
    · exact h.unswept hnone k v hk hv
  · intro l hl k v hk
    rw [Db.setSession_own, Db.own_put_self, Function.update_apply]
    split_ifs
    · exact .inr (.inl (by simp))
    · have hold := h.swept l hl k v hk
      rw [hw] at hold
      rw [Db.setSession_session, if_pos rfl]
      exact hold

theorem swept_visits (h : Swept marked s fresh i) {f : V → V} {k : K} {todo : List K} {rest : Work K V A} {v : V}
    (hw : s.session i = .scanning f (k :: todo) rest) :
    Swept marked ((s.put i k (some v)).setSession i (.scanning f todo rest)) fresh i := by
  have hsweeps := h.sweeps
  rw [hw] at hsweeps
  refine ⟨?_, ?_, ?_⟩
  · rw [Db.setSession_session, if_pos rfl]
    exact hsweeps
  · intro hnone
    rw [hnone] at hsweeps
    cases hsweeps.1
  · intro l hl k' v' hk
    rw [Db.setSession_own, Db.own_put_self, Function.update_apply]
    split_ifs with hkey
    · exact .inr (.inl (by simp))
    · have hold := h.swept l hl k' v' hk
      rw [hw] at hold
      rw [Db.setSession_session, if_pos rfl]
      refine hold.imp_right (Or.imp_right fun hmem => ?_)
      exact (List.mem_cons.mp hmem).resolve_left hkey

theorem swept_passes (h : Swept marked s fresh i) {f : V → V} {k : K} {todo : List K} {rest : Work K V A}
    (hw : s.session i = .scanning f (k :: todo) rest) (hgone : s.visible i k = none) :
    Swept marked (s.setSession i (.scanning f todo rest)) fresh i := by
  have hsweeps := h.sweeps
  rw [hw] at hsweeps
  refine ⟨?_, h.unswept, ?_⟩
  · rw [Db.setSession_session, if_pos rfl]
    exact hsweeps
  · intro l hl k' v hk
    have hold := h.swept l hl k' v hk
    rw [hw] at hold
    rw [Db.setSession_session, if_pos rfl, Db.setSession_own]
    rcases hold with hfresh | hown | hmem
    · exact .inl hfresh
    · exact .inr (.inl hown)
    · rcases List.mem_cons.mp hmem with hkey | hmem
      · refine .inr (.inl fun hnone => ?_)
        rw [Db.setSession_committed, hkey] at hk
        unfold Db.visible Own.over at hgone
        rw [← hkey, hnone, hkey, Option.getD_none, hk] at hgone
        cases hgone
      · exact .inr (.inr hmem)

theorem swept_clean {t : Db ι K V A} (hclean : t.own i = Own.clean) {work : Work K V A}
    (hwork : work.Sweeps marked false) (hnone : fresh' i = none) :
    Swept marked (t.setSession i (.working work)) fresh' i := by
  refine ⟨?_, ?_, ?_⟩
  · rw [Db.setSession_session, if_pos rfl, hnone]
    exact hwork
  · intro _ k v hk
    rw [Db.setSession_own, hclean] at hk
    cases hk
  · intro l hl
    rw [hnone] at hl
    cases hl

theorem mem_added {k : K} {v : V} (hown : s.own i k = some (some v)) (hnew : s.committed.get? k = none) :
    k ∈ s.added i := by
  unfold Db.added
  rw [List.mem_filter, Dict.mem_keys]
  refine ⟨?_, by simp [hown, hnew]⟩
  unfold Db.own at hown
  rw [Dict.has_iff]
  rcases hp : s.pending.get? k with _ | p
  · rw [hp] at hown
    cases hown
  · exact ⟨p, rfl⟩

/-- The COMMIT of another transaction adds the rows that it has inserted, and leaves the rows
that this one has written as they were. -/
theorem swept_publish (h : Swept marked s fresh j) (hj : j ≠ i) {work : Work K V A}
    (hfresh : fresh' j = (fresh j).map (s.added i ++ ·)) :
    Swept marked (((s.publish i).release i).setSession i (.working work)) fresh' j := by
  have hown : ((s.publish i).release i).own j = s.own j := Db.own_release_of_ne (s.publish i) hj
  have hget : ((s.publish i).release i).committed.get? = s.visible i := Db.get?_publish s i
  refine ⟨?_, ?_, ?_⟩
  all_goals simp only [Db.setSession_session, if_neg hj, Db.setSession_own, Db.setSession_committed, hown, hget]
  · rw [hfresh, Option.isSome_map]
    exact h.sweeps
  · intro hnone k v hk hv
    rw [hfresh, Option.map_eq_none_iff] at hnone
    obtain ⟨v₀, hk₀, hv₀⟩ := h.unswept hnone k v hk hv
    have hnot : s.own i k = none := Db.own_eq_none_of_own (by simp [hk]) (Ne.symm hj)
    refine ⟨v₀, ?_, hv₀⟩
    unfold Db.visible Own.over
    rw [hnot]
    exact hk₀
  · intro l hl k v hk
    rw [hfresh, Option.map_eq_some_iff] at hl
    obtain ⟨l₀, hl₀, rfl⟩ := hl
    rcases hold : s.committed.get? k with _ | v₀
    · refine .inl (List.mem_append_left _ (mem_added (v := v) ?_ hold))
      unfold Db.visible Own.over at hk
      rcases ho : s.own i k with _ | o
      · rw [ho, Option.getD_none, hold] at hk
        cases hk
      · rw [ho] at hk
        exact congrArg some hk
    · exact (h.swept l₀ hl₀ k v₀ hold).imp_left (List.mem_append_right _)

theorem step_swept {a : Act ι A} (h : ∀ j, Swept marked s fresh j) (hs : s.step clash a = some s') (j : ι) :
    Swept marked s' (noteFresh s a s' fresh) j := by
  unfold noteFresh
  cases Db.step_went hs with
  | @select i next hw =>
    have hsweeps := (h i).sweeps
    simp only
    rw [hw] at hsweeps ⊢
    exact swept_setSession h rfl (fun _ _ => rfl) rfl (fun _ _ => rfl) ((h i).working (hsweeps _) (by rw [hw]; rfl)) j
  | @begins i f next hw =>
    simp only
    rw [hw]
    exact swept_setSession h rfl (fun _ _ => rfl) rfl (fun _ hj => Function.update_of_ne hj ..) (swept_begins (h i) hw) j
  | @fails i w next v hw _ =>
    have hsweeps := (h i).sweeps
    simp only
    rw [hw] at hsweeps ⊢
    exact swept_setSession h rfl (fun _ _ => rfl) rfl (fun _ _ => rfl)
      ((h i).working (hsweeps.2 v) (by rw [hw]; rfl)) j
  | @writes i w next o hw ho =>
    simp only
    rw [hw]
    exact swept_setSession (t := s.put i w.key o) h rfl (fun j hj => Db.own_put_of_ne (Db.attempt_ok ho).1 hj) rfl
      (fun _ _ => rfl) (swept_writes (h i) hw ho) j
  | @commits i next hw =>
    have hsweeps := (h i).sweeps
    simp only
    rw [hw] at hsweeps ⊢
    by_cases hj : j = i
    · rw [hj]
      exact swept_clean (Db.own_release_self (s.publish i) i) hsweeps (Function.update_self ..)
    · exact swept_publish (h j) hj (Function.update_of_ne hj ..)
  | @rollsBack i next hw =>
    have hsweeps := (h i).sweeps
    simp only
    rw [hw] at hsweeps ⊢
    exact swept_setSession (t := s.release i) h rfl (fun j hj => Db.own_release_of_ne s hj) rfl
      (fun _ hj => Function.update_of_ne hj ..) (swept_clean (Db.own_release_self s i) hsweeps (Function.update_self ..)) j
  | @passes i f k todo rest hw hgone =>
    simp only
    rw [hw]
    exact swept_setSession h rfl (fun _ _ => rfl) rfl (fun _ _ => rfl) (swept_passes (h i) hw hgone) j
  | @visits i f k todo rest v hw hfree _ =>
    simp only
    rw [hw]
    exact swept_setSession (t := s.put i k (some (f v))) h rfl (fun j hj => Db.own_put_of_ne hfree hj) rfl
      (fun _ _ => rfl) (swept_visits (h i) hw) j
  | @ends i f rest hw =>
    have hsweeps := (h i).sweeps
    simp only
    rw [hw] at hsweeps ⊢
    have hwork : rest.Sweeps marked (fresh i).isSome := by
      rw [hsweeps.1]
      exact hsweeps.2
    exact swept_setSession h rfl (fun _ _ => rfl) rfl (fun _ _ => rfl) ((h i).working hwork (by rw [hw]; rfl)) j
  | @elsewhere i v next hw =>
    have hsweeps := (h i).sweeps
    rw [hw] at hsweeps
    exact swept_setSession h rfl (fun _ _ => rfl) rfl (fun _ _ => rfl)
      ((h i).working (hsweeps v) (by rw [hw]; rfl)) j
  | @drops i a =>
    have hreply : (Work.reply a : Work K V A).Sweeps marked false := trivial
    exact swept_setSession (t := s.release i) h rfl (fun j hj => Db.own_release_of_ne s hj) rfl
      (fun _ hj => Function.update_of_ne hj ..) (swept_clean (Db.own_release_self s i) hreply (Function.update_self ..)) j

theorem marksSeen_written {a : Act ι A} (h : ∀ j, Swept marked s fresh j) (hone : AtMostOne marked s.committed.get?)
    (hseen : MarksSeen marked (s, fresh) a) : AtCommit (MarkWritten marked) s a := by
  unfold AtCommit
  unfold MarksSeen at hseen
  cases a with
  | go i =>
    simp only at hseen ⊢
    split
    · rename_i next hw
      rw [hw] at hseen
      rintro ⟨k, v, hk, hv⟩ k' v' hk' hv'
      have hi := h i
      rcases hfresh : fresh i with _ | l
      · obtain ⟨v₀, hk₀, hv₀⟩ := hi.unswept hfresh k v hk hv
        rw [hone k' k v' v₀ hk' hk₀ hv' hv₀, hk]
        simp
      · have hpending : ∃ e ∈ s.pending.entries, e.2.1 = i ∧ e.2.2.any marked = true := by
          unfold Db.own at hk
          rcases hp : s.pending.get? k with _ | p
          · rw [hp] at hk
            cases hk
          · rw [hp] at hk
            have hentry : p = (i, some v) := by simpa using hk
            rw [hentry] at hp
            exact ⟨(k, i, some v), Dict.get?_eq_some.mp hp, rfl, hv⟩
        have hnot := hseen hpending l hfresh (k', v') (Dict.get?_eq_some.mp hk') hv'
        have hold := hi.swept l hfresh k' v' hk'
        rw [hw] at hold
        exact (hold.resolve_left hnot).resolve_right (by simp [Session.todo])
    · trivial
  | elsewhere i v => trivial
  | drop i a => trivial

/-- At most one row is marked all through a run of such transactions where each that leaves a row
marked has begun its UPDATE of all rows behind the row that is marked at its COMMIT. -/
theorem throughout_atMostOne {t : Dict K V} {work : ι → Work K V A} {acts : List (Act ι A)}
    (hwork : ∀ i, (work i).MarksOne marked false false) (ht : AtMostOne marked t.get?)
    (hall : Along (logged (Db.step clash) noteFresh) (MarksSeen marked) (Db.initial t work, fun _ => none) acts) :
    Throughout (Db.step clash) (fun s => AtMostOne marked s.committed.get?) (Db.initial t work) acts := by
  refine throughout_of_logged (P := fun s : Db ι K V A => AtMostOne marked s.committed.get?) (I := fun s fresh =>
    InOutline (OwnOne marked) s ∧ (∀ j, Swept marked s fresh j) ∧ AtMostOne marked s.committed.get?) ?_
    (fun _ _ h => h.2.2) hall ⟨fun i => ⟨OwnNone marked, ownNone_clean, (hwork i).outline⟩, fun j => ?_, ht⟩
  · rintro s fresh a s' ⟨hin, hswept, hp⟩ hseen hs
    refine ⟨step_inOutline hin hs, step_swept hswept hs, ?_⟩
    exact (step_committed (fun _ _ => atMostOne_over) hin hp hs).mpr (marksSeen_written hswept hp hseen)
  · refine ⟨(hwork j).sweeps, ?_, ?_⟩
    · intro _ k v hk
      cases hk
    · intro l hl
      cases hl

end

end TableTxn
