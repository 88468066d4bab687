import RdpProxy.Lib.Layers
import RdpProxy.Rdp.RdpFile

/-!
# Which template decides a parameter

`build_rdp_content` and `preview_template` each merge the templates, which the database returns in any order.
-/

open Text Layers

namespace RdpProxy.Admin

open Rdp

/-- The parameters of `preview_template`. -/
def previewTemplate (templates : List RdpTemplate) (groups : List (List Char)) : Params :=
  let groupSet := (groups.filter fun v => strip v ≠ []).map fun v => lower (strip v)
  let merged := defaultRdpParams
  let merged := match templates.find? RdpTemplate.isDefault with
    | some defaultTpl => merged.merge defaultTpl.params
    | none => merged
  (templates.mergeSort fun x y => x.priority ≤ y.priority).foldl (fun merged t =>
    if t.isDefault then merged
    else
      let binds := t.groupBindings.map fun v => lower v.str
      if binds ≠ [] ∧ ¬ binds.any groupSet.contains then merged else merged.merge t.params) merged

theorem previewTemplate_eq (templates : List RdpTemplate) (groups : List (List Char)) :
    previewTemplate templates groups = mergeTemplates templates groups := by
  have hcontains : ∀ l : List (List Char), l.contains = fun v => decide (v ∈ l) :=
    fun l => funext fun v => List.contains_eq_mem v l
  unfold previewTemplate mergeTemplates
  simp only [hcontains]
  rcases templates.find? RdpTemplate.isDefault with _ | d <;> rfl

/-! ## What decides a parameter -/

/-- The template belongs to no group, or to one of these. Case does not count, and no white space around a group. -/
def Applies (t : RdpTemplate) (groups : List (List Char)) : Prop :=
  t.groupBindings = [] ∨ ∃ g ∈ t.groupBindings, ∃ v ∈ groups, lower (strip v) = lower g.str

structure Candidate (groups : List (List Char)) (key : List Char) (t : RdpTemplate) : Prop where
  ordinary : t.isDefault = false
  applies : Applies t groups
  defines : (t.params.get? key).isSome = true

/-- A template that gives the user the key, and none with a higher priority does. -/
structure Highest (templates : List RdpTemplate) (groups : List (List Char)) (key : List Char) (t : RdpTemplate) :
    Prop where
  mem : t ∈ templates
  candidate : Candidate groups key t
  above : ∀ u ∈ templates, Candidate groups key u → u.priority ≤ t.priority

/-- The value that the template puts over the defaults. -/
def ownValue (groups : List (List Char)) (key : List Char) (t : RdpTemplate) : Option ParamValue :=
  if ¬ t.isDefault ∧ (t.binds = [] ∨ t.binds.any (groupSet groups).contains) then t.params.get? key else none

section

variable {templates ts₁ ts₂ : List RdpTemplate} {groups : List (List Char)} {key : List Char} {t : RdpTemplate}

theorem lower_str_ne_nil (g : Uuid) : lower g.str ≠ [] := by
  unfold lower Uuid.str
  simp

theorem applies_iff : (t.binds = [] ∨ t.binds.any (groupSet groups).contains = true) ↔ Applies t groups := by
  unfold Applies RdpTemplate.binds groupSet
  refine or_congr List.map_eq_nil_iff ?_
  simp only [List.any_map, List.any_eq_true, Function.comp_apply, List.contains_iff_mem, decide_eq_true_eq, List.mem_map,
    List.mem_filter]
  constructor
  · rintro ⟨g, hg, v, ⟨hv, _⟩, heq⟩
    exact ⟨g, hg, v, hv, heq⟩
  · rintro ⟨g, hg, v, hv, heq⟩
    refine ⟨g, hg, v, ⟨hv, fun hblank => ?_⟩, heq⟩
    rw [hblank] at heq
    exact lower_str_ne_nil g heq.symm

theorem ownValue_of_candidate (h : Candidate groups key t) : ownValue groups key t = t.params.get? key :=
  if_pos ⟨by simp [h.ordinary], applies_iff.mpr h.applies⟩

theorem ownValue_isSome : (ownValue groups key t).isSome = true ↔ Candidate groups key t := by
  constructor
  · intro h
    unfold ownValue at h
    split_ifs at h with hplain
    · exact ⟨by simpa using hplain.1, applies_iff.mp hplain.2, h⟩
    · cases h
  · intro h
    rw [ownValue_of_candidate h]
    exact h.defines

theorem ownValue_eq_none : ownValue groups key t = none ↔ ¬ Candidate groups key t := by
  rw [← ownValue_isSome, Bool.not_eq_true, Option.isSome_eq_false_iff, Option.isNone_iff_eq_none]

theorem top_iff : Top RdpTemplate.priority (ownValue groups key) templates t ↔ Highest templates groups key t := by
  constructor
  · intro h
    exact ⟨h.mem, ownValue_isSome.mp h.some, fun u hu hc => h.highest u hu (ownValue_isSome.mpr hc)⟩
  · intro h
    exact ⟨h.mem, ownValue_isSome.mpr h.candidate, fun u hu hsome => h.above u hu (ownValue_isSome.mp hsome)⟩

theorem findSome?_filter {α β : Type} (p : α → Bool) (f : α → Option β) (l : List α) :
    (l.filter p).findSome? f = l.findSome? fun x => if p x then f x else none := by
  induction l with
  | nil => rfl
  | cons x l ih =>
    rw [List.filter_cons, List.findSome?_cons]
    split_ifs
    · rw [List.findSome?_cons, ih]
    · exact ih

/-- What the first default template has for the key. -/
def defaultValue (templates : List RdpTemplate) (key : List Char) : Option ParamValue :=
  (templates.find? RdpTemplate.isDefault).bind fun d => d.params.get? key

theorem given_applied (templates : List RdpTemplate) (groups : List (List Char)) (key : List Char) :
    given (applied templates groups) key =
      (winner RdpTemplate.priority (ownValue groups key) templates).or (defaultValue templates key) := by
  unfold given applied winner sorted defaultValue
  rw [List.reverse_append, List.findSome?_append, ← List.filter_reverse, findSome?_filter]
  congr 1
  · unfold ownValue
    simp
  · rcases templates.find? RdpTemplate.isDefault with _ | d
    · rfl
    · simp

theorem get?_preview (templates : List RdpTemplate) (groups : List (List Char)) (key : List Char) :
    (previewTemplate templates groups).get? key =
      ((winner RdpTemplate.priority (ownValue groups key) templates).or (defaultValue templates key)).or
        (defaultRdpParams.get? key) := by
  rw [previewTemplate_eq, get?_mergeTemplates, given_applied]

theorem get?_file (host port token : List Char) (hkey : key ∉ forcedKeys) :
    (mergedParams (some templates) groups host port token).get? key = (previewTemplate templates groups).get? key := by
  rw [get?_mergedParams _ _ _ _ _ hkey, get?_preview, Option.getD_some, given_applied]

/-! ## One of them highest -/

/-- The value that a key should have: that of the highest template, else of the default one, else of the schema. -/
inductive Effective (templates : List RdpTemplate) (groups : List (List Char)) (key : List Char) :
    Option ParamValue → Prop where
  | template (t : RdpTemplate) (highest : Highest templates groups key t) :
    Effective templates groups key (t.params.get? key)
  | default (d : RdpTemplate) (mem : d ∈ templates) (isDefault : d.isDefault = true)
    (defines : (d.params.get? key).isSome = true) (noTemplate : ∀ t ∈ templates, ¬ Candidate groups key t) :
    Effective templates groups key (d.params.get? key)
  | schema (noDefault : ∀ d ∈ templates, d.isDefault = true → d.params.get? key = none)
    (noTemplate : ∀ t ∈ templates, ¬ Candidate groups key t) :
    Effective templates groups key (defaultRdpParams.get? key)

theorem winner_none (h : ∀ t ∈ templates, ¬ Candidate groups key t) :
    winner RdpTemplate.priority (ownValue groups key) templates = none :=
  winner_eq_none.mpr fun t ht => ownValue_eq_none.mpr (h t ht)

theorem winner_highest (hdistinct : (templates.map RdpTemplate.priority).Nodup) (h : Highest templates groups key t) :
    winner RdpTemplate.priority (ownValue groups key) templates = t.params.get? key := by
  rw [← ownValue_of_candidate h.candidate]
  obtain ⟨v, hv⟩ := Option.isSome_iff_exists.mp (top_iff.mpr h).some
  rw [hv]
  exact (winner_eq_some hdistinct).mpr ⟨t, top_iff.mpr h, hv⟩

theorem defaultValue_of_mem (hone : (templates.filter RdpTemplate.isDefault).length ≤ 1) {d : RdpTemplate}
    (hd : d ∈ templates) (hdefault : d.isDefault = true) : defaultValue templates key = d.params.get? key := by
  unfold defaultValue
  rcases hfind : templates.find? RdpTemplate.isDefault with _ | e
  · exact absurd hdefault (List.find?_eq_none.mp hfind d hd)
  · have he : e ∈ templates.filter RdpTemplate.isDefault :=
      List.mem_filter.mpr ⟨List.mem_of_find?_eq_some hfind, List.find?_some hfind⟩
    obtain ⟨x, hx⟩ := List.length_eq_one_iff.mp (Nat.le_antisymm hone (List.length_pos_of_mem he))
    have hd' : d ∈ templates.filter RdpTemplate.isDefault := List.mem_filter.mpr ⟨hd, hdefault⟩
    rw [hx, List.mem_singleton] at he hd'
    rw [Option.bind_some, he, hd']

theorem defaultValue_none (h : ∀ d ∈ templates, d.isDefault = true → d.params.get? key = none) :
    defaultValue templates key = none := by
  unfold defaultValue
  rcases hfind : templates.find? RdpTemplate.isDefault with _ | e
  · rfl
  · exact h e (List.mem_of_find?_eq_some hfind) (List.find?_some hfind)

theorem preview_effective (hone : (templates.filter RdpTemplate.isDefault).length ≤ 1) :
    Effective templates groups key ((previewTemplate templates groups).get? key) := by
  rw [get?_preview]
  rcases hwinner : winner RdpTemplate.priority (ownValue groups key) templates with _ | v
  · have hno : ∀ t ∈ templates, ¬ Candidate groups key t :=
      fun t ht => ownValue_eq_none.mp (winner_eq_none.mp hwinner t ht)
    rw [Option.none_or]
    by_cases hdefines : ∃ d ∈ templates, d.isDefault = true ∧ (d.params.get? key).isSome = true
    · obtain ⟨d, hd, hdefault, hsome⟩ := hdefines
      rw [defaultValue_of_mem hone hd hdefault, Option.or_of_isSome hsome]
      exact .default d hd hdefault hsome hno
    · have hnone : ∀ d ∈ templates, d.isDefault = true → d.params.get? key = none := by
        intro d hd hdefault
        by_contra hsome
        exact hdefines ⟨d, hd, hdefault, Option.isSome_iff_ne_none.mpr hsome⟩
      rw [defaultValue_none hnone, Option.none_or]
      exact .schema hnone hno
  · obtain ⟨t, htop, hv⟩ := winner_top hwinner
    have hhighest := top_iff.mp htop
    rw [Option.some_or, Option.some_or, ← hv, ownValue_of_candidate hhighest.candidate]
    exact .template t hhighest

theorem Effective.preview {v : Option ParamValue} (hdistinct : (templates.map RdpTemplate.priority).Nodup)
    (hone : (templates.filter RdpTemplate.isDefault).length ≤ 1) (h : Effective templates groups key v) :
    (previewTemplate templates groups).get? key = v := by
  rw [get?_preview]
  cases h with
  | template t highest =>
    rw [winner_highest hdistinct highest, Option.or_of_isSome highest.candidate.defines,
      Option.or_of_isSome highest.candidate.defines]
  | default d mem isDefault defines noTemplate =>
    rw [winner_none noTemplate, Option.none_or, defaultValue_of_mem hone mem isDefault, Option.or_of_isSome defines]
  | schema noDefault noTemplate =>
    rw [winner_none noTemplate, Option.none_or, defaultValue_none noDefault, Option.none_or]

/-! ## Rows in any order -/

/-- The order of the rows decides neither what goes into the file nor what the preview shows. -/
def OrderIndependent (templates : List RdpTemplate) (groups : List (List Char)) : Prop :=
  ∀ ts₁ ts₂ : List RdpTemplate, ts₁.Perm templates → ts₂.Perm templates →
    (∀ host port token key, (mergedParams (some ts₁) groups host port token).get? key =
      (mergedParams (some ts₂) groups host port token).get? key) ∧
    ∀ key, (previewTemplate ts₁ groups).get? key = (previewTemplate ts₂ groups).get? key

/-- Highest templates have one value, and so have default templates where no other one decides. -/
structure Untied (templates : List RdpTemplate) (groups : List (List Char)) : Prop where
  highest : ∀ key t u, Highest templates groups key t → Highest templates groups key u →
    t.params.get? key = u.params.get? key
  default : ∀ key, (∀ t ∈ templates, ¬ Candidate groups key t) → ∀ d ∈ templates, ∀ e ∈ templates,
    d.isDefault = true → e.isDefault = true →
      (d.params.get? key).or (defaultRdpParams.get? key) = (e.params.get? key).or (defaultRdpParams.get? key)

theorem file_congr (h : ∀ key, (previewTemplate ts₁ groups).get? key = (previewTemplate ts₂ groups).get? key)
    (host port token key : List Char) : (mergedParams (some ts₁) groups host port token).get? key =
      (mergedParams (some ts₂) groups host port token).get? key := by
  by_cases hkey : key ∈ forcedKeys
  · rw [← forced_keys host port token] at hkey
    obtain ⟨e, he, rfl⟩ := List.mem_map.mp hkey
    rw [get?_mergedParams_forced _ _ _ _ _ he, get?_mergedParams_forced _ _ _ _ _ he]
  · rw [get?_file host port token hkey, get?_file host port token hkey, h]

theorem find?_default_perm (hp : ts₁.Perm ts₂) (h : ts₁.find? RdpTemplate.isDefault = none) :
    ts₂.find? RdpTemplate.isDefault = none :=
  List.find?_eq_none.mpr fun t ht => List.find?_eq_none.mp h t (hp.mem_iff.mpr ht)

theorem default_order (h : Untied templates groups) (hno : ∀ t ∈ templates, ¬ Candidate groups key t)
    (h₁ : ts₁.Perm templates) (h₂ : ts₂.Perm templates) :
    (defaultValue ts₁ key).or (defaultRdpParams.get? key) = (defaultValue ts₂ key).or (defaultRdpParams.get? key) := by
  unfold defaultValue
  rcases hd : ts₁.find? RdpTemplate.isDefault with _ | d
  · rw [find?_default_perm (h₁.trans h₂.symm) hd]
  · rcases he : ts₂.find? RdpTemplate.isDefault with _ | e
    · rw [find?_default_perm (h₂.trans h₁.symm) he] at hd
      cases hd
    · exact h.default key hno d (h₁.mem_iff.mp (List.mem_of_find?_eq_some hd)) e
        (h₂.mem_iff.mp (List.mem_of_find?_eq_some he)) (List.find?_some hd) (List.find?_some he)

theorem Untied.preview (h : Untied templates groups) (h₁ : ts₁.Perm templates) (h₂ : ts₂.Perm templates)
    (key : List Char) : (previewTemplate ts₁ groups).get? key = (previewTemplate ts₂ groups).get? key := by
  have hwinner : winner RdpTemplate.priority (ownValue groups key) ts₁ =
      winner RdpTemplate.priority (ownValue groups key) ts₂ := by
    refine winner_perm_iff.mpr (fun t u ht hu => ?_) ts₁ ts₂ h₁ h₂
    have ht' := top_iff.mp ht
    have hu' := top_iff.mp hu
    rw [ownValue_of_candidate ht'.candidate, ownValue_of_candidate hu'.candidate]
    exact h.highest key t u ht' hu'
  rw [get?_preview, get?_preview, ← hwinner]
  rcases hvalue : winner RdpTemplate.priority (ownValue groups key) ts₁ with _ | v
  · rw [Option.none_or, Option.none_or]
    refine default_order h (fun t ht => ?_) h₁ h₂
    exact ownValue_eq_none.mp (winner_eq_none.mp hvalue t (h₁.mem_iff.mpr ht))
  · rfl

theorem OrderIndependent.untied (h : OrderIndependent templates groups) : Untied templates groups := by
  constructor
  · intro key t u ht hu
    obtain ⟨l₁, hl₁, hw₁⟩ := exists_perm_winner (top_iff.mpr ht)
    obtain ⟨l₂, hl₂, hw₂⟩ := exists_perm_winner (top_iff.mpr hu)
    have hsame := (h l₁ l₂ hl₁ hl₂).2 key
    rw [get?_preview, get?_preview, hw₁, hw₂, ownValue_of_candidate ht.candidate,
      ownValue_of_candidate hu.candidate] at hsame
    rwa [Option.or_of_isSome ht.candidate.defines, Option.or_of_isSome ht.candidate.defines,
      Option.or_of_isSome hu.candidate.defines, Option.or_of_isSome hu.candidate.defines] at hsame
  · intro key hno d hd e he hdefault hdefault'
    have hfirst : ∀ x ∈ templates, x.isDefault = true → (x :: templates.erase x).Perm templates ∧
        (previewTemplate (x :: templates.erase x) groups).get? key =
          (x.params.get? key).or (defaultRdpParams.get? key) := by
      intro x hx hxdefault
      have hp : (x :: templates.erase x).Perm templates := (List.perm_cons_erase hx).symm
      refine ⟨hp, ?_⟩
      rw [get?_preview, winner_none fun t ht => hno t (hp.mem_iff.mp ht), Option.none_or]
      unfold defaultValue
      rw [List.find?_cons_of_pos hxdefault]
      rfl
    obtain ⟨hpd, hvd⟩ := hfirst d hd hdefault
    obtain ⟨hpe, hve⟩ := hfirst e he hdefault'
    rw [← hvd, ← hve]
    exact (h _ _ hpd hpe).2 key

end

/-- The rows may come in any order exactly where templates that share the highest priority for a key have one
value for it, and default templates one value for what they decide. -/
theorem orderIndependent_iff (templates : List RdpTemplate) (groups : List (List Char)) :
    OrderIndependent templates groups ↔ Untied templates groups := by
  constructor
  · exact OrderIndependent.untied
  · intro h ts₁ ts₂ h₁ h₂
    exact ⟨file_congr (h.preview h₁ h₂), h.preview h₁ h₂⟩

/-- Two templates as they are created, both with the priority that they have by default. -/
def withSound : RdpTemplate := ⟨false, 0, defaultRdpParams.merge (.ofList [("audiomode".toList, .int 0)]), []⟩

def withoutSound : RdpTemplate := ⟨false, 0, defaultRdpParams.merge (.ofList [("audiomode".toList, .int 1)]), []⟩

theorem sound_by_row_order : ¬ OrderIndependent [withSound, withoutSound] [] := by
  intro h
  have hpreview := (h _ _ (List.Perm.refl _) (List.Perm.swap withSound withoutSound [])).2 "audiomode".toList
  rw [get?_preview, get?_preview, winner_of_pairwise (by decide), winner_of_pairwise (by decide)] at hpreview
  exact absurd hpreview (by decide +kernel)

/-- With distinct priorities and one default at most, file and preview use the value of the highest template. -/
theorem highest_priority_wins {templates : List RdpTemplate} {groups : List (List Char)} {key : List Char}
    (hdistinct : (templates.map RdpTemplate.priority).Nodup)
    (hone : (templates.filter RdpTemplate.isDefault).length ≤ 1) (hkey : key ∉ forcedKeys)
    (host port token : List Char) :
    (∀ v, (mergedParams (some templates) groups host port token).get? key = v ↔ Effective templates groups key v) ∧
      (previewTemplate templates groups).get? key = (mergedParams (some templates) groups host port token).get? key := by
  rw [get?_file host port token hkey]
  refine ⟨fun v => ⟨?_, fun h => h.preview hdistinct hone⟩, rfl⟩
  rintro rfl
  exact preview_effective hone

theorem sound_on_wins :
    (∀ v, (mergedParams (some [{ withSound with priority := 1 }, withoutSound]) [] [] [] []).get? "audiomode".toList = v ↔
      Effective [{ withSound with priority := 1 }, withoutSound] [] "audiomode".toList v) ∧
    (previewTemplate [{ withSound with priority := 1 }, withoutSound] []).get? "audiomode".toList =
      (mergedParams (some [{ withSound with priority := 1 }, withoutSound]) [] [] [] []).get? "audiomode".toList :=
  highest_priority_wins (by decide) (by decide) (by decide) [] [] []

end RdpProxy.Admin
