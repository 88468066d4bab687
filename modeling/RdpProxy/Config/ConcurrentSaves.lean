import RdpProxy.Config.SettingsManager
import RdpProxy.Lib.UnitOfWork
import Mathlib.Data.List.Induction

/-!
# Saves at the same time

`save` and the seeding as units of work on one table, by any number of processes. Each
reads the row, merges in memory, and writes the whole value with its COMMIT.
-/

open Steps UnitOfWork

namespace RdpProxy.Config

variable {V : Type}

/-! ## What a writer commits -/

/-- A value that is what has been read needs no statement. -/
inductive Statement where
  | insert
  | update
  | keep
  deriving DecidableEq

structure Write (V : Type) where
  key : String
  statement : Statement
  /-- What it has been asked to store. -/
  fields : Setting V
  /-- The fields that it sets in the row. -/
  own : Setting V
  /-- The fields that it takes over from the row that it has read. -/
  kept : Setting V
  value : Setting V
  fromSave : Bool
  value_get? : ∀ f, value.get? f = (own.get? f).or (kept.get? f)

def ownFields (key : String) (stored : Setting V) : Option (RowValue V) → Setting V
  | some .other => stored
  | _ => dropListenPort key stored stored

def keptFields (key : String) (stored : Setting V) : Option (RowValue V) → Setting V
  | some (.dict d) => dropListenPort key stored d
  | _ => .empty

theorem savedRow_get? (key : String) (stored : Setting V) (row : Option (RowValue V)) (f : String) :
    (savedRow key stored row).get? f =
      ((ownFields key stored row).get? f).or ((keptFields key stored row).get? f) := by
  unfold savedRow ownFields keptFields
  rcases row with _ | d | _
  · simp
  · unfold dropListenPort
    simp only
    split_ifs
    · simp only [Dict.get?_pop, Dict.get?_merge]
      split_ifs <;> rfl
    · simp
  · simp

/-! ## The table -/

structure SettingsTable (V : Type) where
  rows : String → Option (RowValue V)
  /-- The saves that have committed, in their order. -/
  saved : List (Write V)

/-- The saves that have committed when this write has. -/
def Write.savedBy (w : Write V) (t : SettingsTable V) : List (Write V) := if w.fromSave then t.saved ++ [w] else t.saved

def settingsServer : Server (SettingsTable V) (Write V) where
  verdict w t :=
    match w.statement, t.rows w.key with
    | .insert, some _ => .refused
    | .update, none => .missed
    | _, _ => .done
  apply w t :=
    { rows := if w.statement = .keep then t.rows else Function.update t.rows w.key (some (.dict w.value))
      saved := w.savedBy t }
  conflicts w w' := w.key = w'.key && w.statement ≠ .keep && w'.statement ≠ .keep

/-! ## No field is lost -/

/-- Just one of the committed saves of the key has set the field, to `x`. -/
def SetOnce (saved : List (Write V)) (key f : String) (x : V) : Prop :=
  ∃ (i : Nat) (w : Write V), saved[i]? = some w ∧ w.key = key ∧ w.fields.get? f = some x ∧
    ∀ (j : Nat) (w' : Write V), j ≠ i → saved[j]? = some w' → w'.key = key → w'.fields.get? f = none

def SettingsTable.Holds (t : SettingsTable V) (key f : String) (x : V) : Prop :=
  ∃ d, t.rows key = some (.dict d) ∧ d.get? f = some x

/-- Every field that a committed save has set is in the row, unless another save has set it too. -/
def NoFieldLost (t : SettingsTable V) : Prop := ∀ key f x, SetOnce t.saved key f x → t.Holds key f x

section

variable {t : SettingsTable V} {w : Write V} {saved later : List (Write V)} {key f : String} {x : V}

theorem SetOnce.concat (h : SetOnce (saved ++ [w]) key f x) :
    w.key = key ∧ w.fields.get? f = some x ∨
      SetOnce saved key f x ∧ (w.key = key → w.fields.get? f = none) := by
  obtain ⟨i, c, hi, hc, hf, halone⟩ := h
  by_cases hlast : i = saved.length
  · rw [hlast, List.getElem?_concat_length] at hi
    cases hi
    exact Or.inl ⟨hc, hf⟩
  · have hlt : i < saved.length := by
      obtain ⟨hlt, _⟩ := List.getElem?_eq_some_iff.mp hi
      simp only [List.length_append, List.length_cons, List.length_nil] at hlt
      omega
    rw [List.getElem?_append_left hlt] at hi
    refine Or.inr ⟨⟨i, c, hi, hc, hf, ?_⟩, ?_⟩
    · intro j c' hj hc'
      refine halone j c' hj ?_
      obtain ⟨hlt', _⟩ := List.getElem?_eq_some_iff.mp hc'
      rw [List.getElem?_append_left hlt']
      exact hc'
    · exact halone saved.length w (Ne.symm hlast) List.getElem?_concat_length

theorem SetOnce.append (h : SetOnce (saved ++ later) key f x) :
    SetOnce saved key f x ∨ ∃ w ∈ later, w.key = key ∧ w.fields.get? f = some x := by
  induction later using List.reverseRecOn with
  | nil =>
    rw [List.append_nil] at h
    exact Or.inl h
  | append_singleton later w ih =>
    rw [← List.append_assoc] at h
    rcases h.concat with ⟨hkey, hf⟩ | ⟨hset, _⟩
    · exact Or.inr ⟨w, by simp, hkey, hf⟩
    · exact (ih hset).imp_right fun ⟨w', hmem, hset⟩ => ⟨w', List.mem_append_left _ hmem, hset⟩

theorem SetOnce.of_savedBy (h : SetOnce (w.savedBy t) key f x) (hkey : w.key ≠ key) : SetOnce t.saved key f x := by
  unfold Write.savedBy at h
  split_ifs at h
  · rcases h.concat with ⟨hc, _⟩ | ⟨hset, _⟩
    · exact absurd hc hkey
    · exact hset
  · exact h

theorem SetOnce.mem (h : SetOnce saved key f x) : ∃ w ∈ saved, w.key = key ∧ w.fields.get? f = some x := by
  obtain ⟨i, w, hi, hkey, hf, _⟩ := h
  exact ⟨w, List.mem_of_getElem? hi, hkey, hf⟩

theorem apply_rows_self (hw : w.statement ≠ .keep) : (settingsServer.apply w t).rows w.key = some (.dict w.value) := by
  show (if w.statement = .keep then t.rows else Function.update t.rows w.key (some (.dict w.value))) w.key = _
  rw [if_neg hw]
  exact Function.update_self ..

theorem apply_rows_of_ne (hkey : w.key ≠ key) : (settingsServer.apply w t).rows key = t.rows key := by
  show (if w.statement = .keep then t.rows else Function.update t.rows w.key (some (.dict w.value))) key = _
  split_ifs
  · rfl
  · exact Function.update_of_ne (Ne.symm hkey) ..

theorem apply_rows_of_keep (hw : w.statement = .keep) : (settingsServer.apply w t).rows = t.rows := if_pos hw

theorem apply_saved (w : Write V) (t : SettingsTable V) : (settingsServer.apply w t).saved = w.savedBy t := rfl

theorem apply_noFieldLost (h : NoFieldLost t)
    (hvalue : ∀ f x, SetOnce (w.savedBy t) w.key f x →
      if w.statement = .keep then t.Holds w.key f x else w.value.get? f = some x) :
    NoFieldLost (settingsServer.apply w t) := by
  intro key f x hset
  rw [apply_saved] at hset
  by_cases hkey : w.key = key
  · subst hkey
    have hf := hvalue f x hset
    unfold SettingsTable.Holds at hf ⊢
    split_ifs at hf with hkeep
    · rw [apply_rows_of_keep hkeep]
      exact hf
    · exact ⟨w.value, apply_rows_self hkeep, hf⟩
  · obtain ⟨d, hd, hf⟩ := h key f x (hset.of_savedBy hkey)
    exact ⟨d, (apply_rows_of_ne hkey).trans hd, hf⟩

end

/-! ## What has committed since the row was read -/

/-- The saves of the key that have committed since this write's row was read have set no other
fields than it sets itself, and where it writes nothing no row of the key has been written since. -/
def Write.ReadInTime (w : Write V) (r : Reading (SettingsTable V) (Write V)) : Prop :=
  ∀ e ∈ r.since, e.1.key = w.key →
    if w.statement = .keep then e.1.statement = .keep
    else e.1.fromSave = true → ∀ f ∈ e.1.fields.keys, w.own.has f = true

/-- A save that sets `public_port` takes no `listen_port` away that a save has set. -/
def Write.SparesPort (w : Write V) (t : SettingsTable V) : Prop :=
  w.key = "proxy" → w.fields.has "public_port" = true →
    ∀ w' ∈ w.savedBy t, w'.key = "proxy" → w'.fields.has "listen_port" = false

/-- The seeding sets no field that a save has set. -/
def Write.SparesSaved (w : Write V) (t : SettingsTable V) : Prop :=
  ∀ w' ∈ t.saved, w'.key = w.key → ∀ f ∈ w'.fields.keys, w.own.has f = false

def Write.Apart (w : Write V) (r : Reading (SettingsTable V) (Write V)) (t : SettingsTable V) : Prop :=
  if w.fromSave then w.ReadInTime r ∧ w.SparesPort t
  else w.statement ≠ .keep → w.ReadInTime r ∧ w.SparesSaved t

instance (w : Write V) (r : Reading (SettingsTable V) (Write V)) : Decidable (w.ReadInTime r) := by
  unfold Write.ReadInTime
  infer_instance

instance (w : Write V) (r : Reading (SettingsTable V) (Write V)) (t : SettingsTable V) : Decidable (w.Apart r t) := by
  unfold Write.Apart Write.SparesPort Write.SparesSaved
  infer_instance

/-- How the tables have come from those that were read. -/
structure Since (r : Reading (SettingsTable V) (Write V)) (t : SettingsTable V) : Prop where
  noFieldLost : NoFieldLost r.table
  saved : t.saved = r.table.saved ++ ((r.since.map Prod.fst).filter Write.fromSave).reverse
  rows : ∀ key, (∀ e ∈ r.since, e.1.key = key → e.1.statement = .keep) → t.rows key = r.table.rows key

theorem since_initial {t : SettingsTable V} (h : NoFieldLost t) : Since (.initial t) t :=
  ⟨h, (List.append_nil _).symm, fun _ _ => rfl⟩

theorem since_apply (w : Write V) {r : Reading (SettingsTable V) (Write V)} {t : SettingsTable V} (h : Since r t) :
    Since ⟨r.table, (w, t) :: r.since⟩ (settingsServer.apply w t) := by
  refine ⟨h.noFieldLost, ?_, ?_⟩
  · rw [apply_saved, Write.savedBy, h.saved]
    simp only [List.map_cons, List.filter_cons]
    split_ifs
    · rw [List.reverse_cons, List.append_assoc]
    · rfl
  · intro key hkeep
    have hrows := h.rows key fun e he => hkeep e (List.mem_cons_of_mem _ he)
    by_cases hkey : w.key = key
    · rw [apply_rows_of_keep (hkeep (w, t) List.mem_cons_self hkey), hrows]
    · rw [apply_rows_of_ne hkey, hrows]

theorem Since.setOnce {r : Reading (SettingsTable V) (Write V)} {t : SettingsTable V} (h : Since r t)
    {key f : String} {x : V} (hset : SetOnce t.saved key f x) :
    r.table.Holds key f x ∨ ∃ e ∈ r.since, e.1.key = key ∧ e.1.fromSave = true ∧ f ∈ e.1.fields.keys := by
  rw [h.saved] at hset
  refine hset.append.imp (h.noFieldLost key f x) ?_
  rintro ⟨w, hw, hkey, hf⟩
  rw [List.mem_reverse, List.mem_filter, List.mem_map] at hw
  obtain ⟨⟨e, he, rfl⟩, hsave⟩ := hw
  exact ⟨e, he, hkey, hsave, Dict.mem_keys.mpr (Dict.has_iff.mpr ⟨x, hf⟩)⟩

/-! ## The writers -/

section

variable [DecidableEq V]

/-- The COMMIT of a `save` that has read `row`. -/
def saveWrite (key : String) (stored : Setting V) (row : Option (RowValue V)) : Write V where
  key := key
  statement :=
    match row with
    | none => .insert
    | some r => if r = .dict (savedRow key stored row) then .keep else .update
  fields := stored
  own := ownFields key stored row
  kept := keptFields key stored row
  value := savedRow key stored row
  fromSave := true
  value_get? := savedRow_get? key stored row

/-- The COMMIT of the seeding of a key, where there is one. -/
def seedWrite (base : AppConfig V) (vals : Values V) (cipher : V) (key : String) (cached : Option (Setting V))
    (row : Option (RowValue V)) : Option (Write V) :=
  match base.getFallback vals key with
  | none => none
  | some fallback =>
    if fallback.entries.isEmpty then none
    else
      match cached, row with
      | none, none =>
        some ⟨key, .insert, storeValue vals key fallback cipher, storeValue vals key fallback cipher, .empty,
          storeValue vals key fallback cipher, false, by simp⟩
      | none, some _ => none
      | some cached, some (.dict d) =>
        if (missing key fallback cached).entries.isEmpty then none
        else
          some ⟨key, if d.merge (missing key fallback cached) = d then .keep else .update, missing key fallback cached,
            missing key fallback cached, d, d.merge (missing key fallback cached), false, by simp⟩
      | some _, _ => none

theorem seedWrite_value (base : AppConfig V) (vals : Values V) (cipher : V) (key : String)
    (cached : Option (Setting V)) (row : Option (RowValue V)) :
    (seedWrite base vals cipher key cached row).map Write.value = seedValue base vals cipher key cached row := by
  unfold seedWrite seedValue
  rcases base.getFallback vals key with _ | fallback
  · rfl
  · simp only
    split_ifs
    · rfl
    · rcases cached with _ | cached
      · rcases row with _ | _ <;> rfl
      · rcases row with _ | d | _
        · rfl
        · simp only
          split_ifs <;> rfl
        · rfl

/-! ## The calls -/

structure SaveCall (V : Type) where
  key : String
  value : Setting V
  /-- What `_encrypt_password` gives, where it is called. -/
  cipher : V

def SaveCall.stored (vals : Values V) (c : SaveCall V) : Setting V := storeValue vals c.key c.value c.cipher

inductive Answer where
  | returned
  | raised
  deriving DecidableEq

abbrev SettingsWork (V : Type) := Work (SettingsTable V) (Write V) Answer

/-- One `save`, and what its caller does next. -/
def saveWork (vals : Values V) (c : SaveCall V) (next : SettingsWork V) : SettingsWork V :=
  .read fun t => .write (saveWrite c.key (c.stored vals) (t.rows c.key)) fun verdict =>
    if verdict = .done then next else .reply .raised

/-- `put_settings` awaits one `save` after the other. -/
def putWork (vals : Values V) : List (SaveCall V) → SettingsWork V
  | [] => .reply .returned
  | c :: rest => saveWork vals c (putWork vals rest)

/-- The loop of `_seed_from_yaml`, where the cache holds `cached` when it comes to a key. An exception
is logged and the loop goes on. -/
def seedWork (base : AppConfig V) (vals : Values V) (ciphers : String → V) (cached : String → Option (Setting V)) :
    List String → SettingsWork V
  | [] => .reply .returned
  | key :: rest =>
    .read fun t =>
      match seedWrite base vals (ciphers key) key (cached key) (t.rows key) with
      | none => seedWork base vals ciphers cached rest
      | some w => .write w fun _ => seedWork base vals ciphers cached rest

inductive SettingsCall (V : Type) where
  | put (saves : List (SaveCall V))
  | seed (ciphers : String → V) (cached : String → Option (Setting V))

def SettingsCall.work (base : AppConfig V) (vals : Values V) : SettingsCall V → SettingsWork V
  | .put saves => putWork vals saves
  | .seed ciphers cached => seedWork base vals ciphers cached managedKeys

/-- A `save` with nobody else at the table leaves the row that `Settings.save` leaves. -/
theorem saveWork_alone (vals : Values V) (c : SaveCall V) (t : SettingsTable V) :
    ((saveWork vals c (.reply .returned)).alone settingsServer t).1 = .returned ∧
      ((saveWork vals c (.reply .returned)).alone settingsServer t).2.rows c.key =
        some (.dict (savedRow c.key (c.stored vals) (t.rows c.key))) := by
  have hdone : settingsServer.verdict (saveWrite c.key (c.stored vals) (t.rows c.key)) t = .done := by
    show (match (saveWrite c.key (c.stored vals) (t.rows c.key)).statement, t.rows c.key with
      | .insert, some _ => Verdict.refused
      | .update, none => .missed
      | _, _ => .done) = .done
    unfold saveWrite
    rcases t.rows c.key with _ | r
    · rfl
    · simp only
      split_ifs <;> rfl
  unfold saveWork Work.alone Work.alone
  rw [hdone]
  refine ⟨rfl, ?_⟩
  show (if (saveWrite c.key (c.stored vals) (t.rows c.key)).statement = .keep then t.rows
    else Function.update t.rows c.key _) c.key = _
  split_ifs with hkeep
  · unfold saveWrite at hkeep
    rcases hrow : t.rows c.key with _ | r
    · rw [hrow] at hkeep
      simp at hkeep
    · rw [hrow] at hkeep
      simp only [ite_eq_left_iff, reduceCtorEq, imp_false, not_not] at hkeep
      rw [← hkeep]
  · exact Function.update_self ..

/-! ## No field of a save is lost -/

section

variable {t : SettingsTable V} {r : Reading (SettingsTable V) (Write V)} {f : String} {x : V}

omit [DecidableEq V] in
theorem keptFields_of_holds {key : String} {stored : Setting V} (h : t.Holds key f x)
    (hport : key = "proxy" → stored.has "public_port" = true → f ≠ "listen_port") :
    (keptFields key stored (t.rows key)).get? f = some x := by
  obtain ⟨d, hd, hf⟩ := h
  rw [hd]
  show (dropListenPort key stored d).get? f = some x
  unfold dropListenPort
  split_ifs with hdrop
  · rw [Dict.get?_pop, if_neg (hport hdrop.1 hdrop.2), hf]
  · exact hf

omit [DecidableEq V] in
theorem ownFields_get? {key : String} {stored : Setting V} (row : Option (RowValue V))
    (hport : key = "proxy" → stored.has "public_port" = true → f ≠ "listen_port") :
    (ownFields key stored row).get? f = stored.get? f := by
  have hdrop : (dropListenPort key stored stored).get? f = stored.get? f := by
    unfold dropListenPort
    split_ifs with hdrop
    · rw [Dict.get?_pop, if_neg (hport hdrop.1 hdrop.2)]
    · rfl
  unfold ownFields
  rcases row with _ | _ | _
  · exact hdrop
  · exact hdrop
  · rfl

theorem saveWrite_keeps {key : String} {stored : Setting V} {row : Option (RowValue V)}
    (h : (saveWrite key stored row).statement = .keep) : row = some (.dict (savedRow key stored row)) := by
  unfold saveWrite at h
  rcases row with _ | r
  · simp at h
  · simp only [ite_eq_left_iff, reduceCtorEq, imp_false, not_not] at h
    exact congrArg some h

theorem saveWrite_noFieldLost (h : NoFieldLost t) (hsince : Since r t) (key : String) (stored : Setting V)
    (hread : (saveWrite key stored (r.table.rows key)).ReadInTime r)
    (hspares : (saveWrite key stored (r.table.rows key)).SparesPort t) :
    NoFieldLost (settingsServer.apply (saveWrite key stored (r.table.rows key)) t) := by
  set w := saveWrite key stored (r.table.rows key) with hw
  refine apply_noFieldLost h fun f x hset => ?_
  have hport : key = "proxy" → stored.has "public_port" = true → f ≠ "listen_port" := by
    rintro hkey hhas rfl
    obtain ⟨w', hmem, hkey', hf⟩ := hset.mem
    have hnot := hspares hkey hhas w' hmem (hkey'.trans hkey)
    rw [Dict.has_eq_false, hf] at hnot
    cases hnot
  have hown : w.own.get? f = stored.get? f := ownFields_get? (r.table.rows key) hport
  rcases SetOnce.concat hset with ⟨_, hf⟩ | ⟨hset, hnone⟩
  · have hvalue : w.value.get? f = some x := by
      rw [w.value_get? f, hown, show stored.get? f = some x from hf]
      rfl
    split_ifs with hkeep
    · refine ⟨w.value, ?_, hvalue⟩
      exact (hsince.rows key fun e he hkey => by simpa [hkeep] using hread e he hkey).trans (saveWrite_keeps hkeep)
    · exact hvalue
  · split_ifs with hkeep
    · exact h key f x hset
    · have hnotown : w.own.get? f = none := hown.trans (hnone rfl)
      rw [w.value_get? f, hnotown]
      rcases hsince.setOnce hset with hheld | ⟨e, he, hkey, hsave, hf⟩
      · exact keptFields_of_holds hheld hport
      · have hhas : w.own.has f = true := by
          have htime := hread e he hkey
          rw [if_neg hkeep] at htime
          exact htime hsave f hf
        rw [Dict.has_iff, hnotown] at hhas
        obtain ⟨_, hx⟩ := hhas
        cases hx

theorem seedWrite_some {base : AppConfig V} {vals : Values V} {cipher : V} {key : String} {cached : Option (Setting V)}
    {row : Option (RowValue V)} {w : Write V} (hw : seedWrite base vals cipher key cached row = some w) :
    w.key = key ∧ w.fromSave = false ∧ ∀ d, row = some (.dict d) → w.kept = d := by
  unfold seedWrite at hw
  rcases hfallback : base.getFallback vals key with _ | fallback
  · rw [hfallback] at hw
    cases hw
  · rw [hfallback] at hw
    simp only at hw
    split_ifs at hw
    rcases cached with _ | cached
    · rcases row with _ | _
      · cases hw
        exact ⟨rfl, rfl, fun d hd => by cases hd⟩
      · cases hw
    · rcases row with _ | d | _
      · cases hw
      · simp only at hw
        by_cases hmissing : (missing key fallback cached).entries.isEmpty = true
        · rw [if_pos hmissing] at hw
          cases hw
        · rw [if_neg hmissing] at hw
          cases hw
          exact ⟨rfl, rfl, fun d' hd => by cases hd; rfl⟩
      · cases hw

theorem seedWrite_noFieldLost (h : NoFieldLost t) (hsince : Since r t) {base : AppConfig V} {vals : Values V}
    {cipher : V} {key : String} {cached : Option (Setting V)} {w : Write V}
    (hw : seedWrite base vals cipher key cached (r.table.rows key) = some w) (hapart : w.Apart r t) :
    NoFieldLost (settingsServer.apply w t) := by
  obtain ⟨hkey, hseed, hkept⟩ := seedWrite_some hw
  unfold Write.Apart at hapart
  rw [if_neg (by simp [hseed])] at hapart
  refine apply_noFieldLost h fun f x hset => ?_
  rw [Write.savedBy, if_neg (by simp [hseed])] at hset
  split_ifs with hkeep
  · exact h w.key f x hset
  · obtain ⟨hread, hspares⟩ := hapart hkeep
    have hnotown : w.own.has f = false := by
      obtain ⟨w', hmem, hkey', hf⟩ := hset.mem
      exact hspares w' hmem hkey' f (Dict.mem_keys.mpr (Dict.has_iff.mpr ⟨x, hf⟩))
    rw [w.value_get? f, Dict.has_eq_false.mp hnotown]
    rcases hsince.setOnce hset with hheld | ⟨e, he, hkey', hsave, hf⟩
    · rw [hkey] at hheld
      obtain ⟨d, hd, hf⟩ := hheld
      rw [hkept d hd, hf]
      rfl
    · have htime := hread e he hkey'
      rw [if_neg hkeep] at htime
      rw [htime hsave f hf] at hnotown
      cases hnotown

/-! ## The calls at the same time -/

/-- The write is that of a call that has read the row in these tables. -/
def FromRow (t : SettingsTable V) (w : Write V) : Prop :=
  (∃ key stored, w = saveWrite key stored (t.rows key)) ∨
    ∃ base vals cipher key cached, seedWrite base vals cipher key cached (t.rows key) = some w

theorem putWork_outline (vals : Values V) (saves : List (SaveCall V)) (t : SettingsTable V) :
    (putWork vals saves).Outline FromRow t := by
  induction saves generalizing t with
  | nil => trivial
  | cons c rest ih =>
    refine fun t' => ⟨.inl ⟨c.key, c.stored vals, rfl⟩, fun v => ?_⟩
    cases v with
    | done => exact ih t'
    | missed => trivial
    | refused => trivial

theorem seedWork_outline (base : AppConfig V) (vals : Values V) (ciphers : String → V)
    (cached : String → Option (Setting V)) (keys : List String) (t : SettingsTable V) :
    (seedWork base vals ciphers cached keys).Outline FromRow t := by
  induction keys generalizing t with
  | nil => trivial
  | cons key rest ih =>
    intro t'
    simp only
    split
    · exact ih t'
    · rename_i w hw
      exact ⟨.inr ⟨base, vals, ciphers key, key, cached key, hw⟩, fun _ => ih t'⟩

theorem work_outline (base : AppConfig V) (vals : Values V) (call : SettingsCall V) (t : SettingsTable V) :
    (call.work base vals).Outline FromRow t := by
  cases call with
  | put saves => exact putWork_outline vals saves t
  | seed ciphers cached => exact seedWork_outline base vals ciphers cached managedKeys t

/-- No field is lost all through a run where between the read and the COMMIT of each write no
save of the key sets another field, and no write takes a field away that a save has set. -/
theorem no_field_lost {ι : Type} [DecidableEq ι] (base : AppConfig V) (vals : Values V) (call : ι → SettingsCall V)
    (rows : String → Option (RowValue V)) (acts : List (Act ι Answer))
    (hall : Along (logged (Tables.step settingsServer) note) (CommitsSafely Write.Apart)
      (.initial ⟨rows, []⟩ fun i => (call i).work base vals, fun _ => .initial ⟨rows, []⟩) acts) :
    Throughout (Tables.step settingsServer) (fun s => NoFieldLost s.committed)
      (.initial ⟨rows, []⟩ fun i => (call i).work base vals) acts := by
  refine throughout_of_commitsSafely (P := NoFieldLost) (J := FromRow) (fun t => since_initial)
    (fun w r t => since_apply w) ?_ (fun i => work_outline base vals (call i) _) ?_ hall
  · rintro w r t hlost hsince (⟨key, stored, rfl⟩ | ⟨base, vals, cipher, key, cached, hw⟩) hapart
    · exact saveWrite_noFieldLost hlost hsince key stored hapart.1 hapart.2
    · exact seedWrite_noFieldLost hlost hsince hw hapart
  · rintro key f x ⟨i, w, hi, _⟩
    cases hi

end

end

/-! ### Two saves of different fields -/

def sampleBase : AppConfig String where
  ldap := none
  dns := .empty
  publicHost := "0.0.0.0"
  publicPort := "8443"
  security := .empty
  webSessionTtl := "28800"
  webIdleTtl := "7200"
  rdpTokenTtl := "300"
  maxConnections := "0"
  idleTimeout := "0"
  maxSessionDuration := "0"

def sampleValues : Values String := ⟨id, fun v => v ≠ ""⟩

/-- Two PUTs, of one field each. -/
def sampleCalls : Bool → SettingsCall String
  | false => .put [⟨"portal", .ofList [("name", "Desk")], ""⟩]
  | true => .put [⟨"portal", .ofList [("theme", "dark")], ""⟩]

def samplePortal : String → Option (RowValue String) := fun key =>
  if key = "portal" then some (.dict (.ofList [("name", "RDP-Proxy")])) else none

def sampleTables : Tables Bool (SettingsTable String) (Write String) Answer :=
  .initial ⟨samplePortal, []⟩ fun i => (sampleCalls i).work sampleBase sampleValues

/-- Both read before either commits. -/
def overlapping : List (Act Bool Answer) := [.go false, .go true, .go false, .go false, .go true, .go true]

def inTurn : List (Act Bool Answer) := [.go false, .go false, .go false, .go true, .go true, .go true]

theorem portal_name_lost : ∃ s', run (Tables.step settingsServer) sampleTables overlapping = some s' ∧
    ¬ NoFieldLost s'.committed := by
  refine ⟨_, rfl, ?_⟩
  intro h
  obtain ⟨d, hd, hname⟩ := h "portal" "name" "Desk" ⟨0, _, rfl, rfl, rfl, by
    intro j w' hj hw'
    rcases j with _ | _ | j
    · exact absurd rfl hj
    · cases hw'
      intro _
      rfl
    · cases hw'⟩
  cases hd
  revert hname
  decide

theorem portal_saves_in_turn :
    ∃ s', run (Tables.step settingsServer) sampleTables inTurn = some s' ∧ s'.committed.saved.length = 2 ∧
      Throughout (Tables.step settingsServer) (fun s => NoFieldLost s.committed) sampleTables inTurn := by
  refine ⟨_, rfl, rfl, ?_⟩
  exact no_field_lost sampleBase sampleValues sampleCalls samplePortal inTurn (by decide +kernel)

end RdpProxy.Config
