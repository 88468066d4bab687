import RdpProxy.Lib.Dict
import RdpProxy.Lib.Text
import RdpProxy.Lib.Uuid
import Mathlib.Data.Rat.Defs

/-!
# The `.rdp` file of a user (`rdp/rdp_file.py`)

The settings are merged from the defaults and the templates, with the proxy's own on top. A line
of the file is the name of a setting, its type and its value, with colons between them.
-/

open Text

namespace RdpProxy.Rdp

/-! ## The source -/

/-- A JSON value. -/
inductive ParamValue where
  | bool (b : Bool)
  | int (n : Int)
  | float (x : Rat)
  | str (s : List Char)
  /-- `None`, a list or a dictionary, with the text that `str` makes of it. -/
  | other (text : List Char)
  deriving DecidableEq

abbrev Params := Dict (List Char) ParamValue

/-- `RDP_PARAM_SCHEMA`: the settings of each section and their defaults. -/
def RDP_PARAM_SCHEMA : List (List (String × Int)) := [
  [("screen mode id", 2), ("desktopwidth", 1920), ("desktopheight", 1080), ("session bpp", 32), ("use multimon", 0)],
  [("audiomode", 0), ("audiocapturemode", 0), ("keyboardhook", 2), ("redirectclipboard", 1), ("redirectprinters", 1),
    ("redirectdrives", 1), ("redirectsmartcards", 1)],
  [("disable wallpaper", 0), ("allow font smoothing", 1), ("allow desktop composition", 1),
    ("bitmapcachepersistenable", 1), ("autoreconnection enabled", 1)]]

def defaultRdpParams : Params := Dict.ofList (RDP_PARAM_SCHEMA.flatten.map fun p => (p.1.toList, .int p.2))

def toLine (key : List Char) : ParamValue → List Char
  | .bool b => key ++ ":i:".toList ++ intText (if b then 1 else 0)
  | .int n => key ++ ":i:".toList ++ intText n
  | .float x => key ++ ":i:".toList ++ intText (x.num.tdiv x.den)
  | .str s => key ++ ":s:".toList ++ s
  | .other text => key ++ ":s:".toList ++ text

structure RdpTemplate where
  isDefault : Bool
  priority : Nat
  params : Params
  /-- The `ad_group_guid` of each binding. -/
  groupBindings : List Uuid
  deriving DecidableEq

/-- The groups of the user, as they are compared. -/
def groupSet (userGroupGuids : List (List Char)) : List (List Char) :=
  (userGroupGuids.filter fun v => strip v ≠ []).map fun v => lower (strip v)

def RdpTemplate.binds (t : RdpTemplate) : List (List Char) := t.groupBindings.map fun g => lower g.str

/-- The settings before the proxy's own. -/
def mergeTemplates (templates : List RdpTemplate) (userGroupGuids : List (List Char)) : Params :=
  let merged := match templates.find? RdpTemplate.isDefault with
    | none => defaultRdpParams
    | some defaultTpl => defaultRdpParams.merge defaultTpl.params
  let groups := groupSet userGroupGuids
  (templates.mergeSort fun x y => x.priority ≤ y.priority).foldl (fun merged t =>
    if t.isDefault then merged
    else if t.binds ≠ [] ∧ ¬ t.binds.any (· ∈ groups) then merged
    else merged.merge t.params) merged

section

variable (dbSession : Option (List RdpTemplate)) (userGroupGuids : List (List Char))
  (proxyHost proxyPort token : List Char)

/-- The settings that no template decides. -/
def forced : List (List Char × ParamValue) := [
  ("networkautodetect".toList, .int 0),
  ("bandwidthautodetect".toList, .int 1),
  ("connection type".toList, .int 6),
  ("use redirection server name".toList, .int 0),
  ("full address".toList, .str (proxyHost ++ ':' :: proxyPort)),
  ("loadbalanceinfo".toList, .str token),
  ("negotiate security layer".toList, .int 1),
  ("enablecredsspsupport".toList, .int 0),
  ("authentication level".toList, .int 2)]

/-- `dbSession` is the table of the templates, where there is a session. -/
def mergedParams : Params :=
  let merged := match dbSession with
    | none => defaultRdpParams
    | some templates => mergeTemplates templates userGroupGuids
  merged.setAll (forced proxyHost proxyPort token)

def buildRdpContent : List Char :=
  joinLines ((mergedParams dbSession userGroupGuids proxyHost proxyPort token).entries.map fun e => toLine e.1 e.2)

end

/-! ## What is merged -/

/-- The templates that are merged, in their order. -/
def applied (templates : List RdpTemplate) (userGroupGuids : List (List Char)) : List RdpTemplate :=
  (templates.find? RdpTemplate.isDefault).toList ++
    (templates.mergeSort fun x y => x.priority ≤ y.priority).filter fun t =>
      ¬ t.isDefault ∧ (t.binds = [] ∨ t.binds.any (· ∈ groupSet userGroupGuids))

/-- What the last of the templates with the key has for it. -/
def given (templates : List RdpTemplate) (key : List Char) : Option ParamValue :=
  templates.reverse.findSome? fun t => t.params.get? key

theorem mergeTemplates_eq (templates : List RdpTemplate) (userGroupGuids : List (List Char)) :
    mergeTemplates templates userGroupGuids =
      (applied templates userGroupGuids).foldl (fun merged t => merged.merge t.params) defaultRdpParams := by
  unfold mergeTemplates applied
  rw [List.foldl_append, List.foldl_filter]
  have hround : ∀ (merged : Params) (t : RdpTemplate),
      (if t.isDefault then merged
        else if t.binds ≠ [] ∧ ¬ t.binds.any (· ∈ groupSet userGroupGuids) then merged
        else merged.merge t.params) =
      if (decide (¬ t.isDefault ∧ (t.binds = [] ∨ t.binds.any (· ∈ groupSet userGroupGuids)))) = true then
        merged.merge t.params
      else merged := by
    intro merged t
    by_cases hdefault : t.isDefault
    · simp [hdefault]
    · by_cases hbinds : t.binds = []
      · simp [hdefault, hbinds]
      · by_cases hany : t.binds.any (· ∈ groupSet userGroupGuids) <;> simp [hdefault, hbinds, hany]
  simp only [hround]
  rcases templates.find? RdpTemplate.isDefault with _ | t <;> simp only [Option.toList, List.foldl_cons, List.foldl_nil]

theorem get?_foldl_merge (templates : List RdpTemplate) (d : Params) (key : List Char) :
    (templates.foldl (fun merged t => merged.merge t.params) d).get? key = (given templates key).or (d.get? key) := by
  induction templates using List.reverseRecOn with
  | nil => rfl
  | append_singleton ts t ih =>
    unfold given at *
    rw [List.foldl_append, List.reverse_append]
    simp only [List.foldl_cons, List.foldl_nil, Dict.get?_merge, ih, List.reverse_singleton, List.singleton_append,
      List.findSome?_cons]
    rcases t.params.get? key with _ | v <;> rfl

theorem get?_mergeTemplates (templates : List RdpTemplate) (userGroupGuids : List (List Char)) (key : List Char) :
    (mergeTemplates templates userGroupGuids).get? key =
      (given (applied templates userGroupGuids) key).or (defaultRdpParams.get? key) := by
  rw [mergeTemplates_eq, get?_foldl_merge]

def forcedKeys : List (List Char) := (forced [] [] []).map Prod.fst

section

variable (dbSession : Option (List RdpTemplate)) (userGroupGuids : List (List Char))
  (proxyHost proxyPort token : List Char)

theorem forced_keys : (forced proxyHost proxyPort token).map Prod.fst = forcedKeys := rfl

theorem forcedKeys_nodup : forcedKeys.Nodup := by decide +kernel

theorem get?_mergedParams_forced {e : List Char × ParamValue} (he : e ∈ forced proxyHost proxyPort token) :
    (mergedParams dbSession userGroupGuids proxyHost proxyPort token).get? e.1 = some e.2 := by
  have hnodup : ((forced proxyHost proxyPort token).map Prod.fst).Nodup := forcedKeys_nodup
  have hfind := Dict.find?_of_mem (d := ⟨forced proxyHost proxyPort token, hnodup⟩) he
  unfold mergedParams
  rw [Dict.get?_setAll _ hnodup, hfind]
  rfl

theorem get?_mergedParams {key : List Char} (hkey : key ∉ forcedKeys) :
    (mergedParams dbSession userGroupGuids proxyHost proxyPort token).get? key =
      (given (applied (dbSession.getD []) userGroupGuids) key).or (defaultRdpParams.get? key) := by
  unfold mergedParams
  rw [Dict.get?_setAll_of_notMem _ (forced_keys proxyHost proxyPort token ▸ hkey)]
  rcases dbSession with _ | templates
  · simp [applied, given]
  · exact get?_mergeTemplates templates userGroupGuids key

end

/-! ## Lines -/

/-- The line of a setting, up to its value and in its value. -/
def ParamValue.text : ParamValue → List Char
  | .bool b => intText (if b then 1 else 0)
  | .int n => intText n
  | .float x => intText (x.num.tdiv x.den)
  | .str s => s
  | .other text => text

theorem toLine_eq (key : List Char) (v : ParamValue) :
    ∃ kind, kind ≠ '\n' ∧ toLine key v = key ++ ':' :: kind :: ':' :: v.text := by
  rcases v with b | n | x | s | text
  · exact ⟨'i', by decide, by simp [toLine, ParamValue.text]⟩
  · exact ⟨'i', by decide, by simp [toLine, ParamValue.text]⟩
  · exact ⟨'i', by decide, by simp [toLine, ParamValue.text]⟩
  · exact ⟨'s', by decide, by simp [toLine, ParamValue.text]⟩
  · exact ⟨'s', by decide, by simp [toLine, ParamValue.text]⟩

theorem newline_mem_toLine {key : List Char} {v : ParamValue} : '\n' ∈ toLine key v ↔ '\n' ∈ key ∨ '\n' ∈ v.text := by
  obtain ⟨kind, hkind, hline⟩ := toLine_eq key v
  rw [hline]
  simp [hkind.symm]

/-- A line that sets `key`. -/
def Sets (key line : List Char) : Prop := key ++ [':'] <+: line

instance (key line : List Char) : Decidable (Sets key line) := inferInstanceAs (Decidable (key ++ [':'] <+: line))

theorem sets_toLine (key : List Char) (v : ParamValue) : Sets key (toLine key v) := by
  obtain ⟨kind, -, hline⟩ := toLine_eq key v
  exact ⟨kind :: ':' :: v.text, by rw [hline]; simp⟩

/-- A name without a colon is set by the line of another key only where that key begins like such a line. -/
theorem sets_iff {name key : List Char} (hname : ':' ∉ name) (hne : key ≠ name) (v : ParamValue) :
    Sets name (toLine key v) ↔ name ++ [':'] <+: key := by
  obtain ⟨kind, -, hline⟩ := toLine_eq key v
  unfold Sets
  rw [hline]
  constructor
  · intro h
    rcases Nat.lt_or_ge name.length key.length with hlt | hle
    · exact List.prefix_of_prefix_length_le h (List.prefix_append ..) (by simpa using Nat.succ_le_of_lt hlt)
    · exfalso
      have hstart : key ++ [':'] <+: name ++ [':'] := by
        refine List.prefix_of_prefix_length_le ?_ h (by simpa using hle)
        exact ⟨kind :: ':' :: v.text, by simp⟩
      rcases List.prefix_concat_iff.mp hstart with hsame | hinside
      · exact hne (List.append_cancel_right hsame)
      · exact hname (hinside.subset (by simp))
  · intro h
    exact h.trans (List.prefix_append ..)

/-! ## The proxy's own lines -/

section

variable (dbSession : Option (List RdpTemplate)) (userGroupGuids : List (List Char))
  (proxyHost proxyPort token : List Char)

/-- Every setting has its line, and the only lines that set the proxy's own are the proxy's. -/
structure OwnLines : Prop where
  each : lines (buildRdpContent dbSession userGroupGuids proxyHost proxyPort token) =
    (mergedParams dbSession userGroupGuids proxyHost proxyPort token).entries.map fun e => toLine e.1 e.2
  own : ∀ e ∈ forced proxyHost proxyPort token,
    (lines (buildRdpContent dbSession userGroupGuids proxyHost proxyPort token)).filter (Sets e.1) = [toLine e.1 e.2]

end

/-- The line of such a setting is one line, and none of the proxy's own. -/
structure Plain (key : List Char) (v : ParamValue) : Prop where
  key_newline : '\n' ∉ key
  value_newline : '\n' ∉ v.text
  own : ∀ name ∈ forcedKeys, ¬ name ++ [':'] <+: key

theorem colon_notMem_forcedKeys : ∀ name ∈ forcedKeys, ':' ∉ name := by decide +kernel

theorem newline_notMem_forcedKeys : ∀ name ∈ forcedKeys, '\n' ∉ name := by decide +kernel

theorem default_plain {key : List Char} {v : ParamValue} (h : defaultRdpParams.get? key = some v) : Plain key v := by
  have hall : ∀ e ∈ defaultRdpParams.entries,
      '\n' ∉ e.1 ∧ ':' ∉ e.1 ∧ ∃ p ∈ RDP_PARAM_SCHEMA.flatten, e.2 = .int p.2 := by
    decide +kernel
  obtain ⟨hkey, hcolon, p, -, hvalue⟩ := hall _ (Dict.get?_eq_some.mp h)
  refine ⟨hkey, ?_, ?_⟩
  · rw [show v = .int p.2 from hvalue]
    exact newline_notMem_intText p.2
  · intro name _ hstart
    exact hcolon (hstart.subset (by simp))

section

variable {dbSession : Option (List RdpTemplate)} {userGroupGuids : List (List Char)}
  {proxyHost proxyPort token : List Char}

theorem forced_newline (hhost : '\n' ∉ proxyHost) (hport : '\n' ∉ proxyPort) (htoken : '\n' ∉ token) :
    ∀ e ∈ forced proxyHost proxyPort token, '\n' ∉ toLine e.1 e.2 := by
  intro e he
  have hname := newline_notMem_forcedKeys e.1 (forced_keys proxyHost proxyPort token ▸ List.mem_map_of_mem he)
  rw [newline_mem_toLine, not_or]
  refine ⟨hname, ?_⟩
  simp only [forced, List.mem_cons, List.not_mem_nil, or_false] at he
  rcases he with rfl | rfl | rfl | rfl | rfl | rfl | rfl | rfl | rfl
  · exact newline_notMem_intText 0
  · exact newline_notMem_intText 1
  · exact newline_notMem_intText 6
  · exact newline_notMem_intText 0
  · simp [ParamValue.text, hhost, hport]
  · exact htoken
  · exact newline_notMem_intText 1
  · exact newline_notMem_intText 0
  · exact newline_notMem_intText 2

theorem mergedParams_source {e : List Char × ParamValue}
    (he : e ∈ (mergedParams dbSession userGroupGuids proxyHost proxyPort token).entries) :
    e ∈ forced proxyHost proxyPort token ∨ e.1 ∉ forcedKeys ∧
      (given (applied (dbSession.getD []) userGroupGuids) e.1 = some e.2 ∨ defaultRdpParams.get? e.1 = some e.2) := by
  have hget := Dict.get?_eq_some.mpr he
  by_cases hkey : e.1 ∈ forcedKeys
  · left
    rw [← forced_keys proxyHost proxyPort token] at hkey
    obtain ⟨e', he', hsame⟩ := List.mem_map.mp hkey
    have hown := get?_mergedParams_forced dbSession userGroupGuids proxyHost proxyPort token he'
    rw [hsame, hget] at hown
    have heq : e' = e := Prod.ext hsame (Option.some.inj hown).symm
    exact heq ▸ he'
  · right
    rw [get?_mergedParams dbSession userGroupGuids proxyHost proxyPort token hkey] at hget
    exact ⟨hkey, (Option.or_eq_some_iff.mp hget).imp_right And.right⟩

theorem buildRdpContent_each : lines (buildRdpContent dbSession userGroupGuids proxyHost proxyPort token) =
      ((mergedParams dbSession userGroupGuids proxyHost proxyPort token).entries.map fun e => toLine e.1 e.2) ↔
    ∀ e ∈ (mergedParams dbSession userGroupGuids proxyHost proxyPort token).entries, '\n' ∉ toLine e.1 e.2 := by
  have hne : (mergedParams dbSession userGroupGuids proxyHost proxyPort token).entries ≠ [] := by
    intro hnil
    have hget := get?_mergedParams_forced dbSession userGroupGuids proxyHost proxyPort token List.mem_cons_self
    have hmem := Dict.get?_eq_some.mp hget
    rw [hnil] at hmem
    cases hmem
  unfold buildRdpContent
  rw [lines_joinLines (by simpa using hne)]
  simp only [List.mem_map, forall_exists_index, and_imp, forall_apply_eq_imp_iff₂]

theorem filter_own {d : Params} {e : List Char × ParamValue} (he : e ∈ d.entries)
    (hother : ∀ e' ∈ d.entries, e'.1 ≠ e.1 → ¬ Sets e.1 (toLine e'.1 e'.2)) :
    (d.entries.map fun e => toLine e.1 e.2).filter (Sets e.1) = [toLine e.1 e.2] := by
  have hentries : d.entries.Nodup := d.nodup.of_map
  have hfilter : d.entries.filter (fun e' => Sets e.1 (toLine e'.1 e'.2)) = d.entries.filter (· = e) := by
    refine List.filter_congr ?_
    intro e' he'
    rw [decide_eq_decide]
    constructor
    · intro hsets
      refine List.inj_on_of_nodup_map d.nodup he' he ?_
      by_contra hne
      exact hother e' he' hne hsets
    · rintro rfl
      exact sets_toLine e'.1 e'.2
  rw [List.filter_map]
  change (d.entries.filter fun e' => decide (Sets e.1 (toLine e'.1 e'.2))).map _ = _
  rw [hfilter, List.filter_eq, List.count_eq_one_of_mem hentries he]
  rfl

theorem key_of_filter_own {d : Params} {e e' : List Char × ParamValue} (he : e ∈ d.entries) (he' : e' ∈ d.entries)
    (hsets : Sets e.1 (toLine e'.1 e'.2))
    (hown : (d.entries.map fun e => toLine e.1 e.2).filter (Sets e.1) = [toLine e.1 e.2]) : e' = e := by
  have hlen := congrArg List.length hown
  rw [List.filter_map, List.length_map] at hlen
  obtain ⟨x, hx⟩ := List.length_eq_one_iff.mp hlen
  have hmem : ∀ y ∈ d.entries, Sets e.1 (toLine y.1 y.2) → y = x := by
    intro y hy hset
    have hin : y ∈ d.entries.filter fun y => decide (Sets e.1 (toLine y.1 y.2)) :=
      List.mem_filter.mpr ⟨hy, decide_eq_true hset⟩
    exact List.mem_singleton.mp (hx ▸ hin)
  rw [hmem e' he' hsets, hmem e he (sets_toLine e.1 e.2)]

theorem OwnLines.plain (h : OwnLines dbSession userGroupGuids proxyHost proxyPort token) {key : List Char}
    {v : ParamValue} (hgiven : given (applied (dbSession.getD []) userGroupGuids) key = some v)
    (hkey : key ∉ forcedKeys) : Plain key v := by
  have hget := get?_mergedParams dbSession userGroupGuids proxyHost proxyPort token hkey
  rw [hgiven] at hget
  have hmem := Dict.get?_eq_some.mp hget
  have hline := buildRdpContent_each.mp h.each _ hmem
  rw [newline_mem_toLine, not_or] at hline
  refine ⟨hline.1, hline.2, ?_⟩
  intro name hname hstart
  have hne : key ≠ name := by
    rintro rfl
    exact hkey hname
  have hsets := (sets_iff (colon_notMem_forcedKeys name hname) hne v).mpr hstart
  rw [← forced_keys proxyHost proxyPort token] at hname
  obtain ⟨e, he, rfl⟩ := List.mem_map.mp hname
  have hforced := Dict.get?_eq_some.mp (get?_mergedParams_forced dbSession userGroupGuids proxyHost proxyPort token he)
  have hown := h.own e he
  rw [h.each] at hown
  exact hne (congrArg Prod.fst (key_of_filter_own hforced hmem hsets hown))

/-- The file is as the settings are if and only if no template that applies has a setting, outside
the proxy's own, with a line break in it or a name that begins like one of the proxy's own lines. -/
theorem ownLines_iff (hhost : '\n' ∉ proxyHost) (hport : '\n' ∉ proxyPort) (htoken : '\n' ∉ token) :
    OwnLines dbSession userGroupGuids proxyHost proxyPort token ↔
      ∀ key v, given (applied (dbSession.getD []) userGroupGuids) key = some v → key ∉ forcedKeys → Plain key v := by
  constructor
  · intro h key v hgiven hkey
    exact h.plain hgiven hkey
  · intro h
    have hplain : ∀ e ∈ (mergedParams dbSession userGroupGuids proxyHost proxyPort token).entries,
        e ∈ forced proxyHost proxyPort token ∨ e.1 ∉ forcedKeys ∧ Plain e.1 e.2 := by
      intro e he
      rcases mergedParams_source he with hforced | ⟨hkey, hgiven | hdefault⟩
      · exact Or.inl hforced
      · exact Or.inr ⟨hkey, h _ _ hgiven hkey⟩
      · exact Or.inr ⟨hkey, default_plain hdefault⟩
    have heach := buildRdpContent_each.mpr fun e he => by
      rcases hplain e he with hforced | ⟨-, hplain⟩
      · exact forced_newline hhost hport htoken e hforced
      · rw [newline_mem_toLine, not_or]
        exact ⟨hplain.key_newline, hplain.value_newline⟩
    refine ⟨heach, ?_⟩
    intro e he
    rw [heach]
    have hname : e.1 ∈ forcedKeys := forced_keys proxyHost proxyPort token ▸ List.mem_map_of_mem he
    refine filter_own (Dict.get?_eq_some.mp (get?_mergedParams_forced _ _ _ _ _ he)) ?_
    intro e' he' hne hsets
    have hstart := (sets_iff (colon_notMem_forcedKeys _ hname) hne _).mp hsets
    rcases hplain e' he' with hforced | ⟨-, hplain⟩
    · have hname' : e'.1 ∈ forcedKeys := forced_keys proxyHost proxyPort token ▸ List.mem_map_of_mem hforced
      exact colon_notMem_forcedKeys _ hname' (hstart.subset (by simp))
    · exact hplain.own _ hname hstart

end

theorem ownLines_iff_example :
    OwnLines (some [⟨true, 0, Dict.ofList [("audiomode".toList, .int 2)], []⟩]) [] "rdp.example.com".toList "3389".toList
        "token".toList ↔
      ∀ key v, given (applied [⟨true, 0, Dict.ofList [("audiomode".toList, .int 2)], []⟩] []) key = some v →
        key ∉ forcedKeys → Plain key v :=
  ownLines_iff (by decide) (by decide) (by decide)

/-- A default template, as it is stored when it is created with this one parameter. Its value brings
a line of its own. -/
theorem shell_not_ownLines :
    ¬ OwnLines (some [⟨true, 0, defaultRdpParams.merge
          (Dict.ofList [("alternate shell".toList, .str "cmd.exe\nfull address:s:evil.example:3389".toList)]), []⟩])
        [] "rdp.example.com".toList "3389".toList "token".toList := by
  intro h
  have hgiven : given (applied [⟨true, 0, defaultRdpParams.merge
      (Dict.ofList [("alternate shell".toList, .str "cmd.exe\nfull address:s:evil.example:3389".toList)]), []⟩] [])
      "alternate shell".toList = some (.str "cmd.exe\nfull address:s:evil.example:3389".toList) := by
    decide +kernel
  exact (h.plain hgiven (by decide)).value_newline (by decide)

end RdpProxy.Rdp
